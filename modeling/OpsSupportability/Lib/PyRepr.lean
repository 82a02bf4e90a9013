import OpsSupportability.Lib.Text

/-! `str` of a Python list of strings: in brackets, each in quotes and with escapes. A string holds one character
    for each byte. The printed text is searched for a string that starts with a marker character. -/

namespace PyRepr

/-- A string with an apostrophe and no quotation mark stands in quotation marks. -/
def quoteOf (s : Text) : Char := if '\x27' ∈ s ∧ '\x22' ∉ s then '\x22' else '\x27'

def escape (quote c : Char) : Text :=
  if c = quote ∨ c = '\\' then ['\\', c]
  else if c = '\t' then ['\\', 't']
  else if c = '\n' then ['\\', 'n']
  else if c = '\r' then ['\\', 'r']
  else if c < ' ' ∨ '\x7f' ≤ c then ['\\', 'x', Nat.digitChar (c.toNat / 16), Nat.digitChar (c.toNat % 16)]
  else [c]

/-- The string between its quotes. -/
def escaped (s : Text) : Text := s.flatMap (escape (quoteOf s))

def repr (s : Text) : Text := quoteOf s :: escaped s ++ [quoteOf s]

def reprList (l : List Text) : Text := '[' :: ", ".toList.intercalate (l.map repr) ++ [']']

variable {c d q : Char} {s : Text} {l : List Text}

/-! ### Characters -/

/-- Printed as it is, in quotes of either kind. -/
def Plain (c : Char) : Prop := c ≠ '\\' ∧ c ≠ '\x27' ∧ c ≠ '\x22' ∧ ' ' ≤ c ∧ c < '\x7f'

instance : Decidable (Plain c) := inferInstanceAs (Decidable (_ ∧ _))

theorem quoteOf_cases (s : Text) : quoteOf s = '\x27' ∨ quoteOf s = '\x22' := by
  rw [quoteOf]
  split
  · exact Or.inr rfl
  · exact Or.inl rfl

theorem Plain.ne_quoteOf (h : Plain c) (s : Text) : c ≠ quoteOf s := by
  rcases quoteOf_cases s with hq | hq <;> rw [hq]
  · exact h.2.1
  · exact h.2.2.1

theorem Plain.escape (h : Plain c) (hq : c ≠ q) : escape q c = [c] := by
  obtain ⟨hslash, -, -, hlow, hhigh⟩ := h
  have hlow : ¬ c < ' ' := Char.not_lt.mpr hlow
  have hhigh : ¬ '\x7f' ≤ c := Char.not_le.mpr hhigh
  have hctrl (d : Char) (hd : d < ' ') : c ≠ d := by
    rintro rfl
    exact hlow hd
  rw [PyRepr.escape, if_neg (not_or.mpr ⟨hq, hslash⟩), if_neg (hctrl '\t' (by decide)), if_neg (hctrl '\n' (by decide)),
    if_neg (hctrl '\r' (by decide)), if_neg (not_or.mpr ⟨hlow, hhigh⟩)]

theorem quoteOf_append (h : ∀ c ∈ s, Plain c) (t : Text) : quoteOf (s ++ t) = quoteOf t := by
  have happ : '\x27' ∉ s := fun hmem => (h _ hmem).2.1 rfl
  have hquot : '\x22' ∉ s := fun hmem => (h _ hmem).2.2.1 rfl
  simp only [quoteOf, List.mem_append, happ, hquot, false_or]

theorem escaped_append (h : ∀ c ∈ s, Plain c) (t : Text) : escaped (s ++ t) = s ++ escaped t := by
  have hsingle : ∀ c ∈ s, escape (quoteOf t) c = [c] := fun c hc => (h c hc).escape ((h c hc).ne_quoteOf t)
  rw [escaped, quoteOf_append h, List.flatMap_append, List.flatMap_congr hsingle, List.flatMap_singleton', escaped]

theorem escaped_of_plain (h : ∀ c ∈ s, Plain c) : escaped s = s := by
  have happend := escaped_append h []
  rwa [List.append_nil, show escaped [] = [] from rfl, List.append_nil] at happend

theorem zero_le_digitChar : ∀ n < 16, '0' ≤ Nat.digitChar n := by decide

theorem digitChar_cases (n : Nat) : '0' ≤ Nat.digitChar n ∨ Nat.digitChar n = '*' := by
  by_cases hn : n < 16
  · exact Or.inl (zero_le_digitChar n hn)
  · have hne (k : Nat) (hk : k < 16) : ¬ n = k := by omega
    refine Or.inr ?_
    simp only [Nat.digitChar, hne, Nat.reduceLT, if_false]

/-- A character below the digits is in what is printed for itself at most. -/
theorem notMem_escape (hd : d < '0') (hstar : d ≠ '*') (hc : c ≠ d) : d ∉ escape q c := by
  have hhigh (e : Char) (he : '0' ≤ e) : d ≠ e := fun h => Char.not_le.mpr hd (h ▸ he)
  have hdigit (n : Nat) : d ≠ Nat.digitChar n := by
    rcases digitChar_cases n with h | h
    · exact hhigh _ h
    · exact h ▸ hstar
  rw [escape]
  split_ifs <;> simp only [List.mem_cons, List.not_mem_nil, or_false, not_or]
  · exact ⟨hhigh _ (by decide), hc.symm⟩
  · exact ⟨hhigh _ (by decide), hhigh _ (by decide)⟩
  · exact ⟨hhigh _ (by decide), hhigh _ (by decide)⟩
  · exact ⟨hhigh _ (by decide), hhigh _ (by decide)⟩
  · exact ⟨hhigh _ (by decide), hhigh _ (by decide), hdigit _, hdigit _⟩
  · exact hc.symm

theorem notMem_escaped (hd : d < '0') (hstar : d ≠ '*') (hs : d ∉ s) : d ∉ escaped s := by
  intro hmem
  obtain ⟨c, hc, hesc⟩ := List.mem_flatMap.mp hmem
  refine notMem_escape hd hstar ?_ hesc
  rintro rfl
  exact hs hc

theorem newline_notMem_escape (hq : q ≠ '\n') (c : Char) : '\n' ∉ escape q c := by
  by_cases hc : c = '\n'
  · subst hc
    rw [escape, if_neg (not_or.mpr ⟨hq.symm, by decide⟩)]
    decide
  · exact notMem_escape (by decide) (by decide) hc

/-! ### Lists -/

/-- The printed list from an element on. -/
def rest : List Text → Text
  | [] => [']']
  | [s] => repr s ++ [']']
  | s :: t :: l => repr s ++ ',' :: ' ' :: rest (t :: l)

theorem reprList_eq (l : List Text) : reprList l = '[' :: rest l := by
  suffices h : ", ".toList.intercalate (l.map repr) ++ [']'] = rest l from congrArg ('[' :: ·) h
  induction l using rest.induct with
  | case1 => rfl
  | case2 s => rw [List.map_singleton, List.intercalate_singleton, rest]
  | case3 s t l ih =>
    rw [List.map_cons] at ih
    rw [List.map_cons, List.map_cons, List.intercalate_cons_cons, List.append_assoc, List.append_assoc, ih, rest]
    rfl

theorem rest_cons (s : Text) (l : List Text) : ∃ x, rest (s :: l) = repr s ++ x := by
  cases l with
  | nil => exact ⟨_, rfl⟩
  | cons t l => exact ⟨_, rfl⟩

theorem newline_notMem_repr (s : Text) : '\n' ∉ repr s := by
  have hq : quoteOf s ≠ '\n' := by
    rcases quoteOf_cases s with hq | hq <;> rw [hq] <;> decide
  rw [repr, List.cons_append, List.mem_cons, List.mem_append, List.mem_singleton, not_or, not_or]
  refine ⟨hq.symm, ?_, hq.symm⟩
  intro hmem
  obtain ⟨c, -, hesc⟩ := List.mem_flatMap.mp hmem
  exact newline_notMem_escape hq c hesc

/-- A printed list is one line. -/
theorem newline_notMem_reprList (l : List Text) : '\n' ∉ reprList l := by
  rw [reprList_eq, List.mem_cons, not_or]
  refine ⟨by decide, ?_⟩
  induction l using rest.induct with
  | case1 => decide
  | case2 s =>
    rw [rest, List.mem_append, not_or]
    exact ⟨newline_notMem_repr s, by decide⟩
  | case3 s t l ih =>
    rw [rest, List.mem_append, List.mem_cons, List.mem_cons, not_or, not_or, not_or]
    exact ⟨newline_notMem_repr s, by decide, by decide, ih⟩

/-! ### Searching -/

section
variable {α : Type*} {a : α} {p u v : List α}

theorem cons_infix_append (h : a ∉ u) : (a :: p) <:+: u ++ v ↔ (a :: p) <:+: v := by
  induction u with
  | nil => rfl
  | cons b u ih =>
    obtain ⟨hb, hu⟩ := not_or.mp (mt List.mem_cons.mpr h)
    rw [List.cons_append, List.infix_cons_iff, List.cons_prefix_cons, ih hu]
    exact or_iff_right fun hstarts => hb hstarts.1

theorem prefix_append_cons (h : a ∉ p) : p <+: u ++ a :: v ↔ p <+: u := by
  induction u generalizing p with
  | nil =>
    cases p with
    | nil => exact iff_of_true List.nil_prefix List.nil_prefix
    | cons b p =>
      refine iff_of_false (fun hstarts => h ?_) fun hstarts => nomatch List.prefix_nil.mp hstarts
      exact (List.cons_prefix_cons.mp hstarts).1 ▸ List.mem_cons_self
  | cons b u ih =>
    cases p with
    | nil => exact iff_of_true List.nil_prefix List.nil_prefix
    | cons c p => rw [List.cons_append, List.cons_prefix_cons, List.cons_prefix_cons, ih fun hmem => h (List.mem_cons_of_mem _ hmem)]

end

end PyRepr
