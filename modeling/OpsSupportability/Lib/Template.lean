import OpsSupportability.Lib.Text

/-! Texts with holes: a hole is a name in braces. Replacing the holes of one name after the other, by
    rewriting the leftmost occurrence until none is left or by one pass from left to right, is the
    simultaneous substitution, as long as no name and no value has a brace. -/

namespace Template

inductive Segment where
  | char (c : Char)
  | hole (name : Text)
  deriving DecidableEq

def braced (name : Text) : Text := '{' :: name ++ ['}']

theorem length_braced (name : Text) : (braced name).length = name.length + 2 := by simp [braced]

theorem braced_ne_nil (name : Text) : braced name ≠ [] := List.cons_ne_nil _ _

def BraceFree (s : Text) : Prop := '{' ∉ s ∧ '}' ∉ s

instance {s : Text} : Decidable (BraceFree s) := inferInstanceAs (Decidable ('{' ∉ s ∧ '}' ∉ s))

namespace Segment

def text : Segment → Text
  | char c => [c]
  | hole name => braced name

def WellFormed : Segment → Prop
  | char c => c ≠ '{'
  | hole name => BraceFree name

instance : DecidablePred WellFormed
  | char _ => inferInstanceAs (Decidable (_ ≠ _))
  | hole name => inferInstanceAs (Decidable (BraceFree name))

def subst (key value : Text) : Segment → List Segment
  | char c => [char c]
  | hole name => if name = key then value.map char else [hole name]

def fill (values : Text → Option Text) : Segment → Text
  | char c => [c]
  | hole name => (values name).getD (braced name)

end Segment

def text (segments : List Segment) : Text := segments.flatMap Segment.text

/-- The holes of one name become characters. -/
def subst (key value : Text) (segments : List Segment) : List Segment := segments.flatMap (Segment.subst key value)

/-- All holes that have a value are filled at once. -/
def fill (values : Text → Option Text) (segments : List Segment) : Text := segments.flatMap (Segment.fill values)

/-- The walk of `parse`, with the name of the open hole. -/
def parseFrom : Option Text → Text → List Segment
  | none, [] => []
  | none, c :: s => if c = '{' then parseFrom (some []) s else .char c :: parseFrom none s
  | some name, [] => ('{' :: name).map .char
  | some name, c :: s => if c = '}' then .hole name :: parseFrom none s else parseFrom (some (name ++ [c])) s

def parse (s : Text) : List Segment := parseFrom none s

/-- The simultaneous substitution of all names that have a value. -/
def expand (values : Text → Option Text) (s : Text) : Text := fill values (parse s)

/-- A non-empty name without braces, then a closing brace. -/
def Closes (s : Text) : Prop := ∃ name rest, s = name ++ '}' :: rest ∧ name ≠ [] ∧ BraceFree name

/-- Each opening brace is followed by a non-empty name without braces and a closing one. -/
def WellBraced (s : Text) : Prop := ∀ pre post, s = pre ++ '{' :: post → Closes post

section
variable {key value name s rest : Text} {segments pre post : List Segment} {pairs : List (Text × Text)}

/-! ### Parsing -/

theorem text_parseFrom (s : Text) : ∀ hole : Option Text,
    text (parseFrom hole s) = (match hole with
      | none => s
      | some name => '{' :: name ++ s) := by
  induction s with
  | nil =>
    intro hole
    cases hole with
    | none => rfl
    | some name => simp [parseFrom, text, List.flatMap_map, Segment.text]
  | cons c s ih =>
    intro hole
    cases hole with
    | none =>
      by_cases hc : c = '{'
      · simpa [parseFrom, hc] using ih (some [])
      · simpa [parseFrom, hc, text, Segment.text] using ih none
    | some name =>
      by_cases hc : c = '}'
      · simpa [parseFrom, hc, text, Segment.text, braced] using ih none
      · simpa [parseFrom, hc] using ih (some (name ++ [c]))

@[simp] theorem text_parse (s : Text) : text (parse s) = s := text_parseFrom s none

theorem parseFrom_hole (hname : '}' ∉ name) (before : Text) :
    parseFrom (some before) (name ++ '}' :: rest) = .hole (before ++ name) :: parseFrom none rest := by
  induction name generalizing before with
  | nil => simp [parseFrom]
  | cons c name ih =>
    obtain ⟨hc, hname⟩ := not_or.mp (fun h => hname (List.mem_cons.mpr h))
    simpa [parseFrom, Ne.symm hc] using ih hname (before ++ [c])

theorem wellBraced_cons {c : Char} : WellBraced (c :: s) ↔ (c = '{' → Closes s) ∧ WellBraced s := by
  constructor
  · intro h
    exact ⟨fun hc => h [] s (by rw [hc]; rfl), fun pre post heq => h (c :: pre) post (by rw [heq]; rfl)⟩
  · rintro ⟨hhead, htail⟩ pre post heq
    cases pre with
    | nil =>
      obtain ⟨rfl, rfl⟩ := List.cons.inj heq
      exact hhead rfl
    | cons x pre => exact htail pre post (List.cons.inj heq).2

theorem closes_iff : Closes s ↔
    '}' ∈ s ∧ s.takeWhile (· != '}') ≠ [] ∧ '{' ∉ s.takeWhile (· != '}') := by
  constructor
  · rintro ⟨name, rest, rfl, hne, hfree⟩
    have hall : ∀ c ∈ name, (c != '}') = true := fun c hc => bne_iff_ne.mpr fun heq => hfree.2 (heq ▸ hc)
    have hname : (name ++ '}' :: rest).takeWhile (· != '}') = name := by
      rw [List.takeWhile_append_of_pos hall]
      simp
    rw [hname]
    exact ⟨by simp, hne, hfree.1⟩
  · rintro ⟨hclose, hne, hopen⟩
    obtain ⟨name, rest, rfl, hname⟩ := List.eq_append_cons_of_mem hclose
    have hall : ∀ c ∈ name, (c != '}') = true := fun c hc => bne_iff_ne.mpr fun heq => hname (heq ▸ hc)
    rw [List.takeWhile_append_of_pos hall] at hne hopen
    exact ⟨name, rest, rfl, by simpa using hne, by simpa using hopen, hname⟩

instance : Decidable (Closes s) := decidable_of_iff _ closes_iff.symm

instance decidableWellBraced : ∀ s, Decidable (WellBraced s)
  | [] => isTrue fun pre post heq => by cases pre <;> cases heq
  | _ :: s =>
    have := decidableWellBraced s
    decidable_of_iff _ wellBraced_cons.symm

theorem WellBraced.of_append {a b : Text} (h : WellBraced (a ++ b)) : WellBraced b := fun pre post heq =>
  h (a ++ pre) post (by rw [heq, List.append_assoc])

theorem WellBraced.wellFormed (h : WellBraced s) : ∀ seg ∈ parse s, seg.WellFormed := by
  induction hn : s.length using Nat.strong_induction_on generalizing s with
  | _ n ih =>
    cases s with
    | nil => simp [parse, parseFrom]
    | cons c s =>
      by_cases hc : c = '{'
      · subst hc
        obtain ⟨name, rest, rfl, -, hfree⟩ := h [] s rfl
        have hparse : parse ('{' :: (name ++ '}' :: rest)) = .hole name :: parse rest := by
          simpa [parse, parseFrom] using parseFrom_hole hfree.2 []
        rw [hparse, List.forall_mem_cons]
        have hrest : WellBraced rest := WellBraced.of_append (a := '{' :: (name ++ ['}'])) (by simpa using h)
        exact ⟨hfree, ih rest.length (by simp [← hn]; omega) hrest rfl⟩
      · have hparse : parse (c :: s) = .char c :: parse s := by simp [parse, parseFrom, hc]
        rw [hparse, List.forall_mem_cons]
        exact ⟨hc, ih s.length (by simp [← hn]) (WellBraced.of_append (a := [c]) h) rfl⟩

/-! ### Finding a hole -/

variable (rest) in
theorem prefix_braced (hk : BraceFree key) (hn : BraceFree name) : braced key <+: braced name ++ rest ↔ key = name := by
  constructor
  · rintro ⟨t, ht⟩
    have hcut : ∀ (a b : Text), '}' ∉ a → (a ++ '}' :: b).takeWhile (· != '}') = a := fun a b ha => by
      have hall : ∀ c ∈ a, (c != '}') = true := fun c hc => bne_iff_ne.mpr fun heq => ha (heq ▸ hc)
      rw [List.takeWhile_append_of_pos hall]
      simp
    have heq : key ++ '}' :: t = name ++ '}' :: rest := by simpa [braced] using ht
    have := congrArg (List.takeWhile (· != '}')) heq
    rwa [hcut _ _ hk.2, hcut _ _ hn.2] at this
  · rintro rfl
    exact List.prefix_append _ _

/-- Before a text without opening braces no hole is found. -/
theorem cutFirst_skip (hs : '{' ∉ s) :
    Text.cutFirst (braced key) (s ++ rest) = (Text.cutFirst (braced key) rest).map fun r => (s ++ r.1, r.2) := by
  induction s with
  | nil => simp
  | cons c s ih =>
    obtain ⟨hc, hs⟩ := not_or.mp (fun h => hs (List.mem_cons.mpr h))
    have hno : ¬ (braced key).isPrefixOf (c :: (s ++ rest)) = true := by
      simp [braced, hc]
    rw [List.cons_append, Text.cutFirst, if_neg hno, ih hs, Option.map_map]
    rfl

/-- A hole of another name is passed over. -/
theorem cutFirst_other (hk : BraceFree key) (hn : BraceFree name) (hne : key ≠ name) :
    Text.cutFirst (braced key) (braced name ++ rest) =
      (Text.cutFirst (braced key) rest).map fun r => (braced name ++ r.1, r.2) := by
  have hno : ¬ (braced key).isPrefixOf (braced name ++ rest) = true := by
    rw [List.isPrefixOf_iff_prefix, prefix_braced _ hk hn]
    exact hne
  have hinside : '{' ∉ name ++ ['}'] := by simp [hn.1]
  have hcons : braced name ++ rest = '{' :: (name ++ ['}'] ++ rest) := by simp [braced]
  rw [hcons] at hno
  rw [hcons, Text.cutFirst, if_neg hno, cutFirst_skip hinside, Option.map_map]
  rfl

theorem cutFirst_char {c : Char} (hc : c ≠ '{') :
    Text.cutFirst (braced key) (c :: rest) = (Text.cutFirst (braced key) rest).map fun r => (c :: r.1, r.2) :=
  cutFirst_skip (s := [c]) (by simpa using Ne.symm hc)

theorem text_cons (seg : Segment) (segments : List Segment) : text (seg :: segments) = seg.text ++ text segments := rfl

theorem text_append (a b : List Segment) : text (a ++ b) = text a ++ text b := List.flatMap_append

theorem cutFirst_absent (hk : BraceFree key) (wf : ∀ seg ∈ segments, seg.WellFormed) (h : Segment.hole key ∉ segments) :
    Text.cutFirst (braced key) (text segments) = none := by
  induction segments with
  | nil => rfl
  | cons seg segments ih =>
    obtain ⟨hseg, hsegs⟩ := List.forall_mem_cons.mp wf
    obtain ⟨hne, hrest⟩ := not_or.mp (fun hmem => h (List.mem_cons.mpr hmem))
    rw [text_cons]
    cases seg with
    | char c =>
      change Text.cutFirst (braced key) (c :: text segments) = none
      rw [cutFirst_char hseg, ih hsegs hrest]
      rfl
    | hole name =>
      rw [Segment.text, cutFirst_other hk hseg (fun heq => hne (heq ▸ rfl)), ih hsegs hrest]
      rfl

variable (post) in
/-- The first hole of the name is the leftmost occurrence of the name in braces. -/
theorem cutFirst_present (hk : BraceFree key) (wf : ∀ seg ∈ pre, seg.WellFormed) (h : Segment.hole key ∉ pre) :
    Text.cutFirst (braced key) (text (pre ++ .hole key :: post)) = some (text pre, text post) := by
  induction pre with
  | nil =>
    have hcons : '{' :: (key ++ ['}'] ++ text post) = braced key ++ text post := by simp [braced]
    change Text.cutFirst (braced key) ('{' :: (key ++ ['}'] ++ text post)) = _
    rw [Text.cutFirst, hcons, if_pos (List.isPrefixOf_iff_prefix.mpr (List.prefix_append _ _)), List.drop_left]
    rfl
  | cons seg pre ih =>
    obtain ⟨hseg, hsegs⟩ := List.forall_mem_cons.mp wf
    obtain ⟨hne, hrest⟩ := not_or.mp (fun hmem => h (List.mem_cons.mpr hmem))
    rw [List.cons_append, text_cons]
    cases seg with
    | char c =>
      change Text.cutFirst (braced key) (c :: text (pre ++ .hole key :: post)) = _
      rw [cutFirst_char hseg, ih hsegs hrest]
      rfl
    | hole name =>
      rw [Segment.text, cutFirst_other hk hseg (fun heq => hne (heq ▸ rfl)), ih hsegs hrest]
      rfl

theorem occurs_iff (hk : BraceFree key) (wf : ∀ seg ∈ segments, seg.WellFormed) :
    braced key <:+: text segments ↔ Segment.hole key ∈ segments := by
  constructor
  · intro h
    by_contra hno
    exact Text.cutFirst_none.mp (cutFirst_absent hk wf hno) h
  · intro h
    obtain ⟨pre, post, rfl⟩ := List.append_of_mem h
    rw [text_append, text_cons]
    exact ⟨text pre, text post, by simp [Segment.text]⟩

/-! ### Replacing the holes of one name -/

theorem subst_append (a b : List Segment) : subst key value (a ++ b) = subst key value a ++ subst key value b :=
  List.flatMap_append

theorem subst_chars (s : Text) : subst key value (s.map .char) = s.map .char := by
  induction s with
  | nil => rfl
  | cons c s ih => exact congrArg (Segment.char c :: ·) ih

/-- Replacing one hole leaves the substitution the same. -/
theorem subst_one : subst key value (pre ++ value.map .char ++ post) = subst key value (pre ++ .hole key :: post) := by
  have hhole : subst key value (.hole key :: post) = value.map .char ++ subst key value post := by
    simp [subst, Segment.subst]
  rw [subst_append, subst_append, subst_append, subst_chars, hhole, List.append_assoc]

theorem subst_absent (h : Segment.hole key ∉ segments) : subst key value segments = segments := by
  induction segments with
  | nil => rfl
  | cons seg segments ih =>
    obtain ⟨hne, hrest⟩ := not_or.mp (fun hmem => h (List.mem_cons.mpr hmem))
    have hseg : seg.subst key value = [seg] := by
      cases seg with
      | char c => rfl
      | hole name => simp [Segment.subst, show ¬ name = key from fun heq => hne (heq ▸ rfl)]
    rw [subst, List.flatMap_cons, hseg]
    exact congrArg (seg :: ·) (ih hrest)

theorem wellFormed_chars (hv : BraceFree value) : ∀ seg ∈ value.map Segment.char, seg.WellFormed := by
  intro seg hseg
  obtain ⟨c, hc, rfl⟩ := List.mem_map.mp hseg
  exact fun heq => hv.1 (heq ▸ hc)

theorem wellFormed_one (hv : BraceFree value) (wf : ∀ seg ∈ pre ++ .hole key :: post, seg.WellFormed) :
    ∀ seg ∈ pre ++ value.map .char ++ post, seg.WellFormed := by
  intro seg hseg
  rcases List.mem_append.mp hseg with hseg | hseg
  · rcases List.mem_append.mp hseg with hseg | hseg
    · exact wf seg (List.mem_append_left _ hseg)
    · exact wellFormed_chars hv seg hseg
  · exact wf seg (List.mem_append_right _ (List.mem_cons_of_mem _ hseg))

theorem wellFormed_subst (hv : BraceFree value) (wf : ∀ seg ∈ segments, seg.WellFormed) :
    ∀ seg ∈ subst key value segments, seg.WellFormed := by
  intro seg hseg
  obtain ⟨seg', hmem, hsub⟩ := List.mem_flatMap.mp hseg
  cases seg' with
  | char c => exact List.mem_singleton.mp hsub ▸ wf _ hmem
  | hole name =>
    rw [Segment.subst] at hsub
    split at hsub
    · exact wellFormed_chars hv seg hsub
    · exact List.mem_singleton.mp hsub ▸ wf _ hmem

theorem mem_subst_of_ne {other : Text} (hne : other ≠ key) (h : Segment.hole other ∈ segments) :
    Segment.hole other ∈ subst key value segments :=
  List.mem_flatMap.mpr ⟨.hole other, h, by simp [Segment.subst, hne]⟩

/-- The text between braces has no opening brace in it. -/
theorem replaceFrom_skip (hs : '{' ∉ s) :
    Text.replaceFrom (braced key) value 0 (s ++ rest) = s ++ Text.replaceFrom (braced key) value 0 rest := by
  induction s with
  | nil => rfl
  | cons c s ih =>
    obtain ⟨hc, hs⟩ := not_or.mp (fun h => hs (List.mem_cons.mpr h))
    have hno : ¬ (braced key).isPrefixOf (c :: (s ++ rest)) = true := by
      simp [braced, hc]
    rw [List.cons_append, Text.replaceFrom, if_neg hno, ih hs]
    rfl

/-- One pass from left to right fills the holes of one name. -/
theorem replaceAll_text (hk : BraceFree key) (wf : ∀ seg ∈ segments, seg.WellFormed) :
    Text.replaceAll (braced key) value (text segments) = text (subst key value segments) := by
  induction segments with
  | nil => rfl
  | cons seg segments ih =>
    obtain ⟨hseg, hsegs⟩ := List.forall_mem_cons.mp wf
    have hrest := ih hsegs
    rw [Text.replaceAll] at hrest ⊢
    rw [text_cons, subst, List.flatMap_cons, text_append]
    cases seg with
    | char c =>
      have hc : '{' ∉ [c] := by simpa using Ne.symm hseg
      exact (replaceFrom_skip hc).trans (congrArg (c :: ·) hrest)
    | hole name =>
      have hcons : ∀ rest, braced name ++ rest = '{' :: (name ++ ['}'] ++ rest) := fun rest => by simp [braced]
      have hpre := prefix_braced (text segments) hk hseg
      rw [← List.isPrefixOf_iff_prefix, hcons] at hpre
      rw [Segment.text, hcons, Text.replaceFrom, Segment.subst]
      by_cases hname : name = key
      · subst hname
        have hlen : (braced name).length - 1 = (name ++ ['}']).length := by simp [braced]
        rw [if_pos (hpre.mpr rfl), if_pos rfl, hlen, Text.replaceFrom_inside, hrest]
        simp [text, List.flatMap_map, Segment.text, subst]
      · have hinside : '{' ∉ name ++ ['}'] := by simp [hseg.1]
        rw [if_neg (fun h => hname (hpre.mp h).symm), if_neg hname, replaceFrom_skip hinside, hrest]
        simp [text, Segment.text, braced, subst]

/-! ### Holes in any text -/

/-- Every opening brace is followed by a closing one. -/
def Closed (s : Text) : Prop := ∀ a b, s = a ++ '{' :: b → '}' ∈ b

/-- The hole does not occur between other braces. -/
def Unnested (key s : Text) : Prop := ∀ pre post, s = pre ++ braced key ++ post → Closed pre

theorem closed_of_free (hs : '{' ∉ s) : Closed s := fun a b heq => absurd (heq ▸ by simp) hs

theorem Closed.append {a b : Text} (ha : Closed a) (hb : Closed b) : Closed (a ++ b) := by
  intro x y heq
  rcases List.append_eq_append_iff.mp heq with ⟨c, rfl, hc⟩ | ⟨c, rfl, hc⟩
  · exact hb c y hc
  · cases c with
    | nil => exact hb [] y hc.symm
    | cons d c =>
      obtain ⟨rfl, rfl⟩ := List.cons.inj hc
      exact List.mem_append_left _ (ha x c rfl)

theorem Closed.tail {c : Char} (h : Closed (c :: s)) : Closed s := fun a b heq => h (c :: a) b (by rw [heq]; rfl)

theorem Unnested.of_append {a : Text} (h : Unnested key (a ++ s)) : Unnested key s := by
  intro pre post heq x y hpre
  exact h (a ++ pre) post (by simp [heq]) (a ++ x) y (by simp [hpre])

theorem WellBraced.unnested (h : WellBraced s) (key : Text) : Unnested key s := by
  rintro pre post rfl a b rfl
  obtain ⟨name, rest, heq, -, hfree⟩ := h a (b ++ braced key ++ post) (by simp)
  by_contra hb
  have hcons : b ++ '{' :: (key ++ ['}'] ++ post) = name ++ '}' :: rest := by simpa [braced] using heq
  rcases List.append_eq_append_iff.mp hcons with ⟨c, rfl, hc⟩ | ⟨c, rfl, hc⟩
  · cases c with
    | nil => cases (List.cons.inj hc).1
    | cons d c =>
      have hd : '{' = d := (List.cons.inj hc).1
      exact hfree.1 (by simp [← hd])
  · cases c with
    | nil => cases (List.cons.inj hc).1
    | cons d c =>
      have hd : '}' = d := (List.cons.inj hc).1
      exact hb (by simp [← hd])

/-- Behind a closed text without the hole it is found where it is found without that text. -/
theorem cutFirst_closed (hk : BraceFree key) (hs : Closed s) (hno : ¬ braced key <:+: s) :
    Text.cutFirst (braced key) (s ++ rest) = (Text.cutFirst (braced key) rest).map fun r => (s ++ r.1, r.2) := by
  induction s with
  | nil => simp
  | cons c s ih =>
    have hstart : ¬ (braced key).isPrefixOf (c :: (s ++ rest)) = true := by
      rw [List.isPrefixOf_iff_prefix]
      rintro ⟨t, ht⟩
      obtain ⟨rfl, hrest⟩ := List.cons.inj (show '{' :: (key ++ ['}'] ++ t) = c :: (s ++ rest) from ht)
      obtain ⟨name, tail, rfl, hname⟩ := List.eq_append_cons_of_mem (hs [] s rfl)
      have hcut : ∀ (a b : Text), '}' ∉ a → (a ++ '}' :: b).takeWhile (· != '}') = a := fun a b ha => by
        have hall : ∀ c ∈ a, (c != '}') = true := fun c hc => bne_iff_ne.mpr fun heq => ha (heq ▸ hc)
        rw [List.takeWhile_append_of_pos hall]
        simp
      have heq : key ++ '}' :: t = name ++ '}' :: (tail ++ rest) := by simpa using hrest
      have hkey : key = name := by
        have := congrArg (List.takeWhile (· != '}')) heq
        rwa [hcut _ _ hk.2, hcut _ _ hname] at this
      subst hkey
      exact hno ⟨[], tail, by simp [braced]⟩
    have hno' : ¬ braced key <:+: s := fun h => hno (h.trans ⟨[c], [], by simp⟩)
    rw [List.cons_append, Text.cutFirst, if_neg hstart, ih hs.tail hno', Option.map_map]
    rfl

theorem absent_append (hk : BraceFree key) (hs : Closed s) (hno : ¬ braced key <:+: s) (hrest : ¬ braced key <:+: rest) :
    ¬ braced key <:+: s ++ rest := by
  rw [← Text.cutFirst_none] at hrest ⊢
  rw [cutFirst_closed hk hs hno, hrest]
  rfl

theorem absent_of_free (hs : '{' ∉ s) : ¬ braced key <:+: s := fun h => hs (h.subset (by simp [braced]))

/-! ### All names at once -/

theorem fill_cons (values : Text → Option Text) (seg : Segment) (segments : List Segment) :
    fill values (seg :: segments) = seg.fill values ++ fill values segments := rfl

theorem fill_subst (values : Text → Option Text) :
    fill values (subst key value segments) = fill (fun name => if name = key then some value else values name) segments := by
  induction segments with
  | nil => rfl
  | cons seg segments ih =>
    have hchars : ∀ s : Text, fill values (s.map .char) = s := fun s => by
      simp [fill, List.flatMap_map, Segment.fill]
    have happend : ∀ a b : List Segment, fill values (a ++ b) = fill values a ++ fill values b := fun _ _ =>
      List.flatMap_append
    rw [subst, List.flatMap_cons, happend, fill_cons]
    refine congrArg₂ (· ++ ·) ?_ ih
    cases seg with
    | char c => rfl
    | hole name =>
      by_cases hname : name = key
      · simp [Segment.subst, Segment.fill, hname, hchars]
      · simp [Segment.subst, Segment.fill, hname, fill]

theorem fill_none : fill (fun _ => none) segments = text segments := by
  refine List.flatMap_congr fun seg _ => ?_
  cases seg <;> rfl

/-- Filling the holes of one name after the other is filling them all at once. -/
theorem text_foldl_subst :
    text (pairs.foldl (fun segments kv => subst kv.1 kv.2 segments) segments) =
      fill (fun name => pairs.lookup name) segments := by
  rw [← fill_none]
  induction pairs generalizing segments with
  | nil => rfl
  | cons kv pairs ih =>
    rw [List.foldl_cons, ih, fill_subst]
    congr 1
    funext name
    rw [List.lookup_cons]
    by_cases hname : name = kv.1
    · simp [hname]
    · rw [if_neg hname, beq_eq_false_iff_ne.mpr hname]

theorem lookup_eq_some (nodup : (pairs.map Prod.fst).Nodup) : pairs.lookup name = some value ↔ (name, value) ∈ pairs := by
  induction pairs with
  | nil => simp
  | cons kv pairs ih =>
    obtain ⟨hkv, hpairs⟩ := List.nodup_cons.mp nodup
    rw [List.lookup_cons, List.mem_cons]
    by_cases hname : name = kv.1
    · subst hname
      have hno : (kv.1, value) ∉ pairs := fun h => hkv (List.mem_map.mpr ⟨_, h, rfl⟩)
      simp [hno, Prod.ext_iff, eq_comm]
    · rw [beq_eq_false_iff_ne.mpr hname]
      simp [hname, ih hpairs, Prod.ext_iff]

/-- The values of distinct names do not depend on the order of the pairs. -/
theorem lookup_perm {pairs' : List (Text × Text)} (nodup : (pairs.map Prod.fst).Nodup) (h : pairs.Perm pairs') :
    (fun name => pairs.lookup name) = fun name => pairs'.lookup name := by
  funext name
  have nodup' : (pairs'.map Prod.fst).Nodup := (h.map _).nodup_iff.mp nodup
  refine Option.ext fun value => ?_
  rw [lookup_eq_some nodup, lookup_eq_some nodup', h.mem_iff]

end

end Template
