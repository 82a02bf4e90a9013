import OpsSupportability.Lib.Text

/-! Formatting through a variable argument list: what a function of the `printf` family promises, and calls
    that take one format after another from their arguments, up to a null pointer. -/

namespace Printf

/-- A variable argument. -/
inductive Arg where
  | str (s : Text)
  | int (n : Int)
  | null
  deriving DecidableEq

/-- The characters that occur in conversion specifications. -/
def inDirective (c : Char) : Bool := c.isAlphanum || "%-+ #'.*$".toList.contains c

/-- A formatting function: the text and the arguments it leaves; `none` where the call is undefined. -/
structure Formatter where
  format : Text → List Arg → Option (Text × List Arg)
  leaves : ∀ {fmt args text rest}, format fmt args = some (text, rest) → rest <:+ args
  nil : ∀ args, format [] args = some ([], args)
  ordinary : ∀ {c}, c ≠ '%' → ∀ fmt args,
    format (c :: fmt) args = (format fmt args).map fun (text, rest) => (c :: text, rest)
  keeps : ∀ {c fmt args text rest}, inDirective c = false → c ∈ fmt → format fmt args = some (text, rest) → c ∈ text
  int : ∀ n args, format ['%', 'd'] (.int n :: args) = some (Text.decimal n, args)
  str : ∀ s args, format ['%', 's'] (.str s :: args) = some (s, args)

namespace Formatter

variable (F : Formatter)

theorem format_append {pre : Text} (h : '%' ∉ pre) (fmt : Text) (args : List Arg) :
    F.format (pre ++ fmt) args = (F.format fmt args).map fun (text, rest) => (pre ++ text, rest) := by
  induction pre with
  | nil => simp
  | cons c pre ih =>
    obtain ⟨hc, hpre⟩ := List.ne_and_not_mem_of_not_mem_cons h
    rw [List.cons_append, F.ordinary (Ne.symm hc), ih hpre]
    cases F.format fmt args <;> rfl

theorem format_plain {fmt : Text} (h : '%' ∉ fmt) (args : List Arg) : F.format fmt args = some (fmt, args) := by
  have := F.format_append h [] args
  rw [F.nil, Option.map_some, List.append_nil] at this
  simpa using this

theorem format_int {pre : Text} (h : '%' ∉ pre) (n : Int) (args : List Arg) :
    F.format (pre ++ ['%', 'd']) (.int n :: args) = some (pre ++ Text.decimal n, args) := by
  rw [F.format_append h, F.int, Option.map_some]

theorem format_str {pre : Text} (h : '%' ∉ pre) (s : Text) (args : List Arg) :
    F.format (pre ++ ['%', 's']) (.str s :: args) = some (pre ++ s, args) := by
  rw [F.format_append h, F.str, Option.map_some]

theorem prefix_of_format {pre fmt text : Text} {args rest : List Arg} (h : '%' ∉ pre)
    (hf : F.format (pre ++ fmt) args = some (text, rest)) : pre <+: text := by
  rw [F.format_append h] at hf
  obtain ⟨⟨text', rest'⟩, -, heq⟩ := Option.map_eq_some_iff.mp hf
  obtain ⟨rfl, rfl⟩ := Prod.mk.inj heq
  exact List.prefix_append pre text'

/-! ### A format after another -/

/-- The texts of the formats that the arguments hold, each with the arguments it takes; at most `fuel`. -/
def collect : Nat → List Arg → Option (List Text)
  | fuel + 1, .str fmt :: args => do
    let (text, rest) ← F.format fmt args
    let texts ← collect fuel rest
    return text :: texts
  | _ + 1, .null :: _ => some []
  | _, _ => none

/-- The texts of a whole call; a number in the place of a format, or a list without a null pointer, is
    undefined. -/
def texts (args : List Arg) : Option (List Text) := F.collect args.length args

theorem collect_congr {n m : Nat} {args : List Arg} (hn : args.length ≤ n) (hm : args.length ≤ m) :
    F.collect n args = F.collect m args := by
  induction n generalizing m args with
  | zero =>
    obtain rfl := List.length_eq_zero_iff.mp (Nat.le_zero.mp hn)
    cases m <;> rfl
  | succ n ih =>
    match args, m with
    | [], 0 => rfl
    | [], _ + 1 => rfl
    | .null :: _, _ + 1 => rfl
    | .int _ :: _, _ + 1 => rfl
    | .str fmt :: args, m + 1 =>
      simp only [collect, Option.bind_eq_bind]
      refine Option.bind_congr fun r hr => ?_
      have hle := (F.leaves hr).length_le
      rw [ih (hle.trans (Nat.le_of_succ_le_succ hn)) (hle.trans (Nat.le_of_succ_le_succ hm))]

theorem texts_str {fmt text : Text} {args rest : List Arg} (h : F.format fmt args = some (text, rest)) :
    F.texts (.str fmt :: args) = (F.texts rest).map (text :: ·) := by
  rw [texts, List.length_cons, collect, h]
  simp only [Option.bind_eq_bind, Option.bind_some, texts]
  rw [F.collect_congr (F.leaves h).length_le (Nat.le_refl _)]
  cases F.collect rest.length rest <;> rfl

theorem texts_str_some {fmt : Text} {args : List Arg} {texts : List Text} (h : F.texts (.str fmt :: args) = some texts) :
    ∃ text rest tail, F.format fmt args = some (text, rest) ∧ F.texts rest = some tail ∧ texts = text :: tail := by
  cases hf : F.format fmt args with
  | none => simp [Formatter.texts, collect, hf] at h
  | some r =>
    rw [F.texts_str hf] at h
    obtain ⟨tail, htail, rfl⟩ := Option.map_eq_some_iff.mp h
    exact ⟨r.1, r.2, tail, rfl, htail, rfl⟩

/-- A text that takes no arguments as a format. -/
theorem texts_plain {fmt : Text} (h : '%' ∉ fmt) (args : List Arg) :
    F.texts (.str fmt :: args) = (F.texts args).map (fmt :: ·) :=
  F.texts_str (F.format_plain h args)

theorem texts_int_format {pre : Text} (h : '%' ∉ pre) (n : Int) (args : List Arg) :
    F.texts (.str (pre ++ ['%', 'd']) :: .int n :: args) = (F.texts args).map ((pre ++ Text.decimal n) :: ·) :=
  F.texts_str (F.format_int h n args)

theorem texts_str_format {pre : Text} (h : '%' ∉ pre) (s : Text) (args : List Arg) :
    F.texts (.str (pre ++ ['%', 's']) :: .str s :: args) = (F.texts args).map ((pre ++ s) :: ·) :=
  F.texts_str (F.format_str h s args)

/-- The number of arguments that the first format of a call takes. -/
def taken (args : List Arg) : Option Nat :=
  match args with
  | .str fmt :: args => (F.format fmt args).map fun (_, rest) => args.length - rest.length
  | _ => none

end Formatter

/-! ### A formatter for `%%`, `%d` and `%s` -/

def formatFrom : Text → List Arg → Option (Text × List Arg)
  | [], args => some ([], args)
  | '%' :: '%' :: fmt, args => (formatFrom fmt args).map fun (text, rest) => ('%' :: text, rest)
  | '%' :: 'd' :: fmt, .int n :: args => (formatFrom fmt args).map fun (text, rest) => (Text.decimal n ++ text, rest)
  | '%' :: 's' :: fmt, .str s :: args => (formatFrom fmt args).map fun (text, rest) => (s ++ text, rest)
  | '%' :: _, _ => none
  | c :: fmt, args => (formatFrom fmt args).map fun (text, rest) => (c :: text, rest)

theorem formatFrom_leaves {fmt text : Text} {args rest : List Arg} (h : formatFrom fmt args = some (text, rest)) :
    rest <:+ args := by
  fun_induction formatFrom fmt args generalizing text rest with
  | case1 args =>
    obtain ⟨-, rfl⟩ := Prod.mk.inj (Option.some.inj h)
    exact List.suffix_rfl
  | case2 fmt args ih | case6 _ _ args _ _ _ _ ih =>
    obtain ⟨r, hr, heq⟩ := Option.map_eq_some_iff.mp h
    obtain ⟨-, rfl⟩ := Prod.mk.inj heq
    exact ih hr
  | case3 fmt n args ih | case4 fmt s args ih =>
    obtain ⟨r, hr, heq⟩ := Option.map_eq_some_iff.mp h
    obtain ⟨-, rfl⟩ := Prod.mk.inj heq
    exact (ih hr).trans (List.suffix_cons _ args)
  | case5 => cases h

theorem formatFrom_keeps {c : Char} {fmt text : Text} {args rest : List Arg} (hc : inDirective c = false)
    (hmem : c ∈ fmt) (h : formatFrom fmt args = some (text, rest)) : c ∈ text := by
  fun_induction formatFrom fmt args generalizing text rest with
  | case1 args => cases hmem
  | case2 fmt args ih | case3 fmt n args ih | case4 fmt s args ih =>
    obtain ⟨r, hr, heq⟩ := Option.map_eq_some_iff.mp h
    obtain ⟨rfl, -⟩ := Prod.mk.inj heq
    have hmem' : c ∈ fmt := by
      rcases List.mem_cons.mp hmem with rfl | hmem
      · cases hc
      · rcases List.mem_cons.mp hmem with rfl | hmem
        · cases hc
        · exact hmem
    simp [ih hmem' hr]
  | case5 => cases h
  | case6 d fmt args _ _ _ _ ih =>
    obtain ⟨r, hr, heq⟩ := Option.map_eq_some_iff.mp h
    obtain ⟨rfl, -⟩ := Prod.mk.inj heq
    rcases List.mem_cons.mp hmem with rfl | hmem
    · exact List.mem_cons_self
    · exact List.mem_cons_of_mem _ (ih hmem hr)

theorem replicate_append_cons (k : Nat) (c : Char) (s : Text) :
    List.replicate k c ++ c :: s = List.replicate (k + 1) c ++ s := by
  rw [List.replicate_succ', List.append_assoc, List.singleton_append]

/-- A format whose first conversion would print a text that does not begin with a percent sign prints itself only
    if it has no conversions. -/
theorem not_mem_of_formatFrom_self {c : Char} {s fmt : Text} {args rest : List Arg} (hc : c ≠ '%')
    (h : formatFrom fmt (.str (c :: s) :: args) = some (fmt, rest)) : '%' ∉ fmt := by
  -- Each percent sign that is printed leaves one more to be printed by what follows.
  have hmore : ∀ fmt k rest, formatFrom fmt (.str (c :: s) :: args) = some (List.replicate k '%' ++ fmt, rest) →
      k = 0 ∧ '%' ∉ fmt := by
    intro fmt k rest h
    generalize hargs : Arg.str (c :: s) :: args = args' at h
    fun_induction formatFrom fmt args' generalizing k rest with
    | case1 args' =>
      have hnil := (Prod.mk.inj (Option.some.inj h)).1
      rw [List.append_nil, eq_comm, List.replicate_eq_nil_iff] at hnil
      exact ⟨hnil, nofun⟩
    | case2 fmt args' ih =>
      obtain ⟨⟨text, rest'⟩, hr, heq⟩ := Option.map_eq_some_iff.mp h
      have htext := (Prod.mk.inj heq).1
      rw [replicate_append_cons, List.replicate_succ, List.cons_append, replicate_append_cons] at htext
      obtain rfl := (List.cons.inj htext).2
      exact absurd (ih _ _ hargs hr).1 (Nat.succ_ne_zero k)
    | case3 => cases hargs
    | case4 fmt s' args' ih =>
      cases hargs
      obtain ⟨⟨text, rest'⟩, hr, heq⟩ := Option.map_eq_some_iff.mp h
      have htext := (Prod.mk.inj heq).1
      rw [replicate_append_cons, List.replicate_succ, List.cons_append, List.cons_append] at htext
      exact absurd (List.cons.inj htext).1 hc
    | case5 => cases h
    | case6 d fmt args' _ _ _ hd ih =>
      have hne : d ≠ '%' := fun heq => hd heq
      obtain ⟨⟨text, rest'⟩, hr, heq⟩ := Option.map_eq_some_iff.mp h
      have htext := (Prod.mk.inj heq).1
      cases k with
      | zero =>
        obtain rfl : text = fmt := (List.cons.inj htext).2
        obtain ⟨-, hfmt⟩ := ih 0 rest' hargs hr
        exact ⟨rfl, List.not_mem_cons_of_ne_of_not_mem hne.symm hfmt⟩
      | succ k =>
        rw [List.replicate_succ, List.cons_append] at htext
        exact absurd (List.cons.inj htext).1 hne
  exact (hmore fmt 0 rest h).2

/-- Without arguments only percent signs are printed, each for two of the format. -/
theorem formatFrom_null {fmt text : Text} {args rest : List Arg} (h : formatFrom fmt (.null :: args) = some (text, rest)) :
    ('%' ∉ fmt ∧ text = fmt) ∨ text.length < fmt.length := by
  generalize hargs : Arg.null :: args = args' at h
  fun_induction formatFrom fmt args' generalizing text rest with
  | case1 args' => exact .inl ⟨nofun, (Prod.mk.inj (Option.some.inj h)).1.symm⟩
  | case2 fmt args' ih =>
    obtain ⟨⟨text', rest'⟩, hr, heq⟩ := Option.map_eq_some_iff.mp h
    obtain rfl := (Prod.mk.inj heq).1
    refine .inr ?_
    rcases ih hargs hr with ⟨-, rfl⟩ | hlt
    · exact Nat.lt_succ_self _
    · exact Nat.lt_succ_of_lt (Nat.succ_lt_succ hlt)
  | case3 => cases hargs
  | case4 => cases hargs
  | case5 => cases h
  | case6 d fmt args' _ _ _ hd ih =>
    have hne : d ≠ '%' := fun heq => hd heq
    obtain ⟨⟨text', rest'⟩, hr, heq⟩ := Option.map_eq_some_iff.mp h
    obtain rfl := (Prod.mk.inj heq).1
    rcases ih hargs hr with ⟨hfmt, rfl⟩ | hlt
    · exact .inl ⟨List.not_mem_cons_of_ne_of_not_mem hne.symm hfmt, rfl⟩
    · exact .inr (Nat.succ_lt_succ hlt)

def basic : Formatter where
  format := formatFrom
  leaves := formatFrom_leaves
  nil _ := rfl
  ordinary hc fmt args := by rw [formatFrom]; all_goals simp [hc]
  keeps := formatFrom_keeps
  int n args := by simp [formatFrom]
  str s args := by simp [formatFrom]

end Printf
