import OpsSupportability.Lib.Regex

/-! Shell patterns as `glob` understands them: a backslash quotes the next character; bracket expressions
    are those of one range. A pattern names the files of one directory, and no wildcard stands in the
    directory. -/

namespace Glob

inductive Token where
  | char (c : Char)
  | any
  | star
  | oneOf (cs : List Char)
  deriving DecidableEq, Repr

def tokens : Text → List Token
  | [] => []
  | '\\' :: c :: s => .char c :: tokens s
  | '?' :: s => .any :: tokens s
  | '*' :: s => .star :: tokens s
  | '[' :: a :: '-' :: b :: ']' :: s => .oneOf (Regex.range a b) :: tokens s
  | c :: s => .char c :: tokens s

def accepts : List Token → Text → Bool
  | [], s => s.isEmpty
  | .char c :: p, s => s.head? == some c && accepts p s.tail
  | .any :: p, s => s.head?.isSome && accepts p s.tail
  | .oneOf cs :: p, s => s.head?.any (cs.contains ·) && accepts p s.tail
  | .star :: p, s => s.tails.any fun t => accepts p t

/-- A leading period of a name has to be matched by a period. -/
def acceptsName (p : List Token) (name : Text) : Bool :=
  (name.head? != some '.' || p.head? == some (.char '.')) && accepts p name

/-- The directory, unquoted, and the pattern of the names. -/
def splitPath (p : List Token) : List Token × List Token :=
  let name := (p.reverse.takeWhile (· != .char '/')).reverse
  (p.take (p.length - (name.length + 1)), name)

def literal : Token → Option Char
  | .char c => some c
  | _ => none

/-- `glob`: the paths of a pattern, where `files` lists a directory in the order of the sort. -/
def glob (files : Text → List Text) (pattern : Text) : List Text :=
  let (dir, name) := splitPath (tokens pattern)
  match dir.mapM literal with
  | none => []
  | some dir => ((files dir).filter (acceptsName name)).map fun file => dir ++ '/' :: file

/-! ### Tokens -/

/-- The characters that a pattern can hold unquoted. -/
def isPlain (c : Char) : Bool := c != '\\' && c != '?' && c != '*' && c != '['

theorem tokens_plain {w : Text} (h : ∀ c ∈ w, isPlain c = true) (s : Text) :
    tokens (w ++ s) = w.map .char ++ tokens s := by
  induction w with
  | nil => rfl
  | cons c w ih =>
    obtain ⟨hc, hw⟩ := List.forall_mem_cons.mp h
    simp only [isPlain, Bool.and_eq_true, bne_iff_ne] at hc
    obtain ⟨⟨⟨hquote, hany⟩, hstar⟩, hbracket⟩ := hc
    rw [List.cons_append, tokens, ih hw]
    · rfl
    · exact fun _ _ heq => absurd heq hquote
    · exact fun heq => absurd heq hany
    · exact fun heq => absurd heq hstar
    · exact fun _ _ _ heq => absurd heq hbracket

/-- Nothing at the end waits for a character behind it. -/
def isComplete : Text → Bool
  | [] => true
  | '\\' :: _ :: s => isComplete s
  | ['\\'] => false
  | '[' :: _ => false
  | _ :: s => isComplete s

theorem tokens_append {w : Text} (h : isComplete w = true) (s : Text) : tokens (w ++ s) = tokens w ++ tokens s := by
  induction w using isComplete.induct with
  | case1 => rfl
  | case2 c w ih => exact congrArg (.char c :: ·) (ih h)
  | case3 => cases h
  | case4 w => cases h
  | case5 c w hquote hone hbracket ih =>
    have hw : isComplete w = true := by rwa [isComplete.eq_5 c w hquote hone hbracket] at h
    by_cases hany : c = '?'
    · subst hany
      exact congrArg (.any :: ·) (ih hw)
    · by_cases hstar : c = '*'
      · subst hstar
        exact congrArg (.star :: ·) (ih hw)
      · have hne : c ≠ '\\' := fun hc => by
          cases w with
          | nil => exact hone hc rfl
          | cons d w => exact hquote d w hc rfl
        have hplain : ∀ x ∈ [c], isPlain x = true := fun x hx => by
          obtain rfl := List.mem_singleton.mp hx
          simp [isPlain, hne, hany, hstar, show x ≠ '[' from hbracket]
        have hcons : ∀ x, tokens (c :: x) = .char c :: tokens x := fun x => tokens_plain hplain x
        rw [List.cons_append, hcons, hcons, ih hw, List.cons_append]

/-! ### Matching -/

theorem accepts_chars (w : Text) (p : List Token) (s : Text) :
    accepts (w.map .char ++ p) s = true ↔ ∃ t, s = w ++ t ∧ accepts p t = true := by
  induction w generalizing s with
  | nil => simp
  | cons c w ih =>
    rw [List.map_cons, List.cons_append, accepts, Bool.and_eq_true, beq_iff_eq, ih]
    constructor
    · rintro ⟨hhead, t, htail, hp⟩
      refine ⟨t, ?_, hp⟩
      rw [List.cons_append, ← htail]
      exact (List.cons_head?_tail hhead).symm
    · rintro ⟨t, rfl, hp⟩
      exact ⟨rfl, t, rfl, hp⟩

theorem accepts_star (p : List Token) (s : Text) :
    accepts (.star :: p) s = true ↔ ∃ a b, s = a ++ b ∧ accepts p b = true := by
  rw [accepts, List.any_eq_true]
  constructor
  · rintro ⟨t, ht, hp⟩
    obtain ⟨a, rfl⟩ := (List.mem_tails _ _).mp ht
    exact ⟨a, t, rfl, hp⟩
  · rintro ⟨a, b, rfl, hp⟩
    exact ⟨b, (List.mem_tails _ _).mpr (List.suffix_append a b), hp⟩

/-- A final star takes whatever is left. -/
theorem accepts_all (s : Text) : accepts [.star] s = true :=
  (accepts_star [] s).mpr ⟨s, [], (List.append_nil s).symm, rfl⟩

/-! ### Paths -/

theorem splitPath_append {name : List Token} (h : .char '/' ∉ name) (dir : List Token) :
    splitPath (dir ++ .char '/' :: name) = (dir, name) := by
  have hall : ∀ t ∈ name.reverse, (t != Token.char '/') = true := fun t ht => by
    rw [bne_iff_ne]
    rintro rfl
    exact h (List.mem_reverse.mp ht)
  have hname : ((dir ++ .char '/' :: name).reverse.takeWhile (· != Token.char '/')).reverse = name := by
    rw [List.reverse_append, List.reverse_cons, List.append_assoc, List.takeWhile_append_of_pos hall,
      List.singleton_append, List.takeWhile_cons_of_neg (by simp), List.append_nil, List.reverse_reverse]
  have hlen : (dir ++ .char '/' :: name).length - (name.length + 1) = dir.length := by simp
  simp only [splitPath, hname, hlen, List.take_left]

theorem mapM_literal (dir : Text) : (dir.map Token.char).mapM literal = some dir := by
  induction dir with
  | nil => rfl
  | cons c dir ih => rw [List.map_cons, List.mapM_cons, ih]; rfl

theorem glob_eq {pattern dir : Text} {name : List Token} (files : Text → List Text)
    (htokens : tokens pattern = dir.map .char ++ .char '/' :: name) (hname : .char '/' ∉ name) :
    glob files pattern = ((files dir).filter (acceptsName name)).map fun file => dir ++ '/' :: file := by
  simp only [glob, htokens, splitPath_append hname, mapM_literal]

end Glob
