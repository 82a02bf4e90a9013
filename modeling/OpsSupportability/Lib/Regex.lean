import OpsSupportability.Lib.Text
import Mathlib.Computability.RegularExpressions

/-! Extended regular expressions of POSIX that are anchored at both ends, as regular expressions over
    characters. -/

namespace Regex

/-- `a-b` of a bracket expression. -/
def range (a b : Char) : List Char := (List.range' a.toNat (b.toNat + 1 - a.toNat)).map Char.ofNat

/-- A bracket expression. -/
def oneOf (cs : List Char) : RegularExpression Char := cs.foldr (fun c r => .char c + r) 0

/-- `r{m,n}`. -/
def interval (r : RegularExpression Char) (m n : Nat) : RegularExpression Char := r ^ m * (1 + r) ^ (n - m)

/-- `regexec` of `^r$` compiled with `REG_NEWLINE`: the anchors match at the ends of any line. -/
def accepts (r : RegularExpression Char) (s : Text) : Bool := (s.splitOn '\n').any r.rmatch

/-- The characters that an expression mentions. -/
def chars : RegularExpression Char → List Char
  | .zero => []
  | .epsilon => []
  | .char c => [c]
  | .plus r r' => chars r ++ chars r'
  | .comp r r' => chars r ++ chars r'
  | .star r => chars r

theorem mem_chars {r : RegularExpression Char} {s : Text} (h : s ∈ r.matches') : ∀ c ∈ s, c ∈ chars r := by
  induction r generalizing s with
  | zero => exact absurd h (Set.notMem_empty s)
  | epsilon =>
    obtain rfl : s = [] := h
    exact fun c hc => absurd hc List.not_mem_nil
  | char a =>
    obtain rfl : s = [a] := h
    exact fun c hc => hc
  | plus r r' ih ih' =>
    intro c hc
    rcases h with h | h
    · exact List.mem_append_left _ (ih h c hc)
    · exact List.mem_append_right _ (ih' h c hc)
  | comp r r' ih ih' =>
    intro c hc
    obtain ⟨a, ha, b, hb, rfl⟩ := Language.mem_mul.mp h
    rcases List.mem_append.mp hc with hc | hc
    · exact List.mem_append_left _ (ih ha c hc)
    · exact List.mem_append_right _ (ih' hb c hc)
  | star r ih =>
    intro c hc
    obtain ⟨l, rfl, hl⟩ := Language.mem_kstar.mp h
    obtain ⟨x, hx, hcx⟩ := List.mem_flatten.mp hc
    exact ih (hl x hx) c hcx

/-- On a text of one line the anchors are the ends of the text. -/
theorem accepts_line {r : RegularExpression Char} {s : Text} (hline : '\n' ∉ s) :
    accepts r s = true ↔ s ∈ r.matches' := by
  rw [accepts, List.splitOn_eq_singleton hline, List.any_cons, List.any_nil, Bool.or_false,
    RegularExpression.rmatch_iff_matches']

theorem accepts_iff {r : RegularExpression Char} {s : Text} :
    accepts r s = true ↔ ∃ line ∈ s.splitOn '\n', line ∈ r.matches' := by
  rw [accepts, List.any_eq_true]
  simp only [RegularExpression.rmatch_iff_matches']

/-- The anchors of an expression without newlines speak about the whole of a text unless another of its lines matches. -/
theorem accepts_whole_iff {r : RegularExpression Char} {s : Text} (hr : ∀ w ∈ r.matches', '\n' ∉ w) :
    (accepts r s = true → s ∈ r.matches') ↔ '\n' ∉ s ∨ ∀ line ∈ s.splitOn '\n', line ∉ r.matches' := by
  constructor
  · intro h
    by_cases hline : '\n' ∈ s
    · refine .inr fun line hmem hmatch => ?_
      exact hr s (h (accepts_iff.mpr ⟨line, hmem, hmatch⟩)) hline
    · exact .inl hline
  · rintro (hline | hnone) haccepts
    · exact (accepts_line hline).mp haccepts
    · obtain ⟨line, hmem, hmatch⟩ := accepts_iff.mp haccepts
      exact absurd hmatch (hnone line hmem)

/-! ### Repeated bracket expressions -/

section
variable {cs : List Char} {s : Text}

theorem mem_oneOf : s ∈ (oneOf cs).matches' ↔ ∃ c ∈ cs, s = [c] := by
  induction cs with
  | nil => exact iff_of_false (Set.notMem_empty s) (by simp)
  | cons c cs ih =>
    rw [oneOf, List.foldr_cons, RegularExpression.matches'_add, Language.mem_add, ← oneOf, ih,
      RegularExpression.matches'_char]
    simp only [List.mem_cons, exists_eq_or_imp]
    exact Iff.rfl

theorem mem_oneOf_pow {m : Nat} : s ∈ (oneOf cs).matches' ^ m ↔ s.length = m ∧ ∀ c ∈ s, c ∈ cs := by
  induction m generalizing s with
  | zero =>
    rw [pow_zero, Language.mem_one, List.length_eq_zero_iff]
    exact ⟨fun h => ⟨h, by simp [h]⟩, And.left⟩
  | succ m ih =>
    rw [pow_succ', Language.mem_mul]
    constructor
    · rintro ⟨a, ha, b, hb, rfl⟩
      obtain ⟨c, hc, rfl⟩ := mem_oneOf.mp ha
      obtain ⟨hlen, hmem⟩ := ih.mp hb
      exact ⟨by simp [hlen], List.forall_mem_cons.mpr ⟨hc, hmem⟩⟩
    · rintro ⟨hlen, hmem⟩
      obtain ⟨c, s, rfl⟩ := List.exists_cons_of_length_eq_add_one hlen
      obtain ⟨hc, hs⟩ := List.forall_mem_cons.mp hmem
      exact ⟨[c], mem_oneOf.mpr ⟨c, hc, rfl⟩, s, ih.mpr ⟨Nat.succ.inj hlen, hs⟩, rfl⟩

theorem mem_optional_pow {k : Nat} :
    s ∈ ((1 : RegularExpression Char) + oneOf cs).matches' ^ k ↔ s.length ≤ k ∧ ∀ c ∈ s, c ∈ cs := by
  induction k generalizing s with
  | zero =>
    rw [pow_zero, Language.mem_one, Nat.le_zero, List.length_eq_zero_iff]
    exact ⟨fun h => ⟨h, by simp [h]⟩, And.left⟩
  | succ k ih =>
    rw [pow_succ', Language.mem_mul]
    constructor
    · rintro ⟨a, ha, b, hb, rfl⟩
      obtain ⟨hlen, hmem⟩ := ih.mp hb
      rw [RegularExpression.matches'_add, Language.mem_add, RegularExpression.matches'_epsilon, Language.mem_one] at ha
      rcases ha with rfl | ha
      · exact ⟨Nat.le_succ_of_le hlen, hmem⟩
      · obtain ⟨c, hc, rfl⟩ := mem_oneOf.mp ha
        exact ⟨Nat.succ_le_succ hlen, List.forall_mem_cons.mpr ⟨hc, hmem⟩⟩
    · rintro ⟨hlen, hmem⟩
      rw [RegularExpression.matches'_add]
      cases s with
      | nil => exact ⟨[], Or.inl rfl, [], ih.mpr ⟨Nat.zero_le k, hmem⟩, rfl⟩
      | cons c s =>
        obtain ⟨hc, hs⟩ := List.forall_mem_cons.mp hmem
        exact ⟨[c], Or.inr (mem_oneOf.mpr ⟨c, hc, rfl⟩), s, ih.mpr ⟨Nat.le_of_succ_le_succ hlen, hs⟩, rfl⟩

/-- `[cs]{m,n}` takes the texts of these lengths over these characters. -/
theorem mem_interval {m n : Nat} (hmn : m ≤ n) :
    s ∈ (interval (oneOf cs) m n).matches' ↔ (m ≤ s.length ∧ s.length ≤ n) ∧ ∀ c ∈ s, c ∈ cs := by
  rw [interval, RegularExpression.matches'_mul, RegularExpression.matches'_pow, RegularExpression.matches'_pow,
    Language.mem_mul]
  constructor
  · rintro ⟨a, ha, b, hb, rfl⟩
    obtain ⟨hlen, hmem⟩ := mem_oneOf_pow.mp ha
    obtain ⟨hlen', hmem'⟩ := mem_optional_pow.mp hb
    rw [List.length_append]
    refine ⟨by omega, fun c hc => ?_⟩
    rcases List.mem_append.mp hc with hc | hc
    · exact hmem c hc
    · exact hmem' c hc
  · rintro ⟨⟨hmin, hmax⟩, hmem⟩
    refine ⟨s.take m, mem_oneOf_pow.mpr ⟨List.length_take_of_le hmin, fun c hc => hmem c (List.mem_of_mem_take hc)⟩,
      s.drop m, mem_optional_pow.mpr ⟨?_, fun c hc => hmem c (List.mem_of_mem_drop hc)⟩, List.take_append_drop m s⟩
    rw [List.length_drop]
    omega

theorem accepts_interval {m n : Nat} (hmn : m ≤ n) (hline : '\n' ∉ s) :
    accepts (interval (oneOf cs) m n) s = true ↔ (m ≤ s.length ∧ s.length ≤ n) ∧ ∀ c ∈ s, c ∈ cs := by
  rw [accepts_line hline, mem_interval hmn]

end

end Regex
