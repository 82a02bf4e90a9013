import Mathlib.Data.Nat.Digits.Lemmas
import Mathlib.Logic.Relation
import OpsSupportability.Lib.Text

/-! Rewriting a text by one rule, always at the leftmost occurrence. Unless the rule is the identity, texts
    of a bounded length cannot be rewritten forever: the length changes with every step, or, between texts
    of one length, their weight as a number does. Where no replacement is part of an occurrence, the rewriting
    is one pass from left to right. -/

namespace Rewriting

/-- The leftmost occurrence of `pat` becomes `new`. -/
inductive Step (pat new : Text) : Text → Text → Prop
  | at {s pre post : Text} : Text.cutFirst pat s = some (pre, post) → Step pat new s (pre ++ new ++ post)

/-- In no beginning of the text does a pass from left to right leave the pattern: no occurrence that the
    rewriting finds has a part of a replacement in it. -/
def OnePass (pat new s : Text) : Prop := ∀ s', s' <+: s → ¬ pat <:+: Text.replaceAll pat new s'

instance (pat new s : Text) : Decidable (OnePass pat new s) :=
  decidable_of_iff (∀ s' ∈ s.inits, ¬ pat <:+: Text.replaceAll pat new s') (by simp [OnePass])

section
variable {pat new s t pre post done rest : Text} {cap : Nat}

theorem step_iff : (∃ t, Step pat new s t) ↔ pat <:+: s := by
  constructor
  · rintro ⟨t, ⟨hcut⟩⟩
    by_contra hno
    rw [Text.cutFirst_none.mpr hno] at hcut
    cases hcut
  · intro h
    cases hcut : Text.cutFirst pat s with
    | none => exact absurd h (Text.cutFirst_none.mp hcut)
    | some r => exact ⟨_, Step.at hcut⟩

theorem Step.length (h : Step pat new s t) : t.length + pat.length = s.length + new.length := by
  obtain ⟨hcut⟩ := h
  rw [Text.cutFirst_some hcut]
  simp only [List.length_append]
  omega

/-- The identity rewrites a text to itself. -/
theorem Step.eq_of_same (h : Step pat pat s t) : t = s := by
  obtain ⟨hcut⟩ := h
  exact (Text.cutFirst_some hcut).symm

/-- A text that contains the pattern brings it back. -/
theorem Step.occurs (h : Step pat new s t) (hnew : pat <:+: new) : pat <:+: t := by
  obtain ⟨hcut⟩ := h
  exact hnew.trans ⟨_, _, rfl⟩

/-! ### One pass -/

/-- Behind what has been done, the next occurrence is where the pass finds it, and the pass goes on behind it. -/
theorem cutFirst_of_apart (hpat : pat ≠ []) (h : ∀ s', s' <+: rest → ¬ pat <:+: done ++ Text.replaceAll pat new s')
    (hcut : Text.cutFirst pat rest = some (pre, post)) :
    Text.cutFirst pat (done ++ rest) = some (done ++ pre, post) ∧
      ∀ s', s' <+: post → ¬ pat <:+: done ++ pre ++ new ++ Text.replaceAll pat new s' := by
  have hrest := Text.cutFirst_some hcut
  have hleft := Text.cutFirst_leftmost hpat hcut
  constructor
  · have hbegin : pre ++ pat.dropLast <+: rest := by
      rw [hrest, List.append_assoc]
      exact (List.prefix_append_right_inj _).mpr ((List.dropLast_prefix pat).trans (List.prefix_append _ _))
    have hdone := h _ hbegin
    rw [Text.replaceAll_none new (Text.cutFirst_none.mpr hleft), ← List.append_assoc] at hdone
    rw [hrest, ← List.append_assoc, ← List.append_assoc]
    exact Text.cutFirst_append hpat hdone post
  · intro s' hs'
    have hbegin : pre ++ pat ++ s' <+: rest := hrest ▸ (List.prefix_append_right_inj _).mpr hs'
    have hdone := h _ hbegin
    rwa [Text.replaceAll_some new hpat (Text.cutFirst_append hpat hleft s'), ← List.append_assoc, ← List.append_assoc] at hdone

theorem OnePass.apart (h : OnePass pat new s) : ∀ s', s' <+: s → ¬ pat <:+: [] ++ Text.replaceAll pat new s' := h

/-! ### The weight of a text -/

def radix : Nat := 0x110000

/-- The characters as the digits of a number. -/
def weight (s : Text) : Nat := Nat.ofDigits radix (s.map Char.toNat)

theorem toNat_lt_radix (c : Char) : c.toNat < radix := by
  rcases c.valid with h | h
  · exact lt_trans h (by decide)
  · exact h.2

theorem digits_lt (s : Text) : ∀ d ∈ s.map Char.toNat, d < radix := by
  intro d hd
  obtain ⟨c, -, rfl⟩ := List.mem_map.mp hd
  exact toNat_lt_radix c

theorem weight_lt (s : Text) : weight s < radix ^ s.length := by
  have := Nat.ofDigits_lt_base_pow_length (by decide) (digits_lt s)
  rwa [List.length_map] at this

theorem weight_append (s t : Text) : weight (s ++ t) = weight s + radix ^ s.length * weight t := by
  rw [weight, List.map_append, Nat.ofDigits_append, List.length_map]
  rfl

theorem weight_injective (hlen : s.length = t.length) (h : weight s = weight t) : s = t := by
  have hdigits := Nat.ofDigits_inj_of_len_eq (by decide) (by simpa using hlen) (digits_lt s) (digits_lt t) h
  exact List.map_injective_iff.mpr (fun a b hab => Char.toNat_inj.mp hab) hdigits

theorem weight_lt_weight (hlen : new.length = pat.length) (h : weight new < weight pat) :
    weight (pre ++ new ++ post) < weight (pre ++ pat ++ post) := by
  have hpos : 0 < radix ^ pre.length := Nat.pow_pos (by decide)
  have := Nat.mul_lt_mul_of_pos_left h hpos
  simp only [weight_append, List.length_append, hlen]
  omega

/-! ### Steps do not go on forever -/

/-- Unless the rule is the identity, some measure decreases with every step between texts below a length. -/
theorem exists_measure (cap : Nat) (hne : new ≠ pat) :
    ∃ μ : Text → Nat, ∀ s t, Step pat new s t → s.length < cap → t.length < cap → μ t < μ s := by
  rcases lt_trichotomy new.length pat.length with hlen | hlen | hlen
  · refine ⟨List.length, fun s t h _ _ => ?_⟩
    have := h.length
    omega
  · rcases lt_trichotomy (weight new) (weight pat) with hw | hw | hw
    · refine ⟨weight, fun s t h _ _ => ?_⟩
      obtain ⟨hcut⟩ := h
      rw [Text.cutFirst_some hcut]
      exact weight_lt_weight hlen hw
    · exact absurd (weight_injective hlen hw) hne
    · refine ⟨fun s => radix ^ s.length - weight s, fun s t h _ _ => ?_⟩
      have hsame : t.length = s.length := by
        have := h.length
        omega
      have hless : weight s < weight t := by
        obtain ⟨hcut⟩ := h
        rw [Text.cutFirst_some hcut]
        exact weight_lt_weight hlen.symm hw
      have hbound := weight_lt t
      rw [hsame] at hbound
      simp only [hsame]
      omega
  · refine ⟨fun s => cap - s.length, fun s t h hs ht => ?_⟩
    have := h.length
    simp only
    omega

end

end Rewriting
