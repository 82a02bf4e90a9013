import OpsSupportability.EventWrites
import OpsSupportability.KeyValue
import OpsSupportability.Theorems.EventDecode

/-! The text of a key and its value is whole or there is none, but for keys whose length does not fit an `int`. -/

namespace OpsSupportability
namespace KeyValue

open EventLog (keyValueSize)
open Writes (Write)

section
variable {k v str : Text}

theorem toInt_of_lt {n : Nat} (h : n < 2 ^ 31) : toInt n = n := by
  unfold toInt
  rw [Int.bmod_def]
  split <;> omega

/-- An `int` between the bounds is the length up to multiples of 2^32. -/
theorem toInt_range {n m : Nat} (hm : m ≤ 2 ^ 31) : (0 < toInt n ∧ toInt n < m) ↔ 1 ≤ n % 2 ^ 32 ∧ n % 2 ^ 32 < m := by
  unfold toInt
  rw [Int.bmod_def]
  split <;> omega

theorem toInt_eq {n : Nat} (h : 0 < toInt n) : toInt n = (n % 2 ^ 32 : Nat) := by
  unfold toInt at h ⊢
  rw [Int.bmod_def] at h ⊢
  split at h <;> omega

/-- The difference is not negative, so that the comparison is one of numbers. -/
theorem toUnsigned_room {size : Int} (hpos : 0 < size) (h : size ≤ 126) : toUnsigned (room size) = room size := by
  unfold toUnsigned room keyValueSize
  omega

@[simp] theorem after_returned (o : Outcome) (before : List (Write Memory)) : (o.after before).returned = o.returned :=
  rfl

@[simp] theorem after_writes (o : Outcome) (before : List (Write Memory)) : (o.after before).writes = before ++ o.writes :=
  rfl

theorem size_eq (m : Memory) : m.size = 128 := by cases m <;> rfl

/-- The lengths for which there is a text. -/
def Fits (key value : Nat) : Prop := 1 ≤ key ∧ 1 ≤ value ∧ key + value ≤ 125

instance (key value : Nat) : Decidable (Fits key value) := inferInstanceAs (Decidable (_ ∧ _ ∧ _))

/-- No comparison turns a negative number into an `unsigned`. -/
def Outcome.NoWrap (o : Outcome) : Prop := ∀ d, o.compared = some d → toUnsigned d = d

@[simp] theorem after_noWrap (o : Outcome) (before : List (Write Memory)) : (o.after before).NoWrap ↔ o.NoWrap := Iff.rfl

/-- A value is appended as a whole or not at all, and inside the arrays. -/
theorem appendValue_spec (hpos : 0 < str.length) (hlen : str.length < keyValueSize) (v : Text) :
    (appendValue str v).returned = (if Fits str.length v.length then .pair (str ++ '=' :: v) else .null) ∧
      Writes.InBounds Memory.size (appendValue str v).writes ∧ (appendValue str v).NoWrap := by
  have hkv : (keyValueSize : Int) = 128 := rfl
  have hlen : str.length < 128 := hlen
  have hsize : toInt str.length = str.length := toInt_of_lt (by omega)
  have hstr2 : (v.take (keyValueSize - 1)).length = min 127 v.length := List.length_take
  unfold appendValue
  simp only [hsize, hkv]
  by_cases hroom : str.length ≤ 126
  · have hwrap : toUnsigned (room str.length) = room str.length := toUnsigned_room (by omega) (by omega)
    have hvalue : room str.length = 126 - str.length := by
      rw [room, hkv]
      omega
    have hnoWrap : ∀ d, some (room str.length) = some d → toUnsigned d = d := by
      intro d hd
      rw [← Option.some.inj hd, hwrap]
    rw [if_pos (by omega), hwrap]
    by_cases hfits : Fits str.length v.length
    · obtain ⟨-, hv, hsum⟩ := hfits
      have hwhole : v.take (keyValueSize - 1) = v := List.take_of_length_le (show v.length ≤ 127 by omega)
      have htmp : (str ++ ['='] ++ v).length = str.length + 1 + v.length := by
        rw [List.length_append, List.length_append, List.length_singleton]
      have hint : toInt (str ++ ['='] ++ v).length = (str ++ ['='] ++ v).length := toInt_of_lt (by omega)
      rw [hwhole, if_pos (by omega), if_pos (by omega), if_pos ⟨hpos, hv, hsum⟩]
      refine ⟨by simp, ?_, hnoWrap⟩
      simp only [Writes.inBounds_append, Writes.inBounds_cons, Writes.inBounds_nil, size_eq, htmp, and_true]
      omega
    · have hnot : ¬ ((v.take (keyValueSize - 1)).length > 0 ∧
          ((v.take (keyValueSize - 1)).length : Int) < room str.length) := by
        rintro ⟨hv, hsum⟩
        exact hfits ⟨hpos, by omega, by omega⟩
      rw [if_neg hnot, if_neg hfits]
      refine ⟨rfl, ?_, hnoWrap⟩
      simp only [Writes.inBounds_cons, Writes.inBounds_nil, size_eq, and_true]
      omega
  · have hfits : ¬ Fits str.length v.length := fun h => hroom (by have := h.2.2; omega)
    rw [if_neg (by omega), if_neg hfits]
    exact ⟨rfl, Writes.inBounds_nil, by rintro _ ⟨⟩⟩

/-- A length that fits `str` is that of the part of the key that is copied. -/
theorem keyValueOfSize_of_fits {n : Nat} (hpos : 0 < n) (hlen : n < keyValueSize) (hle : n ≤ k.length) (v : Text) :
    (keyValueOfSize n k v).returned = (if Fits n v.length then .pair (k.take n ++ '=' :: v) else .null) ∧
      Writes.InBounds Memory.size (keyValueOfSize n k v).writes ∧ (keyValueOfSize n k v).NoWrap := by
  have htake : (k.take n).length = n := List.length_take_of_le hle
  obtain ⟨hreturned, hwrites, hcompared⟩ := appendValue_spec (htake.symm ▸ hpos) (htake.symm ▸ hlen) v
  have hcond : 0 < (n : Int) ∧ (n : Int) < keyValueSize := ⟨Int.natCast_pos.mpr hpos, Int.ofNat_lt.mpr hlen⟩
  have hkv : keyValueSize = 128 := rfl
  rw [htake] at hreturned
  rw [keyValueOfSize, if_pos hcond, Int.toNat_natCast, after_returned, after_writes, after_noWrap]
  refine ⟨hreturned, Writes.inBounds_append.mpr ⟨?_, hwrites⟩, hcompared⟩
  simp only [Writes.inBounds_cons, Writes.inBounds_nil, size_eq, and_true]
  omega

theorem keyValueOfSize_of_not_fits {size : Int} (h : ¬ (0 < size ∧ size < keyValueSize)) :
    keyValueOfSize size k v = ⟨.null, [], none⟩ := by
  rw [keyValueOfSize, if_neg h]

/-- What the function does, of the key modulo the range of an `int`. -/
theorem keyValueString_spec (k v : Text) :
    (keyValueString k v).returned =
        (if Fits (k.length % 2 ^ 32) v.length then .pair (k.take (k.length % 2 ^ 32) ++ '=' :: v) else .null) ∧
      Writes.InBounds Memory.size (keyValueString k v).writes ∧ (keyValueString k v).NoWrap := by
  have hrange : (0 < toInt k.length ∧ toInt k.length < keyValueSize) ↔ _ :=
    toInt_range (show keyValueSize ≤ 2 ^ 31 by decide)
  by_cases h : 0 < toInt k.length ∧ toInt k.length < keyValueSize
  · obtain ⟨hpos, hlen⟩ := hrange.mp h
    rw [keyValueString, toInt_eq h.1]
    exact keyValueOfSize_of_fits hpos hlen (Nat.mod_le _ _) v
  · have hfits : ¬ Fits (k.length % 2 ^ 32) v.length := by
      rintro ⟨hpos, -, hsum⟩
      exact h (hrange.mpr ⟨hpos, Nat.lt_of_lt_of_le (show _ < 126 by omega) (by decide)⟩)
    rw [keyValueString, keyValueOfSize_of_not_fits h, if_neg hfits]
    exact ⟨rfl, Writes.inBounds_nil, nofun⟩

/-- The lengths as numbers are a model of the function for the keys whose length fits. -/
theorem keyValueString_refines (hlen : k.length < 2 ^ 32) (v : Text) :
    (keyValueString k v).returned = (EventLog.keyValueString k v).elim .null .pair := by
  rw [(keyValueString_spec k v).1, EventLog.keyValueString_eq, Nat.mod_eq_of_lt hlen, List.take_length]
  by_cases hfits : 0 < k.length ∧ 0 < v.length ∧ k.length + v.length ≤ 125
  · rw [if_pos (show Fits _ _ from hfits), if_pos hfits, Option.elim_some]
  · rw [if_neg (show ¬ Fits _ _ from hfits), if_neg hfits, Option.elim_none]

/-- A returned text and a comma fit the array of the caller. -/
theorem pair_length {text : Text} (h : (keyValueString k v).returned = .pair text) : text.length + 2 ≤ keyValueSize := by
  rw [(keyValueString_spec k v).1] at h
  split at h
  next hfits =>
    obtain ⟨-, -, hsum⟩ := hfits
    have hle : (k.take (k.length % 2 ^ 32)).length ≤ k.length % 2 ^ 32 := List.length_take_le _ _
    cases h
    rw [List.length_append, List.length_cons, show keyValueSize = 128 from rfl]
    omega
  next => cases h

/-- The text is that of the key and the value if they fit, and there is none if they do not. Nothing is written outside
    the arrays, no comparison wraps, a value that is clipped is refused, and so the caller can append a comma. -/
structure Exact (key value : Text) : Prop where
  returned : (keyValueString key value).returned =
    if Fits key.length value.length then .pair (key ++ '=' :: value) else .null
  inside : Writes.InBounds Memory.size (keyValueString key value).writes
  noWrap : (keyValueString key value).NoWrap
  clipped : keyValueSize - 1 < value.length → (keyValueString key value).returned = .null
  comma : ∀ text before, (keyValueString key value).returned = .pair text →
    (⟨.keyValuePair, (EventLog.storedPair text before).length + 2⟩ : Write EventLog.Memory).Inside EventLog.Memory.size

theorem exact_of_returned (h : (keyValueString k v).returned = if Fits k.length v.length then .pair (k ++ '=' :: v) else .null) :
    Exact k v where
  returned := h
  inside := (keyValueString_spec k v).2.1
  noWrap := (keyValueString_spec k v).2.2
  clipped := by
    intro hlong
    have hkv : keyValueSize = 128 := rfl
    have hfits : ¬ Fits k.length v.length := by
      rintro ⟨-, -, hsum⟩
      omega
    rw [h, if_neg hfits]
  comma := by
    intro text before htext
    have hlen := pair_length htext
    have hstored : EventLog.storedPair text before = text := if_pos (by omega)
    rw [hstored]
    exact hlen

/-- The exact text, unless the length of the key is one that an `int` takes for that of a short key. -/
theorem keyValueString_exact_iff (k v : Text) : Exact k v ↔ k.length < 2 ^ 32 ∨ ¬ Fits (k.length % 2 ^ 32) v.length := by
  have hspec := (keyValueString_spec k v).1
  by_cases hlen : k.length < 2 ^ 32
  · rw [Nat.mod_eq_of_lt hlen, List.take_length] at hspec
    exact iff_of_true (exact_of_returned hspec) (.inl hlen)
  · have hlong : ¬ Fits k.length v.length := by
      rintro ⟨-, -, hsum⟩
      omega
    constructor
    · rintro ⟨hreturned, -⟩
      rw [hspec, if_neg hlong] at hreturned
      refine .inr fun hfits => ?_
      rw [if_pos hfits] at hreturned
      cases hreturned
    · rintro (h | hfits)
      · exact absurd h hlen
      · exact exact_of_returned (by rw [hspec, if_neg hfits, if_neg hlong])

/-- A key of 4 GiB and one character. -/
theorem longKey_not_exact : ¬ Exact (List.replicate (2 ^ 32 + 1) 'a') ['b'] := by
  rintro ⟨hreturned, -⟩
  have hmod : (2 ^ 32 + 1) % 2 ^ 32 = 1 := by decide
  rw [(keyValueString_spec _ _).1, List.length_replicate, hmod, if_pos (by decide), if_neg (by decide)] at hreturned
  cases hreturned

end

end KeyValue
end OpsSupportability
