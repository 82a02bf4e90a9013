import OpsSupportability.EventLog
import OpsSupportability.Lib.Fuel

/-! What the functions of a template expansion do: with more fuel the same, on a key that occurs in the
    text independently of the static buffer, and on any other key nothing but hand out that buffer. Before it, the pair
    that the key and its value come in. -/

namespace OpsSupportability
namespace EventLog

open Fuel

/-! ### Making a pair -/

/-- The bounds of the guards are one bound on the two lengths, under which the value is not cut off. -/
theorem keyValueString_eq (key value : Text) :
    keyValueString key value =
      if 0 < key.length ∧ 0 < value.length ∧ key.length + value.length ≤ 125 then some (key ++ '=' :: value) else none := by
  have hlen : (value.take (keyValueSize - 1)).length = min 127 value.length := List.length_take
  have hkv : keyValueSize = 128 := rfl
  unfold keyValueString
  simp only [hkv] at hlen ⊢
  by_cases hfits : 0 < key.length ∧ 0 < value.length ∧ key.length + value.length ≤ 125
  · have htake : value.take (128 - 1) = value := List.take_of_length_le (by omega)
    rw [if_pos hfits, htake, if_pos]
    rw [Int.emod_eq_of_lt (by omega) (by omega)]
    omega
  · rw [if_neg hfits, if_neg]
    rintro ⟨hkey, hbound, hroom, hvalue, hsize⟩
    rw [Int.emod_eq_of_lt (by omega) (by omega)] at hsize
    exact hfits ⟨hkey, by omega, by omega⟩

section
variable {fuel fuel' : Nat} {keyName key rep str s1 s2 buffer b₁ b₂ : Text} {tokens : List Text}

/-! ### More fuel -/

theorem replaceLoop_below (h : fuel ≤ fuel') :
    Below .running (replaceLoop keyName rep fuel str buffer) (replaceLoop keyName rep fuel' str buffer) := by
  induction fuel generalizing fuel' str buffer with
  | zero => exact Below.bot _
  | succ fuel ih =>
    obtain ⟨more, rfl⟩ := Nat.exists_eq_add_of_le h
    rw [show fuel + 1 + more = (fuel + more) + 1 by omega, replaceLoop, replaceLoop]
    split
    · exact Below.refl _
    · split
      · exact ih (by omega)
      · exact Below.refl _

theorem replaceStr_below (h : fuel ≤ fuel') :
    Below .running (replaceStr fuel str key rep buffer) (replaceStr fuel' str key rep buffer) := by
  unfold replaceStr
  split
  · exact Below.refl _
  · exact (replaceLoop_below h).map

theorem replaceTokens_below (h : fuel ≤ fuel') :
    Below .running (replaceTokens fuel key tokens s1 buffer) (replaceTokens fuel' key tokens s1 buffer) := by
  induction tokens generalizing s1 buffer with
  | nil => exact Below.refl _
  | cons token tokens ih =>
    refine (replaceStr_below h).bind fun r => ?_
    cases r with
    | none => exact Below.refl _
    | some r => exact ih

theorem populateStr_below (h : fuel ≤ fuel') :
    Below .running (populateStr fuel s1 s2 buffer) (populateStr fuel' s1 s2 buffer) := by
  unfold populateStr
  split
  · split
    · exact Below.refl _
    · exact Below.refl _
    · exact (replaceTokens_below h).bind fun r => Below.refl _
  · exact Below.refl _

theorem fillKeys_below (h : fuel ≤ fuel') {n : Nat} {args : List (Option Text)} {a : Arrays} :
    Below .running (fillKeys fuel n args a) (fillKeys fuel' n args a) := by
  induction n generalizing args a with
  | zero => exact Below.refl _
  | succ n ih =>
    match args with
    | [] => exact Below.refl _
    | none :: args => exact Below.refl _
    | some tmp :: args =>
      refine (populateStr_below h).bind fun r => ?_
      obtain ⟨ret, evtMsg, buffer⟩ := r
      dsimp only
      split
      · exact Below.refl _
      · split
        · exact ih
        · exact Below.refl _

theorem logSlot_below (h : fuel ≤ fuel') {journal : Sent → Int} {e : Event} {args : List (Option Text)} :
    Below .running (logSlot journal fuel e args buffer) (logSlot journal fuel' e args buffer) :=
  (fillKeys_below h).bind fun _ => Below.refl _

theorem logEvent_below (h : fuel ≤ fuel') {journal : Sent → Int} {evTable : Option Table} {evName : Text}
    {args : List (Option Text)} :
    Below .running (logEvent journal fuel evTable evName args buffer) (logEvent journal fuel' evTable evName args buffer) := by
  unfold logEvent
  split
  · exact logSlot_below h
  · exact Below.refl _

/-! ### One pair -/

/-- The key in braces, if the pair has a form that `populate_str` accepts. -/
def acceptedKey (s2 : Text) : Option Text :=
  if 0 < s2.length ∧ s2.length < keyValueSize then
    match Text.tokens '=' s2 with
    | key :: _ :: _ => makeKeyFormat key
    | _ => none
  else none

theorem acceptedKey_some (h : acceptedKey s2 = some keyName) :
    0 < s2.length ∧ s2.length < keyValueSize ∧
      ∃ key token tokens, Text.tokens '=' s2 = key :: token :: tokens ∧ makeKeyFormat key = some keyName := by
  unfold acceptedKey at h
  split at h
  · next hlen =>
    split at h
    · next key token tokens htokens => exact ⟨hlen.1, hlen.2, key, token, tokens, htokens, h⟩
    · cases h
  · cases h

variable (b₁ b₂) in
/-- A key that occurs in the text is replaced whatever the buffer holds. -/
theorem replaceLoop_fresh (h : keyName <:+: str) :
    replaceLoop keyName rep fuel str b₁ = replaceLoop keyName rep fuel str b₂ := by
  cases fuel with
  | zero => rfl
  | succ fuel =>
    rw [replaceLoop, replaceLoop]
    cases hcut : Text.cutFirst keyName str with
    | none => exact absurd h (Text.cutFirst_none.mp hcut)
    | some r => rfl

theorem replaceLoop_absent (h : ¬ keyName <:+: str) :
    replaceLoop keyName rep (fuel + 1) str buffer = .ok (str, buffer) := by
  rw [replaceLoop, Text.cutFirst_none.mpr h]

theorem replaceTokens_ne_none (hkey : makeKeyFormat key = some keyName) :
    replaceTokens fuel key tokens s1 buffer ≠ .ok none := by
  induction tokens generalizing s1 buffer with
  | nil => simp [replaceTokens]
  | cons token tokens ih =>
    rw [replaceTokens, replaceStr, hkey]
    cases hr : replaceLoop keyName token fuel s1 buffer with
    | error fault => simp [hr, Except.map, bind, Except.bind]
    | ok r => simpa [hr, Except.map, bind, Except.bind] using ih

theorem populateStr_fresh (hk : acceptedKey s2 = some keyName) (h : keyName <:+: s1) :
    populateStr fuel s1 s2 b₁ = populateStr fuel s1 s2 b₂ := by
  obtain ⟨hpos, hlt, key, token, tokens, htokens, hkey⟩ := acceptedKey_some hk
  have hsame : replaceTokens fuel key (token :: tokens) s1 b₁ = replaceTokens fuel key (token :: tokens) s1 b₂ := by
    rw [replaceTokens, replaceTokens, replaceStr, replaceStr, hkey]
    simp only [replaceLoop_fresh b₁ b₂ h]
  have hsize : 0 < s2.length ∧ s2.length < keyValueSize := ⟨hpos, hlt⟩
  simp only [populateStr, hsize, and_self, if_true, htokens, hsame]
  cases hr : replaceTokens fuel key (token :: tokens) s1 b₂ with
  | error fault => rfl
  | ok r =>
    cases r with
    | none => exact absurd hr (replaceTokens_ne_none hkey)
    | some r => rfl

/-- A key that does not occur hands out what the buffer holds. -/
theorem replaceTokens_absent (hkey : makeKeyFormat key = some keyName) (h : ¬ keyName <:+: s1) :
    replaceTokens (fuel + 1) key tokens s1 buffer = .ok (some (s1, buffer)) := by
  induction tokens with
  | nil => rfl
  | cons token tokens ih =>
    rw [replaceTokens, replaceStr, hkey]
    simpa [replaceLoop_absent h, Except.map, bind, Except.bind] using ih

theorem populateStr_absent (hk : acceptedKey s2 = some keyName) (h : ¬ keyName <:+: s1) :
    populateStr (fuel + 1) s1 s2 buffer =
      .ok (if 0 < buffer.length ∧ buffer.length < maxLogStr then (0, buffer, buffer) else (-1, s1, buffer)) := by
  obtain ⟨hpos, hlt, key, token, tokens, htokens, hkey⟩ := acceptedKey_some hk
  have hsize : 0 < s2.length ∧ s2.length < keyValueSize := ⟨hpos, hlt⟩
  simp only [populateStr, hsize, and_self, if_true, htokens, replaceTokens_absent hkey h, bind, Except.bind]
  split <;> rfl

/-- A pair that is not refused is accepted. -/
theorem acceptedKey_of_populateStr {ret : Int} (h : populateStr fuel s1 s2 buffer = .ok (ret, str, b₁)) (hret : ¬ ret < 0) :
    (acceptedKey s2).isSome := by
  unfold populateStr at h
  split at h
  · next hlen =>
    split at h
    · cases h
    · obtain ⟨rfl, -⟩ := Prod.mk.inj (Except.ok.inj h)
      exact absurd (by decide) hret
    · next key tokens hne htokens =>
      cases tokens with
      | nil => exact absurd rfl (hne)
      | cons token tokens =>
        simp only [acceptedKey, hlen, and_self, if_true, htokens]
        cases hkey : makeKeyFormat key with
        | some keyName => rfl
        | none =>
          simp only [replaceTokens, replaceStr, hkey, bind, Except.bind, pure, Except.pure] at h
          obtain ⟨rfl, -⟩ := Prod.mk.inj (Except.ok.inj h)
          exact absurd (by decide) hret
  · obtain ⟨rfl, -⟩ := Prod.mk.inj (Except.ok.inj h)
    exact absurd (by decide) hret

end

end EventLog
end OpsSupportability
