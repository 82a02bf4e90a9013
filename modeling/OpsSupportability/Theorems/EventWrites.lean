import OpsSupportability.EventWrites
import OpsSupportability.Theorems.EventVerbatim

/-! The writes of `log_event` against the sizes of its arrays. Each replacement writes one byte behind `key_name`;
    the other arrays are kept just when no expansion reaches 480 characters, and one that does is not refused. -/

namespace OpsSupportability
namespace EventLog

open Writes

section
variable {n i : Nat} {key keyName rep str s1 s2 buffer token evName : Text} {tokens : List Text}
  {args : List (Option Text)} {a : Arrays} {e : Event} {table : Table}

/-! ### The byte behind `key_name` -/

theorem makeKeyFormat_outside (hkey : key ≠ []) (hlen : key.length ≤ keyValueSize - 2) :
    ∃ w ∈ makeKeyFormatWrites key, ¬ w.Inside Memory.size := by
  refine ⟨⟨.keyName key.length, key.length + 1 + min 1 key.length + 1⟩, ?_, ?_⟩
  · rw [makeKeyFormatWrites, if_neg (Nat.not_lt_of_le hlen)]
    simp
  · have hpos : 0 < key.length := List.length_pos_of_ne_nil hkey
    change ¬ key.length + 1 + min 1 key.length + 1 ≤ key.length + 2
    rw [Nat.min_eq_left hpos]
    exact Nat.not_succ_le_self _

theorem replaceStr_outside (fuel : Nat) (hkey : key ≠ []) (hlen : key.length ≤ keyValueSize - 2) (str rep : Text) :
    ∃ w ∈ replaceStrWrites fuel str key rep, ¬ w.Inside Memory.size := by
  obtain ⟨w, hw, houtside⟩ := makeKeyFormat_outside hkey hlen
  exact ⟨w, List.mem_append_left _ (List.mem_append_right _ hw), houtside⟩

/-- The first of several tokens is a key of which `make_key_format` makes a format. -/
theorem key_of_tokens (hlen : s2.length < keyValueSize) (htokens : Text.tokens '=' s2 = key :: token :: tokens) :
    key ≠ [] ∧ key.length ≤ keyValueSize - 2 := by
  have hmem : key ∈ Text.tokens '=' s2 := htokens ▸ List.mem_cons_self
  have hdelim : '=' ∈ s2 := by
    by_contra hno
    have hone : (Text.tokens '=' s2).length ≤ 1 := by
      rw [Text.tokens, List.splitOn_eq_singleton hno]
      exact List.length_filter_le _ _
    rw [htokens] at hone
    exact absurd (Nat.le_of_succ_le_succ hone) (Nat.not_succ_le_zero _)
  have hlt := Text.length_lt_of_mem_tokens hdelim hmem
  refine ⟨fun hnil => ?_, Nat.le_of_lt_succ (Nat.lt_of_lt_of_le hlt (Nat.le_of_lt_succ hlen))⟩
  rw [Text.tokens, List.mem_filter, hnil] at hmem
  exact Bool.false_ne_true hmem.2

theorem populateStr_outside (fuel : Nat) (hpos : 0 < s2.length) (hlen : s2.length < keyValueSize)
    (htokens : Text.tokens '=' s2 = key :: token :: tokens) (s1 buffer : Text) :
    ∃ w ∈ populateStrWrites fuel s1 s2 buffer, ¬ w.Inside Memory.size := by
  obtain ⟨hkey, hkeyLen⟩ := key_of_tokens hlen htokens
  obtain ⟨w, hw, houtside⟩ := replaceStr_outside fuel hkey hkeyLen s1 token
  refine ⟨w, ?_, houtside⟩
  rw [populateStrWrites, if_pos ⟨hpos, hlen⟩, htokens]
  exact List.mem_append_left _ (List.mem_append_left _ hw)

/-! ### Calls that replace nothing -/

/-- `populate_str` refuses a pair before it comes to `replace_str`. -/
theorem populateStr_of_few (fuel : Nat) (htokens : (Text.tokens '=' s2).length < 2) (s1 buffer : Text) :
    populateStrWrites fuel s1 s2 buffer = [] ∧
      (populateStr fuel s1 s2 buffer = .ok (-1, s1, buffer) ∨ populateStr fuel s1 s2 buffer = .error .nullString) := by
  rw [populateStrWrites, populateStr]
  split
  · rcases h : Text.tokens '=' s2 with _ | ⟨key, _ | ⟨token, tokens⟩⟩
    · exact ⟨rfl, .inr rfl⟩
    · exact ⟨rfl, .inl rfl⟩
    · rw [h] at htokens
      exact absurd htokens (by simp)
  · exact ⟨rfl, .inl rfl⟩

/-- No key is replaced: the event has none, or the call passes none, or its first pair has no two parts. -/
def ReplacesNothing (e : Event) (args : List (Option Text)) : Prop :=
  0 < e.numOfKeys.toNat → ∀ p, args.head? = some (some p) → (Text.tokens '=' p).length < 2

theorem fillKeys_of_nothing (fuel : Nat) (hfits : ∀ p, some p ∈ args → p.length < keyValueSize)
    (h : 0 < n → ∀ p, args.head? = some (some p) → (Text.tokens '=' p).length < 2) (a : Arrays) :
    Writes.InBounds Memory.size (fillKeysWrites fuel n args a) ∧ fillKeys fuel n args a ≠ .error .overflow := by
  rcases n with _ | n
  · exact ⟨inBounds_nil, by rintro ⟨⟩⟩
  rcases args with _ | ⟨_ | p, args⟩
  · exact ⟨inBounds_nil, by rintro ⟨⟩⟩
  · exact ⟨inBounds_nil, by rintro ⟨⟩⟩
  · have hlen := hfits p List.mem_cons_self
    obtain ⟨hwrites, hret⟩ := populateStr_of_few fuel (h (Nat.succ_pos n) p rfl) a.evtMsg a.buffer
    rw [fillKeysWrites, fillKeys, storedPair, if_pos hlen]
    simp only [if_pos hlen, hwrites]
    have hinside : Writes.InBounds Memory.size [⟨.keyValuePair, p.length + 1⟩] := inBounds_cons.mpr ⟨hlen, inBounds_nil⟩
    rcases hret with hret | hret
    · rw [hret]
      exact ⟨by simpa using hinside, by rintro ⟨⟩⟩
    · rw [hret]
      exact ⟨by simpa using hinside, by rintro ⟨⟩⟩

theorem description_inBounds (e : Event) : Writes.InBounds Memory.size
    (if e.eventDescription.length < maxLogStr then [⟨.evtMsg, e.eventDescription.length + 1⟩] else []) := by
  split
  · next hlt => exact inBounds_cons.mpr ⟨hlt, inBounds_nil⟩
  · exact inBounds_nil

theorem overflow_of_logSlot {answer : Sent → Int} {fuel : Nat} (h : logSlot answer fuel e args buffer = .error .overflow) :
    fillKeys fuel e.numOfKeys.toNat args ⟨evtMsgOf e, [], [], buffer⟩ = .error .overflow := by
  unfold logSlot at h
  cases hf : fillKeys fuel e.numOfKeys.toNat args ⟨evtMsgOf e, [], [], buffer⟩ with
  | error fault =>
    simp only [hf, bind, Except.bind] at h
    rw [Except.error.inj h]
  | ok filled =>
    cases filled with
    | refused buffer => simp [hf, bind, Except.bind, pure, Except.pure] at h
    | done keyValueNone a =>
      simp only [hf, bind, Except.bind] at h
      split at h <;> cases h

/-! ### A call -/

/-- However long a call runs, each write is inside its array, and no expansion that does not fit is written. -/
structure StaysInside (evTable : Option Table) (evName : Text) (args : List (Option Text)) (buffer : Text) : Prop where
  inside : ∀ fuel, Writes.InBounds Memory.size (logEventWrites fuel evTable evName args buffer)
  refused : ∀ answer fuel, logEvent answer fuel evTable evName args buffer ≠ .error .overflow

theorem staysInside_iff (hlookup : lookup evName (some table) = some i) (hpairs : ∀ p, some p ∈ args → Accepted p)
    (buffer : Text) : StaysInside (some table) evName args buffer ↔ ReplacesNothing (table i) args := by
  have hfits : ∀ p, some p ∈ args → p.length < keyValueSize := fun p hp => Nat.lt_of_succ_lt (hpairs p hp).fits
  have hwrites : ∀ fuel, logEventWrites fuel (some table) evName args buffer =
      logSlotWrites fuel (table i) args buffer := fun fuel => by
    unfold logEventWrites
    rw [hlookup]
  constructor
  · intro hstays hkeys p hhead
    by_contra hmany
    match htokens : Text.tokens '=' p with
    | [] | [_] =>
      rw [htokens] at hmany
      simp at hmany
    | key :: token :: tokens =>
      obtain ⟨n, hn⟩ := Nat.exists_eq_succ_of_ne_zero (Nat.pos_iff_ne_zero.mp hkeys)
      obtain ⟨rest, rfl⟩ := List.head?_eq_some_iff.mp hhead
      have hlen := hfits p List.mem_cons_self
      have hpos : 0 < p.length := by
        obtain ⟨k, v, hkv⟩ := hpairs p List.mem_cons_self
        rw [(keyValueString_some hkv).1, List.length_append]
        exact Nat.lt_of_lt_of_le (Nat.succ_pos _) (Nat.le_add_left _ _)
      obtain ⟨w, hw, houtside⟩ := populateStr_outside 0 hpos hlen htokens (evtMsgOf (table i)) buffer
      refine houtside (hstays.inside 0 w ?_)
      rw [hwrites, logSlotWrites, hn, fillKeysWrites]
      simp only [storedPair, if_pos hlen]
      exact List.mem_append_right _ (List.mem_append_left _ (List.mem_append_right _ hw))
  · intro hnothing
    have hfill := fun fuel => fillKeys_of_nothing fuel hfits hnothing ⟨evtMsgOf (table i), [], [], buffer⟩
    refine ⟨fun fuel => ?_, fun answer fuel hover => ?_⟩
    · rw [hwrites, logSlotWrites, inBounds_append]
      exact ⟨description_inBounds _, (hfill fuel).1⟩
    · unfold logEvent at hover
      rw [hlookup] at hover
      exact (hfill fuel).2 (overflow_of_logSlot hover)

end

/-- Without its pair the event is logged within the arrays. -/
theorem staysInside_fan : StaysInside (some fanTable) "FAN_SPEED".toList [none] [] :=
  (staysInside_iff lookup_fan (fun p hp => by simp at hp) []).mpr fun _ p hp => by simp at hp

/-- With its pair, `make_key_format` writes four bytes into the three of `key_name`. -/
theorem fanPair_outside : ¬ StaysInside (some fanTable) "FAN_SPEED".toList [some ("s=".toList ++ "50".toList)] [] :=
  fun h => absurd (h.inside 1) (by decide +kernel)

end EventLog
end OpsSupportability
