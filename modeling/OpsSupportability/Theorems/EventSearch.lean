import Mathlib.Data.Nat.Find
import OpsSupportability.EventLog
import OpsSupportability.Theorems.EventInit

/-! Looking up an event: `event_search` tests the delimiter against the descriptions, not against the
    names that `find_last_index` looks at. When this still finds the right slot, and no other. -/

namespace OpsSupportability
namespace EventLog

section
variable {table : Table} {evTable : Option Table} {name : Text} {n : Nat}

/-! ### The two loops -/

/-- The loop of `event_search` ends at slot `i`. -/
def Stops (name : Text) (table : Table) (i : Nat) : Prop :=
  name = (table i).eventName ∨ eventNameDelimiterStr = (table i).eventDescription

theorem searchFrom_stops {k m : Nat} (hk : Stops name table k) (hlt : ∀ j < k, ¬ Stops name table j) (i : Nat)
    (hi : i ≤ k) (hm : k < i + m) : searchFrom name table m i = (k, List.range' i (k + 1 - i)) := by
  induction m generalizing i with
  | zero => omega
  | succ m ih =>
    by_cases heq : i = k
    · subst heq
      rw [show i + 1 - i = 1 by omega]
      rcases hk with hname | hdesc
      · simp [searchFrom, hname]
      · by_cases hname : name = (table i).eventName
        · simp [searchFrom, hname]
        · simp [searchFrom, hname, hdesc]
    · have hno := not_or.mp (hlt i (by omega))
      rw [show k + 1 - i = (k + 1 - (i + 1)) + 1 by omega, List.range'_succ, searchFrom, if_neg hno.1, if_neg hno.2,
        ih (i + 1) (by omega) (by omega)]

theorem searchFrom_end {m : Nat} (i : Nat) (hlt : ∀ j < i + m, ¬ Stops name table j) :
    searchFrom name table m i = (i + m, List.range' i m) := by
  induction m generalizing i with
  | zero => rfl
  | succ m ih =>
    have hno := not_or.mp (hlt i (by omega))
    rw [List.range'_succ, searchFrom, if_neg hno.1, if_neg hno.2, ih (i + 1) fun j hj => hlt j (by omega)]
    simp only [Prod.mk.injEq, and_true]
    omega

theorem findLastIndexFrom_some {m : Nat} (i : Nat) (h : findLastIndexFrom table m i = some n) :
    i ≤ n ∧ n < i + m ∧ (table n).eventName = eventNameDelimiterStr ∧
      ∀ j, i ≤ j → j < n → (table j).eventName ≠ eventNameDelimiterStr := by
  induction m generalizing i with
  | zero => cases h
  | succ m ih =>
    rw [findLastIndexFrom] at h
    split at h
    · next hname =>
      obtain rfl := Option.some.inj h
      exact ⟨le_rfl, by omega, hname, fun j h₁ h₂ => absurd h₂ (by omega)⟩
    · next hname =>
      obtain ⟨hle, hlt, hn, hbefore⟩ := ih (i + 1) h
      refine ⟨by omega, by omega, hn, fun j h₁ h₂ => ?_⟩
      by_cases heq : j = i
      · exact heq ▸ hname
      · exact hbefore j (by omega) h₂

/-- Where `find_last_index` finds the delimiter. -/
theorem findLastIndex_some (h : findLastIndex table = some n) :
    n < maxEventTableSize ∧ (table n).eventName = eventNameDelimiterStr ∧
      ∀ j < n, (table j).eventName ≠ eventNameDelimiterStr := by
  obtain ⟨-, hlt, hn, hbefore⟩ := findLastIndexFrom_some 0 h
  exact ⟨by omega, hn, fun j hj => hbefore j (Nat.zero_le j) hj⟩

/-! ### The slot that is used -/

theorem lookup_stops {k : Nat} (hk : Stops name table k) (hlt : ∀ j < k, ¬ Stops name table j)
    (hsize : k < maxEventTableSize) :
    lookup name (some table) = (if k = maxEventTableSize - 1 then none else some k) ∧
      (eventSearch name (some table)).2 = List.range (k + 1) := by
  have hsearch := searchFrom_stops hk hlt 0 (Nat.zero_le k) (m := maxEventTableSize) (by omega)
  refine ⟨?_, by simp only [eventSearch, hsearch, Nat.sub_zero, List.range_eq_range']⟩
  by_cases hlast : k = maxEventTableSize - 1
  · simp only [lookup, eventSearch, hsearch]
    simp [hlast, maxEventTableSize]
  · have : ¬ ((k : Int) = maxEventTableSize - 1 ∨ (k : Int) < 0) := by
      simp only [maxEventTableSize] at hlast ⊢
      omega
    simp only [lookup, eventSearch, hsearch, this, hlast, if_false]
    rfl

theorem lookup_end (hlt : ∀ j < maxEventTableSize, ¬ Stops name table j) :
    lookup name (some table) = some maxEventTableSize := by
  have hsearch := searchFrom_end 0 (m := maxEventTableSize) fun j hj => hlt j (by omega)
  simp only [lookup, eventSearch, hsearch]
  simp [maxEventTableSize]

/-- The branch for an unknown event is told from the others by what is sent. -/
theorem logSlot_sent_ne {journal : Sent → Int} {fuel : Nat} {e : Event} {args : List (Option Text)} {buffer : Text}
    {o : Outcome} (h : logSlot journal fuel e args buffer = .ok o) : o.sent ≠ some (.unknown name) := by
  unfold logSlot at h
  cases hf : fillKeys fuel e.numOfKeys.toNat args ⟨evtMsgOf e, [], [], buffer⟩ with
  | error fault => simp [hf, bind, Except.bind] at h
  | ok filled =>
    cases filled with
    | refused buffer =>
      simp only [hf, bind, Except.bind, pure, Except.pure, Except.ok.injEq] at h
      simp [← h]
    | done keyValueNone a =>
      cases hl : severityLevel e.severity with
      | none =>
        simp only [hf, hl, bind, Except.bind, pure, Except.pure, Except.ok.injEq] at h
        simp [← h]
      | some level =>
        simp only [hf, hl, bind, Except.bind, pure, Except.pure, Except.ok.injEq] at h
        simp [← h]

/-! ### When the search is right -/

/-- The table, if there is one, holds `n` events before its delimiter. -/
def Holds (evTable : Option Table) (n : Nat) : Prop := ∀ table, evTable = some table → findLastIndex table = some n

def NamedIn (evTable : Option Table) (n : Nat) (name : Text) : Prop :=
  ∃ table, evTable = some table ∧ ∃ i < n, (table i).eventName = name

/-- The slot of a loaded event is the first with its name; any other name is unknown; and no slot behind
    the delimiter is read. -/
structure SearchMeets (evTable : Option Table) (n : Nat) (name : Text) : Prop where
  known : ∀ table i, evTable = some table → i < n → (table i).eventName = name →
    (∀ j < i, (table j).eventName ≠ name) → lookup name evTable = some i
  unknown : ¬ NamedIn evTable n name → ∀ journal fuel args buffer,
    logEvent journal fuel evTable name args buffer = .ok ⟨-1, some (.unknown name), buffer⟩
  reads : ∀ i ∈ slotsRead name evTable, i ≤ n

/-- No loaded event before the one of the name is described by the delimiter; or the table is full, and
    the search ends at its last slot. -/
def SearchCondition (table : Table) (n : Nat) (name : Text) : Prop :=
  (∃ i < n, (table i).eventName = name ∧ ∀ j < i, (table j).eventDescription ≠ eventNameDelimiterStr) ∨
    (n = maxEventTableSize - 1 ∧ (∀ j < n, (table j).eventDescription ≠ eventNameDelimiterStr) ∧
      (name = eventNameDelimiterStr ∨ (table n).eventDescription = eventNameDelimiterStr))

theorem logEvent_unknown_iff {journal : Sent → Int} {fuel : Nat} {args : List (Option Text)} {buffer : Text} :
    logEvent journal fuel (some table) name args buffer = .ok ⟨-1, some (.unknown name), buffer⟩ ↔
      lookup name (some table) = none := by
  constructor
  · intro h
    cases hl : lookup name (some table) with
    | none => rfl
    | some i =>
      simp only [logEvent, hl] at h
      exact absurd rfl (logSlot_sent_ne h)
  · intro h
    simp only [logEvent, h]

theorem slotsRead_stops {k : Nat} (hk : Stops name table k) (hlt : ∀ j < k, ¬ Stops name table j)
    (hsize : k < maxEventTableSize) : ∀ i ∈ slotsRead name (some table), i ≤ k := by
  obtain ⟨hlookup, hreads⟩ := lookup_stops hk hlt hsize
  intro i hi
  rw [slotsRead, hlookup, hreads, List.mem_append] at hi
  rcases hi with hi | hi
  · have := List.mem_range.mp hi
    omega
  · split at hi
    · cases hi
    · exact (List.mem_singleton.mp hi).le

theorem exists_first {P : Nat → Prop} {i : Nat} (h : P i) : ∃ k ≤ i, P k ∧ ∀ j < k, ¬ P j := by
  classical
  exact ⟨Nat.find ⟨i, h⟩, Nat.find_min' ⟨i, h⟩ h, Nat.find_spec ⟨i, h⟩, fun j hj => Nat.find_min ⟨i, h⟩ hj⟩

theorem searchMeets_of_named (h : findLastIndex table = some n) {i : Nat} (hi : i < n) (hname : (table i).eventName = name)
    (hdesc : ∀ j < i, (table j).eventDescription ≠ eventNameDelimiterStr) : SearchMeets (some table) n name := by
  have hsize := (findLastIndex_some h).1
  obtain ⟨k, hki, hk, hfirst⟩ := exists_first (P := fun k => (table k).eventName = name) hname
  have hlt : ∀ j < k, ¬ Stops name table j := fun j hj hstop => by
    rcases hstop with hs | hs
    · exact hfirst j hj hs.symm
    · exact hdesc j (by omega) hs.symm
  have hstop : Stops name table k := Or.inl hk.symm
  obtain ⟨hlookup, -⟩ := lookup_stops hstop hlt (by omega)
  refine ⟨fun t j ht hj hjname hjfirst => ?_, fun hno => absurd ⟨table, rfl, i, hi, hname⟩ hno, fun j hj => ?_⟩
  · obtain rfl := Option.some.inj ht
    have hjk : j = k := by
      rcases lt_trichotomy j k with hlt' | heq | hgt
      · exact absurd hjname (hfirst j hlt')
      · exact heq
      · exact absurd hk (hjfirst k hgt)
    rw [hlookup, if_neg (by simp only [maxEventTableSize] at hsize ⊢; omega), hjk]
  · have := slotsRead_stops hstop hlt (by omega) j hj
    omega

theorem searchMeets_of_full (h : findLastIndex table = some n) (hfull : n = maxEventTableSize - 1)
    (hno : ¬ NamedIn (some table) n name) (hdesc : ∀ j < n, (table j).eventDescription ≠ eventNameDelimiterStr)
    (hlast : name = eventNameDelimiterStr ∨ (table n).eventDescription = eventNameDelimiterStr) :
    SearchMeets (some table) n name := by
  obtain ⟨hsize, hn, -⟩ := findLastIndex_some h
  have hstop : Stops name table n := hlast.imp (fun heq => heq.trans hn.symm) Eq.symm
  have hlt : ∀ j < n, ¬ Stops name table j := fun j hj hs => by
    rcases hs with hs | hs
    · exact hno ⟨table, rfl, j, hj, hs.symm⟩
    · exact hdesc j hj hs.symm
  obtain ⟨hlookup, -⟩ := lookup_stops hstop hlt hsize
  refine ⟨fun t j ht hj hjname _ => absurd ⟨t, ht, j, hj, hjname⟩ hno, fun _ _ _ _ _ => ?_, slotsRead_stops hstop hlt hsize⟩
  rw [logEvent_unknown_iff, hlookup, if_pos hfull]

theorem condition_of_named (h : findLastIndex table = some n) (hmeets : SearchMeets (some table) n name) {i : Nat}
    (hi : i < n) (hname : (table i).eventName = name) : SearchCondition table n name := by
  have hsize := (findLastIndex_some h).1
  obtain ⟨k, hki, hk, hfirst⟩ := exists_first (P := fun k => (table k).eventName = name) hname
  have hlookup := hmeets.known table k rfl (by omega) hk hfirst
  refine Or.inl ⟨k, by omega, hk, fun j hj hdesc => ?_⟩
  -- A description equal to the delimiter would have ended the search before slot `k`.
  obtain ⟨m, hmj, hm, hlt⟩ := exists_first (P := Stops name table) (Or.inr hdesc.symm)
  obtain ⟨hlookup', -⟩ := lookup_stops hm hlt (by omega)
  rw [hlookup, if_neg (by simp only [maxEventTableSize] at hsize ⊢; omega)] at hlookup'
  have := Option.some.inj hlookup'
  omega

theorem condition_of_unnamed (h : findLastIndex table = some n) (hmeets : SearchMeets (some table) n name)
    (hno : ¬ NamedIn (some table) n name) : SearchCondition table n name := by
  obtain ⟨hsize, hn, -⟩ := findLastIndex_some h
  have hnone : lookup name (some table) = none :=
    logEvent_unknown_iff.mp (hmeets.unknown hno (fun _ => 0) 0 [] [])
  by_cases hex : ∃ i < maxEventTableSize, Stops name table i
  · obtain ⟨i, hi, hstop⟩ := hex
    obtain ⟨k, hki, hk, hlt⟩ := exists_first hstop
    obtain ⟨hlookup, hreads⟩ := lookup_stops hk hlt (by omega)
    have hlast : k = maxEventTableSize - 1 := by
      by_contra hne
      rw [hnone, if_neg hne] at hlookup
      cases hlookup
    have hkn : k ≤ n := hmeets.reads k (by
      rw [slotsRead, hreads]
      exact List.mem_append_left _ (List.mem_range.mpr (Nat.lt_succ_self k)))
    have hkeq : k = n := by omega
    subst hkeq
    refine Or.inr ⟨hlast, fun j hj hdesc => hlt j hj (Or.inr hdesc.symm), ?_⟩
    exact hk.imp (fun heq => heq.trans hn) Eq.symm
  · have hend := lookup_end fun j hj (hstop : Stops name table j) => hex ⟨j, hj, hstop⟩
    rw [hnone] at hend
    cases hend

/-- For a table with `n` loaded events: the search meets its purpose for a name exactly under the condition. -/
theorem searchMeets_iff (h : Holds evTable n) :
    SearchMeets evTable n name ↔ ∀ table, evTable = some table → SearchCondition table n name := by
  cases evTable with
  | none =>
    constructor
    · intro _ table ht
      cases ht
    · intro _
      refine ⟨fun table i ht => ?_, fun _ _ _ _ _ => rfl, fun i hi => ?_⟩
      · cases ht
      · cases hi
  | some table =>
    have hn := h table rfl
    constructor
    · intro hmeets t ht
      obtain rfl := Option.some.inj ht
      by_cases hnamed : NamedIn (some table) n name
      · obtain ⟨t, ht, i, hi, hname⟩ := hnamed
        obtain rfl := Option.some.inj ht
        exact condition_of_named hn hmeets hi hname
      · exact condition_of_unnamed hn hmeets hnamed
    · intro hcond
      by_cases hnamed : NamedIn (some table) n name
      · rcases hcond table rfl with ⟨i, hi, hname, hdesc⟩ | ⟨-, hdesc, -⟩
        · exact searchMeets_of_named hn hi hname hdesc
        · obtain ⟨t, ht, i, hi, hname⟩ := hnamed
          obtain rfl := Option.some.inj ht
          exact searchMeets_of_named hn hi hname fun j hj => hdesc j (by omega)
      · rcases hcond table rfl with ⟨i, hi, hname, -⟩ | ⟨hfull, hdesc, hlast⟩
        · exact absurd ⟨table, rfl, i, hi, hname⟩ hnamed
        · exact searchMeets_of_full hn hfull hnamed hdesc hlast

end

theorem holds_shipped : Holds (some (filled usedMemory [fanCount, lldpEnabled])) 2 := by
  intro table ht
  rw [← Option.some.inj ht]
  refine findLastIndex_filled (fun d hd => ?_) (by decide)
  rcases List.mem_pair.mp hd with rfl | rfl
  · exact fanCount_wellFormed
  · exact lldpEnabled_wellFormed

theorem searchMeets_iff_shipped :
    SearchMeets (some (filled usedMemory [fanCount, lldpEnabled])) 2 "FAN_COUNT".toList ↔
      ∀ table, some (filled usedMemory [fanCount, lldpEnabled]) = some table →
        SearchCondition table 2 "FAN_COUNT".toList :=
  searchMeets_iff holds_shipped

def unknownName : Text := "NO_SUCH_EVENT".toList

/-- An unknown event on a table of two events: the search runs through the memory behind the delimiter
    and past the end of the table. -/
theorem unknownName_not_found :
    ∃ rets s, initAll (envOf (fileOf ["categories".toList] shipped)) 100 shippedCalls State.init = some (rets, s) ∧
      Holds s.evTable 2 ∧ lookup unknownName s.evTable = some maxEventTableSize ∧ ¬ SearchMeets s.evTable 2 unknownName := by
  obtain ⟨s, hrun, htable⟩ := shipped_loaded
  refine ⟨_, s, hrun, htable ▸ holds_shipped, ?_, fun hmeets => ?_⟩
  · rw [htable]
    refine lookup_end fun j _ => ?_
    rcases lt_or_ge 2 j with hj | hj
    · have : ¬ Stops unknownName (fun _ => usedMemory 0) 0 := by
        unfold Stops
        decide
      rw [Stops, filled_gt hj]
      exact this
    · have : ∀ j < 3, ¬ Stops unknownName (filled usedMemory [fanCount, lldpEnabled]) j := by
        unfold Stops
        decide
      exact this j (by omega)
  · rw [htable] at hmeets
    have hno : ∀ i < 2, (filled usedMemory [fanCount, lldpEnabled] i).eventName ≠ unknownName := by decide
    rcases condition_of_unnamed (holds_shipped _ rfl) hmeets (fun ⟨t, ht, i, hi, hname⟩ => by
        obtain rfl := Option.some.inj ht
        exact hno i hi hname) with ⟨i, hi, hname, -⟩ | ⟨hfull, -⟩
    · exact hno i hi hname
    · exact absurd hfull (by decide)

end EventLog
end OpsSupportability
