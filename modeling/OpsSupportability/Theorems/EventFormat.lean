import Mathlib.Logic.Relation
import OpsSupportability.Lib.Template
import OpsSupportability.PyEventLog
import OpsSupportability.Theorems.EventExpand

/-! The description text of an event: the C loop over the pairs and the Python one both compute the
    simultaneous substitution of the keys in the template, in whatever order the pairs come. -/

namespace OpsSupportability
namespace EventLog

open Template

/-- The replacements of the C loop, one occurrence at a time: the leftmost one of the first key, then the
    next key. -/
inductive Replacing : List (Text × Text) × Text → List (Text × Text) × Text → Prop where
  | one {key value s pre post : Text} {pairs : List (Text × Text)} :
      Text.cutFirst (braced key) s = some (pre, post) →
        Replacing ((key, value) :: pairs, s) ((key, value) :: pairs, pre ++ value ++ post)
  | next {key value s : Text} {pairs : List (Text × Text)} :
      Text.cutFirst (braced key) s = none → Replacing ((key, value) :: pairs, s) (pairs, s)

/-- The text stays shorter than 480 characters after every single replacement. -/
def StaysShort (pairs : List (Text × Text)) (s : Text) : Prop :=
  ∀ state, Relation.ReflTransGen Replacing (pairs, s) state → state.2.length < maxLogStr

structure ValidPair (key value : Text) : Prop where
  key_pos : 0 < key.length
  value_pos : 0 < value.length
  key_free : BraceFree key
  value_free : BraceFree value
  key_eq : '=' ∉ key
  value_eq : '=' ∉ value
  length : key.length + value.length ≤ 125

/-- The arguments that `EV_KV` makes of the pairs. -/
def encoded (pairs : List (Text × Text)) : List (Option Text) := pairs.map fun kv => keyValueString kv.1 kv.2

section
variable {key value s buffer : Text} {segments : List Segment} {pairs : List (Text × Text)} {fuel : Nat} {a : Arrays}

/-! ### One key -/

theorem StaysShort.step {pairs' : List (Text × Text)} {s' : Text} (h : StaysShort pairs s)
    (hr : Relation.ReflTransGen Replacing (pairs, s) (pairs', s')) : StaysShort pairs' s' := fun state hstate =>
  h state (hr.trans hstate)

theorem StaysShort.length (h : StaysShort pairs s) : s.length < maxLogStr := h (pairs, s) Relation.ReflTransGen.refl

variable (buffer) in
/-- The loop of `replace_str` substitutes the key; the buffer then holds the text, unless the key did not
    occur. Induction on the number of holes. -/
theorem replaceLoop_segments (hk : BraceFree key) (hv : BraceFree value) (wf : ∀ seg ∈ segments, seg.WellFormed)
    (short : StaysShort ((key, value) :: pairs) (text segments)) (hfuel : segments.count (.hole key) < fuel) :
    replaceLoop (braced key) value fuel (text segments) buffer =
        .ok (text (subst key value segments),
          if Segment.hole key ∈ segments then text (subst key value segments) else buffer) ∧
      Relation.ReflTransGen Replacing ((key, value) :: pairs, text segments)
        (pairs, text (subst key value segments)) := by
  induction hn : segments.count (.hole key) generalizing segments fuel buffer with
  | zero =>
    have habsent : Segment.hole key ∉ segments := List.count_eq_zero.mp hn
    obtain ⟨fuel, rfl⟩ := Nat.exists_eq_add_of_lt hfuel
    have hcut := cutFirst_absent hk wf habsent
    rw [subst_absent habsent, if_neg habsent]
    refine ⟨?_, Relation.ReflTransGen.single (Replacing.next hcut)⟩
    rw [replaceLoop, hcut]
  | succ n ih =>
    have hmem : Segment.hole key ∈ segments := List.count_pos_iff.mp (by omega)
    obtain ⟨pre, post, rfl, hpre⟩ := List.eq_append_cons_of_mem hmem
    obtain ⟨fuel, rfl⟩ : ∃ m, fuel = m + 1 := ⟨fuel - 1, by omega⟩
    have hcut := cutFirst_present post hk (fun seg h => wf seg (List.mem_append_left _ h)) hpre
    have htext : text pre ++ value ++ text post = text (pre ++ value.map .char ++ post) := by
      simp [text, List.flatMap_map, Segment.text]
    have hone : Replacing ((key, value) :: pairs, text (pre ++ .hole key :: post))
        ((key, value) :: pairs, text (pre ++ value.map .char ++ post)) := htext ▸ Replacing.one hcut
    have hshort := short.step (Relation.ReflTransGen.single hone)
    have hcount : (pre ++ value.map Segment.char ++ post).count (Segment.hole key) = n := by
      have hchars : (value.map Segment.char).count (.hole key) = 0 := by
        refine List.count_eq_zero.mpr fun h => ?_
        obtain ⟨c, -, hc⟩ := List.mem_map.mp h
        cases hc
      simp only [List.count_append, List.count_cons_self, hchars] at hn ⊢
      omega
    have hless : (pre ++ value.map Segment.char ++ post).count (.hole key) < fuel := by omega
    obtain ⟨hloop, hreach⟩ := ih (text (pre ++ value.map .char ++ post)) (wellFormed_one hv wf) hshort hless hcount
    rw [subst_one] at hloop hreach
    refine ⟨?_, Relation.ReflTransGen.head hone hreach⟩
    rw [replaceLoop, hcut]
    simp only [htext, hshort.length, if_true, hmem, hloop]
    split
    · rfl
    · next habsent => rw [← subst_one, subst_absent habsent]

/-! ### One pair -/

theorem length_le_text (segments : List Segment) : segments.length ≤ (text segments).length := by
  induction segments with
  | nil => exact Nat.le_refl _
  | cons seg segments ih =>
    have : 0 < seg.text.length := by cases seg <;> simp [Segment.text, braced]
    rw [text_cons, List.length_append, List.length_cons]
    omega

theorem keyValueString_valid (h : ValidPair key value) : keyValueString key value = some (key ++ '=' :: value) := by
  rw [keyValueString_eq, if_pos ⟨h.key_pos, h.value_pos, h.length⟩]

/-- `strtok` gives the key and the value back. -/
theorem tokens_pair (h : ValidPair key value) : Text.tokens '=' (key ++ '=' :: value) = [key, value] := by
  have hk : key ≠ [] := List.length_pos_iff.mp h.key_pos
  have hv : value ≠ [] := List.length_pos_iff.mp h.value_pos
  rw [Text.tokens, List.splitOn_append_cons_self_of_not_mem h.key_eq, List.splitOn_eq_singleton h.value_eq]
  simp [hk, hv]

theorem makeKeyFormat_valid (h : ValidPair key value) : makeKeyFormat key = some (braced key) := by
  have hlen := h.length
  obtain ⟨c, rest, rfl⟩ := List.exists_cons_of_length_pos h.key_pos
  have hsize : ¬ keyValueSize - 2 < (c :: rest).length := by
    simp only [keyValueSize]
    omega
  rw [makeKeyFormat, if_neg hsize]
  simp [braced]

variable (buffer) in
/-- `populate_str` on a pair whose key has a hole. -/
theorem populateStr_segments (valid : ValidPair key value) (wf : ∀ seg ∈ segments, seg.WellFormed)
    (short : StaysShort ((key, value) :: pairs) (text segments)) (hmem : Segment.hole key ∈ segments)
    (hfuel : maxLogStr ≤ fuel) :
    populateStr fuel (text segments) (key ++ '=' :: value) buffer =
        .ok (0, text (subst key value segments), text (subst key value segments)) ∧
      StaysShort pairs (text (subst key value segments)) := by
  have hcount : segments.count (.hole key) < fuel := by
    have := List.count_le_length (a := Segment.hole key) (l := segments)
    have := length_le_text segments
    have := short.length
    omega
  obtain ⟨hloop, hreach⟩ := replaceLoop_segments buffer valid.key_free valid.value_free wf short hcount
  have hshort := short.step hreach
  have hsize : 0 < (key ++ '=' :: value).length ∧ (key ++ '=' :: value).length < keyValueSize := by
    have := valid.length
    simp only [keyValueSize, List.length_append, List.length_cons]
    omega
  have hpos : 0 < (text (subst key value segments)).length := by
    refine lt_of_lt_of_le ?_ (length_le_text _)
    obtain ⟨pre, post, rfl⟩ := List.append_of_mem hmem
    have := valid.value_pos
    rw [← subst_one, subst_append, subst_append, subst_chars]
    simp only [List.length_append, List.length_map]
    omega
  refine ⟨?_, hshort⟩
  simp only [populateStr, hsize, and_self, if_true, tokens_pair valid, replaceTokens, replaceStr,
    makeKeyFormat_valid valid, hloop, hmem, Except.map, bind, Except.bind, pure, Except.pure, hpos, hshort.length]

/-! ### All pairs -/

theorem fillKeys_segments (valid : ∀ kv ∈ pairs, ValidPair kv.1 kv.2) (nodup : (pairs.map Prod.fst).Nodup)
    (wf : ∀ seg ∈ segments, seg.WellFormed) (short : StaysShort pairs (text segments))
    (hmem : ∀ kv ∈ pairs, Segment.hole kv.1 ∈ segments) (hfuel : maxLogStr ≤ fuel) (hmsg : a.evtMsg = text segments) :
    ∃ a', fillKeys fuel pairs.length (encoded pairs) a = .ok (.done false a') ∧
      a'.evtMsg = text (pairs.foldl (fun segments kv => subst kv.1 kv.2 segments) segments) := by
  induction pairs generalizing segments a with
  | nil => exact ⟨a, rfl, hmsg⟩
  | cons kv pairs ih =>
    obtain ⟨key, value⟩ := kv
    obtain ⟨hvalid, hvalids⟩ := List.forall_mem_cons.mp valid
    obtain ⟨hhole, hholes⟩ := List.forall_mem_cons.mp hmem
    obtain ⟨hnew, hnodup⟩ := List.nodup_cons.mp nodup
    obtain ⟨hpopulate, hshort⟩ := populateStr_segments a.buffer hvalid wf short hhole hfuel
    have hlen : (key ++ '=' :: value).length + 1 < keyValueSize := by
      have hsum : key.length + value.length ≤ 125 := hvalid.length
      simp only [keyValueSize, List.length_append, List.length_cons]
      omega
    have hstored : storedPair (key ++ '=' :: value) a.keyValuePair = key ++ '=' :: value := if_pos (by omega)
    have hrest : ∀ kv ∈ pairs, Segment.hole kv.1 ∈ subst key value segments := fun kv hkv =>
      mem_subst_of_ne (fun heq => hnew (List.mem_map.mpr ⟨kv, hkv, heq⟩)) (hholes kv hkv)
    obtain ⟨a', hfill, ha'⟩ := ih (a := ⟨text (subst key value segments), key ++ '=' :: value ++ [','],
      (a.allKeyValuePairs ++ (key ++ '=' :: value ++ [','])).take (2 * keyValueSize - 1),
      text (subst key value segments)⟩) hvalids hnodup (wellFormed_subst hvalid.value_free wf) hshort hrest rfl
    refine ⟨a', ?_, ha'⟩
    rw [encoded, List.map_cons, keyValueString_valid hvalid, List.length_cons, fillKeys, hstored, hmsg, hpopulate]
    simp only [bind, Except.bind, hlen, if_true]
    exact hfill

theorem replaceStr_segments (valid : ∀ kv ∈ pairs, ValidPair kv.1 kv.2) (wf : ∀ seg ∈ segments, seg.WellFormed) :
    PyEventLog.replaceStr pairs (text segments) =
      text (pairs.foldl (fun segments kv => subst kv.1 kv.2 segments) segments) := by
  induction pairs generalizing segments with
  | nil => rfl
  | cons kv pairs ih =>
    obtain ⟨hvalid, hvalids⟩ := List.forall_mem_cons.mp valid
    have hstep : PyEventLog.replaceStr (kv :: pairs) (text segments) =
        PyEventLog.replaceStr pairs (Text.replaceAll (braced kv.1) kv.2 (text segments)) := rfl
    rw [hstep, replaceAll_text hvalid.key_free wf, ih hvalids (wellFormed_subst hvalid.value_free wf)]
    rfl

/-! ### Both implementations -/

/-- A C call on a slot with this template gives the text: in `evt_msg`, and in what it sends. -/
def Describes (pairs : List (Text × Text)) (template text : Text) : Prop :=
  ∀ (e : Event) (fuel : Nat) (buffer : Text), e.eventDescription = template → e.numOfKeys = pairs.length →
    maxLogStr ≤ fuel →
      (∃ a, fillKeys fuel e.numOfKeys.toNat (encoded pairs) ⟨evtMsgOf e, [], [], buffer⟩ = .ok (.done false a) ∧
        a.evtMsg = text) ∧
      ∀ journal level, severityLevel e.severity = some level →
        ∃ o all, logSlot journal fuel e (encoded pairs) buffer = .ok o ∧
          o.sent = some (.event (messageOf e text) level e.eventId e.category (some all))

theorem describes_of_segments {template : Text} (hlen : template.length < maxLogStr) (hbraced : WellBraced template)
    (nodup : (pairs.map Prod.fst).Nodup) (occurs : ∀ kv ∈ pairs, braced kv.1 <:+: template)
    (valid : ∀ kv ∈ pairs, ValidPair kv.1 kv.2) (short : StaysShort pairs template) :
    Describes pairs template (expand (fun name => pairs.lookup name) template) := by
  intro e fuel buffer hdesc hkeys hfuel
  have wf := hbraced.wellFormed
  have hholes : ∀ kv ∈ pairs, Segment.hole kv.1 ∈ parse template := fun kv hkv =>
    (occurs_iff (valid kv hkv).key_free wf).mp (by rw [text_parse]; exact occurs kv hkv)
  have hmsg : evtMsgOf e = text (parse template) := by
    rw [text_parse, evtMsgOf, hdesc, if_pos hlen]
  have hnum : e.numOfKeys.toNat = pairs.length := by
    rw [hkeys]
    rfl
  obtain ⟨a, hfill, ha⟩ := fillKeys_segments (a := ⟨evtMsgOf e, [], [], buffer⟩) valid nodup wf
    (by rwa [text_parse]) hholes hfuel hmsg
  rw [text_foldl_subst] at ha
  rw [hnum]
  refine ⟨⟨a, hfill, ha⟩, fun journal level hlevel => ?_⟩
  let sent : Sent := .event (messageOf e a.evtMsg) level e.eventId e.category (some a.allKeyValuePairs)
  refine ⟨⟨journal sent, some sent, a.buffer⟩, a.allKeyValuePairs, ?_, ?_⟩
  · simp only [logSlot, hnum, hfill, hlevel, bind, Except.bind, pure, Except.pure]
    rfl
  · rw [expand, ← ha]

/-- Whatever the order of the pairs, the C text and the Python text are the simultaneous substitution. -/
theorem formats_agree {template : Text} (hlen : template.length < maxLogStr) (hbraced : WellBraced template)
    (nodup : (pairs.map Prod.fst).Nodup) (occurs : ∀ kv ∈ pairs, braced kv.1 <:+: template)
    (valid : ∀ kv ∈ pairs, ValidPair kv.1 kv.2) :
    ∀ pairs', pairs.Perm pairs' →
      (StaysShort pairs' template → Describes pairs' template (expand (fun name => pairs.lookup name) template)) ∧
        PyEventLog.replaceStr pairs' template = expand (fun name => pairs.lookup name) template := by
  intro pairs' hperm
  have nodup' : (pairs'.map Prod.fst).Nodup := (hperm.map _).nodup_iff.mp nodup
  have valid' : ∀ kv ∈ pairs', ValidPair kv.1 kv.2 := fun kv h => valid kv (hperm.mem_iff.mpr h)
  rw [lookup_perm nodup hperm]
  constructor
  · intro short
    exact describes_of_segments hlen hbraced nodup' (fun kv h => occurs kv (hperm.mem_iff.mpr h)) valid' short
  · have hpy := replaceStr_segments valid' hbraced.wellFormed
    rwa [text_parse, text_foldl_subst] at hpy

end

/-! ### A run of the replacements -/

def nextReplacement : List (Text × Text) × Text → Option (List (Text × Text) × Text)
  | ([], _) => none
  | ((key, value) :: pairs, s) =>
    match Text.cutFirst (braced key) s with
    | none => some (pairs, s)
    | some (pre, post) => some ((key, value) :: pairs, pre ++ value ++ post)

/-- Runs the replacements and looks at the length of each text. -/
def checkShort : Nat → List (Text × Text) × Text → Bool
  | 0, _ => false
  | n + 1, state =>
    decide (state.2.length < maxLogStr) &&
      match nextReplacement state with
      | none => true
      | some state' => checkShort n state'

theorem Replacing.next_eq {x y : List (Text × Text) × Text} (h : Replacing x y) : nextReplacement x = some y := by
  cases h with
  | one hcut => simp [nextReplacement, hcut]
  | next hcut => simp [nextReplacement, hcut]

theorem short_of_check {n : Nat} {x y : List (Text × Text) × Text} (h : checkShort n x = true)
    (hr : Relation.ReflTransGen Replacing x y) : y.2.length < maxLogStr := by
  induction hr using Relation.ReflTransGen.head_induction_on generalizing n with
  | refl =>
    cases n with
    | zero => cases h
    | succ n =>
      rw [checkShort, Bool.and_eq_true, decide_eq_true_eq] at h
      exact h.1
  | head hstep _ ih =>
    cases n with
    | zero => cases h
    | succ n =>
      rw [checkShort, hstep.next_eq, Bool.and_eq_true] at h
      exact ih h.2

/-- The template of FAN_COUNT, with its two keys. -/
def fanTemplate : Text := "There are \x7bcount\x7d total fans in subsystem \x7bsubsystem\x7d".toList

def fanPairs : List (Text × Text) := [("count".toList, "3".toList), ("subsystem".toList, "base".toList)]

theorem fanPairs_valid : ∀ kv ∈ fanPairs, ValidPair kv.1 kv.2 := by
  intro kv hkv
  rcases List.mem_pair.mp hkv with rfl | rfl
  · exact ⟨by decide, by decide, by decide, by decide, by decide, by decide, by decide⟩
  · exact ⟨by decide, by decide, by decide, by decide, by decide, by decide, by decide⟩

theorem formats_agree_fan :
    Describes fanPairs.reverse fanTemplate "There are 3 total fans in subsystem base".toList ∧
      PyEventLog.replaceStr fanPairs.reverse fanTemplate = "There are 3 total fans in subsystem base".toList := by
  have hlen : fanTemplate.length < maxLogStr := by decide
  have hbraced : WellBraced fanTemplate := by decide
  have nodup : (fanPairs.map Prod.fst).Nodup := by decide
  have occurs : ∀ kv ∈ fanPairs, braced kv.1 <:+: fanTemplate := by decide
  have short : StaysShort fanPairs.reverse fanTemplate := fun state hr => short_of_check (n := 5) (by decide) hr
  have htext : expand (fun name => fanPairs.lookup name) fanTemplate =
      "There are 3 total fans in subsystem base".toList := by decide
  have hagree := formats_agree hlen hbraced nodup occurs fanPairs_valid fanPairs.reverse (List.reverse_perm _).symm
  rw [htext] at hagree
  exact ⟨hagree.1 short, hagree.2⟩

end EventLog
end OpsSupportability
