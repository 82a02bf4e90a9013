import OpsSupportability.Theorems.EventJournal

/-! What the command shows (`show events` with event ids, a severity and the reverse option), on the journals
    that the two loggers write. -/

namespace OpsSupportability
namespace ShowEvents

open EventLog Printf

/-! ### Lists -/

theorem filter_eq_filter_iff {α : Type} {p q : α → Bool} {l : List α} :
    l.filter p = l.filter q ↔ ∀ a ∈ l, p a = q a := by
  refine ⟨fun h a ha => ?_, List.filter_congr⟩
  have hmem : a ∈ l.filter p ↔ a ∈ l.filter q := by rw [h]
  rw [List.mem_filter, List.mem_filter, and_iff_right ha, and_iff_right ha] at hmem
  exact Bool.eq_iff_iff.mpr hmem

/-! ### Matches -/

section
variable {journald : Journald} {ms ms' fields : List Text} {name m : Text}

theorem matched_nil : journald.matched [] fields = true := journald.matched_iff.mpr nofun

theorem matched_singleton : journald.matched [m] fields = true ↔ m ∈ fields := by
  rw [journald.matched_iff]
  simp

/-- Matches that have no field in common are met one by one. -/
theorem matched_append (h : ∀ m ∈ ms, ∀ m' ∈ ms', fieldName m ≠ fieldName m') :
    journald.matched (ms ++ ms') fields = true ↔
      journald.matched ms fields = true ∧ journald.matched ms' fields = true := by
  rw [journald.matched_iff, journald.matched_iff, journald.matched_iff]
  constructor
  · intro hall
    refine ⟨fun m hm => ?_, fun m hm => ?_⟩
    · obtain ⟨m', hm', hname, hmem⟩ := hall m (List.mem_append_left _ hm)
      rcases List.mem_append.mp hm' with hm' | hm'
      · exact ⟨m', hm', hname, hmem⟩
      · exact absurd hname.symm (h m hm m' hm')
    · obtain ⟨m', hm', hname, hmem⟩ := hall m (List.mem_append_right _ hm)
      rcases List.mem_append.mp hm' with hm' | hm'
      · exact absurd hname (h m' hm' m hm)
      · exact ⟨m', hm', hname, hmem⟩
  · rintro ⟨hleft, hright⟩ m hm
    rcases List.mem_append.mp hm with hm | hm
    · obtain ⟨m', hm', hmet⟩ := hleft m hm
      exact ⟨m', List.mem_append_left _ hm', hmet⟩
    · obtain ⟨m', hm', hmet⟩ := hright m hm
      exact ⟨m', List.mem_append_right _ hm', hmet⟩

/-- Matches on one field are alternatives. -/
theorem matched_of_name (h : ∀ m ∈ ms, fieldName m = name) (hne : ms ≠ []) :
    journald.matched ms fields = true ↔ ∃ m ∈ ms, m ∈ fields := by
  rw [journald.matched_iff]
  constructor
  · intro hall
    obtain ⟨m, hm⟩ := List.exists_mem_of_ne_nil ms hne
    obtain ⟨m', hm', -, hmem⟩ := hall m hm
    exact ⟨m', hm', hmem⟩
  · rintro ⟨m', hm', hmem⟩ m hm
    exact ⟨m', hm', (h m' hm').trans (h m hm).symm, hmem⟩

end

/-! ### Queries -/

/-- Event ids from the range of the command, a severity word, and the reverse option. -/
structure Query where
  ids : Option {ids : List Nat // ids ≠ [] ∧ ∀ id ∈ ids, 1001 ≤ id ∧ id ≤ 999999}
  severity : Option {word : Text // word ∈ sevWords}
  reverse : Bool

/-- What the command is called with; the range is expanded to its ids. -/
def Query.args (q : Query) : Args where
  eventIds := q.ids.map fun ids => ids.1.map fun id : Nat => Text.decimal id
  severity := q.severity.map (·.1)
  reverse := q.reverse
  category := none

def asSevere (severity word : Text) : Bool :=
  match severityLevel severity, sevLevel word with
  | some level, some limit => decide (level ≤ limit)
  | _, _ => false

/-- The events that the query asks for. -/
def Query.wants (q : Query) (o : Origin) : Bool :=
  match o.eventId?, o.severity? with
  | some eventId, some severity =>
    q.ids.all (fun ids => ids.1.any fun id : Nat => eventId == id) && q.severity.all fun word => asSevere severity word.1
  | _, _ => false

/-- The command succeeds and shows exactly the entries that the query asks for, each once, in the order of
    the journal or in reverse order. -/
structure Shows (env : Env) (journal : List Record) (q : Query) : Prop where
  status : (cliPlatformShowEvents env journal q.args).status = .success
  entries : (cliPlatformShowEvents env journal q.args).entries.map Prod.fst =
    if q.reverse then (journal.filter (q.wants ·.origin)).reverse else journal.filter (q.wants ·.origin)

/-- The fields that the query looks at are sent: the mark, the event id when ids are given, the priority
    as a number when a severity is given. -/
structure Query.Kept (F : Formatter) (q : Query) (r : Record) : Prop where
  mark : (r.origin.pairsLeft F).isSome = true
  eventId : q.ids.isSome → r.origin.taken F ≤ 2
  priority : q.severity.isSome → r.origin.taken F = 0 ∧ r.origin.numbered

/-! ### The matches of a query -/

def Query.idMatches (q : Query) : List Text :=
  match q.ids with
  | none => []
  | some ids => ids.1.map fun id : Nat => eventIdField id

def Query.severityMatches (q : Query) : List Text :=
  match q.severity with
  | none => []
  | some word => priorityMatches ((sevLevel word.1).getD 0)

theorem snprintf_of_length {pre text : Text} (h : pre.length + text.length ≤ 99) : snprintf (pre ++ text) = pre ++ text :=
  List.take_of_length_le (by rwa [List.length_append])

theorem snprintf_eventId {id : Nat} (h : id ≤ 999999) :
    snprintf ("OPS_EVENT_ID=".toList ++ Text.decimal (Text.atoi (Text.decimal id))) = eventIdField id := by
  rw [Text.atoi_decimal (by omega)]
  have hlen : (Text.decimal id).length ≤ 6 := Text.length_decimal_le (by decide) (by omega)
  exact snprintf_of_length (by simp; omega)

theorem journalFilter_ids {ids : List Nat} (h : ∀ id ∈ ids, 1001 ≤ id ∧ id ≤ 999999) :
    journalFilter none eventIdIndex (ids.map fun id : Nat => Text.decimal id) = some (ids.map fun id : Nat => eventIdField id) := by
  rw [journalFilter, if_pos rfl, List.map_map]
  exact congrArg some (List.map_congr_left fun id hid => snprintf_eventId (h id hid).2)

theorem snprintf_priority {n : Nat} (h : n < maxSevs) :
    snprintf ("PRIORITY=".toList ++ Text.decimal n) = priorityField n := by
  have hlen : (Text.decimal n).length ≤ 1 := Text.length_decimal_le (by decide) (Nat.lt_of_lt_of_le h (by decide))
  exact snprintf_of_length (by simp; omega)

theorem mem_priorityMatches {level : Nat} (h : level < maxSevs) {m : Text} :
    m ∈ priorityMatches level ↔ ∃ n : Nat, n ≤ level ∧ m = priorityField n := by
  induction level with
  | zero =>
    have hzero := snprintf_priority h
    rw [Int.natCast_zero] at hzero
    rw [priorityMatches, List.mem_singleton, hzero]
    constructor
    · rintro rfl
      exact ⟨0, Nat.le_refl 0, rfl⟩
    · rintro ⟨n, hn, rfl⟩
      rw [Nat.le_zero.mp hn, Int.natCast_zero]
  | succ level ih =>
    rw [priorityMatches, List.mem_cons, ih (Nat.lt_of_succ_lt h), snprintf_priority h]
    constructor
    · rintro (rfl | ⟨n, hn, rfl⟩)
      · exact ⟨level + 1, Nat.le_refl _, rfl⟩
      · exact ⟨n, Nat.le_succ_of_le hn, rfl⟩
    · rintro ⟨n, hn, rfl⟩
      rcases Nat.le_succ_iff.mp hn with hn | rfl
      · exact Or.inr ⟨n, hn, rfl⟩
      · exact Or.inl rfl

theorem sevLevel_of_mem {word : Text} (h : word ∈ sevWords) : ∃ level < maxSevs, sevLevel word = some level := by
  have hsome : (sevLevel word).isSome :=
    List.findIdx?_isSome.trans (List.any_eq_true.mpr ⟨word, h, beq_self_eq_true word⟩)
  obtain ⟨level, hlevel⟩ := Option.isSome_iff_exists.mp hsome
  obtain ⟨hlt, -⟩ := List.findIdx?_eq_some_iff_getElem.mp hlevel
  exact ⟨level, hlt, hlevel⟩

theorem journalFilter_severity {word : Text} (h : word ∈ sevWords) :
    journalFilter (some word) eventSeverityIndex [] = some (priorityMatches ((sevLevel word).getD 0)) := by
  obtain ⟨level, hlt, hlevel⟩ := sevLevel_of_mem h
  rw [journalFilter, if_neg (by decide), if_pos rfl]
  simp only [hlevel, if_pos hlt, Option.getD_some]

def Query.matchesOf (q : Query) : List Text := messageOpsEvtMatch :: (q.idMatches ++ q.severityMatches)

/-- The entries that the command visits. -/
theorem cliPlatformShowEvents_query (env : Env) (journal : List Record) (q : Query) :
    cliPlatformShowEvents env journal q.args = cliShowEvents env
      (journal.filter fun r => env.matched q.matchesOf r.fields) q.reverse (q.severity.isSome || q.reverse) := by
  have hne : q.args.eventIds ≠ some [] := by
    intro h
    obtain ⟨ids, -, hids⟩ := Option.map_eq_some_iff.mp h
    exact ids.2.1 (List.map_eq_nil_iff.mp hids)
  have hids : idFilter q.args.eventIds = some q.idMatches := by
    unfold Query.args Query.idMatches
    cases q.ids with
    | none => rfl
    | some ids => exact journalFilter_ids ids.2.2
  have hseverity : argFilter eventSeverityIndex q.args.severity = some q.severityMatches := by
    unfold Query.args Query.severityMatches
    cases q.severity with
    | none => rfl
    | some word => exact journalFilter_severity word.2
  have hcategory : argFilter eventCategoryIndex q.args.category = some [] := rfl
  rw [cliPlatformShowEvents, if_neg hne, hids, hseverity, hcategory]
  simp [Query.matchesOf, Query.args]

theorem fieldName_idMatches (q : Query) : ∀ m ∈ q.idMatches, fieldName m = "OPS_EVENT_ID".toList := by
  intro m hm
  unfold Query.idMatches at hm
  split at hm
  · cases hm
  · obtain ⟨id, -, rfl⟩ := List.mem_map.mp hm
    exact fieldName_eventIdField id

theorem mem_severityMatches {q : Query} {word} (h : q.severity = some word) {m : Text} :
    m ∈ q.severityMatches ↔ ∃ n : Nat, n ≤ (sevLevel word.1).getD 0 ∧ m = priorityField n := by
  obtain ⟨level, hlt, hlevel⟩ := sevLevel_of_mem word.2
  rw [Query.severityMatches, h]
  exact mem_priorityMatches (by rwa [hlevel])

theorem fieldName_severityMatches (q : Query) : ∀ m ∈ q.severityMatches, fieldName m = "PRIORITY".toList := by
  intro m hm
  cases hword : q.severity with
  | none =>
    rw [Query.severityMatches, hword] at hm
    cases hm
  | some word =>
    obtain ⟨n, -, rfl⟩ := (mem_severityMatches hword).mp hm
    exact fieldName_priorityField n

section
variable {journald : Journald} {q : Query} {fields : List Text}

theorem matched_idMatches :
    journald.matched q.idMatches fields = true ↔ ∀ ids ∈ q.ids, ∃ id ∈ ids.1, eventIdField (id : Nat) ∈ fields := by
  cases hids : q.ids with
  | none => simp [Query.idMatches, hids, matched_nil]
  | some ids =>
    have hne : q.idMatches ≠ [] := by
      rw [Query.idMatches, hids]
      exact fun h => ids.2.1 (List.map_eq_nil_iff.mp h)
    rw [matched_of_name (fieldName_idMatches q) hne, Query.idMatches, hids]
    simp

theorem matched_severityMatches :
    journald.matched q.severityMatches fields = true ↔
      ∀ word ∈ q.severity, ∃ n : Nat, n ≤ (sevLevel word.1).getD 0 ∧ priorityField n ∈ fields := by
  cases hword : q.severity with
  | none => simp [Query.severityMatches, hword, matched_nil]
  | some word =>
    have hne : q.severityMatches ≠ [] :=
      List.ne_nil_of_mem ((mem_severityMatches hword).mpr ⟨0, Nat.zero_le _, rfl⟩)
    rw [matched_of_name (fieldName_severityMatches q) hne]
    simp only [mem_severityMatches hword, Option.mem_some_iff, forall_eq']
    constructor
    · rintro ⟨m, ⟨n, hn, rfl⟩, hmem⟩
      exact ⟨n, hn, hmem⟩
    · rintro ⟨n, hn, hmem⟩
      exact ⟨_, ⟨n, hn, rfl⟩, hmem⟩

theorem matched_matchesOf :
    journald.matched q.matchesOf fields = true ↔ messageOpsEvtMatch ∈ fields ∧
      journald.matched q.idMatches fields = true ∧ journald.matched q.severityMatches fields = true := by
  have happend : q.matchesOf = [messageOpsEvtMatch] ++ (q.idMatches ++ q.severityMatches) := rfl
  rw [happend, matched_append, matched_append, matched_singleton]
  · intro m hm m' hm'
    rw [fieldName_idMatches q m hm, fieldName_severityMatches q m' hm']
    simp
  · intro m hm m' hm'
    rw [List.mem_singleton.mp hm, fieldName_mark]
    rcases List.mem_append.mp hm' with hm' | hm'
    · rw [fieldName_idMatches q m' hm']
      simp
    · rw [fieldName_severityMatches q m' hm']
      simp

end

/-! ### One entry -/

section
variable {journald : Journald} {F : Formatter} {q : Query} {r : Record} {eventId : Int} {severity category : Text}

theorem wants_iff (hid : r.origin.eventId? = some eventId) (hsev : r.origin.severity? = some severity) :
    q.wants r.origin = true ↔ (∀ ids ∈ q.ids, ∃ id ∈ ids.1, eventId = (id : Nat)) ∧
      ∀ word ∈ q.severity, asSevere severity word.1 = true := by
  rw [Query.wants, hid, hsev]
  cases q.ids <;> cases q.severity <;> simp

theorem visited_ids_iff (h : Tells F r eventId severity category) (hmark : messageOpsEvtMatch ∈ r.fields) :
    (∀ ids ∈ q.ids, ∃ id ∈ ids.1, eventIdField (id : Nat) ∈ r.fields) ↔
      (∀ ids ∈ q.ids, ∃ id ∈ ids.1, eventId = (id : Nat)) ∧ (q.ids.isSome → r.origin.taken F ≤ 2) := by
  cases q.ids with
  | none => simp
  | some ids =>
    simp only [Option.mem_some_iff, forall_eq', h.eventId hmark, Option.isSome_some, true_implies]
    constructor
    · rintro ⟨id, hid, hle, rfl⟩
      exact ⟨⟨id, hid, rfl⟩, hle⟩
    · rintro ⟨⟨id, hid, rfl⟩, hle⟩
      exact ⟨id, hid, hle, rfl⟩

theorem visited_severity_iff (h : Tells F r eventId severity category) (hmark : messageOpsEvtMatch ∈ r.fields) :
    (∀ word ∈ q.severity, ∃ n : Nat, n ≤ (sevLevel word.1).getD 0 ∧ priorityField n ∈ r.fields) ↔
      (∀ word ∈ q.severity, asSevere severity word.1 = true) ∧
        (q.severity.isSome → r.origin.taken F = 0 ∧ r.origin.numbered) := by
  cases q.severity with
  | none => simp
  | some word =>
    obtain ⟨limit, -, hlimit⟩ := sevLevel_of_mem word.2
    obtain ⟨level, hlevel⟩ := Option.isSome_iff_exists.mp h.level
    simp only [Option.mem_some_iff, forall_eq', h.priority hmark, Option.isSome_some, true_implies, hlimit, hlevel,
      Option.getD_some, asSevere, Option.some.injEq, decide_eq_true_eq]
    constructor
    · rintro ⟨n, hn, hnumbered, htaken, rfl⟩
      exact ⟨hn, htaken, hnumbered⟩
    · rintro ⟨hn, htaken, hnumbered⟩
      exact ⟨level, hn, hnumbered, htaken, rfl⟩

/-- An event is visited when it is asked for and its fields are there. -/
theorem matched_iff_kept (hid : r.origin.eventId? = some eventId) (hsev : r.origin.severity? = some severity)
    (h : Tells F r eventId severity category) :
    journald.matched q.matchesOf r.fields = true ↔ q.wants r.origin = true ∧ q.Kept F r := by
  rw [matched_matchesOf, matched_idMatches, matched_severityMatches, wants_iff hid hsev]
  constructor
  · rintro ⟨hmark, hids, hseverity⟩
    obtain ⟨hids, hkeptIds⟩ := (visited_ids_iff h hmark).mp hids
    obtain ⟨hseverity, hkeptSeverity⟩ := (visited_severity_iff h hmark).mp hseverity
    exact ⟨⟨hids, hseverity⟩, h.mark.mp hmark, hkeptIds, hkeptSeverity⟩
  · rintro ⟨⟨hids, hseverity⟩, hkept, hkeptIds, hkeptSeverity⟩
    have hmark := h.mark.mpr hkept
    exact ⟨hmark, (visited_ids_iff h hmark).mpr ⟨hids, hkeptIds⟩,
      (visited_severity_iff h hmark).mpr ⟨hseverity, hkeptSeverity⟩⟩

/-- The command and the query agree on an entry unless it is an event asked for that lacks a field. -/
theorem agree_iff_kept (h : Wrote F r) :
    journald.matched q.matchesOf r.fields = q.wants r.origin ↔ (q.wants r.origin = true → q.Kept F r) := by
  rcases h.tells with ⟨horigin, hmark⟩ | ⟨eventId, severity, category, hid, hsev, -, htells⟩
  · have hwants : q.wants r.origin = false := by
      rw [horigin]
      rfl
    have hmatched : journald.matched q.matchesOf r.fields = false :=
      Bool.eq_false_iff.mpr fun h => hmark (matched_matchesOf.mp h).1
    rw [hwants, hmatched]
    simp
  · rw [Bool.eq_iff_iff, matched_iff_kept hid hsev htells]
    exact ⟨fun h hwants => (h.mpr hwants).2, fun h => ⟨And.left, fun hwants => ⟨hwants, h hwants⟩⟩⟩

end

/-! ### The command -/

theorem entries_cliShowEvents (env : Env) (selected : List Record) (reverse filter : Bool) :
    (cliShowEvents env selected reverse filter).entries.map Prod.fst =
      if reverse then selected.reverse else selected := by
  rw [cliShowEvents, List.map_map]
  exact List.map_id _

/-- The command shows what the query asks for exactly when every event that is asked for still has the fields
    that the query looks at. -/
theorem shows_iff_kept {F : Formatter} {journal : List Record} (h : Written F journal) (env : Env)
    (q : Query) : Shows env journal q ↔ ∀ r ∈ journal, q.wants r.origin = true → q.Kept F r := by
  have hfilter : journal.filter (fun r => env.matched q.matchesOf r.fields) = journal.filter (q.wants ·.origin) ↔
      ∀ r ∈ journal, q.wants r.origin = true → q.Kept F r := by
    rw [filter_eq_filter_iff]
    exact forall₂_congr fun r hr => agree_iff_kept (h.wrote r hr)
  have hentries : (cliPlatformShowEvents env journal q.args).entries.map Prod.fst =
      if q.reverse then (journal.filter fun r => env.matched q.matchesOf r.fields).reverse
      else journal.filter fun r => env.matched q.matchesOf r.fields := by
    rw [cliPlatformShowEvents_query, entries_cliShowEvents]
  rw [← hfilter]
  constructor
  · intro hshows
    have heq := hentries.symm.trans hshows.entries
    split at heq
    · exact List.reverse_inj.mp heq
    · exact heq
  · intro heq
    refine ⟨by rw [cliPlatformShowEvents_query]; rfl, ?_⟩
    rw [hentries, heq]

/-! ### A fan and a crash -/

/-- FAN_COUNT as shipped, logged by a C daemon. -/
def fanEvent : Event where
  category := "FAN".toList
  eventId := 2001
  eventName := "FAN_COUNT".toList
  severity := "LOG_INFO".toList
  numOfKeys := 2
  eventDescription := "There are \x7bcount\x7d total fans in subsystem \x7bsubsystem\x7d".toList

def fanSent : Sent :=
  .event "MESSAGE=ops-evt|2001|LOG_INFO|There are 3 total fans in subsystem base".toList 6 2001 "FAN".toList
    (some "count=3,subsystem=base,".toList)

def fanFields : List Text :=
  ["MESSAGE=ops-evt|2001|LOG_INFO|There are 3 total fans in subsystem base".toList, "PRIORITY=6".toList,
    messageOpsEvtMatch, "OPS_EVENT_ID=2001".toList, "OPS_EVENT_CATEGORY=FAN".toList, "count=3,subsystem=base,".toList]

def fanRecord : Record :=
  ⟨.c fanEvent fanSent, fanFields ++ Stamp.fields ⟨some "ops-fand".toList, some "1467360000000000".toList⟩⟩

/-- SUPPORTABILITY_DAEMON_CRASH as shipped, logged by the supportability daemon. -/
def crashEntry : PyEventLog.Entry where
  eventCategory := "SUPPORTABILITY".toList
  eventName := "SUPPORTABILITY_DAEMON_CRASH".toList
  eventId := 14001
  severity := "LOG_CRIT".toList
  description := "\x7bprocess\x7d crashed due to \x7bsignal\x7d,\x7btimestamp\x7d".toList

def crashFields : List Text :=
  PyEventLog.journalFields "ops_supportability".toList crashEntry
    "ops-fand crashed due to Segmentation fault,2016-07-01 08:00:00".toList

def crashRecord : Record := ⟨.py crashEntry, crashFields ++ Stamp.fields ⟨none, some "1467360001000000".toList⟩⟩

theorem wrote_fanRecord : Wrote Printf.basic fanRecord := by
  have hlookup : lookup "FAN_COUNT".toList (some fun _ => fanEvent) = some 0 := by decide +kernel
  have hlog : logEvent (fun _ => 0) 3 (some fun _ => fanEvent) "FAN_COUNT".toList
      [some "count=3".toList, some "subsystem=base".toList] [] =
        .ok ⟨0, some fanSent, "There are 3 total fans in subsystem base".toList⟩ := by decide +kernel
  have hfields : Printf.basic.texts fanSent.arguments = some fanFields := by decide +kernel
  exact Wrote.c _ hlookup hlog rfl rfl hfields

theorem wrote_crashRecord {F : Formatter} : Wrote F crashRecord := by
  have hlog : PyEventLog.logEvent ⟨[crashEntry], ["SUPPORTABILITY".toList]⟩ "ops_supportability".toList
      "SUPPORTABILITY_DAEMON_CRASH".toList
      [("process".toList, "ops-fand".toList), ("signal".toList, "Segmentation fault".toList),
        ("timestamp".toList, "2016-07-01 08:00:00".toList)] = some crashFields := by decide +kernel
  refine Wrote.py _ ?_ hlog (by decide +kernel)
  decide +kernel

def fanAndCrash : List Record := [fanRecord, crashRecord]

theorem written_fanAndCrash : Written Printf.basic fanAndCrash :=
  .append (.append .empty wrote_fanRecord) wrote_crashRecord

def crashById : Query := ⟨some ⟨[14001], by simp⟩, none, true⟩

/-- The crash is shown when it is asked for by its id. -/
theorem shows_iff_kept_crashById : Shows noClock fanAndCrash crashById := by
  refine (shows_iff_kept written_fanAndCrash noClock crashById).mpr ?_
  intro r hr hwants
  rcases List.mem_pair.mp hr with rfl | rfl
  · exact absurd hwants (by decide +kernel)
  · exact ⟨by decide +kernel, fun _ => Nat.zero_le 2, nofun⟩

def critical : Query := ⟨none, some ⟨"crit".toList, by decide +kernel⟩, false⟩

/-- Asked for by its severity, it is not: the priority of a Python event is the name of the severity. -/
theorem crash_not_shown : Written Printf.basic fanAndCrash ∧ ¬ Shows noClock fanAndCrash critical := by
  refine ⟨written_fanAndCrash, fun h => absurd h.entries ?_⟩
  decide +kernel

end ShowEvents
end OpsSupportability
