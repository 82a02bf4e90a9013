import OpsSupportability.Theorems.EventFormat
import OpsSupportability.Theorems.EventVerbatim

/-! The line that `show events` prints for an event, from the template of its definition to the console: the time, the
    daemon, the id, the severity and the text, whichever of the two loggers wrote it. -/

namespace OpsSupportability
namespace ShowEvents

open EventLog Printf Template

/-! ### Reading an entry -/

section
variable {env : Env} {name field value text tm module : Text} {fields rest : List Text} {stamp : Stamp}

theorem getData_of_name (h : fieldName field = name) : env.getData name (field :: rest) = some field := by
  rw [env.getData_eq, List.find?_cons_of_pos (by rw [h]; exact beq_self_eq_true _)]

theorem getData_append (h : name ∉ fields.map fieldName) :
    env.getData name (fields ++ rest) = env.getData name rest := by
  have hnone : fields.find? (fun field => fieldName field == name) = none :=
    List.find?_eq_none.mpr fun field hmem heq => h (List.mem_map.mpr ⟨field, hmem, eq_of_beq heq⟩)
  rw [env.getData_eq, env.getData_eq, List.find?_append, hnone, Option.none_or]

theorem fieldName_append (h : '=' ∉ name) : fieldName (name ++ '=' :: value) = name := by
  have hpos : ∀ c ∈ name, (c != '=') = true := fun c hc => bne_iff_ne.mpr fun heq => h (heq ▸ hc)
  rw [fieldName, List.takeWhile_append_of_pos hpos, List.takeWhile_cons_of_neg (by decide), List.append_nil]

theorem getData_identifier (h : stamp.syslogIdentifier = some module) :
    env.getData "SYSLOG_IDENTIFIER".toList stamp.fields = some ("SYSLOG_IDENTIFIER=".toList ++ module) := by
  rw [Stamp.fields, h, Option.map_some, Option.toList_some]
  exact getData_of_name (fieldName_syslogIdentifier module)

theorem getData_timestamp (h : stamp.timestamp = some tm) :
    env.getData "_SOURCE_REALTIME_TIMESTAMP".toList stamp.fields =
      some ("_SOURCE_REALTIME_TIMESTAMP=".toList ++ tm) := by
  have hmodule : "_SOURCE_REALTIME_TIMESTAMP".toList ∉
      (stamp.syslogIdentifier.map ("SYSLOG_IDENTIFIER=".toList ++ ·)).toList.map fieldName := by
    cases stamp.syslogIdentifier with
    | none => exact List.not_mem_nil
    | some identifier =>
      rw [Option.map_some, Option.toList_some, List.map_singleton, fieldName_syslogIdentifier]
      decide +kernel
  rw [Stamp.fields, getData_append hmodule, h, Option.map_some, Option.toList_some]
  exact getData_of_name (fieldName_timestamp tm)

/-- The parts of a line. -/
def eventLine (env : Env) (tm module : Text) (id : Int) (severity text : Text) : Text :=
  convertToDatetime env.clock tm ++ '|' :: module ++ '|' :: Text.decimal id ++ '|' :: severity ++ '|' :: text

theorem line_of_fields {id : Int} {severity : Text}
    (hmessage : env.getData "MESSAGE".toList fields =
      some ("MESSAGE=ops-evt|".toList ++ Text.decimal id ++ ['|'] ++ severity ++ ['|'] ++ text))
    (hmodule : env.getData "SYSLOG_IDENTIFIER".toList fields = some ("SYSLOG_IDENTIFIER=".toList ++ module))
    (htime : env.getData "_SOURCE_REALTIME_TIMESTAMP".toList fields =
      some ("_SOURCE_REALTIME_TIMESTAMP=".toList ++ tm))
    (hne : module ≠ []) (htm : tm ≠ []) : line env fields = eventLine env tm module id severity text := by
  have hmessageValue : getValue ("MESSAGE=ops-evt|".toList ++ Text.decimal id ++ ['|'] ++ severity ++ ['|'] ++ text) =
      some ("ops-evt|".toList ++ Text.decimal id ++ ['|'] ++ severity ++ ['|'] ++ text) := by
    simp [getValue]
  have hbar : strchr '|' ("ops-evt|".toList ++ Text.decimal id ++ ['|'] ++ severity ++ ['|'] ++ text) =
      some ('|' :: Text.decimal id ++ '|' :: severity ++ '|' :: text) := by
    simp [strchr]
  have hmoduleValue : getValue ("SYSLOG_IDENTIFIER=".toList ++ module) = some module := by
    obtain ⟨c, module, rfl⟩ := List.exists_cons_of_ne_nil hne
    simp [getValue]
  have htimeValue : getValue ("_SOURCE_REALTIME_TIMESTAMP=".toList ++ tm) = some tm := by
    obtain ⟨c, tm, rfl⟩ := List.exists_cons_of_ne_nil htm
    simp [getValue]
  simp only [line, hmessage, hmodule, htime, Option.bind_some, hmessageValue, hbar, hmoduleValue, htimeValue,
    Option.map_some, Option.getD_some, orNull, eventLine]
  simp only [List.append_assoc, List.cons_append, List.nil_append]

/-! ### Events of a Python daemon -/

variable {daemon desc : Text} {e : PyEventLog.Entry}

theorem names_journalFields : (PyEventLog.journalFields daemon e desc).map fieldName =
    ["MESSAGE".toList, "MESSAGE_ID".toList, "PRIORITY".toList, "OPS_EVENT_ID".toList, "OPS_EVENT_CATEGORY".toList,
      "SYSLOG_IDENTIFIER".toList] := by
  obtain ⟨text, htext, heq⟩ := journalFields_eq e daemon desc
  rw [heq]
  simp only [List.map_cons, List.map_nil, htext, fieldName_mark, fieldName_priority, fieldName_eventIdField,
    fieldName_categoryField, fieldName_syslogIdentifier]

theorem line_journalFields (hdaemon : daemon ≠ []) (hstamp : stamp.timestamp = some tm) (htm : tm ≠ []) :
    line env (PyEventLog.journalFields daemon e desc ++ stamp.fields) =
      eventLine env tm daemon e.eventId e.severity desc := by
  have hfields : "_SOURCE_REALTIME_TIMESTAMP".toList ∉ (PyEventLog.journalFields daemon e desc).map fieldName := by
    rw [names_journalFields]
    decide +kernel
  have hbefore : "SYSLOG_IDENTIFIER".toList ∉ (PyEventLog.journalFields daemon e desc).dropLast.map fieldName := by
    rw [List.map_dropLast, names_journalFields]
    decide +kernel
  have hsplit : PyEventLog.journalFields daemon e desc ++ stamp.fields =
      (PyEventLog.journalFields daemon e desc).dropLast ++
        ("SYSLOG_IDENTIFIER=".toList ++ daemon) :: stamp.fields := rfl
  have hmessage : fieldName ("MESSAGE=ops-evt|".toList ++ Text.decimal e.eventId ++ ['|'] ++ e.severity ++ ['|'] ++
      desc) = "MESSAGE".toList := by
    simp [fieldName]
  refine line_of_fields ?_ ?_ ?_ hdaemon htm
  · exact getData_of_name hmessage
  · rw [hsplit, getData_append hbefore, getData_of_name (fieldName_syslogIdentifier daemon)]
  · rw [getData_append hfields, getData_timestamp hstamp]

end

/-! ### Events of a C daemon -/

section
variable {env : Env} {tm module template buffer evName : Text} {pairs : List (Text × Text)} {stamp : Stamp}
  {F : Formatter} {answer : Sent → Int} {fuel i level : Nat} {table : EventLog.Table}

/-- The keys are no names of fields that journald adds. -/
def OwnKeys (pairs : List (Text × Text)) : Prop :=
  ∀ kv ∈ pairs, kv.1 ≠ "SYSLOG_IDENTIFIER".toList ∧ kv.1 ≠ "_SOURCE_REALTIME_TIMESTAMP".toList

theorem given_encoded (valid : ∀ kv ∈ pairs, ValidPair kv.1 kv.2) :
    given (encoded pairs) = pairs.map fun kv => kv.1 ++ '=' :: kv.2 := by
  induction pairs with
  | nil => rfl
  | cons kv pairs ih =>
    obtain ⟨hvalid, hvalids⟩ := List.forall_mem_cons.mp valid
    rw [encoded, List.map_cons, keyValueString_valid hvalid, given_some, List.map_cons]
    exact congrArg _ (ih hvalids)

/-- The field of the pairs is named by the first key. -/
theorem fieldName_pairs (valid : ∀ kv ∈ pairs, ValidPair kv.1 kv.2) :
    fieldName ((concatenated (pairs.map fun kv => kv.1 ++ '=' :: kv.2)).take (2 * keyValueSize - 1)) =
      (pairs.head?.map Prod.fst).getD [] := by
  cases pairs with
  | nil => rfl
  | cons kv pairs =>
    have hvalid := valid kv List.mem_cons_self
    have hlen := hvalid.length
    have hroom : kv.1.length ≤ 2 * keyValueSize - 1 := by
      rw [keyValueSize]
      omega
    obtain ⟨n, hn⟩ : ∃ n, 2 * keyValueSize - 1 - kv.1.length = n + 1 := ⟨254 - kv.1.length, by rw [keyValueSize]; omega⟩
    rw [List.map_cons, concatenated_cons, List.append_assoc, List.append_assoc, List.take_append,
      List.take_of_length_le hroom, hn, List.cons_append, List.take_succ_cons, fieldName_append hvalid.key_eq]
    rfl

theorem percent_notMem_concatenated (h : ∀ kv ∈ pairs, '%' ∉ kv.1 ∧ '%' ∉ kv.2) :
    '%' ∉ concatenated (pairs.map fun kv => kv.1 ++ '=' :: kv.2) := by
  intro hmem
  obtain ⟨pair, hpair, hpercent⟩ := List.mem_flatMap.mp hmem
  obtain ⟨kv, hkv, rfl⟩ := List.mem_map.mp hpair
  obtain ⟨hkey, hvalue⟩ := h kv hkv
  simp [hkey, hvalue] at hpercent

/-- The conditions under which a call of `log_event` in C describes an event: its template, and the keys and values. -/
structure Describable (template : Text) (pairs : List (Text × Text)) : Prop where
  length : template.length < maxLogStr
  wellBraced : WellBraced template
  nodup : (pairs.map Prod.fst).Nodup
  occurs : ∀ kv ∈ pairs, braced kv.1 <:+: template
  valid : ∀ kv ∈ pairs, ValidPair kv.1 kv.2
  short : StaysShort pairs template
  /-- Neither the text nor the pairs begin a conversion. -/
  plain : '%' ∉ expand (fun name => pairs.lookup name) template
  plainPairs : ∀ kv ∈ pairs, '%' ∉ kv.1 ∧ '%' ∉ kv.2
  own : OwnKeys pairs

theorem fieldName_messageOf (e : Event) (text : Text) : fieldName (messageOf e text) = "MESSAGE".toList := by
  obtain ⟨rest, heq⟩ : "MESSAGE=".toList <+: messageOf e text := ⟨_, rfl⟩
  rw [← heq]
  exact fieldName_message rest

theorem getData_messageOf (e : Event) (text : Text) (rest : List Text) :
    env.getData "MESSAGE".toList (messageOf e text :: rest) =
      some ("MESSAGE=ops-evt|".toList ++ Text.decimal e.eventId ++ ['|'] ++ e.severity ++ ['|'] ++ text) :=
  getData_of_name (fieldName_messageOf e text)

theorem head_key_ne (own : OwnKeys pairs) : (pairs.head?.map Prod.fst).getD [] ≠ "SYSLOG_IDENTIFIER".toList ∧
    (pairs.head?.map Prod.fst).getD [] ≠ "_SOURCE_REALTIME_TIMESTAMP".toList := by
  cases pairs with
  | nil => exact ⟨by decide +kernel, by decide +kernel⟩
  | cons kv pairs => exact own kv List.mem_cons_self

/-- What journald gets of a call that describes its event. -/
theorem texts_logEvent (h : Describable (table i).eventDescription pairs)
    (hlookup : lookup evName (some table) = some i) (hkeys : (table i).numOfKeys = pairs.length)
    (hlevel : severityLevel (table i).severity = some level) (hfuel : maxLogStr ≤ fuel) :
    ∃ o sent all, logEvent answer fuel (some table) evName (encoded pairs) buffer = .ok o ∧ o.sent = some sent ∧
      fieldName all = (pairs.head?.map Prod.fst).getD [] ∧
      F.texts sent.arguments =
        some [messageOf (table i) (expand (fun name => pairs.lookup name) (table i).eventDescription),
          priorityField level, messageOpsEvtMatch, eventIdField (table i).eventId, categoryField (table i).category,
          all] := by
  obtain ⟨⟨a, hfill, htext⟩, hsends⟩ :=
    describes_of_segments h.length h.wellBraced h.nodup h.occurs h.valid h.short (table i) fuel buffer rfl hkeys hfuel
  obtain ⟨o, all, hslot, hsent⟩ := hsends answer level hlevel
  obtain ⟨keyValueNone, a', level', hfill', -, heq⟩ := logSlot_sent hslot hsent
  rw [hfill] at hfill'
  cases hfill'
  obtain ⟨-, -, -, -, hall⟩ := Sent.event.inj heq
  obtain rfl := Option.some.inj hall
  have hcount : (given (encoded pairs)).length = (table i).numOfKeys.toNat := by
    rw [given_encoded h.valid, List.length_map, hkeys, Int.toNat_natCast]
  have haccepted : ∀ p ∈ given (encoded pairs), Accepted p := fun p hp =>
    accepted_encoded ((List.takeWhile_prefix _).subset (mem_given hp))
  have harray : a.allKeyValuePairs =
      (concatenated (pairs.map fun kv => kv.1 ++ '=' :: kv.2)).take (2 * keyValueSize - 1) := by
    rcases fillKeys_pairs haccepted List.take_nil.symm hfill with ⟨-, -, harray⟩ | ⟨hnone, -⟩
    · rw [harray, ← hcount, List.take_length, given_encoded h.valid, List.nil_append]
    · cases hnone
  refine ⟨o, _, a.allKeyValuePairs, ?_, hsent, ?_, ?_⟩
  · unfold logEvent
    rw [hlookup]
    exact hslot
  · rw [harray, fieldName_pairs h.valid]
  · have hmessage := (not_congr (percent_mem_messageOf_iff hlevel _)).mpr h.plain
    have hplain : '%' ∉ a.allKeyValuePairs := by
      rw [harray]
      exact fun hmem => percent_notMem_concatenated h.plainPairs (List.mem_of_mem_take hmem)
    have htail : F.texts [.str a.allKeyValuePairs, .null] = some [a.allKeyValuePairs] := F.texts_plain hplain _
    rw [texts_event hmessage]
    exact congrArg (Option.map _) htail

theorem line_logEvent (h : Describable (table i).eventDescription pairs)
    (hlookup : lookup evName (some table) = some i) (hkeys : (table i).numOfKeys = pairs.length)
    (hlevel : severityLevel (table i).severity = some level) (hfuel : maxLogStr ≤ fuel) (hmodule : module ≠ [])
    (htm : tm ≠ []) :
    ∃ o sent fields, logEvent answer fuel (some table) evName (encoded pairs) buffer = .ok o ∧ o.sent = some sent ∧
      F.texts sent.arguments = some fields ∧
      ∀ stamp : Stamp, stamp.syslogIdentifier = some module → stamp.timestamp = some tm →
        line env (fields ++ stamp.fields) = eventLine env tm module (table i).eventId (table i).severity
          (expand (fun name => pairs.lookup name) (table i).eventDescription) := by
  obtain ⟨o, sent, all, hlog, hsent, hall, htexts⟩ := texts_logEvent h hlookup hkeys hlevel hfuel
  refine ⟨o, sent, _, hlog, hsent, htexts, fun stamp hidentifier htimestamp => ?_⟩
  have hnames : ∀ name, name ∉ ["MESSAGE".toList, "PRIORITY".toList, "MESSAGE_ID".toList, "OPS_EVENT_ID".toList,
      "OPS_EVENT_CATEGORY".toList] → (pairs.head?.map Prod.fst).getD [] ≠ name →
      name ∉ [messageOf (table i) (expand (fun name => pairs.lookup name) (table i).eventDescription),
        priorityField level, messageOpsEvtMatch, eventIdField (table i).eventId, categoryField (table i).category,
        all].map fieldName := by
    intro name hname' hkey
    simp only [List.map_cons, List.map_nil, fieldName_messageOf, fieldName_priorityField, fieldName_mark,
      fieldName_eventIdField, fieldName_categoryField, hall]
    simp only [List.mem_cons, List.not_mem_nil, or_false, not_or] at hname' ⊢
    exact ⟨hname'.1, hname'.2.1, hname'.2.2.1, hname'.2.2.2.1, hname'.2.2.2.2, hkey.symm⟩
  have hkey := head_key_ne h.own
  refine line_of_fields ?_ ?_ ?_ hmodule htm
  · exact getData_messageOf _ _ _
  · rw [getData_append (hnames _ (by decide +kernel) hkey.1), getData_identifier hidentifier]
  · rw [getData_append (hnames _ (by decide +kernel) hkey.2), getData_timestamp htimestamp]

/-! ### The same event -/

variable {state : PyEventLog.State} {daemon : Text} {entry : PyEventLog.Entry} {pairs' : List (Text × Text)}

/-- Both loggers have loaded one definition. -/
structure SameDefinition (e : Event) (entry : PyEventLog.Entry) : Prop where
  eventId : entry.eventId = e.eventId
  severity : entry.severity = e.severity
  description : entry.description = e.eventDescription

theorem replaceStr_expand (h : Describable template pairs) (hperm : pairs.Perm pairs') :
    PyEventLog.replaceStr pairs' template = expand (fun name => pairs.lookup name) template := by
  have valid : ∀ kv ∈ pairs', ValidPair kv.1 kv.2 := fun kv hkv => h.valid kv (hperm.mem_iff.mpr hkv)
  have hreplace := replaceStr_segments valid h.wellBraced.wellFormed
  rw [text_parse, text_foldl_subst] at hreplace
  rw [lookup_perm h.nodup hperm]
  exact hreplace

theorem line_pyLogEvent (h : Describable entry.description pairs) (hperm : pairs.Perm pairs')
    (hfind : state.content.find? (·.eventName == evName) = some entry) (hdaemon : daemon ≠ []) (htm : tm ≠ []) :
    ∃ fields, PyEventLog.logEvent state daemon evName pairs' = some fields ∧
      ∀ stamp : Stamp, stamp.timestamp = some tm → line env (fields ++ stamp.fields) =
        eventLine env tm daemon entry.eventId entry.severity
          (expand (fun name => pairs.lookup name) entry.description) := by
  have hdesc : (if pairs'.isEmpty then entry.description else PyEventLog.replaceStr pairs' entry.description) =
      expand (fun name => pairs.lookup name) entry.description := by
    rw [← replaceStr_expand h hperm]
    cases pairs' with
    | nil => rfl
    | cons kv pairs' => rfl
  refine ⟨PyEventLog.journalFields daemon entry (expand (fun name => pairs.lookup name) entry.description), ?_,
    fun stamp hstamp => line_journalFields hdaemon hstamp htm⟩
  unfold PyEventLog.logEvent
  rw [hfind, Option.map_some, hdesc]

/-- A C daemon and a Python daemon that log one event with the same keys and values, in whatever order, leave entries
    for which `show events` prints the same line but for their names. -/
theorem lines_agree (h : Describable (table i).eventDescription pairs) (hsame : SameDefinition (table i) entry)
    (hlookup : lookup evName (some table) = some i) (hkeys : (table i).numOfKeys = pairs.length)
    (hlevel : severityLevel (table i).severity = some level) (hfuel : maxLogStr ≤ fuel)
    (hfind : state.content.find? (·.eventName == evName) = some entry) (hperm : pairs.Perm pairs')
    (hmodule : module ≠ []) (hdaemon : daemon ≠ []) (htm : tm ≠ []) :
    ∃ o sent fields pyFields, logEvent answer fuel (some table) evName (encoded pairs) buffer = .ok o ∧
      o.sent = some sent ∧ F.texts sent.arguments = some fields ∧
      PyEventLog.logEvent state daemon evName pairs' = some pyFields ∧
      ∀ stamp pyStamp : Stamp, stamp.syslogIdentifier = some module → stamp.timestamp = some tm →
        pyStamp.timestamp = some tm →
        line env (fields ++ stamp.fields) = eventLine env tm module (table i).eventId (table i).severity
            (expand (fun name => pairs.lookup name) (table i).eventDescription) ∧
          line env (pyFields ++ pyStamp.fields) = eventLine env tm daemon (table i).eventId (table i).severity
            (expand (fun name => pairs.lookup name) (table i).eventDescription) := by
  obtain ⟨o, sent, fields, hlog, hsent, htexts, hline⟩ := line_logEvent h hlookup hkeys hlevel hfuel hmodule htm
  obtain ⟨pyFields, hpy, hpyLine⟩ := line_pyLogEvent (hsame.description ▸ h) hperm hfind hdaemon htm
  refine ⟨o, sent, fields, pyFields, hlog, hsent, htexts, hpy, fun stamp pyStamp hidentifier hstamp hpyStamp =>
    ⟨hline stamp hidentifier hstamp, ?_⟩⟩
  rw [hpyLine pyStamp hpyStamp, hsame.eventId, hsame.severity, hsame.description]

def countEvent : Event := ⟨"FAN".toList, 2001, "FAN_COUNT".toList, "LOG_INFO".toList, 2, fanTemplate⟩

def countEntry : PyEventLog.Entry := ⟨"FAN".toList, "FAN_COUNT".toList, 2001, "LOG_INFO".toList, fanTemplate⟩

theorem countEvent_describable : Describable countEvent.eventDescription fanPairs where
  length := by decide
  wellBraced := by decide
  nodup := by decide
  occurs := by decide
  valid := fanPairs_valid
  short _ hr := short_of_check (n := 5) (by decide) hr
  plain := by decide
  plainPairs := by decide
  own := by
    intro kv hkv
    rcases List.mem_pair.mp hkv with rfl | rfl
    · decide +kernel
    · decide +kernel

theorem countEvent_lines_agree : ∃ o sent fields pyFields,
    logEvent (fun _ => 0) maxLogStr (some fun _ => countEvent) "FAN_COUNT".toList (encoded fanPairs) [] = .ok o ∧
      o.sent = some sent ∧ Printf.basic.texts sent.arguments = some fields ∧
      PyEventLog.logEvent ⟨[countEntry], ["FAN".toList]⟩ "ops-thermald".toList "FAN_COUNT".toList fanPairs.reverse =
        some pyFields ∧
      ∀ stamp pyStamp : Stamp, stamp.syslogIdentifier = some "ops-fand".toList →
        stamp.timestamp = some "1467360000000000".toList → pyStamp.timestamp = some "1467360000000000".toList →
        line noClock (fields ++ stamp.fields) =
            eventLine noClock "1467360000000000".toList "ops-fand".toList 2001 "LOG_INFO".toList
              (expand (fun name => fanPairs.lookup name) fanTemplate) ∧
          line noClock (pyFields ++ pyStamp.fields) =
            eventLine noClock "1467360000000000".toList "ops-thermald".toList 2001 "LOG_INFO".toList
              (expand (fun name => fanPairs.lookup name) fanTemplate) := by
  have hlookup : lookup "FAN_COUNT".toList (some fun _ => countEvent) = some 0 := by decide +kernel
  have hlevel : severityLevel countEvent.severity = some 6 := by decide +kernel
  have hfind : [countEntry].find? (·.eventName == "FAN_COUNT".toList) = some countEntry := by decide +kernel
  exact lines_agree countEvent_describable ⟨rfl, rfl, rfl⟩ hlookup rfl hlevel (Nat.le_refl _) hfind
    (List.reverse_perm fanPairs).symm (by decide +kernel) (by decide +kernel) (by decide +kernel)

end

end ShowEvents
end OpsSupportability
