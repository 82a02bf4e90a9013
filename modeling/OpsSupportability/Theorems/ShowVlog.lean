import OpsSupportability.ShowVlog
import OpsSupportability.Theorems.ShowEvents
import OpsSupportability.Theorems.SupportabilityVty

/-! What `show vlog` shows of a journal, and the command that is made of the pid files. -/

namespace OpsSupportability
namespace ShowVlog

open ShowEvents

/-! ### Log messages -/

/-- A log message as journald keeps it: the values of its fields, where it has them. -/
structure Log where
  transport : Option Text
  priority : Option Text
  identifier : Option Text
  message : Option Text
  deriving DecidableEq, Repr

/-- The severity that the priority stands for; a priority can be any text. -/
def Log.level (l : Log) : Option Nat := (List.range maxSevs).find? fun n => l.priority == some (Text.decimal n)

def transportField (transport : Text) : Text := "_TRANSPORT=".toList ++ transport
def priorityTextField (priority : Text) : Text := "PRIORITY=".toList ++ priority
def identifierField (identifier : Text) : Text := "SYSLOG_IDENTIFIER=".toList ++ identifier
def messageField (message : Text) : Text := "MESSAGE=".toList ++ message

def named (name : Text) (fields : List Text) : List Text := fields.filter fun field => fieldName field == name

/-- The fields of an entry are those of the message, in any order, among any others; none of the four is there twice. -/
structure Log.Recorded (l : Log) (fields : List Text) : Prop where
  transport : named "_TRANSPORT".toList fields = (l.transport.map transportField).toList
  priority : named "PRIORITY".toList fields = (l.priority.map priorityTextField).toList
  identifier : named "SYSLOG_IDENTIFIER".toList fields = (l.identifier.map identifierField).toList
  message : named "MESSAGE".toList fields = (l.message.map messageField).toList

/-- The messages that the command is to show: those of Open vSwitch's logging that came by syslog, at the severity or
    above it, of the daemon. -/
def wants (severity daemon : Option Text) (l : Log) : Bool :=
  l.transport == some "syslog".toList && severity.all (fun word => (sevLevel word).any fun most => l.level.any (· ≤ most)) &&
    daemon.all (fun d => l.identifier == some d) && l.message.bind (strtok '|') == some ovs

def shown (l : Log) : Text := line (orNull (l.identifier.filter (!·.isEmpty))) (l.message.getD [])

section
variable {journald : Journald} {l : Log} {fields : List Text} {name field value : Text}

theorem mem_named (hname : fieldName field = name) : field ∈ named name fields ↔ field ∈ fields := by
  exact List.mem_filter.trans (and_iff_left (beq_iff_eq.mpr hname))

theorem getData_eq (name : Text) (fields : List Text) : journald.getData name fields = (named name fields).head? :=
  (journald.getData_eq name fields).trans List.head?_filter.symm

theorem fieldName_transport (value : Text) : fieldName (transportField value) = "_TRANSPORT".toList := by
  unfold transportField
  simp [fieldName]

theorem getValue_of_name {pre : Text} (hpre : pre = name ++ ['=']) (hname : '=' ∉ name) (value : Text) :
    getValue (pre ++ value) = if value.isEmpty then none else some value := by
  have hall : ∀ c ∈ name, (c != '=') = true := fun c hc => bne_iff_ne.mpr fun heq => hname (heq ▸ hc)
  rw [hpre, List.append_assoc, getValue, List.dropWhile_append_of_pos hall, List.singleton_append,
    List.dropWhile_cons_of_neg (by decide)]
  cases value <;> rfl

/-- The value of a field that is there at most once. -/
theorem getValue_of_named {pre : Text} (hpre : pre = name ++ ['=']) (hname : '=' ∉ name) {value : Option Text}
    (h : named name fields = (value.map (pre ++ ·)).toList) :
    (journald.getData name fields).bind getValue = value.filter (!·.isEmpty) := by
  rw [getData_eq, h]
  cases value with
  | none => rfl
  | some value =>
    rw [Option.map_some, Option.toList_some, List.head?_cons, Option.bind_some, getValue_of_name hpre hname]
    cases value <;> rfl

theorem message_eq (h : l.Recorded fields) :
    (journald.getData "MESSAGE".toList fields).bind getValue = l.message.filter (!·.isEmpty) :=
  getValue_of_named (show "MESSAGE=".toList = "MESSAGE".toList ++ ['='] by decide +kernel) (by decide) h.message

theorem module_eq (h : l.Recorded fields) :
    (journald.getData "SYSLOG_IDENTIFIER".toList fields).bind getValue = l.identifier.filter (!·.isEmpty) :=
  getValue_of_named (show "SYSLOG_IDENTIFIER=".toList = "SYSLOG_IDENTIFIER".toList ++ ['='] by decide +kernel) (by decide)
    h.identifier

theorem strtok_nil (delim : Char) : strtok delim [] = none := by
  simp [strtok, Text.tokens]

/-! ### The matches -/

theorem snprintf_append {pre : Text} {n : Nat} (h : bufSize - 1 = pre.length + n) (d : Text) :
    snprintf (pre ++ d) = pre ++ d.take n := by
  rw [snprintf, h, List.take_length_add_append]

theorem snprintf_identifier (d : Text) :
    snprintf ("SYSLOG_IDENTIFIER=".toList ++ d) = identifierField (d.take 245) :=
  snprintf_append (by decide) d

theorem fieldName_identifierField (value : Text) : fieldName (identifierField value) = "SYSLOG_IDENTIFIER".toList :=
  fieldName_syslogIdentifier value

theorem mem_of_named {value : Option Text} {mark : Text → Text} (h : named name fields = (value.map mark).toList)
    (hname : ∀ v, fieldName (mark v) = name) (hinj : Function.Injective mark) (v : Text) :
    mark v ∈ fields ↔ value = some v := by
  rw [← mem_named (hname v), h]
  cases value with
  | none => simp
  | some w => rw [Option.map_some, Option.toList_some, List.mem_singleton, hinj.eq_iff, Option.some_inj, eq_comm]

theorem matched_transport (h : l.Recorded fields) :
    journald.matched [messageOvsMatch] fields = true ↔ l.transport = some "syslog".toList := by
  have hmark : messageOvsMatch = transportField "syslog".toList := by decide +kernel
  rw [matched_singleton, hmark]
  exact mem_of_named h.transport fieldName_transport (List.append_right_injective _) _

/-- The level is the number that the priority is. -/
theorem level_any_iff (l : Log) {most : Nat} (hmost : most < maxSevs) :
    l.level.any (· ≤ most) = true ↔ ∃ n : Nat, n ≤ most ∧ l.priority = some (Text.decimal n) := by
  rw [Option.any_eq_true]
  constructor
  · rintro ⟨n, hn, hle⟩
    exact ⟨n, of_decide_eq_true hle, beq_iff_eq.mp (List.find?_some hn :)⟩
  · rintro ⟨n, hle, hpriority⟩
    have hfound : l.level.isSome = true :=
      List.find?_isSome.mpr ⟨n, List.mem_range.mpr (Nat.lt_of_le_of_lt hle hmost), beq_iff_eq.mpr hpriority⟩
    obtain ⟨k, hk⟩ := Option.isSome_iff_exists.mp hfound
    have hsame : l.priority = some (Text.decimal k) := beq_iff_eq.mp (List.find?_some hk :)
    obtain rfl := Int.natCast_inj.mp (Text.decimal_injective (Option.some.inj (hpriority.symm.trans hsame)))
    exact ⟨n, hk, decide_eq_true hle⟩

theorem matched_priority (h : l.Recorded fields) {level : Nat} (hlevel : level < maxSevs) :
    journald.matched (priorityMatches level) fields = true ↔ l.level.any (· ≤ level) = true := by
  have hname : ∀ m ∈ priorityMatches level, fieldName m = "PRIORITY".toList := fun m hm => by
    obtain ⟨n, -, rfl⟩ := (mem_priorityMatches hlevel).mp hm
    exact fieldName_priorityField n
  have hne : priorityMatches level ≠ [] := List.ne_nil_of_mem ((mem_priorityMatches hlevel).mpr ⟨0, Nat.zero_le _, rfl⟩)
  have hpriority (n : Nat) : priorityField n ∈ fields ↔ l.priority = some (Text.decimal n) :=
    mem_of_named h.priority fieldName_priority (List.append_right_injective _) _
  rw [matched_of_name hname hne, level_any_iff l hlevel]
  constructor
  · rintro ⟨m, hm, hmem⟩
    obtain ⟨n, hn, rfl⟩ := (mem_priorityMatches hlevel).mp hm
    exact ⟨n, hn, (hpriority n).mp hmem⟩
  · rintro ⟨n, hn, hmem⟩
    exact ⟨priorityField n, (mem_priorityMatches hlevel).mpr ⟨n, hn, rfl⟩, (hpriority n).mpr hmem⟩

theorem matched_identifier (h : l.Recorded fields) (d : Text) :
    journald.matched [identifierField d] fields = true ↔ l.identifier = some d := by
  rw [matched_singleton]
  exact mem_of_named h.identifier fieldName_identifierField (List.append_right_injective _) d

/-! ### An entry -/

theorem entryLine_none (h : l.Recorded fields) :
    entryLine journald none fields = if l.message.bind (strtok '|') = some ovs then some (shown l) else none := by
  rw [entryLine, message_eq h, module_eq h]
  cases hmessage : l.message with
  | none => rfl
  | some message =>
    cases message with
    | nil => simp [Option.filter, strtok_nil]
    | cons c message =>
      rw [shown, hmessage]
      rfl

theorem entryLine_some (h : l.Recorded fields) {i : Text} (hi : l.identifier = some i) (hne : i ≠ []) (d : Text) :
    entryLine journald (some d) fields = if i = d ∧ l.message.bind (strtok '|') = some ovs then some (shown l) else none := by
  have hfilter : l.identifier.filter (!·.isEmpty) = some i := by simp [hi, Option.filter, hne]
  rw [entryLine, message_eq h, module_eq h, hfilter]
  cases hmessage : l.message with
  | none => exact (if_neg fun hboth => nomatch hboth.2).symm
  | some message =>
    cases message with
    | nil => simp [Option.filter, strtok_nil]
    | cons c message =>
      rw [shown, hfilter, hmessage]
      refine ite_congr rfl (fun hboth => ?_) fun _ => rfl
      rw [hboth.1]
      rfl

/-! ### The command -/

/-- What the installed command can be given: one of the words for a severity, and a word for a daemon. -/
structure Given (severity daemon : Option Text) : Prop where
  severity : ∀ word, severity = some word → word ∈ sevWords
  daemon : daemon ≠ some []

/-- The matches of a command. -/
def severities (severity : Option Text) : List Text :=
  severity.elim [] fun word => priorityMatches ((sevLevel word).getD 0)

def daemons (daemon : Option Text) : List Text := daemon.elim [] fun d => [identifierField (d.take 245)]

theorem argFilter_severity {severity : Option Text} (h : ∀ word, severity = some word → word ∈ sevWords) :
    argFilter severityIndex severity = some (severities severity) := by
  cases severity with
  | none => rfl
  | some word =>
    obtain ⟨level, hlt, hlevel⟩ := sevLevel_of_mem (h word rfl)
    rw [argFilter, vlogFilter, if_neg (by decide), if_pos rfl, severities, Option.elim_some, hlevel]
    exact if_pos hlt

theorem argFilter_daemon (daemon : Option Text) : argFilter daemonIndex daemon = some (daemons daemon) := by
  cases daemon with
  | none => rfl
  | some d =>
    rw [argFilter, vlogFilter, if_pos rfl, snprintf_identifier]
    rfl

theorem matched_severities (h : l.Recorded fields) {severity : Option Text}
    (hwords : ∀ word, severity = some word → word ∈ sevWords) :
    journald.matched (severities severity) fields =
      severity.all fun word => (sevLevel word).any fun most => l.level.any (· ≤ most) := by
  cases severity with
  | none => exact matched_nil
  | some word =>
    obtain ⟨level, hlt, hlevel⟩ := sevLevel_of_mem (hwords word rfl)
    rw [severities, Option.elim_some, hlevel, Option.all_some, hlevel, Option.any_some, Bool.eq_iff_iff]
    exact matched_priority h hlt

theorem matched_daemons (h : l.Recorded fields) (daemon : Option Text) :
    journald.matched (daemons daemon) fields = daemon.all fun d => l.identifier == some (d.take 245) := by
  cases daemon with
  | none => exact matched_nil
  | some d =>
    rw [Option.all_some, Bool.eq_iff_iff, beq_iff_eq]
    exact matched_identifier h _

theorem fieldName_severities (severity : Option Text) (hwords : ∀ word, severity = some word → word ∈ sevWords) :
    ∀ m ∈ severities severity, fieldName m = "PRIORITY".toList := by
  intro m hm
  cases severity with
  | none => cases hm
  | some word =>
    obtain ⟨level, hlt, hlevel⟩ := sevLevel_of_mem (hwords word rfl)
    rw [severities, Option.elim_some, hlevel] at hm
    obtain ⟨n, -, rfl⟩ := (mem_priorityMatches hlt).mp hm
    exact fieldName_priorityField n

theorem fieldName_daemons (daemon : Option Text) : ∀ m ∈ daemons daemon, fieldName m = "SYSLOG_IDENTIFIER".toList := by
  intro m hm
  cases daemon with
  | none => cases hm
  | some d =>
    obtain rfl := List.mem_singleton.mp hm
    exact fieldName_identifierField _

/-- The entries that the command visits. -/
theorem matched_command (h : l.Recorded fields) {severity daemon : Option Text} (hgiven : Given severity daemon) :
    journald.matched (messageOvsMatch :: (severities severity ++ daemons daemon)) fields =
      (l.transport == some "syslog".toList && severity.all (fun word => (sevLevel word).any fun most => l.level.any (· ≤ most)) &&
        daemon.all fun d => l.identifier == some (d.take 245)) := by
  have hfirst : ∀ m ∈ [messageOvsMatch], ∀ m' ∈ severities severity ++ daemons daemon, fieldName m ≠ fieldName m' := by
    intro m hm m' hm'
    have hmark : fieldName m = "_TRANSPORT".toList := by
      rw [List.mem_singleton.mp hm]
      decide +kernel
    rcases List.mem_append.mp hm' with hm' | hm'
    · rw [hmark, fieldName_severities severity hgiven.severity m' hm']
      decide
    · rw [hmark, fieldName_daemons daemon m' hm']
      decide
  have hsecond : ∀ m ∈ severities severity, ∀ m' ∈ daemons daemon, fieldName m ≠ fieldName m' := by
    intro m hm m' hm'
    rw [fieldName_severities severity hgiven.severity m hm, fieldName_daemons daemon m' hm']
    decide
  rw [← List.singleton_append, Bool.eq_iff_iff, matched_append hfirst, matched_append hsecond, matched_transport h,
    matched_severities h hgiven.severity, matched_daemons h, Bool.and_eq_true, Bool.and_eq_true, beq_iff_eq, and_assoc]

/-- The wanted messages that are seen: a daemon's name has to fit into the buffer of its match. -/
def seen (severity daemon : Option Text) (l : Log) : Bool := wants severity daemon l && daemon.all (·.length ≤ 245)

theorem entry_eq (h : l.Recorded fields) {severity daemon : Option Text} (hgiven : Given severity daemon) :
    (if journald.matched (messageOvsMatch :: (severities severity ++ daemons daemon)) fields then
      entryLine journald daemon fields else none) = if seen severity daemon l then some (shown l) else none := by
  rw [matched_command h hgiven, seen, wants]
  cases hby : l.transport == some "syslog".toList && severity.all fun word => (sevLevel word).any fun most => l.level.any (· ≤ most) with
  | false => rfl
  | true =>
    rw [Bool.true_and, Bool.true_and]
    cases daemon with
    | none =>
      rw [entryLine_none h, Option.all_none, Option.all_none, Option.all_none, Bool.true_and, Bool.and_true, if_pos rfl]
      exact if_congr beq_iff_eq.symm rfl rfl
    | some d =>
      rw [Option.all_some, Option.all_some, Option.all_some]
      by_cases hlen : d.length ≤ 245
      · rw [List.take_of_length_le hlen, decide_eq_true hlen, Bool.and_true]
        by_cases hi : l.identifier = some d
        · have hne : d ≠ [] := fun hnil => hgiven.daemon (congrArg some hnil)
          rw [entryLine_some h hi hne, hi, beq_self_eq_true, Bool.true_and, if_pos rfl]
          exact if_congr ((and_iff_right rfl).trans beq_iff_eq.symm) rfl rfl
        · rw [beq_eq_false_iff_ne.mpr hi]
          rfl
      · rw [decide_eq_false hlen, Bool.and_false]
        by_cases hi : l.identifier = some (d.take 245)
        · have hne : d.take 245 ≠ [] := fun hnil => by
            have := congrArg List.length hnil
            rw [List.length_take, List.length_nil] at this
            omega
          have hcut : d.take 245 ≠ d := fun heq => by
            have := congrArg List.length heq
            rw [List.length_take] at this
            omega
          have hline : entryLine journald (some d) fields = none :=
            (entryLine_some h hi hne d).trans (if_neg fun hboth => hcut hboth.1)
          rw [hline, ite_self]
          rfl
        · rw [beq_eq_false_iff_ne.mpr hi]
          rfl

end

theorem lines_eq (journald : Journald) {logs : List Log} {journal : List (List Text)}
    (h : List.Forall₂ Log.Recorded logs journal) {severity daemon : Option Text} (hgiven : Given severity daemon) :
    (cliPlatformShowVlog journald journal severity daemon).lines = (logs.filter (seen severity daemon)).map shown := by
  rw [cliPlatformShowVlog, argFilter_severity hgiven.severity, argFilter_daemon]
  change (journal.filter _).filterMap _ = _
  rw [List.filterMap_filter, ← List.filterMap_eq_map, List.filterMap_filter]
  induction h with
  | nil => rfl
  | cons hrecorded _ ih =>
    rw [List.filterMap_cons, List.filterMap_cons, entry_eq hrecorded hgiven, ih]
    rfl

/-- The command shows the wanted messages, each once and in the order of the journal, unless there are some of a
    daemon whose name does not fit into the buffer of its match. -/
theorem lines_eq_wanted_iff (journald : Journald) {logs : List Log} {journal : List (List Text)}
    (h : List.Forall₂ Log.Recorded logs journal) {severity daemon : Option Text} (hgiven : Given severity daemon) :
    (cliPlatformShowVlog journald journal severity daemon).lines = (logs.filter (wants severity daemon)).map shown ↔
      ∀ d, daemon = some d → 245 < d.length → ∀ l ∈ logs, wants severity daemon l = false := by
  rw [lines_eq journald h hgiven]
  by_cases hfits : daemon.all (·.length ≤ 245) = true
  · have hseen : seen severity daemon = wants severity daemon := funext fun l => by rw [seen, hfits, Bool.and_true]
    rw [hseen]
    refine iff_of_true rfl fun d hd hlen => ?_
    rw [hd, Option.all_some, decide_eq_true_iff] at hfits
    omega
  · have hseen : logs.filter (seen severity daemon) = [] := List.filter_eq_nil_iff.mpr fun l _ => by
      rw [seen, eq_false_of_ne_true hfits, Bool.and_false]
      exact Bool.false_ne_true
    rw [hseen, List.map_nil, eq_comm, List.map_eq_nil_iff, List.filter_eq_nil_iff]
    constructor
    · exact fun hnone d _ _ l hl => eq_false_of_ne_true (hnone l hl)
    · intro hnone l hl
      cases daemon with
      | none => exact absurd rfl hfits
      | some d =>
        rw [Option.all_some, decide_eq_true_iff] at hfits
        rw [hnone d rfl (by omega) l hl]
        exact Bool.false_ne_true

/-! A message of the fan daemon among others. -/

def fanLog : Log :=
  ⟨some "syslog".toList, some ['3'], some "ops-fand".toList, some "ovs|00007|fan|ERR|fan 2 stopped".toList⟩

/-- The second one is an event of Python, the third has no priority. -/
def fanLogs : List Log :=
  [⟨some "journal".toList, some ['3'], some "ops-fand".toList, some "started".toList⟩,
    ⟨some "journal".toList, some "LOG_CRIT".toList, some "ops-fand".toList, some "ops-evt|1001|LOG_CRIT|fan".toList⟩,
    ⟨some "syslog".toList, none, some "ops-fand".toList, some "ovs|00006|fan|ERR|fan 1 stopped".toList⟩, fanLog,
    ⟨some "syslog".toList, some ['3'], some "ops-tempd".toList, some "ovs|00001|temp|ERR|no sensors".toList⟩,
    ⟨some "syslog".toList, some ['6'], some "ops-fand".toList, some "ovs|00008|fan|INFO|fan 2 started".toList⟩]

def Log.fields (l : Log) : List Text :=
  (l.transport.map transportField).toList ++ (l.priority.map priorityTextField).toList ++
    (l.identifier.map identifierField).toList ++ (l.message.map messageField).toList

theorem named_toList {value : Option Text} {mark : Text → Text} {own : Text} (hname : ∀ v, fieldName (mark v) = own)
    (name : Text) : named name (value.map mark).toList = if own = name then (value.map mark).toList else [] := by
  cases value with
  | none => simp [named]
  | some v => simp [named, List.filter_singleton, hname]

theorem recorded_fields (l : Log) : l.Recorded l.fields := by
  have hnamed (name : Text) : named name l.fields =
      (if "_TRANSPORT".toList = name then (l.transport.map transportField).toList else []) ++
        (if "PRIORITY".toList = name then (l.priority.map priorityTextField).toList else []) ++
        (if "SYSLOG_IDENTIFIER".toList = name then (l.identifier.map identifierField).toList else []) ++
        (if "MESSAGE".toList = name then (l.message.map messageField).toList else []) := by
    have hpriority : ∀ v, fieldName (priorityTextField v) = "PRIORITY".toList := fieldName_priority
    have hmessage : ∀ v, fieldName (messageField v) = "MESSAGE".toList := fieldName_message
    rw [← named_toList fieldName_transport, ← named_toList hpriority, ← named_toList fieldName_identifierField,
      ← named_toList hmessage]
    simp only [named, Log.fields, List.filter_append]
  constructor <;> rw [hnamed] <;> simp

theorem recorded_fanLogs : List.Forall₂ Log.Recorded fanLogs (fanLogs.map Log.fields) := by
  rw [List.forall₂_map_right_iff, List.forall₂_same]
  intro l _
  exact recorded_fields l

theorem lines_eq_wanted_fan :
    (cliPlatformShowVlog .basic (fanLogs.map Log.fields) (some "err".toList) (some "ops-fand".toList)).lines =
      [shown fanLog] := by
  have hgiven : Given (some "err".toList) (some "ops-fand".toList) :=
    { severity := fun word h => Option.some.inj h ▸ by decide
      daemon := by decide }
  have hlines := (lines_eq_wanted_iff .basic recorded_fanLogs hgiven).mpr fun d hd hlen => by
    obtain rfl := Option.some.inj hd
    exact absurd hlen (by decide)
  exact hlines.trans (by decide +kernel)

/-! ### The installed command -/

/-- The command that offers some daemons. -/
def whole (daemons : List Text) : Text := vlogCmd ++ daemons.flatMap (· ++ ['|']) ++ vlogClosing

/-- The pid files of a directory are those of some daemons, in the order of the directory. -/
structure PidFiles (names ds : List Text) : Prop where
  files : names.filter isPidFile = ds.map (· ++ ".pid".toList)
  plain : ∀ d ∈ ds, '.' ∉ d
  short : ∀ d ∈ ds, d.length < maxFilenameSize

theorem strtok_pidFile {d : Text} (hne : d ≠ []) (hdot : '.' ∉ d) (hlen : d.length < maxFilenameSize) :
    strtok '.' (strncpy maxFilenameSize (d ++ ".pid".toList)) = some d := by
  have hle : d.length ≤ maxFilenameSize - 1 := Nat.le_pred_of_lt hlen
  rw [strncpy, List.take_append, List.take_of_length_le hle, strtok, Text.tokens]
  have hparts : ∃ parts, (d ++ ".pid".toList.take (maxFilenameSize - 1 - d.length)).splitOn '.' = d :: parts := by
    cases maxFilenameSize - 1 - d.length with
    | zero => exact ⟨[], by rw [List.take_zero, List.append_nil, List.splitOn_eq_singleton hdot]⟩
    | succ n =>
      have hpid : ".pid".toList = '.' :: "pid".toList := by decide
      rw [hpid, List.take_succ_cons, List.splitOn_append_cons_self_of_not_mem hdot]
      exact ⟨_, rfl⟩
  obtain ⟨parts, hparts⟩ := hparts
  rw [hparts, List.filter_cons_of_pos (by simpa using hne)]
  rfl

theorem dirLoop_eq {names ds : List Text} (h : PidFiles names ds) (text : Text) (install : Bool) :
    dirLoop names ⟨text.take (maxVlogCmd - 1), install⟩ =
      some ⟨(text ++ ds.flatMap (· ++ ['|'])).take (maxVlogCmd - 1), install || !ds.isEmpty⟩ := by
  induction names generalizing ds text install with
  | nil =>
    obtain rfl := List.map_eq_nil_iff.mp h.files.symm
    simp [dirLoop]
  | cons name names ih =>
    rw [dirLoop]
    cases hpid : isPidFile name with
    | false =>
      refine ih ⟨?_, h.plain, h.short⟩ text install
      rw [← h.files, List.filter_cons_of_neg (by simp [hpid])]
    | true =>
      have hfiles := h.files
      rw [List.filter_cons_of_pos hpid] at hfiles
      obtain ⟨d, ds, rfl, rfl, hrest⟩ := List.map_eq_cons_iff.mp hfiles.symm
      have hne : d ≠ [] := by
        rintro rfl
        exact absurd hpid (by decide +kernel)
      rw [if_pos rfl, strtok_pidFile hne (h.plain d List.mem_cons_self) (h.short d List.mem_cons_self)]
      dsimp only
      rw [SupportabilityVty.strncat_take, SupportabilityVty.strncat_take, ih ⟨hrest.symm,
        fun e he => h.plain e (List.mem_cons_of_mem _ he), fun e he => h.short e (List.mem_cons_of_mem _ he)⟩]
      simp

/-- The command offers every daemon with a pid file, whole and in the order of the directory, iff there is one and
    the string fits. -/
theorem installShowVlog_whole_iff {names ds : List Text} (h : PidFiles names ds) :
    installShowVlog (some names) = some (0, some (whole ds)) ↔ ds ≠ [] ∧ (whole ds).length < maxVlogCmd := by
  rw [installShowVlog, strncpy, dirLoop_eq h, Option.map_some, SupportabilityVty.strncat_take]
  cases ds with
  | nil => simp
  | cons d ds =>
    have hwhole : vlogCmd ++ (d :: ds).flatMap (· ++ ['|']) ++ vlogClosing = whole (d :: ds) := rfl
    rw [hwhole]
    simp only [List.isEmpty_cons, Bool.not_false, Bool.or_true, if_true, Option.some_inj, Prod.mk.injEq, true_and,
      List.take_eq_self_iff, ne_eq, reduceCtorEq, not_false_eq_true]
    exact ⟨fun hle => Nat.lt_of_le_of_lt hle (by decide), Nat.le_pred_of_lt⟩

theorem installShowVlog_whole_fan :
    installShowVlog (some [".".toList, "..".toList, "ops-fand.pid".toList, "ops-fand.812.ctl".toList,
      "ovsdb-server.pid".toList, "ops-tempd.pid".toList]) =
        some (0, some (whole ["ops-fand".toList, "ops-tempd".toList])) := by
  have hpidFiles : PidFiles [".".toList, "..".toList, "ops-fand.pid".toList, "ops-fand.812.ctl".toList,
      "ovsdb-server.pid".toList, "ops-tempd.pid".toList] ["ops-fand".toList, "ops-tempd".toList] :=
    { files := by decide +kernel
      plain := by decide
      short := by decide }
  exact (installShowVlog_whole_iff hpidFiles).mpr ⟨by decide, by decide +kernel⟩

end ShowVlog
end OpsSupportability
