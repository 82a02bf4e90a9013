import OpsSupportability.CoreTable
import OpsSupportability.CrashReport
import OpsSupportability.Theorems.EventLines
import OpsSupportability.Theorems.ShowEvents
import OpsSupportability.Theorems.SupportabilityDaemon
import OpsSupportability.Theorems.TimeStamps

/-! The report of a crash tells what `show core-dump` tells of the core file: the daemon reads the attributes of the
    file in Python, the command in C, each with its own table of signals and its own buffers. -/

namespace OpsSupportability
namespace CrashReport

open CoreDump (CoreDumpData extractInfo coreFilePattern)
open CoreTable (Signals signalDesc signalDescStrLen)
open ShowEvents (Stamp Record crashEntry line convertToDatetime)

variable {env : Env} {system : CoreDump.Env} {signals : Signals} {file path comm date time : Text}
  {signal timestamp : Nat} {cd : CoreDumpData}

/-- A core file with the attributes that the system gives it; the daemon finds it as `file`, the command as `path`. -/
structure CoreFile (env : Env) (system : CoreDump.Env) (file path comm : Text) (signal timestamp : Nat) : Prop where
  same : ∀ name, env.xattr file name = system.xattr path name
  commAttr : system.xattr path "user.coredump.comm".toList = some comm
  signalAttr : system.xattr path "user.coredump.signal".toList = some (Text.decimal signal)
  timestampAttr : system.xattr path "user.coredump.timestamp".toList = some (Text.decimal timestamp)
  commShort : comm.length ≤ CoreDump.daemonNameSize
  signalSmall : signal < 1000
  timestampSmall : timestamp < 2 ^ 63
  /-- Both ask the same clock, which has a date of ten characters. -/
  clock : ∃ date time, system.localtime timestamp = some (date, time) ∧
    env.fromtimestamp timestamp = some (date ++ ' ' :: time) ∧ date.length = 10 ∧ time.length = 8

/-- The names that the C library has for the signals from 1 on. -/
def standardNames : List Text :=
  ["Hangup".toList, "Interrupt".toList, "Quit".toList, "Illegal instruction".toList, "Trace/breakpoint trap".toList,
    "Aborted".toList, "Bus error".toList, "Floating point exception".toList, "Killed".toList,
    "User defined signal 1".toList, "Segmentation fault".toList, "User defined signal 2".toList, "Broken pipe".toList,
    "Alarm clock".toList, "Terminated".toList, "Stack fault".toList, "Child exited".toList, "Continued".toList,
    "Stopped (signal)".toList, "Stopped".toList, "Stopped (tty input)".toList, "Stopped (tty output)".toList,
    "Urgent I/O condition".toList, "CPU time limit exceeded".toList, "File size limit exceeded".toList,
    "Virtual timer expired".toList, "Profiling timer expired".toList, "Window changed".toList, "I/O possible".toList,
    "Power failure".toList, "Bad system call".toList]

/-- The names of the signals in the C library. -/
structure Named (signals : Signals) : Prop where
  rtmax : 32 ≤ signals.rtmax
  standard : ∀ n : Nat, n < 31 → signals.strsignal (n + 1) = standardNames[n]?
  realtime : ∀ n : Nat, 32 ≤ n → signals.strsignal n ≠ some "Unknown signal".toList

/-- What the row of the table says, under the keys of the event. -/
def rowEvent (signals : Signals) (cd : CoreDumpData) : List (Text × Text) :=
  [("process".toList, cd.daemonName), ("signal".toList, signalDesc signals cd.crashSignal signalDescStrLen),
    ("timestamp".toList, cd.crashDate ++ ' ' :: cd.crashTime)]

/-! ### What the daemon reads -/

theorem digits_decimal (n : Nat) : digits (Text.decimal n) = some (n : Int) := by
  have hall : (Nat.toDigits 10 n).all Char.isDigit = true :=
    List.all_eq_true.mpr fun c hc => Text.isDigit_of_mem_toDigits hc
  have hne : Nat.toDigits 10 n ≠ [] := Nat.toDigits_ne_nil
  rw [Text.decimal_natCast, digits, if_pos ⟨hne, hall⟩, Nat.ofDigitChars_ten_toDigits]

theorem int_decimal (n : Nat) : int (Text.decimal n) = some (n : Int) := by
  have hdigit : ∀ c ∈ Text.decimal n, c.isDigit = true := by
    rw [Text.decimal_natCast]
    exact fun c hc => Text.isDigit_of_mem_toDigits hc
  have hspace : ∀ c ∈ Text.decimal n, ¬ Text.isSpace c = true := fun c hc => by
    rw [Text.isSpace_of_isDigit (hdigit c hc)]
    exact Bool.false_ne_true
  have hdrop : (Text.decimal n).dropWhile Text.isSpace = Text.decimal n := by
    rw [List.dropWhile_eq_self_iff]
    exact fun hlen => hspace _ (List.getElem_mem hlen)
  have hrdrop : (Text.decimal n).rdropWhile Text.isSpace = Text.decimal n := by
    rw [List.rdropWhile_eq_self_iff]
    exact fun hne => hspace _ (List.getLast_mem hne)
  rw [int, hdrop, hrdrop]
  split
  · next rest heq => exact absurd (hdigit '-' (heq ▸ List.mem_cons_self)) (by decide)
  · next rest heq => exact absurd (hdigit '+' (heq ▸ List.mem_cons_self)) (by decide)
  · exact digits_decimal n

theorem item_natCast (l : List Text) (n : Nat) : item l n = l[n]? := by
  rw [item, if_pos (Int.natCast_nonneg n), Int.toNat_natCast]

/-- A signal that the table does not have is unknown. -/
def reason (signal : Nat) : Text := (strsignal[signal]?).getD "Unknown signal".toList

theorem item_signal (signal : Nat) :
    item strsignal (if (strsignal.length : Int) ≤ signal then 0 else (signal : Int)) = some (reason signal) := by
  rw [reason]
  split
  · next hge =>
    have hnone : strsignal[signal]? = none := List.getElem?_eq_none (by omega)
    rw [hnone]
    rfl
  · next hlt =>
    have hlen : signal < strsignal.length := by omega
    rw [item_natCast, List.getElem?_eq_getElem hlen]
    rfl

theorem crashEvent_eq (h : CoreFile env system file path comm signal timestamp)
    (hlocal : system.localtime timestamp = some (date, time)) :
    crashEvent env file = some [("process".toList, comm), ("signal".toList, reason signal),
      ("timestamp".toList, date ++ ' ' :: time)] := by
  obtain ⟨_, _, hlocal', hclock, -⟩ := h.clock
  obtain ⟨rfl, rfl⟩ := Prod.mk.inj (Option.some.inj (hlocal.symm.trans hlocal'))
  rw [crashEvent, h.same, h.commAttr, h.same, h.signalAttr, h.same, h.timestampAttr]
  simp only [Option.bind_eq_bind, Option.bind_some, int_decimal, hclock, item_signal]
  rfl

/-! ### What the command reads -/

theorem getxattr_of_length {name value : Text} {size : Nat} (h : system.xattr path name = some value)
    (hlen : value.length ≤ size) : CoreDump.getxattr system path name size = some value := by
  rw [CoreDump.getxattr, h, Option.filter_some, if_pos (decide_eq_true hlen)]

theorem attributeOrGroup_of_getxattr {name value : Text} {size index : Nat} {found : Option (List Text × Text)}
    (h : CoreDump.getxattr system path name size = some value) :
    CoreDump.attributeOrGroup system path name size found index = some value := by
  rw [CoreDump.attributeOrGroup, h]

theorem atoll_decimal {n : Nat} (h : n < 2 ^ 63) : Text.atoll (Text.decimal n) = n := by
  have hdigits : ∀ c ∈ Nat.toDigits 10 n, c.isDigit = true := fun c hc => Text.isDigit_of_mem_toDigits hc
  rw [Text.decimal_natCast, Text.atoll_of_isDigit hdigits, Nat.ofDigitChars_ten_toDigits]
  omega

/-- Texts of fewer than six digits are no timestamps for the command. -/
theorem minSize_le_decimal (n : Nat) : CoreDump.minSize ≤ (Text.decimal n).length ↔ 100000 ≤ n := by
  have hlen : (Nat.toDigits 10 n).length ≤ 5 ↔ n < 10 ^ 5 := Nat.length_toDigits_le_iff (by decide) (by decide)
  rw [Text.decimal_natCast, CoreDump.minSize]
  omega

theorem convert_decimal (h : CoreFile env system file path comm signal timestamp)
    (hlocal : system.localtime timestamp = some (date, time)) :
    CoreDump.convertToDateAndTime system (Text.decimal timestamp) false =
      some (if 100000 ≤ timestamp then (date, time) else ([], [])) := by
  obtain ⟨_, _, hlocal', -, hdate, htime⟩ := h.clock
  obtain ⟨rfl, rfl⟩ := Prod.mk.inj (Option.some.inj (hlocal.symm.trans hlocal'))
  have hdefined : TimeStamps.dateAndTime system timestamp = some (date, time) :=
    TimeStamps.dateAndTime_eq_some_iff.mpr ⟨hlocal, hdate ▸ by decide, htime ▸ by decide⟩
  rw [TimeStamps.convertToDateAndTime_eq, TimeStamps.dateAndTimeSeconds]
  simp only [minSize_le_decimal, atoll_decimal h.timestampSmall, Bool.false_eq_true, if_false]
  by_cases hlong : 100000 ≤ timestamp
  · rw [if_pos hlong, if_pos hlong]
    exact hdefined
  · rw [if_neg hlong, if_neg hlong]

theorem extractInfo_eq (h : CoreFile env system file path comm signal timestamp)
    (hlocal : system.localtime timestamp = some (date, time))
    (hcd : extractInfo system coreFilePattern path .daemon = some (some cd)) :
    cd.daemonName = comm ∧ cd.crashSignal = Text.decimal signal ∧
      (cd.crashDate, cd.crashTime) = if 100000 ≤ timestamp then (date, time) else ([], []) := by
  have hcomm := getxattr_of_length h.commAttr h.commShort
  have hsignal : CoreDump.getxattr system path "user.coredump.signal".toList CoreDump.signalStrSize =
      some (Text.decimal signal) :=
    getxattr_of_length h.signalAttr (Text.length_decimal_le (by decide) h.signalSmall)
  have htimestamp : CoreDump.getxattr system path "user.coredump.timestamp".toList CoreDump.sizeDateAndTime =
      some (Text.decimal timestamp) :=
    getxattr_of_length h.timestampAttr
      (Text.length_decimal_le (by decide) (h.timestampSmall.trans (by decide)))
  have hne : (Text.decimal timestamp).isEmpty = false := by
    rw [Text.decimal_natCast, List.isEmpty_eq_false_iff]
    exact Nat.toDigits_ne_nil
  rw [extractInfo, CoreDump.extractDaemonInfo] at hcd
  split at hcd
  · next hdaemon _ hvalue =>
    rw [attributeOrGroup_of_getxattr hcomm] at hdaemon
    rw [attributeOrGroup_of_getxattr htimestamp] at hvalue
    obtain rfl := Option.some.inj hdaemon
    obtain rfl := Option.some.inj hvalue
    rw [hsignal, htimestamp, Option.isNone_some, hne, convert_decimal h hlocal] at hcd
    obtain rfl := Option.some.inj (Option.some.inj hcd)
    exact ⟨rfl, rfl, rfl⟩
  · cases hcd

/-! ### The event and the row -/

/-- The table of the daemon has the names of the C library. -/
theorem strsignal_eq : strsignal = "Unknown signal".toList :: standardNames := rfl

theorem Named.strsignal (h : Named signals) (hmin : 1 ≤ signal) (hlt : signal < 32) :
    signals.strsignal signal = CrashReport.strsignal[signal]? := by
  obtain ⟨n, rfl⟩ := Nat.exists_eq_add_of_le' hmin
  rw [strsignal_eq, List.getElem?_cons_succ]
  exact h.standard n (Nat.lt_of_succ_lt_succ hlt)

theorem reason_of_lt (h : signal < 32) : strsignal[signal]? = some (reason signal) := by
  have hlen : signal < strsignal.length := h
  rw [reason, List.getElem?_eq_getElem hlen]
  rfl

theorem reason_of_ge (h : 32 ≤ signal) : reason signal = "Unknown signal".toList := by
  have hlen : strsignal.length ≤ signal := h
  rw [reason, List.getElem?_eq_none hlen]
  rfl

theorem reason_mem (signal : Nat) : reason signal ∈ strsignal := by
  by_cases h : signal < 32
  · exact List.mem_of_getElem? (reason_of_lt h)
  · rw [reason_of_ge (Nat.le_of_not_lt h)]
    exact List.mem_cons_self

theorem length_reason (signal : Nat) : (reason signal).length ≤ signalDescStrLen - 1 := by
  have hall : ∀ name ∈ strsignal, name.length ≤ signalDescStrLen - 1 := by decide +kernel
  exact hall _ (reason_mem signal)

theorem take_eq_unknown {s : Text} (h : s.take (signalDescStrLen - 1) = "Unknown signal".toList) :
    s = "Unknown signal".toList := by
  have hlen : min 127 s.length = 14 := by
    rw [← List.length_take]
    exact congrArg List.length h
  have hle : s.length ≤ signalDescStrLen - 1 := show s.length ≤ 127 by omega
  rwa [List.take_of_length_le hle] at h

/-- The tables of the two agree on the standard signals only. -/
theorem signalDesc_eq_reason_iff (h : Named signals) (hsmall : signal < 1000) :
    signalDesc signals (Text.decimal signal) signalDescStrLen = reason signal ↔ 1 ≤ signal ∧ signal < 32 := by
  have hne : Text.decimal signal ≠ [] := by
    rw [Text.decimal_natCast]
    exact Nat.toDigits_ne_nil
  have hunnamed : "    ".toList.take (signalDescStrLen - 1) ≠ "Unknown signal".toList := by decide +kernel
  have hrtmax := h.rtmax
  simp only [signalDesc, Text.atoi_decimal (show signal < 2 ^ 31 by omega), CoreTable.sighup]
  by_cases hstandard : 1 ≤ signal ∧ signal < 32
  · rw [if_pos ⟨hne, by omega, by omega⟩, h.strsignal hstandard.1 hstandard.2, reason_of_lt hstandard.2]
    exact iff_of_true (List.take_of_length_le (length_reason signal)) hstandard
  · refine iff_of_false (fun heq => ?_) hstandard
    by_cases hzero : signal = 0
    · subst hzero
      rw [if_neg (fun hrange => by omega)] at heq
      exact hunnamed heq
    · have hge : 32 ≤ signal := by omega
      rw [reason_of_ge hge] at heq
      split at heq
      · cases hname : signals.strsignal signal with
        | none =>
          rw [hname] at heq
          exact hunnamed heq
        | some name =>
          rw [hname] at heq
          exact h.realtime signal hge (hname.trans (congrArg some (take_eq_unknown heq)))
      · exact hunnamed heq

def fanAttributes (name : Text) : Option Text :=
  if name = "user.coredump.comm".toList then some "ops-fand".toList
  else if name = "user.coredump.signal".toList then some "11".toList
  else if name = "user.coredump.pid".toList then some "412".toList
  else if name = "user.coredump.timestamp".toList then some "1467360000".toList
  else none

def fanEnv : Env where
  xattr file name := if file = CrashProcessing.corePath "core.a".toList then fanAttributes name else none
  fromtimestamp _ := some "2016-07-01 08:00:00".toList

def fanCore : Text := "/var/diagnostics/coredump/core.a".toList

def fanSystem : CoreDump.Env where
  files _ := [fanCore]
  xattr path name := if path = fanCore then fanAttributes name else none
  localtime _ := some ("2016-07-01".toList, "08:00:00".toList)
  localtime_calendar _ _ _ := ⟨_, _, rfl, by decide, by decide⟩
  executable _ := false
  execute _ _ := 0

def fanDump : CoreDumpData :=
  ⟨"ops-fand".toList, "2016-07-01".toList, "08:00:00".toList, "11".toList, "412".toList⟩

theorem fanSystem_dump : extractInfo fanSystem coreFilePattern fanCore .daemon = some (some fanDump) := by decide +kernel

theorem fanCore_coreFile : CoreFile fanEnv fanSystem (CrashProcessing.corePath "core.a".toList) fanCore
    "ops-fand".toList 11 1467360000 where
  same _ := rfl
  commAttr := by decide +kernel
  signalAttr := by decide +kernel
  timestampAttr := by decide +kernel
  commShort := by decide +kernel
  signalSmall := by decide
  timestampSmall := by decide
  clock := ⟨_, _, rfl, by decide +kernel, by decide, by decide⟩

def glibcSignals : Signals where
  rtmax := 64
  strsignal n := if n < 32 then standardNames[n.toNat - 1]? else some ("Real-time signal ".toList ++ Text.decimal (n - 34))

theorem glibcSignals_named : Named glibcSignals where
  rtmax := by decide
  standard n hlt := if_pos (by omega)
  realtime n hge heq := by
    have hname : glibcSignals.strsignal n = some ("Real-time signal ".toList ++ Text.decimal (n - 34)) :=
      if_neg (by omega)
    have hhead := congrArg List.head? (Option.some.inj (hname.symm.trans heq))
    exact absurd hhead (by simp)

/-- The event tells what the row of the table tells exactly when the signal is a standard one and the timestamp has six
    digits. -/
theorem crashEvent_eq_rowEvent_iff (h : CoreFile env system file path comm signal timestamp) (hnamed : Named signals)
    (hcd : extractInfo system coreFilePattern path .daemon = some (some cd)) :
    crashEvent env file = some (rowEvent signals cd) ↔ (1 ≤ signal ∧ signal < 32) ∧ 100000 ≤ timestamp := by
  obtain ⟨date, time, hlocal, -, hdate, -⟩ := h.clock
  obtain ⟨hcomm, hsignal, hwhen⟩ := extractInfo_eq h hlocal hcd
  have htime : date ++ ' ' :: time = cd.crashDate ++ ' ' :: cd.crashTime ↔ 100000 ≤ timestamp := by
    split at hwhen
    · next hge =>
      obtain ⟨rfl, rfl⟩ := Prod.mk.inj hwhen
      exact iff_of_true rfl hge
    · next hlt =>
      obtain ⟨hnone, hnone'⟩ := Prod.mk.inj hwhen
      refine iff_of_false (fun heq => ?_) hlt
      have hlen := congrArg List.length heq
      rw [hnone, hnone', List.length_append, hdate] at hlen
      simp only [List.nil_append, List.length_cons, List.length_nil] at hlen
      omega
  rw [crashEvent_eq h hlocal, rowEvent, hcomm, hsignal, Option.some_inj]
  simp only [List.cons.injEq, Prod.mk.injEq, true_and, and_true]
  rw [htime, eq_comm, signalDesc_eq_reason_iff hnamed h.signalSmall]

theorem fanDump_crashEvent :
    crashEvent fanEnv (CrashProcessing.corePath "core.a".toList) = some (rowEvent glibcSignals fanDump) :=
  (crashEvent_eq_rowEvent_iff fanCore_coreFile glibcSignals_named fanSystem_dump).mpr (by decide)

/-! ### The text of the event -/

section
open Template (Segment BraceFree)

variable {process name when : Text}

/-- The text of the event. -/
def crashText (process name when : Text) : Text := process ++ " crashed due to ".toList ++ name ++ ',' :: when

/-- The template of the event, cut at its keys. -/
def crashTemplate : List Segment :=
  .hole "process".toList :: " crashed due to ".toList.map .char ++
    [.hole "signal".toList, .char ',', .hole "timestamp".toList]

theorem text_crashTemplate : Template.text crashTemplate = crashEntry.description := by decide +kernel

theorem wellFormed_crashTemplate : ∀ seg ∈ crashTemplate, seg.WellFormed := by decide +kernel

theorem replaceStr_crash (hprocess : BraceFree process) (hname : BraceFree name) :
    PyEventLog.replaceStr [("process".toList, process), ("signal".toList, name), ("timestamp".toList, when)]
        crashEntry.description = crashText process name when := by
  have hprocessKey : BraceFree "process".toList := by decide +kernel
  have hsignalKey : BraceFree "signal".toList := by decide +kernel
  have htimestampKey : BraceFree "timestamp".toList := by decide +kernel
  have wf := wellFormed_crashTemplate
  have wf₁ : ∀ seg ∈ Template.subst "process".toList process crashTemplate, seg.WellFormed :=
    Template.wellFormed_subst hprocess wf
  have wf₂ : ∀ seg ∈ Template.subst "signal".toList name (Template.subst "process".toList process crashTemplate),
      seg.WellFormed := Template.wellFormed_subst hname wf₁
  rw [← text_crashTemplate]
  refine (congrArg (fun text => Text.replaceAll (Template.braced "timestamp".toList) when
    (Text.replaceAll (Template.braced "signal".toList) name text)) (Template.replaceAll_text hprocessKey wf)).trans ?_
  rw [Template.replaceAll_text hsignalKey wf₁, Template.replaceAll_text htimestampKey wf₂]
  have hfill : Template.text ([("process".toList, process), ("signal".toList, name), ("timestamp".toList, when)].foldl
      (fun segments kv => Template.subst kv.1 kv.2 segments) crashTemplate) =
      Template.fill (fun key => [("process".toList, process), ("signal".toList, name),
        ("timestamp".toList, when)].lookup key) crashTemplate := Template.text_foldl_subst
  refine hfill.trans ?_
  simp [Template.fill, crashTemplate, Segment.fill, List.lookup_cons, crashText]

end

/-! ### From the core file to the line -/

section
variable {log : PyEventLog.State} {daemon tm : Text} {stamp : Text → Stamp} {shows : ShowEvents.Env} {files : List Text}
  {r : Record}

/-- The entries that the reports of core files leave in the journal. -/
def crashRecords (env : Env) (log : PyEventLog.State) (daemon : Text) (stamp : Text → Stamp) (files : List Text) :
    List Record :=
  files.filterMap fun file =>
    (postCrashProcessing env log daemon file).map fun fields => ⟨.py crashEntry, fields ++ (stamp file).fields⟩

/-- The lines for these entries. -/
def crashLines (shows : ShowEvents.Env) (records : List Record) : List Text := records.map fun r => line shows r.fields

/-- A line that tells what the row of a core dump tells. -/
def rowLine (shows : ShowEvents.Env) (tm daemon : Text) (signals : Signals) (cd : CoreDumpData) : Text :=
  convertToDatetime shows.clock tm ++ '|' :: daemon ++ "|14001|LOG_CRIT|".toList ++
    crashText cd.daemonName (signalDesc signals cd.crashSignal signalDescStrLen) (cd.crashDate ++ ' ' :: cd.crashTime)

/-- `event_log_init` has loaded the definition of the event. -/
def Loaded (log : PyEventLog.State) : Prop :=
  log.content.find? (·.eventName == "SUPPORTABILITY_DAEMON_CRASH".toList) = some crashEntry

instance : Decidable (Loaded log) := inferInstanceAs (Decidable (_ = _))

theorem postCrashProcessing_eq (hlog : Loaded log) : postCrashProcessing env log daemon file =
    (crashEvent env file).map fun pairs => PyEventLog.journalFields daemon crashEntry
      (if pairs.isEmpty then crashEntry.description else PyEventLog.replaceStr pairs crashEntry.description) := by
  rw [postCrashProcessing]
  cases crashEvent env file with
  | none => rfl
  | some pairs =>
    rw [Option.bind_eq_bind, Option.bind_some, PyEventLog.logEvent, hlog]
    rfl

theorem mark_mem_crashRecords (hlog : Loaded log) (hr : r ∈ crashRecords env log daemon stamp files) :
    shows.matched [ShowEvents.messageOpsEvtMatch] r.fields = true ∧ r.origin = .py crashEntry := by
  obtain ⟨file, -, hfile⟩ := List.mem_filterMap.mp hr
  obtain ⟨fields, hfields, rfl⟩ := Option.map_eq_some_iff.mp hfile
  rw [postCrashProcessing_eq hlog] at hfields
  obtain ⟨pairs, -, rfl⟩ := Option.map_eq_some_iff.mp hfields
  refine ⟨shows.matched_iff.mpr fun m hm => ⟨m, hm, rfl, ?_⟩, rfl⟩
  obtain rfl := List.mem_singleton.mp hm
  refine List.mem_append_left _ ?_
  exact (ShowEvents.mem_journalFields_iff ShowEvents.fieldName_mark (by simp) (by simp)).mpr (Or.inl rfl)

/-- What `show events` without a filter prints for the reports, whatever else there is in the journal. -/
theorem lines_crashRecords {journal : List Record} (hlog : Loaded log)
    (hjournal : journal.filter (fun r => r.origin = .py crashEntry) = crashRecords env log daemon stamp files) :
    ((ShowEvents.cliPlatformShowEvents shows journal ⟨none, none, false, none⟩).entries.filter
      (fun shown => shown.1.origin = .py crashEntry)).map Prod.snd =
        crashLines shows (crashRecords env log daemon stamp files) := by
  have hentries : (ShowEvents.cliPlatformShowEvents shows journal ⟨none, none, false, none⟩).entries =
      (journal.filter fun r => shows.matched [ShowEvents.messageOpsEvtMatch] r.fields).map
        fun r => (r, line shows r.fields) := rfl
  have hall : (crashRecords env log daemon stamp files).filter
      (fun r => shows.matched [ShowEvents.messageOpsEvtMatch] r.fields) =
        crashRecords env log daemon stamp files :=
    List.filter_eq_self.mpr fun r hr => (mark_mem_crashRecords hlog hr).1
  rw [hentries, List.filter_map, List.map_map]
  have hcomm := List.filter_comm (fun r : Record => decide (r.origin = .py crashEntry))
    (fun r => shows.matched [ShowEvents.messageOpsEvtMatch] r.fields) journal
  rw [hjournal, hall] at hcomm
  exact congrArg (List.map fun r => line shows r.fields) hcomm

theorem braceFree_reason (signal : Nat) : Template.BraceFree (reason signal) := by
  have hall : ∀ name ∈ strsignal, Template.BraceFree name := by decide +kernel
  exact hall _ (reason_mem signal)

/-- The line for a core file. -/
theorem crashLines_file (h : CoreFile env system file path comm signal timestamp) (hnamed : Named signals)
    (hcd : extractInfo system coreFilePattern path .daemon = some (some cd)) (hcomm : Template.BraceFree comm)
    (hstandard : 1 ≤ signal ∧ signal < 32) (hwhen : 100000 ≤ timestamp) (hlog : Loaded log) (hdaemon : daemon ≠ [])
    (hstamp : (stamp file).timestamp = some tm) (htm : tm ≠ []) :
    crashLines shows (crashRecords env log daemon stamp [file]) = [rowLine shows tm daemon signals cd] := by
  obtain ⟨date, time, hlocal, -⟩ := h.clock
  obtain ⟨hname, hsignal, hrow⟩ := extractInfo_eq h hlocal hcd
  rw [if_pos hwhen] at hrow
  obtain ⟨hcrashDate, hcrashTime⟩ := Prod.mk.inj hrow
  have hdesc := (signalDesc_eq_reason_iff hnamed h.signalSmall).mpr hstandard
  have hfields : postCrashProcessing env log daemon file = some (PyEventLog.journalFields daemon crashEntry
      (crashText comm (reason signal) (date ++ ' ' :: time))) := by
    rw [postCrashProcessing_eq hlog, crashEvent_eq h hlocal, Option.map_some,
      ← replaceStr_crash hcomm (braceFree_reason signal)]
    rfl
  have hrecords : crashRecords env log daemon stamp [file] = [⟨.py crashEntry, PyEventLog.journalFields daemon crashEntry
      (crashText comm (reason signal) (date ++ ' ' :: time)) ++ (stamp file).fields⟩] := by
    rw [crashRecords, List.filterMap_cons, hfields]
    rfl
  have hid : '|' :: Text.decimal crashEntry.eventId ++ '|' :: crashEntry.severity ++ ['|'] =
      "|14001|LOG_CRIT|".toList := by decide +kernel
  rw [hrecords, crashLines, List.map_singleton, ShowEvents.line_journalFields hdaemon hstamp htm,
    ShowEvents.eventLine, rowLine, hname, hsignal, hdesc,
    hcrashDate, hcrashTime, ← hid]
  simp only [List.append_assoc, List.cons_append, List.nil_append]

theorem crashRecords_append (files files' : List Text) : crashRecords env log daemon stamp (files ++ files') =
    crashRecords env log daemon stamp files ++ crashRecords env log daemon stamp files' := List.filterMap_append

def fanLog : PyEventLog.State := ⟨[crashEntry], ["SUPPORTABILITY".toList]⟩

def fanStamp (_ : Text) : Stamp := ⟨none, some "1467360001000000".toList⟩

def fanJournal : List Record :=
  ShowEvents.fanRecord :: crashRecords fanEnv fanLog "ops_supportability".toList fanStamp
    SupportabilityDaemon.dayEnd.crash.reported

/-- Whatever core files arrive and whenever the daemon looks through them, if it does not die in a call that has
    reported something: when it is at rest, `show events` has one line for each core file of the folder with a standard
    signal, which tells what the row of `show core-dump` tells. -/
theorem shown_once {server : List Syslog.Row} {conf : Option Text} {s : SupportabilityDaemon.State} {n : Text}
    (h : Runs.Reached SupportabilityDaemon.step
      (fun s a => SupportabilityDaemon.Apart s a ∧ SupportabilityDaemon.Calm s a) (.init server conf) s)
    (hrest : s.AtRest) (hn : n ∈ s.crash.folder)
    (hfile : CoreFile env system (CrashProcessing.corePath n) path comm signal timestamp) (hnamed : Named signals)
    (hcd : extractInfo system coreFilePattern path .daemon = some (some cd)) (hcomm : Template.BraceFree comm)
    (hstandard : 1 ≤ signal ∧ signal < 32) (hdate : 100000 ≤ timestamp) (hlog : Loaded log) (hdaemon : daemon ≠ [])
    (hstamp : (stamp (CrashProcessing.corePath n)).timestamp = some tm) (htm : tm ≠ []) {journal : List Record}
    (hjournal : journal.filter (fun r => r.origin = .py crashEntry) =
      crashRecords env log daemon stamp s.crash.reported) :
    ∃ before after, s.crash.reported = before ++ CrashProcessing.corePath n :: after ∧
      CrashProcessing.corePath n ∉ before ++ after ∧
      ((ShowEvents.cliPlatformShowEvents shows journal ⟨none, none, false, none⟩).entries.filter
        (fun shown => shown.1.origin = .py crashEntry)).map Prod.snd =
          crashLines shows (crashRecords env log daemon stamp before) ++ rowLine shows tm daemon signals cd ::
            crashLines shows (crashRecords env log daemon stamp after) := by
  have honce : s.crash.reported.count (CrashProcessing.corePath n) = 1 :=
    ((SupportabilityDaemon.crashInv_of_calm h).atRest hrest hn).2 trivial
  have hmem : CrashProcessing.corePath n ∈ s.crash.reported := List.count_pos_iff.mp (honce ▸ Nat.one_pos)
  obtain ⟨before, after, heq⟩ := List.append_of_mem hmem
  rw [heq, List.count_append, List.count_cons_self] at honce
  refine ⟨before, after, heq, ?_, ?_⟩
  · rw [← List.count_eq_zero, List.count_append]
    omega
  · have hline : crashLines shows (crashRecords env log daemon stamp [CrashProcessing.corePath n]) =
        [rowLine shows tm daemon signals cd] :=
      crashLines_file hfile hnamed hcd hcomm hstandard hdate hlog hdaemon hstamp htm
    rw [lines_crashRecords hlog hjournal, heq, ← List.singleton_append, crashRecords_append, crashRecords_append,
      crashLines, List.map_append, List.map_append]
    exact congrArg (fun lines => _ ++ (lines ++ _)) hline

theorem fanDump_shown : ∃ before after,
    SupportabilityDaemon.dayEnd.crash.reported = before ++ CrashProcessing.corePath "core.a".toList :: after ∧
      CrashProcessing.corePath "core.a".toList ∉ before ++ after ∧
      ((ShowEvents.cliPlatformShowEvents ShowEvents.noClock fanJournal ⟨none, none, false, none⟩).entries.filter
        (fun shown => shown.1.origin = .py crashEntry)).map Prod.snd =
          crashLines ShowEvents.noClock (crashRecords fanEnv fanLog "ops_supportability".toList fanStamp before) ++
            rowLine ShowEvents.noClock "1467360001000000".toList "ops_supportability".toList glibcSignals fanDump ::
            crashLines ShowEvents.noClock (crashRecords fanEnv fanLog "ops_supportability".toList fanStamp after) :=
  shown_once SupportabilityDaemon.dayEnd_calm SupportabilityDaemon.dayEnd_atRest List.mem_cons_self fanCore_coreFile
    glibcSignals_named fanSystem_dump (by decide +kernel) (by decide) (by decide) (by decide +kernel) (by decide +kernel)
    rfl (by decide +kernel) (by decide +kernel)

end

end CrashReport
end OpsSupportability
