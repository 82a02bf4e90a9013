import OpsSupportability.CoreTable
import OpsSupportability.Theorems.CoreDump

/-! The table that `show core-dump` prints: its rows are the core dumps that it finds, unless one has a timestamp without
    a date, and they can be read back at the columns unless a name or the description of a signal is too long. -/

namespace OpsSupportability
namespace CoreTable

open Columns (trim)
open Syslog (CmdStatus)
open CoreDump (Env Defined CoreDumpData ShownCore coreFilePattern gbPattern kernGbPattern extractInfo getFileList)

variable {env : Env} {signals : Signals} {paths : List Text} {rows : List Text} {c : ShownCore}

/-! ### Rows -/

def layout : Columns.Layout := [([], 20), ("  ".toList, 12), ("  ".toList, 30), (" ".toList, 11), ([], 10)]

/-- The fields of a core dump as they are printed. -/
def cells (signals : Signals) (c : ShownCore) : List Text :=
  [c.daemonName, c.instanceId, signalDesc signals c.crashSignal signalDescStrLen, c.crashDate, c.crashTime]

def rowOf (signals : Signals) (c : ShownCore) : Text := Columns.row layout (cells signals c)

theorem coreRow_eq (daemonName instanceId sigDesc crashDate crashTime : Text) :
    coreRow daemonName instanceId sigDesc crashDate crashTime =
      Columns.row layout [daemonName, instanceId, sigDesc, crashDate, crashTime] := by
  simp only [coreRow, layout, Columns.row, List.append_assoc, List.nil_append, List.append_nil]

/-- The blank that stands for the signal of the kernel has no description. -/
theorem coreRow_kernel (signals : Signals) (crashDate crashTime : Text) :
    coreRow "kernel".toList " ".toList " ".toList crashDate crashTime =
      rowOf signals ⟨"kernel".toList, " ".toList, " ".toList, crashDate, crashTime⟩ := by
  have hdesc : signalDesc signals " ".toList signalDescStrLen = "    ".toList := by
    have hsig : Text.atoi " ".toList = 0 := by decide
    rw [signalDesc, hsig, if_neg fun h => absurd h.2.1 (by decide)]
    rfl
  rw [coreRow_eq, rowOf, cells, hdesc]
  rfl

/-! ### The loops -/

theorem printDaemonCores_eq (paths : List Text) (t : Table) :
    printDaemonCores env signals paths t =
      (CoreDump.showDaemonCores env paths).map fun shown =>
        ((shown.map fun (_, cd) => cd.shown).map (rowOf signals)).foldl Table.add t := by
  induction paths generalizing t with
  | nil => rfl
  | cons path paths ih =>
    rw [printDaemonCores, CoreDump.showDaemonCores]
    cases extractInfo env coreFilePattern path .daemon with
    | none => rfl
    | some cd =>
      cases cd with
      | none =>
        refine (ih t).trans ?_
        cases CoreDump.showDaemonCores env paths <;> rfl
      | some cd =>
        refine (ih _).trans ?_
        rw [coreRow_eq]
        cases CoreDump.showDaemonCores env paths <;> rfl

theorem printKernelCore_eq (signals : Signals) (paths : List Text) (t : Table) :
    printKernelCore env paths t =
      (CoreDump.showKernelCore env paths).map fun shown => (shown.map (rowOf signals)).foldl Table.add t := by
  cases paths with
  | nil => rfl
  | cons path paths =>
    rw [printKernelCore, CoreDump.showKernelCore]
    cases extractInfo env CoreDump.kernCoreFilePattern path .kernel with
    | none => rfl
    | some cd =>
      cases cd with
      | none => rfl
      | some cd => exact congrArg (some ∘ t.add) (coreRow_kernel signals cd.crashDate cd.crashTime)

/-- The whole table. -/
def console (rows : List Text) : List Text :=
  if rows = [] then ["No core dumps are present".toList] else title ++ rows ++ footer rows.length

theorem foldl_add (rows : List Text) {t : Table} (h : t.headerP = true) :
    rows.foldl Table.add t = ⟨true, t.numOfCore + rows.length, t.out ++ rows⟩ := by
  induction rows generalizing t with
  | nil =>
    rw [List.foldl_nil, List.append_nil, ← h]
    rfl
  | cons row rows ih =>
    rw [List.foldl_cons, ih rfl, Table.add, if_pos h, List.length_cons, List.append_assoc, Nat.add_right_comm,
      ← Nat.add_assoc]
    rfl

theorem console_eq (rows : List Text) :
    (if (rows.foldl Table.add .empty).headerP then
      (rows.foldl Table.add .empty).out ++ footer (rows.foldl Table.add .empty).numOfCore
      else ["No core dumps are present".toList]) = console rows := by
  cases rows with
  | nil => rfl
  | cons row rows =>
    rw [List.foldl_cons, foldl_add rows rfl, console, if_pos rfl, if_neg (List.cons_ne_nil _ _), List.length_cons,
      Nat.add_comm rows.length]
    rfl

theorem exists_getFileList (env : Env) {type : CoreDump.CoreType} {globpattern : Text}
    (h : ¬ CoreDump.coreFileName < (CoreDump.location type globpattern none none).length) :
    ∃ paths, getFileList env type globpattern none none = some paths := by
  rw [getFileList, if_neg h]
  exact ⟨_, rfl⟩

/-- The files of the loop over the daemon cores. -/
def daemonCores (env : Env) : List Text := (getFileList env .daemon gbPattern none none).getD []

/-- Both patterns fit their buffer. -/
theorem getFileList_cores (env : Env) : getFileList env .daemon gbPattern none none = some (daemonCores env) ∧
    ∃ kernels, getFileList env .kernel kernGbPattern none none = some kernels := by
  have hdaemon : ¬ CoreDump.coreFileName < (CoreDump.location .daemon gbPattern none none).length := by decide +kernel
  have hkernel : ¬ CoreDump.coreFileName < (CoreDump.location .kernel kernGbPattern none none).length := by
    decide +kernel
  obtain ⟨paths, hpaths⟩ := exists_getFileList env hdaemon
  refine ⟨?_, exists_getFileList env hkernel⟩
  rw [daemonCores, hpaths]
  rfl

/-- What is listed: the daemon cores, and then a kernel core, which is always defined. -/
theorem showCores_eq (env : Env) : ∃ kernels shown, getFileList env .kernel kernGbPattern none none = some kernels ∧
    CoreDump.showKernelCore env kernels = some shown ∧
    CoreDump.cliShowCoreDump env = (CoreDump.showDaemonCores env (daemonCores env)).map fun daemons =>
      (.success, (daemons.map fun (_, cd) => cd.shown) ++ shown) := by
  obtain ⟨hpaths, kernels, hkernels⟩ := getFileList_cores env
  have hdefined : ∃ shown, CoreDump.showKernelCore env kernels = some shown := by
    cases kernels with
    | nil => exact ⟨[], rfl⟩
    | cons path paths => exact ⟨_, rfl⟩
  obtain ⟨shown, hshown⟩ := hdefined
  refine ⟨kernels, shown, hkernels, hshown, ?_⟩
  rw [CoreDump.cliShowCoreDump, hpaths, hkernels]
  dsimp only
  rw [hshown]
  cases CoreDump.showDaemonCores env (daemonCores env) <;> rfl

/-- The loops print the table of the core dumps. -/
theorem cliShowCoreDump_eq (env : Env) (signals : Signals) :
    cliShowCoreDump env signals =
      (CoreDump.cliShowCoreDump env).map fun r => (.success, console (r.2.map (rowOf signals))) := by
  obtain ⟨kernels, shown, hkernels, hshown, hlisted⟩ := showCores_eq env
  rw [hlisted, cliShowCoreDump, (getFileList_cores env).1, hkernels]
  dsimp only
  rw [printDaemonCores_eq]
  cases CoreDump.showDaemonCores env (daemonCores env) with
  | none => rfl
  | some daemons =>
    simp only [Option.map_some, Option.bind_eq_bind, Option.bind_some, printKernelCore_eq signals, hshown]
    rw [← List.foldl_append, ← List.map_append]
    exact congrArg (fun lines => some (CmdStatus.success, lines)) (console_eq _)

/-- The command is undefined just where a file has a timestamp without a date. -/
theorem cliShowCoreDump_isSome_iff (env : Env) :
    (CoreDump.cliShowCoreDump env).isSome = true ↔ ∀ path ∈ daemonCores env, CoreDump.Dated env path := by
  obtain ⟨kernels, shown, -, -, hlisted⟩ := showCores_eq env
  rw [hlisted, Option.isSome_map, CoreDump.showDaemonCores_isSome_iff]
  exact forall₂_congr fun path _ => CoreDump.extractInfo_isSome_iff env path

/-! ### The fields of a row -/

section
variable {file attr : Text} {size index : Nat} {found : Option (List Text × Text)} {value : Text}

theorem length_attributeOrGroup (h : CoreDump.attributeOrGroup env file attr size found index = some value) :
    value.length ≤ size := by
  unfold CoreDump.attributeOrGroup at h
  split at h
  · next x hx =>
    obtain rfl := Option.some.inj h
    simpa using (Option.filter_eq_some_iff.mp hx).2
  · obtain ⟨⟨groups, rest⟩, -, hgroup⟩ := Option.bind_eq_some_iff.mp h
    obtain ⟨group, -, rfl⟩ := Option.map_eq_some_iff.mp hgroup
    exact List.length_take_le _ _

end

theorem length_convert {str date time : Text} {isMicrores : Bool}
    (h : CoreDump.convertToDateAndTime env str isMicrores = some (date, time)) : date.length ≤ 10 ∧ time.length ≤ 8 := by
  rw [TimeStamps.convertToDateAndTime_eq] at h
  split at h
  · obtain ⟨-, hdate, htime⟩ := TimeStamps.dateAndTime_eq_some_iff.mp h
    exact ⟨Nat.le_of_lt_succ hdate, Nat.le_of_lt_succ htime⟩
  · obtain ⟨rfl, rfl⟩ := Prod.mk.inj (Option.some.inj h)
    exact ⟨Nat.zero_le _, Nat.zero_le _⟩

/-- The fields that always fit their columns. -/
structure Short (c : ShownCore) : Prop where
  instanceId : c.instanceId.length ≤ 8
  crashDate : c.crashDate.length ≤ 10
  crashTime : c.crashTime.length ≤ 8

theorem short_daemon {path : Text} {cd : CoreDumpData}
    (h : extractInfo env coreFilePattern path .daemon = some (some cd)) : Short cd.shown := by
  rw [extractInfo, CoreDump.extractDaemonInfo] at h
  split at h
  · next hinstance _ =>
    obtain ⟨⟨date, time⟩, hdate, hcd⟩ := Option.map_eq_some_iff.mp h
    obtain rfl := Option.some.inj hcd
    have hshort : date.length ≤ 10 ∧ time.length ≤ 8 := by
      split at hdate
      · obtain ⟨rfl, rfl⟩ := Prod.mk.inj (Option.some.inj hdate)
        exact ⟨Nat.zero_le _, Nat.zero_le _⟩
      · exact length_convert hdate
    exact ⟨length_attributeOrGroup hinstance, hshort.1, hshort.2⟩
  · cases h

theorem short_kernel {path : Text} {cd : CoreDumpData}
    (h : CoreDump.extractKernelInfo CoreDump.kernCoreFilePattern path = some cd) :
    cd.crashDate.length ≤ 10 ∧ cd.crashTime.length ≤ 8 := by
  rw [CoreDump.extractKernelInfo] at h
  obtain ⟨⟨groups, rest⟩, -, h⟩ := Option.bind_eq_some_iff.mp h
  obtain ⟨date, -, h⟩ := Option.bind_eq_some_iff.mp h
  obtain ⟨time, -, h⟩ := Option.bind_eq_some_iff.mp h
  split at h
  · cases h
  · next hlen =>
    obtain ⟨hdate, htime⟩ := not_or.mp hlen
    obtain rfl := Option.some.inj h
    dsimp only
    constructor <;> simp only [List.length_append, List.length_cons, List.length_take, List.length_drop] <;> omega

theorem short_of_showDaemonCores {paths : List Text} {shown : List (Text × CoreDumpData)}
    (h : CoreDump.showDaemonCores env paths = some shown) : ∀ core ∈ shown, Short core.2.shown := by
  induction paths generalizing shown with
  | nil =>
    obtain rfl := Option.some.inj h
    exact fun _ hmem => absurd hmem List.not_mem_nil
  | cons path paths ih =>
    rw [CoreDump.showDaemonCores] at h
    obtain ⟨cd, hcd, h⟩ := Option.bind_eq_some_iff.mp h
    obtain ⟨rest, hrest, h⟩ := Option.bind_eq_some_iff.mp h
    obtain rfl := Option.some.inj h
    intro core hcore
    rcases List.mem_append.mp hcore with hcore | hcore
    · obtain ⟨cd', rfl, rfl⟩ := Option.map_eq_some_iff.mp (Option.mem_toList.mp hcore)
      exact short_daemon hcd
    · exact ih hrest core hcore

theorem short_of_showKernelCore {paths : List Text} {shown : List ShownCore}
    (h : CoreDump.showKernelCore env paths = some shown) : ∀ c ∈ shown, Short c := by
  cases paths with
  | nil =>
    obtain rfl := Option.some.inj h
    exact fun _ hmem => absurd hmem List.not_mem_nil
  | cons path paths =>
    rw [CoreDump.showKernelCore] at h
    obtain ⟨cd, hcd, rfl⟩ := Option.map_eq_some_iff.mp h
    intro c hc
    cases cd with
    | none => cases hc
    | some cd =>
      obtain rfl := List.mem_singleton.mp hc
      obtain ⟨hdate, htime⟩ := short_kernel (Option.some.inj hcd)
      exact ⟨show " ".toList.length ≤ 8 by decide, hdate, htime⟩

theorem short_of_shown {status : CmdStatus} {cores : List ShownCore}
    (h : CoreDump.cliShowCoreDump env = some (status, cores)) : ∀ c ∈ cores, Short c := by
  obtain ⟨kernels, shown, -, hshown, hlisted⟩ := showCores_eq env
  rw [hlisted] at h
  obtain ⟨daemons, hdaemons, heq⟩ := Option.map_eq_some_iff.mp h
  obtain ⟨-, rfl⟩ := Prod.mk.inj heq
  intro c hc
  rcases List.mem_append.mp hc with hc | hc
  · obtain ⟨core, hcore, rfl⟩ := List.mem_map.mp hc
    exact short_of_showDaemonCores hdaemons core hcore
  · exact short_of_showKernelCore hshown c hc

/-! ### Reading the table -/

/-- The rows between the title and the total, cut at the columns. -/
def readTable (lines : List Text) : List (List Text) :=
  ((lines.drop 3).take (lines.length - 6)).map (Columns.readRow layout)

theorem readTable_console (rows : List Text) : readTable (console rows) = rows.map (Columns.readRow layout) := by
  rw [readTable, console]
  split
  · next hnil =>
    rw [hnil]
    rfl
  · have hlength : (title ++ rows ++ footer rows.length).length - 6 = rows.length := by
      simp only [List.length_append, title, footer, List.length_cons, List.length_nil]
      omega
    have hdrop : (title ++ rows ++ footer rows.length).drop 3 = rows ++ footer rows.length := by
      rw [List.append_assoc]
      exact List.drop_left' rfl
    rw [hlength, hdrop, List.take_left]

/-- The columns of the name and of the description of the signal are wide enough. -/
def Fits (signals : Signals) (c : ShownCore) : Prop :=
  (trim c.daemonName).length ≤ 20 ∧ (trim (signalDesc signals c.crashSignal signalDescStrLen)).length ≤ 30

instance (signals : Signals) (c : ShownCore) : Decidable (Fits signals c) := inferInstanceAs (Decidable (_ ∧ _))

theorem readRow_rowOf_iff (hc : Short c) :
    Columns.readRow layout (rowOf signals c) = (cells signals c).map trim ↔ Fits signals c := by
  have hinstance : (trim c.instanceId).length ≤ 12 := (Columns.length_trim_le _).trans (hc.instanceId.trans (by decide))
  have hdate : (trim c.crashDate).length ≤ 11 := (Columns.length_trim_le _).trans (hc.crashDate.trans (by decide))
  have htime : (trim c.crashTime).length ≤ 10 := (Columns.length_trim_le _).trans (hc.crashTime.trans (by decide))
  rw [rowOf, Columns.readRow_row_iff rfl, layout, cells, Fits]
  simp only [List.forall₂_cons, List.Forall₂.nil, and_true, hinstance, hdate, htime, true_and]

/-- `show core-dump` is defined just where each core file that it finds has a date. The table then has a row for each core
    dump, and the rows can be read back at the columns if and only if no name and no description of a signal is longer
    than its column. -/
theorem readTable_iff (env : Env) (signals : Signals) :
    ((cliShowCoreDump env signals).isSome = true ↔ ∀ path ∈ daemonCores env, CoreDump.Dated env path) ∧
      ∀ status lines, cliShowCoreDump env signals = some (status, lines) →
        ∃ cores, CoreDump.cliShowCoreDump env = some (.success, cores) ∧ status = .success ∧
          lines = console (cores.map (rowOf signals)) ∧
          (readTable lines = cores.map (fun c => (cells signals c).map trim) ↔ ∀ c ∈ cores, Fits signals c) := by
  rw [cliShowCoreDump_eq, Option.isSome_map]
  refine ⟨cliShowCoreDump_isSome_iff env, fun status lines h => ?_⟩
  obtain ⟨⟨status', cores⟩, hcores, heq⟩ := Option.map_eq_some_iff.mp h
  obtain ⟨rfl, rfl⟩ := Prod.mk.inj heq
  obtain rfl : status' = .success := by
    obtain ⟨kernels, shown, -, -, hlisted⟩ := showCores_eq env
    rw [hlisted] at hcores
    obtain ⟨daemons, -, heq⟩ := Option.map_eq_some_iff.mp hcores
    exact (Prod.mk.inj heq).1.symm
  refine ⟨cores, hcores, rfl, rfl, ?_⟩
  dsimp only
  rw [readTable_console, List.map_map, List.map_inj_left]
  exact forall₂_congr fun c hc => readRow_rowOf_iff (short_of_shown hcores c hc)

def twoSignals : Signals := ⟨64, fun n => if n = 11 then some "Segmentation fault".toList else none⟩

/-- Three cores, one of them with attributes. -/
theorem readTable_iff_two : ∃ lines,
    cliShowCoreDump (CoreDump.switchWith [CoreDump.thirty, CoreDump.two, CoreDump.lldpTwo] CoreDump.twoAttributes)
      twoSignals = some (.success, lines) ∧
    readTable lines = [["fand".toList, "30".toList, [], "2016-04-01".toList, "21:57:36".toList],
      ["fand".toList, ['2'], "Segmentation fault".toList, "2016-04-01".toList, "21:57:36".toList],
      ["lldpd".toList, ['2'], [], "2016-04-01".toList, "21:57:36".toList]] := by
  obtain ⟨hdefined, hread⟩ := readTable_iff
    (CoreDump.switchWith [CoreDump.thirty, CoreDump.two, CoreDump.lldpTwo] CoreDump.twoAttributes) twoSignals
  obtain ⟨⟨status, lines⟩, hlines⟩ := Option.isSome_iff_exists.mp
    (hdefined.mpr fun path _ _ _ value _ _ => ⟨_, _, rfl, by decide, by decide⟩)
  obtain ⟨cores, hcores, rfl, -, hiff⟩ := hread status lines hlines
  have hshown : CoreDump.cliShowCoreDump
      (CoreDump.switchWith [CoreDump.thirty, CoreDump.two, CoreDump.lldpTwo] CoreDump.twoAttributes) =
        some (.success, [⟨"fand".toList, "30".toList, [], "2016-04-01".toList, "21:57:36".toList⟩,
          ⟨"fand".toList, ['2'], "11".toList, "2016-04-01".toList, "21:57:36".toList⟩,
          ⟨"lldpd".toList, ['2'], [], "2016-04-01".toList, "21:57:36".toList⟩]) := by
    decide +kernel
  obtain rfl := (Prod.mk.inj (Option.some.inj (hcores.symm.trans hshown))).2
  refine ⟨lines, hlines, (hiff.mpr ?_).trans ?_⟩
  · decide +kernel
  · decide +kernel

end CoreTable
end OpsSupportability
