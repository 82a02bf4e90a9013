import OpsSupportability.CoreDump
import OpsSupportability.Lib.Columns

/-! What `show core-dump` prints (`show_core_dump_vty.c`): the description of a signal, and the table of the core
    dumps. -/

namespace OpsSupportability
namespace CoreTable

open Columns (column)
open Syslog (CmdStatus)
open CoreDump (Env Defined extractInfo getFileList coreFilePattern kernCoreFilePattern gbPattern kernGbPattern)

/-- The signals of the system. -/
structure Signals where
  /-- `SIGRTMAX` -/
  rtmax : Int
  strsignal : Int → Option Text

def sighup : Int := 1
def signalDescStrLen : Nat := 128

def signalDesc (signals : Signals) (sigChar : Text) (size : Nat) : Text :=
  let sigInt := Text.atoi sigChar
  let sigDesc := if sigChar ≠ [] ∧ sighup ≤ sigInt ∧ sigInt ≤ signals.rtmax then signals.strsignal sigInt else none
  (sigDesc.getD "    ".toList).take (size - 1)

def rule : Text := List.replicate 86 '='

def titleRow : Text :=
  column 20 "Daemon Name".toList ++ "| ".toList ++ column 12 "Instance ID".toList ++ "| ".toList ++
    column 30 "Crash Reason".toList ++ "| ".toList ++ column 21 "Timestamp".toList

def title : List Text := [rule, titleRow, rule]

def coreRow (daemonName instanceId sigDesc crashDate crashTime : Text) : Text :=
  column 20 daemonName ++ "  ".toList ++ column 12 instanceId ++ "  ".toList ++ column 30 sigDesc ++ " ".toList ++
    column 11 crashDate ++ column 10 crashTime

def footer (numOfCore : Nat) : List Text :=
  [rule, "Total number of core dumps : ".toList ++ Text.decimal numOfCore, rule]

/-- What has been printed, with `header_p` and `num_of_core`. -/
structure Table where
  headerP : Bool
  numOfCore : Nat
  out : List Text
  deriving DecidableEq, Repr

def Table.empty : Table := ⟨false, 0, []⟩

/-- A core dump; in front of the first there is the title. -/
def Table.add (t : Table) (row : Text) : Table :=
  ⟨true, t.numOfCore + 1, (if t.headerP then t.out else t.out ++ title) ++ [row]⟩

def printDaemonCores (env : Env) (signals : Signals) : List Text → Table → Defined Table
  | [], t => some t
  | path :: paths, t => do
    match ← extractInfo env coreFilePattern path .daemon with
    | some cd =>
      let sigDesc := signalDesc signals cd.crashSignal signalDescStrLen
      printDaemonCores env signals paths
        (t.add (coreRow cd.daemonName cd.crashInstanceId sigDesc cd.crashDate cd.crashTime))
    | none => printDaemonCores env signals paths t

def printKernelCore (env : Env) (paths : List Text) (t : Table) : Defined Table :=
  match paths with
  | [] => some t
  | path :: _ =>
    (extractInfo env kernCoreFilePattern path .kernel).map fun
      | some cd => t.add (coreRow "kernel".toList " ".toList " ".toList cd.crashDate cd.crashTime)
      | none => t

/-- The status, and what is printed. -/
def cliShowCoreDump (env : Env) (signals : Signals) : Defined (CmdStatus × List Text) :=
  match getFileList env .daemon gbPattern none none with
  | none => some (.warning, [])
  | some paths => do
    let t ← printDaemonCores env signals paths .empty
    match getFileList env .kernel kernGbPattern none none with
    | none => return (.warning, if t.headerP then t.out ++ footer t.numOfCore else [])
    | some kernels =>
      let t ← printKernelCore env kernels t
      return (.success, if t.headerP then t.out ++ footer t.numOfCore else ["No core dumps are present".toList])

end CoreTable
end OpsSupportability
