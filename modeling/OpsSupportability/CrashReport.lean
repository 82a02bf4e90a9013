import Mathlib.Data.List.DropRight
import OpsSupportability.PyEventLog

/-! What `post_crash_processing` of `ops_supportability.py` makes of a core file: the event with the name of the
    process, the signal and the time of the crash. -/

namespace OpsSupportability
namespace CrashReport

/-- What the system answers; `none` is an exception. -/
structure Env where
  xattr : Text → Text → Option Text
  /-- The text of a point of time in the local zone: date, space and time. -/
  fromtimestamp : Int → Option Text

def strsignal : List Text :=
  ["Unknown signal".toList, "Hangup".toList, "Interrupt".toList, "Quit".toList, "Illegal instruction".toList,
    "Trace/breakpoint trap".toList, "Aborted".toList, "Bus error".toList, "Floating point exception".toList,
    "Killed".toList, "User defined signal 1".toList, "Segmentation fault".toList, "User defined signal 2".toList,
    "Broken pipe".toList, "Alarm clock".toList, "Terminated".toList, "Stack fault".toList, "Child exited".toList,
    "Continued".toList, "Stopped (signal)".toList, "Stopped".toList, "Stopped (tty input)".toList,
    "Stopped (tty output)".toList, "Urgent I/O condition".toList, "CPU time limit exceeded".toList,
    "File size limit exceeded".toList, "Virtual timer expired".toList, "Profiling timer expired".toList,
    "Window changed".toList, "I/O possible".toList, "Power failure".toList, "Bad system call".toList]

/-- A text of decimal digits. -/
def digits (s : Text) : Option Int :=
  if s ≠ [] ∧ s.all Char.isDigit then some (Nat.ofDigitChars 10 s 0) else none

/-- Python's `int` on a text. -/
def int (s : Text) : Option Int :=
  match (s.dropWhile Text.isSpace).rdropWhile Text.isSpace with
  | '-' :: rest => (digits rest).map fun n => -n
  | '+' :: rest => digits rest
  | rest => digits rest

/-- A subscript of a tuple; below 0 it counts from the end. -/
def item (l : List Text) (i : Int) : Option Text :=
  if 0 ≤ i then l[i.toNat]? else if -i ≤ l.length then l[(l.length + i).toNat]? else none

/-- The keys and values of the event. -/
def crashEvent (env : Env) (corefile : Text) : Option (List (Text × Text)) := do
  let process ← env.xattr corefile "user.coredump.comm".toList
  let signal ← int (← env.xattr corefile "user.coredump.signal".toList)
  let signal := if (strsignal.length : Int) ≤ signal then 0 else signal
  let timestamp ← env.xattr corefile "user.coredump.timestamp".toList
  let timestampHuman ← env.fromtimestamp (← int timestamp)
  let name ← item strsignal signal
  return [("process".toList, process), ("signal".toList, name), ("timestamp".toList, timestampHuman)]

/-- The fields sent to the journal; `none` when nothing is sent. -/
def postCrashProcessing (env : Env) (log : PyEventLog.State) (daemon corefile : Text) : Option (List Text) := do
  PyEventLog.logEvent log daemon "SUPPORTABILITY_DAEMON_CRASH".toList (← crashEvent env corefile)

end CrashReport
end OpsSupportability
