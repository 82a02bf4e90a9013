import OpsSupportability.DiagDump
import OpsSupportability.Lib.Runs

/-! A command on a thread of its own, with a time limit: `exec_showtech_cmd` and `showtech_cmd_thread` of
    `show tech`, and `vtysh_diag_dump_create_thread` and `vtysh_diag_dump_thread` of `diag-dump`. The user does
    not interrupt, and the calls of the thread library succeed, but for the creation of the thread and its
    set-up. -/

namespace OpsSupportability
namespace CmdThread

open Syslog (CmdStatus)

/-- What the two functions do differently: the lines about a command that has timed out. -/
structure Call where
  timedOutLines : List Text
  deriving DecidableEq, Repr

def showTechCall (cmd : Text) : Call :=
  ⟨[[], List.replicate 33 '-', "Command ".toList ++ cmd ++ " Timed Out".toList, List.replicate 33 '-']⟩

def diagDumpCall (daemon : Text) : Call :=
  ⟨[DiagDump.cliStrHyphen, "Deamon ".toList ++ daemon ++ " Timed Out ".toList, DiagDump.cliStrHyphen]⟩

inductive Thread where
  | main
  | worker
  deriving DecidableEq, Repr

/-- Where the main thread is. The flag says whether `pthread_cond_timedwait` returns `ETIMEDOUT`. -/
inductive Main where
  | create
  | lockWait
  /-- It holds `waitMutex` and calls `pthread_cond_timedwait`. -/
  | wait
  /-- It is blocked in the call, without `waitMutex`. -/
  | waiting
  /-- It is no longer a waiter, and takes `waitMutex` to return from the call. -/
  | relock (timedOut : Bool)
  | unlockWait (timedOut : Bool)
  | check (timedOut : Bool)
  | cancel
  | lockCleanup
  | unlockCleanup
  | report
  | join
  | done (status : CmdStatus)
  deriving DecidableEq, Repr

/-- Where the thread of the command is. -/
inductive Worker where
  | none
  | start
  | lockCleanup
  | command
  | lockWait
  | signal
  | unlockWait
  | unlockCleanup
  /-- It has been cancelled and runs the cleanup handler. -/
  | handler
  | finished
  deriving DecidableEq, Repr

structure State where
  main : Main
  worker : Worker
  waitMutex : Option Thread
  cleanupMutex : Option Thread
  /-- The threads that wait for `waitCond`. -/
  waiters : List Thread
  /-- The deadline of the wait has passed. -/
  expired : Bool
  /-- `pthread_cancel` has been called for the thread of the command. -/
  cancelRequested : Bool
  /-- Whether the command, once it has ended, has succeeded. -/
  outcome : Option Bool
  commandFailed : Bool
  threadCancelled : Bool
  out : List Text
  /-- The thread of the command has called `pthread_cond_signal` before the deadline. -/
  signalledInTime : Bool
  deriving DecidableEq, Repr

/-- The call begins: `gCommandFailed` is reset, and `gThreadCancelled` is what the commands before have left. -/
def start (threadCancelled : Bool) : State where
  main := .create
  worker := .none
  waitMutex := none
  cleanupMutex := none
  waiters := []
  expired := false
  cancelRequested := false
  outcome := none
  commandFailed := false
  threadCancelled := threadCancelled
  out := []
  signalledInTime := false

def State.status (s : State) : CmdStatus := if s.commandFailed then .warning else .success

/-- The next step of the main thread; none when it is blocked or has returned. -/
def mainStep (call : Call) (s : State) : Option State :=
  match s.main with
  | .create => some { s with main := .lockWait, worker := .start }
  | .lockWait => if s.waitMutex = none then some { s with main := .wait, waitMutex := some .main } else none
  | .wait => some { s with main := .waiting, waitMutex := none, waiters := s.waiters ++ [.main] }
  | .waiting => none
  | .relock timedOut =>
    if s.waitMutex = none then some { s with main := .unlockWait timedOut, waitMutex := some .main } else none
  | .unlockWait timedOut => some { s with main := .check timedOut, waitMutex := none }
  | .check timedOut => some { s with main := if timedOut then .cancel else .join }
  | .cancel => some { s with main := .lockCleanup, cancelRequested := true }
  | .lockCleanup =>
    if s.cleanupMutex = none then some { s with main := .unlockCleanup, cleanupMutex := some .main } else none
  | .unlockCleanup => some { s with main := .report, cleanupMutex := none }
  | .report =>
    some { s with
      main := .join, out := s.out ++ call.timedOutLines, threadCancelled := true, commandFailed := true }
  | .join => if s.worker = .finished then some { s with main := .done s.status } else none
  | .done _ => none

/-- The waiter that has been woken returns from its wait. -/
def wake (s : State) (t : Thread) : State :=
  match t with
  | .main => { s with main := .relock false }
  | .worker => s

/-- `pthread_cond_signal`: a thread that waits is woken, and without one nothing happens. -/
def signal (s : State) : State :=
  match s.waiters with
  | [] => s
  | t :: ts => wake { s with waiters := ts } t

/-- The next step of the thread of the command, but for the command itself. -/
def workerStep (s : State) : Option State :=
  match s.worker with
  | .none => none
  | .start => some { s with worker := .lockCleanup }
  | .lockCleanup =>
    if s.cleanupMutex = none then some { s with worker := .command, cleanupMutex := some .worker } else none
  | .command => none
  | .lockWait => if s.waitMutex = none then some { s with worker := .signal, waitMutex := some .worker } else none
  | .signal => some { signal s with worker := .unlockWait, signalledInTime := s.signalledInTime || !s.expired }
  | .unlockWait => some { s with worker := .unlockCleanup, waitMutex := none }
  | .unlockCleanup => some { s with worker := .finished, cleanupMutex := none }
  | .handler => some { s with worker := .finished, cleanupMutex := none }
  | .finished => none

/-- The thread is cancelled where it is. Before its set-up it cannot be, and the cleanup handler is in place
    from there to the unlock of `cleanupMutex`. -/
def cancelled (s : State) : Option State :=
  if s.cancelRequested then
    match s.worker with
    | .lockCleanup | .command | .lockWait | .signal | .unlockWait => some { s with worker := .handler }
    | .unlockCleanup => some { s with worker := .finished }
    | .none | .start | .handler | .finished => none
  else none

inductive Action where
  | main
  /-- `pthread_create` fails. -/
  | createFails
  /-- The wait ends at its deadline. -/
  | expire
  /-- The wait ends for no reason, as a wait for a condition may. -/
  | spurious
  | worker
  /-- The set-up of the thread fails, and it returns. -/
  | setupFails
  /-- The command ends. -/
  | command (ok : Bool)
  | cancelled
  /-- The deadline passes. -/
  | deadline
  deriving DecidableEq, Repr

def step (call : Call) (s : State) : Action → Option State
  | .main => mainStep call s
  | .createFails => if s.main = .create then some { s with main := .done .warning } else none
  | .expire =>
    if s.main = .waiting ∧ s.expired = true then
      some { s with main := .relock true, waiters := s.waiters.erase .main }
    else none
  | .spurious =>
    if s.main = .waiting then some { s with main := .relock false, waiters := s.waiters.erase .main } else none
  | .worker => workerStep s
  | .setupFails => if s.worker = .start then some { s with worker := .finished } else none
  | .command ok =>
    if s.worker = .command then
      some { s with worker := .lockWait, outcome := some ok, commandFailed := s.commandFailed || !ok }
    else none
  | .cancelled => cancelled s
  | .deadline => some { s with expired := true }

/-! ### The calls of a process -/

def Main.returned : Main → Bool
  | .done _ => true
  | _ => false

/-- The next call: the mutexes, the condition and `gThreadCancelled` are static. -/
def State.again (s : State) : State :=
  { start s.threadCancelled with waitMutex := s.waitMutex, cleanupMutex := s.cleanupMutex, waiters := s.waiters }

inductive Move where
  | act (a : Action)
  /-- The main thread calls again. -/
  | call (call : Call)
  deriving DecidableEq, Repr

/-- The process, in one of its calls. -/
structure Process where
  call : Call
  state : State
  deriving DecidableEq, Repr

def processStep (p : Process) : Move → Option Process
  | .act a => (step p.call p.state a).map fun s => ⟨p.call, s⟩
  | .call call => if p.state.main.returned then some ⟨call, p.state.again⟩ else none

end CmdThread
end OpsSupportability
