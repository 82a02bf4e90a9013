import OpsSupportability.CmdThread

/-! The same functions under signals: the handlers that `show tech` and `diag-dump` install for SIGINT, SIGTSTP and
    SIGALRM run on either thread, on top of what it does and of the handlers that it already runs; their masks are
    empty, so only the signal of a handler waits until it returns. The type of the vty and its buffer are left out. -/

namespace OpsSupportability
namespace CmdInterrupt

open Syslog (CmdStatus)
open CmdThread (Thread Worker)

/-- What the functions and the handlers of the two commands do differently: the lines that they print. -/
structure Call extends CmdThread.Call where
  terminatedLines : List Text
  /-- The handler of SIGINT prints them when it has set the flag of the user. -/
  setLines : List Text
  /-- It prints them when it has set the flag of the alarm. -/
  armLines : List Text
  deriving DecidableEq, Repr

def showTechCall (cmd : Text) : Call where
  toCall := CmdThread.showTechCall cmd
  terminatedLines := [[], List.replicate 33 '-', "Command ".toList ++ cmd ++ " terminated due to user interrupt ".toList,
    List.replicate 33 '-']
  setLines := []
  armLines := ["USER INTERRUPT:Show tech will be terminated with in 10 sec ".toList]

def diagDumpCall (daemon : Text) : Call where
  toCall := CmdThread.diagDumpCall daemon
  terminatedLines := [DiagDump.cliStrHyphen, "Daemon ".toList ++ daemon ++ " terminated due to user interrupt ".toList,
    DiagDump.cliStrHyphen]
  setLines := ["USER INTERRUPT:Diag dump will be terminated in 10 secs".toList]
  armLines := []

/-! ### Handlers -/

inductive Signal where
  | sigint
  | sigtstp
  | sigalrm
  deriving DecidableEq, Repr

/-- Where a handler is. -/
inductive Place where
  | check
  | set
  | checkAlarm
  | arm
  | lock
  | signal
  | unlock
  | clear
  deriving DecidableEq, Repr

/-- A handler that runs: `showtech_signal_handler`, `showtech_Zsignal_handler` or `user_interrupt_handler`, or that of
    `diag-dump` for the signal. -/
structure Frame where
  signal : Signal
  place : Place
  deriving DecidableEq, Repr

/-- The handler of the alarm locks at once, the others look at the flag of the user first. -/
def entry : Signal → Place
  | .sigalrm => .lock
  | .sigint => .check
  | .sigtstp => .check

/-! ### States -/

/-- Why the thread of the command is cancelled. -/
inductive Cause where
  | timedOut
  | userInterrupt
  deriving DecidableEq, Repr

/-- Where the main thread is. The flag says whether `pthread_cond_timedwait` returns `ETIMEDOUT`. -/
inductive Main where
  | create
  | lockWait
  | wait
  | waiting
  | relock (timedOut : Bool)
  | unlockWait (timedOut : Bool)
  | checkAlarm (timedOut : Bool)
  | clearAlarm (timedOut : Bool)
  | branch (timedOut : Bool)
  | cancel (cause : Cause)
  | lockCleanup (cause : Cause)
  | unlockCleanup (cause : Cause)
  | report (cause : Cause)
  | join
  | done (status : CmdStatus)
  deriving DecidableEq, Repr

/-- What holds a mutex: a thread of the call, or one of a call before that has been cancelled while it did. -/
inductive Holder where
  | thread (t : Thread)
  | gone
  deriving DecidableEq, Repr

inductive Mutex where
  | wait
  | cleanup
  deriving DecidableEq, Repr

structure State where
  main : Main
  worker : Worker
  /-- The handlers that run on the threads, the innermost first. -/
  mainFrames : List Frame
  workerFrames : List Frame
  /-- The signals of the handlers in which the thread of the command was cancelled; they stay masked. -/
  masked : List Signal
  waitMutex : Option Holder
  cleanupMutex : Option Holder
  waiters : List Thread
  expired : Bool
  cancelRequested : Bool
  userInterrupt : Bool
  userInterruptAlarm : Bool
  commandFailed : Bool
  /-- The global one, and the local one of the function. -/
  gThreadCancelled : Bool
  threadCancelled : Bool
  out : List Text
  deriving DecidableEq, Repr

/-- What the calls before leave: the flags, and the mutexes that a thread which is gone has not unlocked. -/
structure Before where
  userInterrupt : Bool
  userInterruptAlarm : Bool
  threadCancelled : Bool
  waitLeft : Bool
  cleanupLeft : Bool
  deriving DecidableEq, Repr

def left (held : Bool) : Option Holder := if held then some .gone else none

def start (b : Before) : State where
  main := .create
  worker := .none
  mainFrames := []
  workerFrames := []
  masked := []
  waitMutex := left b.waitLeft
  cleanupMutex := left b.cleanupLeft
  waiters := []
  expired := false
  cancelRequested := false
  userInterrupt := b.userInterrupt
  userInterruptAlarm := b.userInterruptAlarm
  commandFailed := false
  gThreadCancelled := b.threadCancelled
  threadCancelled := true
  out := []

def State.frames (s : State) : Thread → List Frame
  | .main => s.mainFrames
  | .worker => s.workerFrames

def State.setFrames (s : State) (t : Thread) (fs : List Frame) : State :=
  match t with
  | .main => { s with mainFrames := fs }
  | .worker => { s with workerFrames := fs }

def State.owner (s : State) : Mutex → Option Holder
  | .wait => s.waitMutex
  | .cleanup => s.cleanupMutex

def State.status (s : State) : CmdStatus :=
  if s.commandFailed || (s.userInterrupt && s.threadCancelled) then .warning else .success

/-! ### Steps -/

/-- The next step of the main thread, when no handler runs on it. -/
def mainStep (call : Call) (s : State) : Option State :=
  match s.main with
  | .create => some { s with main := .lockWait, worker := .start }
  | .lockWait =>
    if s.waitMutex = none then some { s with main := .wait, waitMutex := some (.thread .main) } else none
  | .wait => some { s with main := .waiting, waitMutex := none, waiters := s.waiters ++ [.main] }
  | .waiting => none
  | .relock timedOut =>
    if s.waitMutex = none then some { s with main := .unlockWait timedOut, waitMutex := some (.thread .main) } else none
  | .unlockWait timedOut => some { s with main := .checkAlarm timedOut, waitMutex := none }
  | .checkAlarm timedOut => some { s with main := if s.userInterruptAlarm then .clearAlarm timedOut else .branch timedOut }
  | .clearAlarm timedOut => some { s with main := .branch timedOut, threadCancelled := false, userInterruptAlarm := false }
  | .branch timedOut =>
    some { s with
      main :=
        if timedOut then .cancel .timedOut
        else if s.userInterrupt && s.threadCancelled then .cancel .userInterrupt
        else .join }
  | .cancel cause => some { s with main := .lockCleanup cause, cancelRequested := true }
  | .lockCleanup cause =>
    if s.cleanupMutex = none then
      some { s with main := .unlockCleanup cause, cleanupMutex := some (.thread .main) }
    else none
  | .unlockCleanup cause => some { s with main := .report cause, cleanupMutex := none }
  | .report .timedOut =>
    some { s with
      main := .join, out := s.out ++ call.timedOutLines, gThreadCancelled := true, commandFailed := true }
  | .report .userInterrupt =>
    some { s with main := .join, out := s.out ++ call.terminatedLines, gThreadCancelled := true }
  | .join => if s.worker = .finished then some { s with main := .done s.status } else none
  | .done _ => none

/-- `pthread_cond_signal`: only the main thread waits. -/
def signal (s : State) : State :=
  match s.waiters with
  | [] => s
  | .main :: ts => { s with main := .relock false, waiters := ts }
  | .worker :: ts => { s with waiters := ts }

/-- The next step of the thread of the command, but for the command itself, when no handler runs on it. -/
def workerStep (s : State) : Option State :=
  match s.worker with
  | .none => none
  | .start => some { s with worker := .lockCleanup }
  | .lockCleanup =>
    if s.cleanupMutex = none then some { s with worker := .command, cleanupMutex := some (.thread .worker) } else none
  | .command => none
  | .lockWait =>
    if s.waitMutex = none then some { s with worker := .signal, waitMutex := some (.thread .worker) } else none
  | .signal => some { signal s with worker := .unlockWait }
  | .unlockWait => some { s with worker := .unlockCleanup, waitMutex := none }
  | .unlockCleanup => some { s with worker := .finished, cleanupMutex := none }
  | .handler => some { s with worker := .finished, cleanupMutex := none }
  | .finished => none

/-- The thread is cancelled where it is, and with it the handlers that run on it. -/
def cancelled (s : State) : Option State :=
  let cut := { s with workerFrames := [], masked := s.workerFrames.map Frame.signal }
  if s.cancelRequested then
    match s.worker with
    | .lockCleanup | .command | .lockWait | .signal | .unlockWait => some { cut with worker := .handler }
    | .unlockCleanup => some { cut with worker := .finished }
    | .none | .start | .handler | .finished => none
  else none

/-- The next step of the innermost handler on a thread; `rest` are those below it. -/
def frameStep (call : Call) (s : State) (t : Thread) (f : Frame) (rest : List Frame) : Option State :=
  let goto (s : State) (place : Place) := s.setFrames t (⟨f.signal, place⟩ :: rest)
  match f.place with
  | .check => some (if s.userInterrupt then s.setFrames t rest else goto s .set)
  | .set =>
    match f.signal with
    | .sigtstp => some (goto { s with userInterrupt := true } .lock)
    | _ => some (goto { s with userInterrupt := true, out := s.out ++ call.setLines } .checkAlarm)
  | .checkAlarm => some (if s.userInterruptAlarm then s.setFrames t rest else goto s .arm)
  | .arm => some ({ s with userInterruptAlarm := true, out := s.out ++ call.armLines }.setFrames t rest)
  | .lock => if s.waitMutex = none then some (goto { s with waitMutex := some (.thread t) } .signal) else none
  | .signal => some (goto (signal s) .unlock)
  | .unlock =>
    match f.signal with
    | .sigalrm => some (goto { s with waitMutex := none } .clear)
    | _ => some ({ s with waitMutex := none }.setFrames t rest)
  | .clear => some ({ s with userInterruptAlarm := false }.setFrames t rest)

/-- A signal reaches a thread that exists and does not mask it. -/
def State.Delivers (s : State) (t : Thread) (sig : Signal) : Prop :=
  sig ∉ (s.frames t).map Frame.signal ∧ (t = .worker → s.worker ≠ .none ∧ s.worker ≠ .finished ∧ sig ∉ s.masked)

instance (s : State) (t : Thread) (sig : Signal) : Decidable (s.Delivers t sig) := inferInstanceAs (Decidable (_ ∧ _))

inductive Action where
  | main
  | createFails
  | expire
  | spurious
  | worker
  | setupFails
  | command (ok : Bool)
  | cancelled
  | deadline
  | deliver (t : Thread) (sig : Signal)
  /-- The innermost handler on a thread takes a step. -/
  | handler (t : Thread)
  deriving DecidableEq, Repr

def step (call : Call) (s : State) : Action → Option State
  | .main => if s.mainFrames = [] then mainStep call s else none
  | .createFails => if s.mainFrames = [] ∧ s.main = .create then some { s with main := .done .warning } else none
  | .expire =>
    if s.mainFrames = [] ∧ s.main = .waiting ∧ s.expired = true then
      some { s with main := .relock true, waiters := s.waiters.erase .main }
    else none
  | .spurious =>
    if s.mainFrames = [] ∧ s.main = .waiting then
      some { s with main := .relock false, waiters := s.waiters.erase .main }
    else none
  | .worker => if s.workerFrames = [] then workerStep s else none
  | .setupFails => if s.workerFrames = [] ∧ s.worker = .start then some { s with worker := .finished } else none
  | .command ok =>
    if s.workerFrames = [] ∧ s.worker = .command then
      some { s with worker := .lockWait, commandFailed := s.commandFailed || !ok }
    else none
  | .cancelled => cancelled s
  | .deadline => some { s with expired := true }
  | .deliver t sig => if s.Delivers t sig then some (s.setFrames t (⟨sig, entry sig⟩ :: s.frames t)) else none
  | .handler t =>
    match s.frames t with
    | [] => none
    | f :: rest => frameStep call s t f rest

/-! ### Waiting -/

/-- The mutex that the next step of the main thread locks. -/
def Main.locks : Main → Option Mutex
  | .lockWait => some .wait
  | .relock _ => some .wait
  | .lockCleanup _ => some .cleanup
  | _ => none

/-- The mutex that the next step of the thread of the command locks. -/
def workerLocks : Worker → Option Mutex
  | .lockCleanup => some .cleanup
  | .lockWait => some .wait
  | _ => none

/-- The mutex that the next step on a thread locks. -/
def State.locks (s : State) (t : Thread) : Option Mutex :=
  match s.frames t with
  | f :: _ => if f.place = .lock then some .wait else none
  | [] =>
    match t with
    | .main => s.main.locks
    | .worker => workerLocks s.worker

/-- The thread waits for a mutex that it holds. -/
def SelfWaits (s : State) (t : Thread) : Prop := ∃ m, s.locks t = some m ∧ s.owner m = some (.thread t)

end CmdInterrupt
end OpsSupportability
