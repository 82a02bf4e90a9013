import OpsSupportability.DiagDump
import OpsSupportability.Lib.Leads

/-! The command `diag-dump` step by step, with writes that may fail and an interrupt by the user at any moment.
    The signal handlers are installed and restored without an error, and they return. -/

namespace OpsSupportability
namespace DiagDumpRun

open DiagDump
open Syslog (CmdStatus)

/-- What `vtysh_diag_dump_create_thread` returns, the writes that its thread has made on the file, and what it has
    printed and written. -/
structure ThreadRun where
  rc : Nat
  writes : Nat
  out : Output
  deriving DecidableEq, Repr

structure RunEnv where
  /-- What the command finds before its first write. -/
  env : Env
  /-- The reason for which the `n`-th `write` on the file fails. -/
  writeError : Nat → Option Text
  /-- The step of the command at which `gDiagDumpUserInterrupt` is set. -/
  interrupt : Option Nat
  /-- The run of the thread of a daemon, after a number of writes. -/
  thread : Daemon → Nat → ThreadRun

structure Request where
  name : Text
  file : Option Text
  deriving DecidableEq, Repr

/-- What is written in a row, each write with the error macro. -/
inductive Block where
  /-- At the start; the daemons of the feature come next. -/
  | header (daemons : List Daemon)
  /-- At the end, after the daemons. -/
  | footer
  /-- After the label `USER_INTERRUPT`. -/
  | notice
  deriving DecidableEq, Repr

/-- Where the command is. -/
inductive Place where
  | start
  | write (lines : List Text) (block : Block)
  | loop (daemons : List Daemon)
  /-- The thread of the first of the daemons is next. -/
  | run (d : Daemon) (daemons : List Daemon)
  /-- The thread has ended. -/
  | ran (daemons : List Daemon)
  | verdict
  /-- The label `USER_INTERRUPT`. -/
  | userInterrupt
  | close
  /-- The label `EXIT_FUN`. -/
  | exitFun
  | done
  deriving DecidableEq, Repr

structure State where
  place : Place
  /-- The steps so far. -/
  moment : Nat
  /-- The path of the file, while it is open. -/
  fd : Option Text
  filePath : Text
  /-- The writes so far. -/
  writes : Nat
  daemonCount : Nat
  daemonResp : Nat
  returnVal : CmdStatus
  /-- The signal handlers of the command are installed. -/
  handlers : Bool
  out : Output
  deriving DecidableEq, Repr

def State.initial : State where
  place := .start
  moment := 0
  fd := none
  filePath := []
  writes := 0
  daemonCount := 0
  daemonResp := 0
  returnVal := .success
  handlers := true
  out := ⟨[], []⟩

/-- `gDiagDumpUserInterrupt`. -/
def RunEnv.userInterrupt (e : RunEnv) (s : State) : Bool := e.interrupt.any fun t => t ≤ s.moment

def State.print (s : State) (line : Text) : State := { s with out := s.out.append (printed line) }

def headerLines (toFile : Bool) (name time : Text) : List Text :=
  let start := "[Start] Feature ".toList ++ name ++ [' '] ++ time
  if toFile then [buffered (cliStrEqual ++ ['\n']), buffered start, buffered (cliStrEqual ++ ['\n'])]
  else [cliStrEqual, start ++ [' '], cliStrEqual]

def footerLines (toFile : Bool) (name : Text) : List Text :=
  let stop := "[End] Feature ".toList ++ name
  if toFile then [buffered (cliStrEqual ++ ['\n']), buffered (stop ++ ['\n']), buffered (cliStrEqual ++ ['\n'])]
  else [cliStrEqual, stop ++ [' '], cliStrEqual]

def terminated : Text := "USER INTERRUPT:Diag dump terminated".toList

def noticeLines : List Text :=
  [buffered (cliStrEqual ++ ['\n']), buffered (terminated ++ ['\n']), buffered (cliStrEqual ++ ['\n'])]

/-- The command ends before it has begun to write. -/
def State.refuse (s : State) (line : Text) : State := { s.print line with place := .exitFun, returnVal := .warning }

/-- Up to the header: the feature is looked up, and the file is opened. -/
def begin (e : RunEnv) (r : Request) (s : State) : State :=
  match e.env.featureMapping with
  | none => s.refuse "Feature to daemon mapping failed. Unable to retrieve the daemon name.".toList
  | some features =>
    match features.find? (·.name == r.name) with
    | none => s.refuse (r.name ++ " feature is not present ".toList)
    | some feature =>
      match r.file with
      | none => { s with place := .write (headerLines false r.name e.env.time) (.header feature.daemons) }
      | some file =>
        match openPath e.env file with
        | .error text => s.refuse text
        | .ok path =>
          { s with
            place := .write (headerLines true r.name e.env.time) (.header feature.daemons),
            fd := some path, filePath := path }

/-- What comes after a block. -/
def Block.next : Block → Place
  | .header daemons => .loop daemons
  | .footer => .verdict
  | .notice => .close

def writeFailure (reason : Text) : Text := "Failed to write diagnostic dump into file due to reason : ".toList ++ reason

/-- A line of a block, and the jump to `USER_INTERRUPT` when it cannot be written. -/
def writeLine (e : RunEnv) (line : Text) (lines : List Text) (block : Block) (s : State) : State :=
  match s.fd with
  | none => { s.print line with place := .write lines block }
  | some _ =>
    match e.writeError s.writes with
    | none =>
      { s with place := .write lines block, writes := s.writes + 1, out := s.out.append ⟨[], [line]⟩ }
    | some reason =>
      { s.print (writeFailure reason) with
        place := .userInterrupt, writes := s.writes + 1, returnVal := .warning }

/-- The head of the loop over the daemons. -/
def nextDaemon (e : RunEnv) (r : Request) (daemons : List Daemon) (s : State) : State :=
  match daemons with
  | [] => { s with place := .write (footerLines s.fd.isSome r.name) .footer }
  | d :: ds =>
    if !d.diagFlag then { s with place := .loop ds }
    else
      { s with
        place := if e.userInterrupt s then .userInterrupt else .run d ds, daemonCount := s.daemonCount + 1 }

def runThread (e : RunEnv) (d : Daemon) (daemons : List Daemon) (s : State) : State :=
  let run := e.thread d s.writes
  { s with
    place := .ran daemons, writes := s.writes + run.writes,
    daemonResp := if run.rc = 0 then s.daemonResp + 1 else s.daemonResp, out := s.out.append run.out }

/-- `CLOSE(fd)`, and the line about the interrupt. -/
def closeFile (e : RunEnv) (s : State) : State :=
  let s' := { s with place := .exitFun, fd := none }
  if e.userInterrupt s then s'.print terminated else s'

/-- The signal handlers are restored, and the path of the file is printed. -/
def exitFun (r : Request) (s : State) : State :=
  let s' := { s with place := .done, handlers := false }
  if s.returnVal = .success ∧ r.file.isSome then
    s'.print (r.name ++ " diagnostic-dump is collected at ".toList ++ s.filePath ++ [' '])
  else s'

/-- What the command does at its place. -/
def act (e : RunEnv) (r : Request) (s : State) : State :=
  match s.place with
  | .start => begin e r s
  | .write [] block => { s with place := block.next }
  | .write (line :: lines) block => writeLine e line lines block s
  | .loop daemons => nextDaemon e r daemons s
  | .run d daemons => runThread e d daemons s
  | .ran daemons => { s with place := if e.userInterrupt s then .userInterrupt else .loop daemons }
  | .verdict => { s.print (verdict r.name s.daemonCount s.daemonResp) with place := .userInterrupt }
  | .userInterrupt =>
    { s with place := if s.fd.isSome && e.userInterrupt s then .write noticeLines .notice else .close }
  | .close => closeFile e s
  | .exitFun => exitFun r s
  | .done => s

def step (e : RunEnv) (r : Request) (s : State) : State := { act e r s with moment := s.moment + 1 }

/-- The command after a number of steps. -/
def after (e : RunEnv) (r : Request) (n : Nat) : State := (step e r)^[n] State.initial

end DiagDumpRun
end OpsSupportability
