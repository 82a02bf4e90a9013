import OpsSupportability.CrashProcessing
import OpsSupportability.Lib.Runs
import OpsSupportability.Rsyslog

/-! The main loop of `ops_supportability.py` between the database, rsyslog and the folder of core files. The
    updates of the database reach the IDL in order, and those on the way wake the daemon as the events of the
    folder do. Core files come and go between the steps of `process_coredumps`, and the daemon may die there. A copy
    of the rsyslog file is whole. -/

namespace OpsSupportability
namespace SupportabilityDaemon

open CrashProcessing (Call)
open Syslog (Row RemoteRow Rsyslog)

/-- Where the daemon is in `main`, and in the functions that it calls. -/
inductive Place where
  /-- `supportability_init` has not yet made the IDL and the watch. -/
  | init
  /-- `process_coredumps` of `supportability_init`, before its `glob` or in the call. -/
  | boot (call : Option Call)
  /-- `idl.run` -/
  | run
  /-- `supportability_run` compares `seqno` with `idl.change_seqno`. -/
  | compare
  /-- `supportability_reconfigure` has written its file in /tmp. -/
  | reconfigure
  /-- It has copied the file. -/
  | copied
  /-- `unixctl_server.run` -/
  | unixctl
  /-- `crashprocessing_run` -/
  | crashes
  /-- It has read the events, and `process_coredumps` is before its `glob` or in the call. -/
  | coredumps (call : Option Call)
  | loopEnd
  /-- `poller.block` -/
  | blocked
  | exited
  deriving DecidableEq, Repr

structure State where
  place : Place
  /-- The rows of `Syslog_Remote` in the database. -/
  server : List Row
  /-- What they have become since the copy of the IDL, in turn. -/
  pending : List (List Row)
  /-- The copy of the IDL. -/
  idl : List Row
  changeSeqno : Nat
  seqno : Nat
  exiting : Bool
  /-- The text of `/tmp/rsyslog.remote.conf`. -/
  tmp : Text
  /-- The text of `/etc/rsyslog.remote.conf`. -/
  conf : Option Text
  /-- What rsyslog has read of it, when it was started last. -/
  loaded : Option Text
  restarts : Nat
  crash : CrashProcessing.State
  /-- The watch on the folder of core files has events to read. -/
  events : Bool
  deriving DecidableEq

/-- Before the first start: rsyslog runs on the file that is there. -/
def State.init (server : List Row) (conf : Option Text) : State where
  place := .init
  server := server
  pending := []
  idl := []
  changeSeqno := 0
  seqno := 0
  exiting := false
  tmp := []
  conf := conf
  loaded := conf
  restarts := 0
  crash := .init
  events := false

def State.watching (s : State) : Bool := s.place != .init

def State.rsyslog (s : State) : Rsyslog := ⟨s.conf, s.restarts⟩

inductive Action where
  /-- A transaction of another client changes the rows. -/
  | commit (rows : List Row)
  /-- The connection of the IDL begins anew, with all rows. -/
  | reconnect
  /-- A core file is moved into the folder. -/
  | coreMoved (name : Text)
  | coreRemoved (name : Text)
  /-- Someone else restarts rsyslog. -/
  | rsyslogRestarts
  /-- A request of `ovs-appctl` wakes the daemon. -/
  | request
  /-- The daemon dies or has exited, and is started again. -/
  | restart
  | watch
  /-- `glob` answers in `supportability_init`. -/
  | boot (names : List Text)
  /-- `process_coredumps` goes on. -/
  | look
  /-- `idl.run` takes some of the updates; `change_seqno` counts the rows that they change, and the first answer of
      a connection. -/
  | idlRun (updates count : Nat)
  /-- The rows in the order of `rows.itervalues()`. -/
  | compare (rows : List RemoteRow)
  | reconfigure (sameSignature : Bool)
  | restartRsyslog
  | unixctl (exit : Bool)
  | crashes
  /-- `glob` answers in `crashprocessing_run`. -/
  | coredumps (names : List Text)
  | loopEnd
  /-- A file descriptor of the poller is readable. -/
  | wake
  deriving DecidableEq

/-- The end of `supportability_run` behind `supportability_reconfigure`. -/
def State.configured (s : State) : State := { s with seqno := s.changeSeqno, place := .unixctl }

/-- `process_coredumps` begins with the names that `glob` answers. -/
def State.calls (s : State) (within : Option Call → Place) (names : List Text) : Option State :=
  if s.place = within none ∧ names.Perm s.crash.folder then
    some { s with crash := s.crash.called, place := within (some (.loop names names false)) }
  else none

/-- It goes on in its call, or returns. -/
def State.looks (s : State) (within : Option Call → Place) (back : Place) (call : Call) : State :=
  let (crash, next) := s.crash.resume call
  { s with crash := crash, place := if next.isSome then within next else back }

def step (s : State) : Action → Option State
  | .commit rows => some { s with server := rows, pending := s.pending ++ [rows] }
  | .reconnect => some { s with pending := [s.server] }
  | .coreMoved name =>
    (CrashProcessing.step s.crash (.arrive name)).map fun crash =>
      { s with crash := crash, events := s.events || s.watching }
  | .coreRemoved name => (CrashProcessing.step s.crash (.remove name)).map fun crash => { s with crash := crash }
  | .rsyslogRestarts => some { s with loaded := s.conf }
  | .request => if s.place = .blocked then some { s with place := .run } else none
  | .restart => some { s with place := .init, events := false }
  | .watch =>
    if s.place = .init then
      some { s with
        place := .boot none, pending := [s.server], idl := [], changeSeqno := 0, seqno := 0, exiting := false }
    else none
  | .boot names => s.calls .boot names
  | .look =>
    match s.place with
    | .boot (some call) => some (s.looks .boot .run call)
    | .coredumps (some call) => some (s.looks .coredumps .loopEnd call)
    | _ => none
  | .idlRun updates count =>
    if s.place = .run ∧ updates ≤ s.pending.length ∧ (0 < updates ↔ 0 < count) then
      some { s with
        place := .compare
        idl := (s.pending.take updates).getLast?.getD s.idl
        pending := s.pending.drop updates
        changeSeqno := s.changeSeqno + count }
    else none
  | .compare rows =>
    if s.place = .compare then
      if s.seqno = s.changeSeqno then some { s with place := .unixctl }
      else if rows.Perm (s.idl.map Row.idl) then some { s with place := .reconfigure, tmp := Syslog.remoteConf rows }
      else none
    else none
  | .reconfigure sameSignature =>
    if s.place = .reconfigure then
      match s.conf with
      | none => some { s with place := .copied, conf := some s.tmp }
      | some conf =>
        if Syslog.filecmp sameSignature s.tmp conf then some s.configured
        else some { s with place := .copied, conf := some s.tmp }
    else none
  | .restartRsyslog =>
    if s.place = .copied then some { s with loaded := s.conf, restarts := s.restarts + 1 }.configured else none
  | .unixctl exit =>
    if s.place = .unixctl then some { s with place := .crashes, exiting := s.exiting || exit } else none
  | .crashes =>
    if s.place = .crashes then
      if s.events then some { s with place := .coredumps none, events := false } else some { s with place := .loopEnd }
    else none
  | .coredumps names => s.calls .coredumps names
  | .loopEnd =>
    if s.place = .loopEnd then
      if s.exiting then some { s with place := .exited }
      else if s.seqno = s.changeSeqno then some { s with place := .blocked }
      else some { s with place := .run }
    else none
  | .wake => if s.place = .blocked ∧ (s.pending ≠ [] ∨ s.events = true) then some { s with place := .run } else none

/-- The daemon waits, and nothing that it waits for is there. -/
def State.AtRest (s : State) : Prop := s.place = .blocked ∧ s.pending = [] ∧ s.events = false

instance (s : State) : Decidable s.AtRest := inferInstanceAs (Decidable (_ ∧ _ ∧ _))

end SupportabilityDaemon
end OpsSupportability
