import Mathlib.Data.List.Basic

/-! The remote syslog servers of the switch: the rows of `Syslog_Remote`, the `logging` and
    `no logging` commands of `syslog_vty.c`, and the transaction that each of them hands to the IDL.

A `NULL` column or argument is `none`. What the IDL and the C library answer in one call is an `Env`. -/

namespace OpsSupportability
namespace Syslog

/-! ### Rows -/

abbrev Uuid := Nat

inductive Transport where
  | udp
  | tcp
  deriving DecidableEq, Repr

inductive Severity where
  | debug
  | info
  | notice
  | warning
  | err
  | crit
  | alert
  | emerg
  deriving DecidableEq, Repr

/-- A row of `Syslog_Remote`. -/
structure Row where
  uuid : Uuid
  remoteHost : String
  transport : Option Transport
  portNumber : Option Int
  severity : Option Severity
  deriving DecidableEq, Repr

/-- What the IDL shows: the rows in its iteration order, and `System.syslog_remotes`. -/
structure Db where
  rows : List Row
  syslogRemotes : List Uuid
  deriving DecidableEq, Repr

/-- The arguments of a `logging` or `no logging` command. -/
structure Request where
  remoteHost : Option String
  transport : Option Transport
  portNumber : Option Int
  severity : Option Severity
  deriving DecidableEq, Repr

def defaultUdpPort : Int := 514
def defaultTcpPort : Int := 1470
def maxRemoteServers : Nat := 4
def minPortNumberSupported : Int := 1
def maxPortNumberSupported : Int := 65535

def defaultPort : Transport → Int
  | .udp => defaultUdpPort
  | .tcp => defaultTcpPort

/-! ### `syslog_remote_get_config` -/

/-- `curr_transport`: an unset column counts as UDP. -/
def currTransport (row : Row) : Transport :=
  match row.transport with
  | none | some .udp => .udp
  | some .tcp => .tcp

def matchTransport (row : Row) (q : Request) (exactMatch : Bool) : Bool :=
  match q.transport with
  | some t =>
    match row.transport with
    | some r => r == t
    | none => Transport.udp == t
  | none =>
    match exactMatch, row.transport with
    | true, some r => r == .udp
    | _, _ => true

/-- The port comparison of a row with `next` the look-ahead pointer of the loop: a set port is
    compared only while `next` is not `NULL`. -/
def matchPort (row : Row) (next : Option Row) (q : Request) (exactMatch : Bool) : Bool :=
  match q.portNumber with
  | some p =>
    match row.portNumber with
    | none => p == defaultPort (currTransport row)
    | some r => !(next.isSome && r != p)
  | none =>
    match exactMatch, row.portNumber with
    | true, some r => r == defaultPort (currTransport row)
    | _, _ => true

def matchSeverity (row : Row) (q : Request) (exactMatch : Bool) : Bool :=
  match q.severity with
  | some s =>
    match row.severity with
    | some r => r == s
    | none => Severity.info == s
  | none =>
    match exactMatch, row.severity with
    | true, some r => r == .info
    | _, _ => true

/-- The loop body reaches `return row`. -/
def rowMatches (row : Row) (next : Option Row) (q : Request) (hostOnlyMatch exactMatch : Bool) : Bool :=
  some row.remoteHost == q.remoteHost &&
    (hostOnlyMatch ||
      (matchTransport row q exactMatch && matchPort row next q exactMatch && matchSeverity row q exactMatch))

def syslogRemoteGetConfig (q : Request) (hostOnlyMatch exactMatch : Bool) : List Row → Option Row
  | [] => none
  | row :: rows =>
    if rowMatches row rows.head? q hostOnlyMatch exactMatch then some row
    else syslogRemoteGetConfig q hostOnlyMatch exactMatch rows

/-! ### Transactions -/

/-- A write of a transaction. The IDL decides at which place of its iteration order a row is inserted. -/
inductive Write where
  | deleteRow (uuid : Uuid)
  | insertRow (row : Row) (place : Nat)
  | setSyslogRemotes (uuids : List Uuid)
  deriving DecidableEq, Repr

def Db.write (db : Db) : Write → Db
  | .deleteRow u => { db with rows := db.rows.filter (·.uuid != u) }
  | .insertRow row place => { db with rows := db.rows.take place ++ row :: db.rows.drop place }
  | .setSyslogRemotes us => { db with syslogRemotes := us }

def Db.writes (db : Db) (ws : List Write) : Db := ws.foldl Db.write db

/-- A transaction on the snapshot `start`; `verify` holds the value that `System.syslog_remotes` must
    still have at the commit. -/
structure Txn where
  start : Db
  ops : List Write
  verify : Option (List Uuid)
  deriving DecidableEq, Repr

/-- The rows and references as the transaction sees them: its writes are visible inside it. -/
def Txn.view (t : Txn) : Db := t.start.writes t.ops

def Txn.push (t : Txn) (w : Write) : Txn := { t with ops := t.ops ++ [w] }

/-- `ovsrec_system_verify_syslog_remotes`: the prerequisite is the value before the transaction. -/
def Txn.verifySyslogRemotes (t : Txn) : Txn := { t with verify := some t.start.syslogRemotes }

def Txn.begin (db : Db) : Txn := ⟨db, [], none⟩

/-! ### The commands -/

inductive CmdStatus where
  | success
  | warning
  | ovsdbFailure
  deriving DecidableEq, Repr

inductive TxnStatus where
  | unchanged
  | incomplete
  | aborted
  | success
  | tryAgain
  | notLocked
  | error
  deriving DecidableEq, Repr

/-- What code outside the repository answers during one call. -/
structure Env where
  isValidIpAddress : String → Bool
  /-- `regcomp` and `regexec` of a pattern on an argument. -/
  regexec : String → String → Bool
  /-- `cli_do_config_start` returned a transaction. -/
  txn : Bool
  /-- `ovsrec_system_first` returned a row. -/
  system : Bool
  /-- The two `calloc` calls for a `row_array` succeeded. -/
  callocDelete : Bool
  callocAdd : Bool
  /-- `ovsrec_syslog_remote_insert` returned a row. -/
  insert : Bool
  /-- Identity and iteration place of the inserted row. -/
  uuid : Uuid
  place : Nat

def hostnameRgx : String :=
  "^(([a-zA-Z0-9]|[a-zA-Z0-9][a-zA-Z0-9\\-]*[a-zA-Z0-9])\\.)*([A-Za-z0-9]|[A-Za-z0-9][A-Za-z0-9\\-]*[A-Za-z0-9])$"

def ipv4RangeRgx : String :=
  "^[0-9]\x7b1,3\x7d\\.[0-9]\x7b1,3\x7d\\.[0-9]\x7b1,3\x7d\\.[0-9]\x7b1,3\x7d$"

/-- 0 when the argument matches. -/
def validateCliArgs (env : Env) (arg regex : String) : Nat := if env.regexec regex arg then 0 else 1

/-- The message with which a host is refused. -/
def remoteHostError (env : Env) (host : String) : Option String :=
  if 255 < host.utf8ByteSize then some "Host name too long"
  else if !env.isValidIpAddress host &&
      (validateCliArgs env host hostnameRgx != 0 || validateCliArgs env host ipv4RangeRgx == 0) then
    some "Remote syslog server address is invalid"
  else none

/-- A `row_array` of the source: the entries allocated and the entries written. -/
structure RowArray where
  allocated : Nat
  written : Nat
  deriving DecidableEq, Repr

/-- A command up to `cli_do_config_finish`: the arrays it filled, what it printed, and the status it
    aborted with or the transaction it commits. -/
structure Prepared where
  arrays : List RowArray
  out : List String
  next : Except CmdStatus Txn

structure Deleted where
  arrays : List RowArray
  out : List String
  status : CmdStatus
  txn : Txn

def cliSyslogDeleteConfig (env : Env) (q : Request) (t : Txn) (hostOnlyMatch errorOnNoMatch : Bool) : Deleted :=
  match syslogRemoteGetConfig q hostOnlyMatch false t.view.rows with
  | some row =>
    let t := t.push (.deleteRow row.uuid)
    let n := t.view.syslogRemotes.length
    -- `calloc` is asked for `n - 1` entries, which wraps around when `n` is 0.
    if !env.callocDelete || n == 0 then ⟨[], [], .ovsdbFailure, t⟩
    else
      let rowArray := t.view.syslogRemotes.filter (· != row.uuid)
      ⟨[⟨n - 1, rowArray.length⟩], [], .success, t.verifySyslogRemotes.push (.setSyslogRemotes rowArray)⟩
  | none =>
    if errorOnNoMatch then ⟨[], ["Syslog configuration not found"], .warning, t⟩
    else ⟨[], [], .success, t⟩

/-- The row that an add inserts; a port outside the supported range is left unset. -/
def newRow (uuid : Uuid) (host : String) (q : Request) : Row where
  uuid := uuid
  remoteHost := host
  transport := q.transport
  portNumber := q.portNumber.filter fun p => minPortNumberSupported ≤ p && p ≤ maxPortNumberSupported
  severity := q.severity

/-- The part of `cli_syslog_config` that only an add runs, after the deletion `d` of the host's row. -/
def insertSyslogConfig (env : Env) (host : String) (q : Request) (d : Deleted) : Prepared :=
  if maxRemoteServers ≤ d.txn.view.syslogRemotes.length then
    ⟨d.arrays, ["Limit of 4 remote syslog servers already reached"], .error .warning⟩
  else if !env.insert || !env.callocAdd then ⟨d.arrays, [], .error .ovsdbFailure⟩
  else
    let t := d.txn.push (.insertRow (newRow env.uuid host q) env.place)
    let rowArray := t.view.syslogRemotes ++ [env.uuid]
    ⟨d.arrays ++ [⟨t.view.syslogRemotes.length + 1, rowArray.length⟩], [],
      .ok (t.verifySyslogRemotes.push (.setSyslogRemotes rowArray))⟩

def prepareSyslogConfig (env : Env) (db : Db) (q : Request) (isAdd : Bool) : Prepared :=
  if !env.txn then ⟨[], [], .error .ovsdbFailure⟩
  else match q.remoteHost with
  | none => ⟨[], ["Command failed"], .error .warning⟩
  | some host =>
    match remoteHostError env host with
    | some text => ⟨[], [text], .error .warning⟩
    | none =>
      if !env.system then ⟨[], [], .error .ovsdbFailure⟩
      else if isAdd && (syslogRemoteGetConfig q false true db.rows).isSome then ⟨[], [], .error .success⟩
      else
        let d := cliSyslogDeleteConfig env q (Txn.begin db) isAdd !isAdd
        if d.status != .success then ⟨d.arrays, d.out, .error d.status⟩
        else if isAdd then insertSyslogConfig env host q d
        else ⟨d.arrays, d.out, .ok d.txn⟩

/-- What a command leaves behind: its status, the lines it printed, and the database. -/
structure Result where
  status : CmdStatus
  out : List String
  db : Db
  deriving DecidableEq, Repr

/-- `cli_do_config_finish` with the answer `finish`, and the check of it. -/
def Prepared.finish (p : Prepared) (finish : TxnStatus) (db : Db) : Result :=
  match p.next with
  | .error status => ⟨status, p.out, db⟩
  | .ok t =>
    match finish with
    | .success => ⟨.success, p.out, t.view⟩
    | .unchanged => ⟨.success, p.out, db⟩
    | _ => ⟨.ovsdbFailure, p.out ++ ["Configuration failed"], db⟩

def cliSyslogConfig (env : Env) (finish : TxnStatus) (db : Db) (q : Request) (isAdd : Bool) : Result :=
  (prepareSyslogConfig env db q isAdd).finish finish db

/-- The `y` branch of `no logging`. -/
def prepareNoSyslog (env : Env) (db : Db) : Prepared :=
  if !env.txn || !env.system then ⟨[], [], .error .ovsdbFailure⟩
  else
    let t : Txn := db.rows.foldl (fun t row => t.push (.deleteRow row.uuid)) (Txn.begin db)
    ⟨[], [""], .ok (t.verifySyslogRemotes.push (.setSyslogRemotes []))⟩

end Syslog
end OpsSupportability
