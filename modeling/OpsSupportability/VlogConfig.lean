import OpsSupportability.FeatureMapping
import OpsSupportability.Lib.Columns

/-! The commands that ask the daemons for their log levels and set them (`show_vlog_vty.c`), over the connection of
    `connect_to_daemon` (`supportability_utils.c`), in a process of vtysh that runs one command after the other.
    Memory can be allocated, and an answer to `vlog/list` is at least as long as the part of it that is skipped. -/

namespace OpsSupportability
namespace VlogConfig

open Columns (column)
open Syslog (CmdStatus)
open DiagDump (Daemon)
open FeatureMapping (Document Feature getFeatureMapping)

/-! ### Connecting -/

def maxPid : Int := 65536
def minPid : Int := 1

/-- The digits that `%d` of `scanf` finds behind white space and a sign. -/
def scanned (s : Text) : Text :=
  match s.dropWhile Text.isSpace with
  | '-' :: rest => rest.takeWhile Char.isDigit
  | '+' :: rest => rest.takeWhile Char.isDigit
  | rest => rest.takeWhile Char.isDigit

/-- `fscanf` of one `%d`: a number is read as 64 bits and cut to 32. -/
def fscanf (s : Text) : Option Int := if scanned s = [] then none else some ((Text.atoll s).bmod (2 ^ 32))

/-- `read_pid_file` on the text of the file, if it can be opened. `rc`, which is checked for the number of digits, is
    the number of items read. -/
def readPidFile (file : Option Text) : Option Int :=
  match file.bind fscanf with
  | some pid => if minPid ≤ pid ∧ pid ≤ maxPid then some pid else none
  | none => none

/-- What `unixctl_client_transact` makes of a request: a nonzero return value, or the two strings. -/
inductive Reply where
  | failed
  | answer (result error : Option Text)
  deriving DecidableEq, Repr

/-- The outside of vtysh at one moment. -/
structure World where
  /-- The file of `get_feature_mapping`. -/
  mapping : Option Document
  rundir : Text
  /-- `access` of the path with `W_OK` succeeds. -/
  writable : Text → Bool
  file : Text → Option Text
  /-- `unixctl_client_create` connects to the socket. -/
  create : Text → Bool
  transact : (socket command : Text) → List Text → Reply

/-- `<rundir>/<name><end>` -/
def World.path (w : World) (name ending : Text) : Text := w.rundir ++ '/' :: name ++ ending

def ctl : Text := ".ctl".toList

/-- The socket that `connect_to_daemon` is connected to. -/
def connectToDaemon (w : World) (target : Text) : Option Text :=
  let client (socketName : Text) : Option Text := if w.create socketName then some socketName else none
  if w.writable (w.path target ctl) then client (w.path target ctl)
  else
    match readPidFile (w.file (w.path target ".pid".toList)) with
    | none => none
    | some pid => client (w.path target ('.' :: Text.decimal pid ++ ctl))

/-! ### The process -/

/-- A request that a daemon has got. -/
structure Sent where
  socket : Text
  command : Text
  args : List Text
  deriving DecidableEq, Repr

/-- The static variables of `show_vlog_vty.c` and `feature_mapping.c`, and what has gone out. -/
structure State where
  /-- `feature_head` of `feature_mapping.c` -/
  mapping : List Feature
  featureHead : List Feature
  initialized : Bool
  flag : Bool
  /-- The number of requests that were tried. -/
  moment : Nat
  sent : List Sent
  console : List Text
  deriving DecidableEq, Repr

/-- A process that has installed its commands, perhaps with the mapping. -/
def State.start (mapping : List Feature) : State := ⟨mapping, [], false, false, 0, [], []⟩

def State.print (s : State) (lines : List Text) : State := { s with console := s.console ++ lines }

/-! ### A request -/

def list : Text := "vlog/list".toList
def set : Text := "vlog/set".toList
def position : Nat := 100 + 15

inductive Request where
  | feature
  | daemon
  | showVlogConfig
  | set
  deriving DecidableEq, Repr

/-- The two vectors that are passed as `cmd_type`: `vlog/list` with 0 arguments, or the name, `vlog/set` and a
    level. -/
inductive CmdType where
  | list
  | set (fdName name : Text)
  deriving DecidableEq, Repr

/-- The command and its arguments. -/
def CmdType.vlogStr : CmdType → Text × List Text
  | .list => (VlogConfig.list, [])
  | .set fdName name =>
    if fdName = VlogConfig.list then (VlogConfig.list, [fdName, VlogConfig.set, name]) else (VlogConfig.set, [name])

def rule (n : Nat) : Text := List.replicate n '='

def featureTitle : List Text := [rule 40, "Feature               Syslog     File".toList, rule 40]
def daemonTitle : List Text := [rule 38, "Daemon              Syslog     File".toList, rule 38]
def listTitle : List Text := [rule 46, "Features          Description".toList, rule 46]
def configTitle : List Text := [rule 49, "Feature         Daemon          Syslog     File".toList, rule 49]

def featureRow (feature result : Text) : Text :=
  column 17 feature ++ "   ".toList ++ column 17 (result.drop position)

def daemonRow (daemon result : Text) : Text := column 17 daemon ++ ' ' :: column 17 (result.drop position)

def configRow (feature daemon result : Text) : Text :=
  column 15 feature ++ ' ' :: column 13 daemon ++ ' ' :: column 18 (result.drop position)

def nextRow (daemon result : Text) : Text :=
  "                ".toList ++ column 13 daemon ++ ' ' :: column 18 (result.drop position)

/-- The switch over the request: what is printed for a result, and the flag. -/
def report (request : Request) (feature : Option Text) (daemon : Text) (cmdResult : Option Text) (flag : Bool) :
    List Text × Bool :=
  match request with
  | .feature =>
    match flag, cmdResult with
    | false, some result => (featureTitle ++ (feature.map (featureRow · result)).toList, true)
    | _, _ => ([], flag)
  | .daemon => (daemonTitle ++ (cmdResult.map (daemonRow daemon)).toList, flag)
  | .showVlogConfig =>
    match flag, cmdResult, feature with
    | false, some result, some feature => ([configRow feature daemon result], true)
    | true, some result, _ => ([nextRow daemon result], true)
    | _, _, _ => ([], flag)
  | .set => ([], flag)

/-- The error is looked at behind the switch. -/
def replyStatus (cmdResult cmdError : Option Text) : CmdStatus :=
  if cmdError.isSome then .warning else if cmdResult.isNone then .warning else .success

/-- `vtysh_vlog_interface_daemon`, in the world of its moment. -/
def vtyshVlogInterfaceDaemon (world : Nat → World) (feature : Option Text) (daemon : Text) (cmdType : CmdType)
    (request : Request) (s : State) : CmdStatus × State :=
  let w := world s.moment
  let s := { s with moment := s.moment + 1 }
  match connectToDaemon w daemon with
  | none => (.warning, s)
  | some socket =>
    let (vlogStr, args) := cmdType.vlogStr
    let s := { s with sent := s.sent ++ [⟨socket, vlogStr, args⟩] }
    match w.transact socket vlogStr args with
    | .failed => (.warning, s)
    | .answer cmdResult cmdError =>
      let (lines, flag) := report request feature daemon cmdResult s.flag
      (replyStatus cmdResult cmdError, { s with flag := flag }.print lines)

/-- The loop over the daemons of a feature; the line is printed for each that fails. -/
def eachDaemon (world : Nat → World) (feature : Text) (cmdType : CmdType) (request : Request) (failed : List Text) :
    List Daemon → State → State
  | [], s => s
  | d :: ds, s =>
    let (rc, s) := vtyshVlogInterfaceDaemon world (some feature) d.name cmdType request s
    eachDaemon world feature cmdType request failed ds (if rc = .success then s else s.print failed)

/-! ### The commands -/

/-- A text literal of the source that goes on in the next line has the blanks in front of that line. -/
def continued (line : Text) (blanks : Nat) (rest : Text) : Text := line ++ List.replicate blanks ' ' ++ rest

def showError : Text := continued "Error in retrieving the mapping of feature names ".toList 18 "to daemon names".toList
def listError : Text := continued "Error in retrieving the mapping of feature ".toList 15 "names to daemon names".toList
def setError : Text := continued "Error in retrieving the mapping of feature ".toList 18 "names to daemon names".toList

/-- The first use of the mapping; on failure the line is printed. -/
def getMapping (world : Nat → World) (error : Text) (s : State) : Bool × State :=
  if s.initialized then (true, s)
  else
    match getFeatureMapping (world s.moment).mapping s.mapping with
    | [] => (false, { s with mapping := [], featureHead := [] }.print [error])
    | f :: fs => (true, { s with mapping := f :: fs, featureHead := f :: fs, initialized := true })

inductive Kind where
  | feature
  | daemon
  deriving DecidableEq, Repr

def notAble (name : Text) : Text := "Not able to communicate with daemon ".toList ++ name
def notPresent : Text := "Feature not present ".toList

/-- `cli_show_vlog_feature_or_daemon` -/
def cliShowVlogFeatureOrDaemon (world : Nat → World) (kind : Kind) (name : Text) (s : State) : CmdStatus × State :=
  match kind with
  | .feature =>
    match getMapping world showError s with
    | (false, s) => (.warning, s)
    | (true, s) =>
      match s.featureHead.find? (·.name == name) with
      | some iter =>
        (.success, { eachDaemon world iter.name .list .feature [notAble name] iter.daemons s with flag := false })
      | none => (.warning, s.print [notPresent])
  | .daemon =>
    let (rc, s) := vtyshVlogInterfaceDaemon world none name .list .daemon s
    if rc = .success then (.success, s) else (.warning, s.print [notAble name])

def listRow (f : Feature) : Text :=
  column 17 f.name ++ ' ' :: column 100 (f.desc.getD "(null)".toList) ++ " ".toList

/-- `cli_show_vlog_config_list` -/
def cliShowVlogConfigList (world : Nat → World) (s : State) : CmdStatus × State :=
  match getMapping world listError s with
  | (false, s) => (.warning, s)
  | (true, s) => (.success, s.print (listTitle ++ s.featureHead.map listRow))

/-- The loop of `cli_show_vlog_config`. -/
def eachFeature (world : Nat → World) : List Feature → State → State
  | [], s => s
  | f :: fs, s =>
    eachFeature world fs { eachDaemon world f.name .list .showVlogConfig [] f.daemons s with flag := false }

/-- `cli_show_vlog_config` -/
def cliShowVlogConfig (world : Nat → World) (s : State) : CmdStatus × State :=
  match getMapping world listError s with
  | (false, s) => (.warning, s)
  | (true, s) => (.success, eachFeature world s.featureHead (s.print configTitle))

/-- `strncasecmp` of a word and as much of a keyword. -/
def abbreviates (word keyword : Text) : Bool := (word.map Char.toLower).isPrefixOf keyword

def destinations : List Text := ["syslog".toList, "file".toList, "all".toList]
def levels : List Text :=
  ["emer".toList, "err".toList, "warn".toList, "dbg".toList, "info".toList, "off".toList]

/-- `strncpy` of `any` over the destination. -/
def sentDestination (destination : Text) : Text :=
  if abbreviates destination "all".toList then "any".toList.take destination.length else destination

/-- `cli_config_vlog_set` -/
def cliConfigVlogSet (world : Nat → World) (kind : Kind) (fdName destination level : Text) (s : State) :
    CmdStatus × State :=
  if ¬ destinations.any (abbreviates destination) then (.warning, s.print ["Invalid destination".toList])
  else if ¬ levels.any (abbreviates level) then (.warning, s.print ["Invalid log level ".toList])
  else
    let cmdType := CmdType.set fdName (sentDestination destination ++ ':' :: level)
    match kind with
    | .feature =>
      match getMapping world setError s with
      | (false, s) => (.warning, s)
      | (true, s) =>
        match s.featureHead.find? (·.name == fdName) with
        | some iter => (.success, eachDaemon world iter.name cmdType .set [] iter.daemons s)
        | none => (.warning, s.print [notPresent])
    | .daemon =>
      let (rc, s) := vtyshVlogInterfaceDaemon world none fdName cmdType .set s
      if rc = .success then (.success, s) else (.warning, s.print [notAble fdName])

inductive Command where
  | showConfig
  | showConfigList
  | showConfigOf (kind : Kind) (name : Text)
  | vlog (kind : Kind) (name destination level : Text)
  deriving DecidableEq, Repr

def run (world : Nat → World) (s : State) : Command → CmdStatus × State
  | .showConfig => cliShowVlogConfig world s
  | .showConfigList => cliShowVlogConfigList world s
  | .showConfigOf kind name => cliShowVlogFeatureOrDaemon world kind name s
  | .vlog kind name destination level => cliConfigVlogSet world kind name destination level s

/-- The commands of a process, one after the other. -/
def session (world : Nat → World) (s : State) (commands : List Command) : State :=
  commands.foldl (fun s c => (run world s c).2) s

end VlogConfig
end OpsSupportability
