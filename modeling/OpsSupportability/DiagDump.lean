import OpsSupportability.Lib.Regex
import OpsSupportability.Syslog

/-! `diag-dump FEATURE basic [FILENAME]`: the command of vtysh, and the two handlers that a daemon can
    register for its request, `INIT_DIAG_DUMP_BASIC` in C and `ops_diagdump` in Python. The command runs
    without time-outs and interrupts, and its writes succeed. -/

namespace OpsSupportability
namespace DiagDump

open Syslog (CmdStatus)

/-! ### The request protocol -/

/-- What a handler answers with, `unixctl_command_reply` or `unixctl_command_reply_error`, and the body that it
    passes. -/
inductive Reply where
  | result (body : Option Text)
  | error (body : Option Text)
  deriving DecidableEq, Repr

def Reply.isResult : Reply → Bool
  | .result _ => true
  | .error _ => false

/-- What is used of unixctl. A server that has registered a handler for a command, with bounds on the number of its
    parameters, is asked for `request`; `text` is what the client gets for the body of a reply. -/
structure Unixctl where
  dispatch : (command : Text) → (minArgs maxArgs : Nat) → (handler : List Text → Reply) → (request : Text) →
    (params : List Text) → Reply
  text : Option Text → Text
  dispatch_registered : ∀ {command minArgs maxArgs handler params}, minArgs ≤ params.length → params.length ≤ maxArgs →
    dispatch command minArgs maxArgs handler command params = handler params

/-- A unixctl that can be evaluated: a missing body is empty, any other ends its line. -/
def Unixctl.basic : Unixctl where
  dispatch command minArgs maxArgs handler request params :=
    if request ≠ command then .error (some ("\"".toList ++ request ++ "\" is not a valid command".toList))
    else if params.length < minArgs then .error (some "too few arguments".toList)
    else if maxArgs < params.length then .error (some "too many arguments".toList)
    else handler params
  text
    | none => []
    | some body => if body = [] ∨ body.getLast? = some '\n' then body else body ++ ['\n']
  dispatch_registered hmin hmax := by
    rw [if_neg (fun h => h rfl), if_neg (Nat.not_lt.mpr hmin), if_neg (Nat.not_lt.mpr hmax)]

def diagDumpBasicCmd : Text := "dumpdiagbasic".toList
def diagDumpAdvancedCmd : Text := "dumpdiagadvanced".toList
def diagBasic : Text := "basic".toList
def diagBasicArgMin : Nat := 2
def diagBasicArgMax : Nat := 2
def diagBasicMaxFeatureLen : Nat := 30

/-! ### The handler in C -/

/-- The condition of `diag_handler_cb` on its arguments, the command name first. -/
def cValid (argv : List Text) : Bool :=
  match argv with
  | [command, type, feature] =>
    command == diagDumpBasicCmd && type == diagBasic &&
      feature.length ≤ diagBasicMaxFeatureLen && 0 < feature.length
  | _ => false

def errDescSize : Nat := 200

def diagHandlerCb (cb : Text → Option Text) (argv : List Text) : Reply :=
  if cValid argv then
    match cb (argv[2]?.getD []) with
    | some buf => .result (some buf)
    | none =>
      .error (some ((argv[2]?.getD [] ++ " feature failed to provide basic diagnostic data".toList).take
        (errDescSize - 1)))
  else
    .error (some (("Diagdump failed for feature ".toList ++ argv[2]?.getD "NULL".toList ++
      ", reason: invalid parameter".toList).take (errDescSize - 1)))

/-! ### The handler in Python -/

/-- `len` of the decoded text: its bytes without those that continue a character. -/
def pyLen (s : Text) : Nat := (s.filter fun c => !(128 ≤ c.toNat && c.toNat < 192)).length

def pyValid (argv : List Text) : Bool :=
  match argv with
  | [type, feature] => type == diagBasic && pyLen feature ≤ 30 && 0 < pyLen feature
  | _ => false

/-- A Python callback returns a text or `None`, or it raises. -/
abbrev PyCallback := List Text → Except Unit (Option Text)

/-- `diag_basic_unxctl_cb` with `_diag_dump_cb_global`. -/
def diagBasicUnxctlCb (callback : Option PyCallback) (argv : List Text) : Reply :=
  let buff : Option Text :=
    if pyValid argv then
      match callback with
      | none => some " Internal error : No handler registered for basic diagnostics dump".toList
      | some callback =>
        match callback argv with
        | .ok buff => buff
        | .error _ => some " An exception occured during diagnostics dump ".toList
    else some " Invalid parameter : diag dump failed ".toList
  .result buff

/-! ### Servers -/

/-- A daemon with one of the handlers. -/
inductive Server where
  | c (cb : Text → Option Text)
  | python (callback : Option PyCallback)

/-- The registered handler; in C it sees the command as its first argument. -/
def Server.handler : Server → List Text → Reply
  | .c cb, params => diagHandlerCb cb (diagDumpBasicCmd :: params)
  | .python callback, params => diagBasicUnxctlCb callback params

def Server.transact (unixctl : Unixctl) (server : Server) (command : Text) (params : List Text) : Reply :=
  unixctl.dispatch diagDumpBasicCmd diagBasicArgMin diagBasicArgMax server.handler command params

/-! ### The command -/

structure Daemon where
  name : Text
  diagFlag : Bool
  deriving DecidableEq, Repr

structure Feature where
  name : Text
  daemons : List Daemon
  deriving DecidableEq, Repr

structure Env where
  /-- `sigaction` installs the handlers of the command. -/
  signals : Bool
  /-- `get_feature_mapping`. -/
  featureMapping : Option (List Feature)
  /-- `vtysh_diag_check_crete_dir` succeeds. -/
  directory : Bool
  /-- The reason for which `open` of a file fails. -/
  openError : Text → Option Text
  time : Text
  /-- `connect_to_daemon` returns a client, and `unixctl_client_transact` returns 0. -/
  connect : Text → Bool
  transport : Text → Bool
  server : Text → Server
  unixctl : Unixctl

/-- What is printed and what is written into the file. -/
structure Output where
  console : List Text
  file : List Text
  deriving DecidableEq, Repr

def Output.append (a b : Output) : Output := ⟨a.console ++ b.console, a.file ++ b.file⟩

def cliStrEqual : Text := List.replicate 73 '='
def cliStrHyphen : Text := List.replicate 73 '-'
def maxStrBuffLen : Nat := 512
def diagDumpDir : Text := "/tmp/ops-diag".toList

/-- A line in the write buffer. -/
def buffered (line : Text) : Text := line.take (maxStrBuffLen - 1)

/-- The report of a daemon, on the terminal or in the file. -/
def daemonReport (toFile : Bool) (daemon result : Text) : Output :=
  if toFile then
    ⟨[], [buffered (cliStrHyphen ++ ['\n']), buffered ("[Start] Daemon ".toList ++ daemon ++ ['\n']),
      buffered (cliStrHyphen ++ ['\n']), result, ['\n'], buffered (cliStrHyphen ++ ['\n']),
      buffered ("[End] Daemon ".toList ++ daemon ++ ['\n']), buffered (cliStrHyphen ++ ['\n'])]⟩
  else
    ⟨[cliStrHyphen, "[Start] Daemon ".toList ++ daemon ++ [' '], cliStrHyphen, result ++ [' '], cliStrHyphen,
      "[End] Daemon ".toList ++ daemon ++ [' '], cliStrHyphen], []⟩

/-- The status is 0 on success. -/
def vtyshDiagDumpDaemon (env : Env) (daemon : Text) (cmdType : List Text) (toFile : Bool) : CmdStatus × Output :=
  if !env.connect daemon then (.warning, ⟨["failed to connect daemon ".toList ++ daemon ++ [' ']], []⟩)
  else
    let basic := cmdType.head? = some diagBasic
    let command := if basic then diagDumpBasicCmd else diagDumpAdvancedCmd
    if !env.transport daemon then (.warning, ⟨[], []⟩)
    else
      match (env.server daemon).transact env.unixctl command cmdType with
      | .result body => (.success, if basic then daemonReport toFile daemon (env.unixctl.text body) else ⟨[], []⟩)
      | .error _ => (.warning, ⟨[], []⟩)

/-- The thread of a daemon: 0 unless its command has failed. -/
def vtyshDiagDumpCreateThread (env : Env) (daemon : Text) (cmdType : List Text) (toFile : Bool) : Nat × Output :=
  let (status, out) := vtyshDiagDumpDaemon env daemon cmdType toFile
  (if status = .success then 0 else 1, out)

/-- The counters of the loop over the daemons, and its output. -/
structure Count where
  daemonCount : Nat
  daemonResp : Nat
  out : Output
  deriving DecidableEq, Repr

def countDaemons (env : Env) (cmdType : List Text) (toFile : Bool) : List Daemon → Count → Count
  | [], count => count
  | d :: ds, count =>
    if !d.diagFlag then countDaemons env cmdType toFile ds count
    else
      let (rc, out) := vtyshDiagDumpCreateThread env d.name cmdType toFile
      countDaemons env cmdType toFile ds
        ⟨count.daemonCount + 1, if rc = 0 then count.daemonResp + 1 else count.daemonResp, count.out.append out⟩

def capturedText : Text := "Diagnostic dump captured for feature ".toList
def dumpText : Text := "Diagnostic dump ".toList
def failedText : Text := " feature failed for ".toList
def daemonText (n : Nat) : Text := if 1 < n then "daemons".toList else "daemon".toList

def captured (feature : Text) : Text := capturedText ++ feature ++ [' ']

def failedFor (feature : Text) (n : Nat) : Text :=
  dumpText ++ feature ++ failedText ++ Text.decimal n ++ [' '] ++ daemonText n ++ [' ']

/-- The last line about the daemons. -/
def verdict (feature : Text) (daemonCount daemonResp : Nat) : Text :=
  if daemonCount = daemonResp then captured feature else failedFor feature (daemonCount - daemonResp)

def fileLine (toFile : Bool) (line : Text) : Output := if toFile then ⟨[], [buffered (line ++ ['\n'])]⟩ else ⟨[line], []⟩

def diagFileNameRegex : RegularExpression Char :=
  Regex.interval
    (Regex.oneOf (Regex.range 'A' 'Z' ++ Regex.range 'a' 'z' ++ Regex.range '0' '9' ++ ['_', '.', '-'])) 1 50

structure ShowResult where
  status : CmdStatus
  out : Output
  deriving DecidableEq, Repr

def printed (line : Text) : Output := ⟨[line], []⟩

/-- The command from the header on. -/
def dumpFeature (env : Env) (feature : Feature) (name : Text) (filePath : Option Text) : ShowResult :=
  let toFile := filePath.isSome
  let line := fileLine toFile
  let start : Output :=
    if toFile then ⟨[], [buffered ("[Start] Feature ".toList ++ name ++ [' '] ++ env.time)]⟩
    else printed ("[Start] Feature ".toList ++ name ++ [' '] ++ env.time ++ [' '])
  let count := countDaemons env [diagBasic, name] toFile feature.daemons ⟨0, 0, ⟨[], []⟩⟩
  let stop : Output :=
    if toFile then ⟨[], [buffered ("[End] Feature ".toList ++ name ++ ['\n'])]⟩
    else printed ("[End] Feature ".toList ++ name ++ [' '])
  let header := (line cliStrEqual).append (start.append (line cliStrEqual))
  let footer := (line cliStrEqual).append (stop.append (line cliStrEqual))
  let collected : Output := match filePath with
    | none => ⟨[], []⟩
    | some path => printed (name ++ " diagnostic-dump is collected at ".toList ++ path ++ [' '])
  ⟨.success, header.append (count.out.append (footer.append
    ((printed (verdict name count.daemonCount count.daemonResp)).append collected)))⟩

/-- The file of a command, or the message with which it is refused. -/
def openPath (env : Env) (file : Text) : Except Text Text :=
  if !Regex.accepts diagFileNameRegex file then .error ("Failed to validate destination file name:".toList ++ file)
  else if !env.directory then .error ("failed to check or create dir:".toList ++ diagDumpDir)
  else
    let path := (diagDumpDir ++ '/' :: file).take 255
    match env.openError path with
    | none => .ok path
    | some reason => .error ("failed to open file error:".toList ++ reason ++ " file:".toList ++ path)

def vtyshDiagDumpShow (env : Env) (name : Text) (file : Option Text) : ShowResult :=
  if !env.signals then ⟨.warning, printed "diag dump init failed ".toList⟩
  else match env.featureMapping with
  | none =>
    ⟨.warning, printed "Feature to daemon mapping failed. Unable to retrieve the daemon name.".toList⟩
  | some features =>
    match features.find? (·.name == name) with
    | none => ⟨.warning, printed (name ++ " feature is not present ".toList)⟩
    | some feature =>
      match file with
      | none => dumpFeature env feature name none
      | some file =>
        match openPath env file with
        | .error text => ⟨.warning, printed text⟩
        | .ok path => dumpFeature env feature name (some path)

end DiagDump
end OpsSupportability
