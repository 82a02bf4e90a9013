import OpsSupportability.Lib.Capture
import OpsSupportability.Lib.Glob
import OpsSupportability.Syslog

/-! `show core-dump` and `copy core-dump`: the library routines of `core_dump.c` and the two commands over
    them. The file system and the transfer scripts are an `Env`. -/

namespace OpsSupportability
namespace CoreDump

open Syslog (CmdStatus)

inductive CoreType where
  | kernel
  | daemon
  deriving DecidableEq, Repr

/-- A result, or none where the behaviour is undefined. -/
abbrev Defined (α : Type) : Type := Option α

/-- What the system answers. -/
structure Env where
  /-- The names in a directory, in the order of `glob`. -/
  files : Text → List Text
  /-- An extended attribute of a file. -/
  xattr : Text → Text → Option Text
  /-- Date and time of a point of time in the local zone, as `strftime` prints them; none where `localtime` returns
      `NULL`. -/
  localtime : Int → Option (Text × Text)
  /-- Up to the year 5138 a date has ten characters. -/
  localtime_calendar : ∀ t : Int, 0 ≤ t → t ≤ 10 ^ 11 →
    ∃ date time, localtime t = some (date, time) ∧ date.length = 10 ∧ time.length = 8
  /-- The file is regular and executable for its group. -/
  executable : Text → Bool
  /-- `execute_command`. -/
  execute : Text → List Text → Int

structure CoreDumpData where
  daemonName : Text
  crashDate : Text
  crashTime : Text
  crashSignal : Text
  crashInstanceId : Text
  deriving DecidableEq, Repr

/-! ### Patterns -/

def gbPattern : Text := "%s/core.*".toList
def kernGbPattern : Text :=
  "vmcore.[0-9][0-9][0-9][0-9][0-9][0-9][0-9][0-9].[0-9][0-9][0-9][0-9][0-9][0-9].tar.gz".toList
def daemonCorePattern : Text := "*".toList
def kernelCorePattern : Text := kernGbPattern

def daemonCorePath : Text := "\\/var\\/diagnostics\\/coredump".toList
def kernelCorePath : Text := "\\/var\\/diagnostics\\/coredump".toList

def isLowerHex (c : Char) : Bool := c.isDigit || ('a' ≤ c && c ≤ 'f')

/-- `CORE_FILE_PATTERN`; compiled with `REG_NEWLINE`, so that the period is no newline. -/
def coreFilePattern : List Capture.Atom :=
  [.char 'c', .char 'o', .char 'r', .char 'e', .char '.', .group (· != '\n') 0 none, .char '.',
    .group Char.isDigit 1 none, .char '.', .group isLowerHex 1 (some 64), .char '.',
    .group Char.isDigit 1 (some 8), .char '.', .group Char.isDigit 1 (some 16)]

/-- `KERN_CORE_FILE_PATTERN`. -/
def kernCoreFilePattern : List Capture.Atom :=
  [.group Char.isDigit 8 (some 8), .char '.', .group Char.isDigit 6 (some 6), .char '.', .char 't', .char 'a',
    .char 'r', .char '.', .char 'g', .char 'z']

def nameChars : List Char := Regex.range 'A' 'Z' ++ Regex.range 'a' 'z' ++ Regex.range '0' '9' ++ ['_']

def userNameRegex : RegularExpression Char := Regex.interval (Regex.oneOf (nameChars ++ ['-'])) 1 50
def hostNameRegex : RegularExpression Char := Regex.interval (Regex.oneOf (nameChars ++ ['.', ':', '-'])) 1 256
def fileNameRegex : RegularExpression Char := Regex.interval (Regex.oneOf (nameChars ++ ['.', '-'])) 1 50
def daemonNameRegex : RegularExpression Char := Regex.interval (Regex.oneOf (nameChars ++ ['.', '-'])) 1 50
def corefileInstanceRegex : RegularExpression Char := Regex.interval (Regex.oneOf (Regex.range '0' '9')) 1 5

/-! ### `core_dump.c` -/

def daemonNameSize : Nat := 256
def signalStrSize : Nat := 3
def instanceIdSize : Nat := 8
def sizeDateAndTime : Nat := 20
def dateStrSize : Nat := 11
def timeStrSize : Nat := 9
def minSize : Nat := 6
def microSecInSec : Int := 1000000
def coreFileName : Nat := 600

/-- The content of an array of `size` behind `strftime`, which is undefined when the text does not fit. -/
def strftime (size : Nat) (text : Text) : Defined Text := if text.length < size then some text else none

/-- Date and time of a timestamp; texts of fewer than six digits are passed over. -/
def convertToDateAndTime (env : Env) (str : Text) (isMicrores : Bool) : Defined (Text × Text) :=
  if minSize ≤ str.length then do
    let timeRes := Text.atoll str
    let (date, time) ← env.localtime (if isMicrores then timeRes.tdiv microSecInSec else timeRes)
    let timestring ← strftime timeStrSize time
    let datestring ← strftime dateStrSize date
    return (datestring, timestring)
  else some ([], [])

/-- `getxattr` with a buffer of `size`; a longer value is an error. -/
def getxattr (env : Env) (file name : Text) (size : Nat) : Option Text :=
  (env.xattr file name).filter fun value => value.length ≤ size

/-- A field of the dump: the extended attribute, else the group of the file name. -/
def attributeOrGroup (env : Env) (file name : Text) (size : Nat) (found : Option (List Text × Text)) (index : Nat) :
    Option Text :=
  match getxattr env file name size with
  | some value => some value
  | none => found.bind fun (groups, _) => groups[index]?.map (·.take size)

/-- The fields of a daemon core, or `none` where the function returns -1. -/
def extractDaemonInfo (env : Env) (pattern : List Capture.Atom) (file : Text) : Defined (Option CoreDumpData) :=
  let found := Capture.search pattern file
  let crashSignal := (getxattr env file "user.coredump.signal".toList signalStrSize).getD []
  let isMicrores := (getxattr env file "user.coredump.timestamp".toList sizeDateAndTime).isNone
  match attributeOrGroup env file "user.coredump.comm".toList daemonNameSize found 0,
    attributeOrGroup env file "user.coredump.pid".toList instanceIdSize found 3,
    attributeOrGroup env file "user.coredump.timestamp".toList sizeDateAndTime found 4 with
  | some daemonName, some crashInstanceId, some value =>
    (if value.isEmpty then some ([], []) else convertToDateAndTime env value isMicrores).map fun (date, time) =>
      some ⟨daemonName, date, time, crashSignal, crashInstanceId⟩
  | _, _, _ => some none

/-- The date and the time of the name are eight and six digits. -/
def extractKernelInfo (pattern : List Capture.Atom) (file : Text) : Option CoreDumpData := do
  let (groups, _) ← Capture.search pattern file
  let date ← groups[0]?
  let time ← groups[1]?
  if date.length ≠ 8 ∨ time.length ≠ 6 then none
  else
    return ⟨[], date.take 4 ++ '-' :: (date.drop 4).take 2 ++ '-' :: date.drop 6,
      time.take 2 ++ ':' :: (time.drop 2).take 2 ++ ':' :: time.drop 4, [], []⟩

def extractInfo (env : Env) (pattern : List Capture.Atom) (file : Text) : CoreType → Defined (Option CoreDumpData)
  | .daemon => extractDaemonInfo env pattern file
  | .kernel => some (extractKernelInfo pattern file)

/-- What `snprintf` writes for the pattern, before it is cut to the buffer. -/
def location (type : CoreType) (globpattern : Text) (daemon instanceId : Option Text) : Text :=
  match type, daemon, instanceId with
  | .kernel, _, _ => kernelCorePath ++ "/kernel-core/".toList ++ globpattern
  | .daemon, some daemon, none => daemonCorePath ++ "\\/core\\.".toList ++ daemon ++ "\\.".toList ++ globpattern
  | .daemon, some daemon, some instanceId =>
    daemonCorePath ++ "\\/core\\.".toList ++ daemon ++ "\\.*".toList ++ instanceId ++ "\\.".toList ++ globpattern
  | .daemon, none, _ => Text.replaceAll "%s".toList daemonCorePath globpattern

/-- The files of the pattern, or `none` when it is too long. -/
def getFileList (env : Env) (type : CoreType) (globpattern : Text) (daemon instanceId : Option Text) :
    Option (List Text) :=
  let loc := location type globpattern daemon instanceId
  if coreFileName < loc.length then none
  else some (Glob.glob env.files (loc.take (coreFileName - 1)))

/-! ### `show core-dump` -/

/-- The loop over the daemon cores: each file it shows, with what it shows. -/
def showDaemonCores (env : Env) : List Text → Defined (List (Text × CoreDumpData))
  | [] => some []
  | path :: paths => do
    let cd ← extractInfo env coreFilePattern path .daemon
    let shown ← showDaemonCores env paths
    return (cd.map fun cd => (path, cd)).toList ++ shown

/-- A line of the table. -/
structure ShownCore where
  daemonName : Text
  instanceId : Text
  crashSignal : Text
  crashDate : Text
  crashTime : Text
  deriving DecidableEq, Repr

def CoreDumpData.shown (cd : CoreDumpData) : ShownCore :=
  ⟨cd.daemonName, cd.crashInstanceId, cd.crashSignal, cd.crashDate, cd.crashTime⟩

/-- Only the first kernel core is shown. -/
def showKernelCore (env : Env) (paths : List Text) : Defined (List ShownCore) :=
  match paths with
  | [] => some []
  | path :: _ =>
    (extractInfo env kernCoreFilePattern path .kernel).map fun
      | some cd => [⟨"kernel".toList, " ".toList, " ".toList, cd.crashDate, cd.crashTime⟩]
      | none => []

/-- The status, and the lines of the table. -/
def cliShowCoreDump (env : Env) : Defined (CmdStatus × List ShownCore) :=
  match getFileList env .daemon gbPattern none none with
  | none => some (.warning, [])
  | some paths => do
    let daemons ← showDaemonCores env paths
    let daemons := daemons.map fun (_, cd) => cd.shown
    match getFileList env .kernel kernGbPattern none none with
    | none => return (.warning, daemons)
    | some kernels => return (.success, daemons ++ (← showKernelCore env kernels))

/-! ### `copy core-dump` -/

def maxFileStrLen : Nat := 512
def tftpNoiScript : Text := "/usr/bin/tftp_noi.sh".toList
def sftpNoiScript : Text := "/usr/bin/sftp_noi.sh".toList
def tftpStr : Text := "tftp".toList
def sftpStr : Text := "sftp".toList

structure CopyRequest where
  daemonName : Option Text
  instanceId : Option Text
  protocol : Option Text
  address : Option Text
  userName : Option Text
  destinationFile : Option Text
  deriving DecidableEq, Repr

/-- A call of the transfer script for a file. -/
structure Transfer where
  path : Text
  arguments : List Text
  deriving DecidableEq, Repr

structure CopyResult where
  status : CmdStatus
  out : List Text
  sent : List Transfer
  deriving DecidableEq, Repr

def validateCliArgs (arg : Text) (regex : RegularExpression Char) : Nat := if Regex.accepts regex arg then 0 else 1

/-- `strncmp` answers 0. -/
def strncmpEq (a b : Text) (n : Nat) : Bool := a.take n == b.take n

def basename (path : Text) : Text := (path.reverse.takeWhile (· != '/')).reverse

def fileName (destinationFile : Option Text) (path : Text) : Text :=
  match destinationFile with
  | none => (basename path).take (maxFileStrLen - 1)
  | some dest =>
    if dest.head? = some ' ' ∨ dest.head? = some '\t' then (basename path).take (maxFileStrLen - 1)
    else dest.take (maxFileStrLen - 1)

def transferArguments (protocol address : Text) (userName destinationFile : Option Text) (path : Text) : List Text :=
  if strncmpEq protocol tftpStr 4 then [address, path, fileName destinationFile path]
  else [userName.getD [], address, path, fileName destinationFile path]

/-- The loop over the files; of kernel cores only the first is sent. -/
def sendFiles (env : Env) (type : CoreType) (command : Text) (arguments : Text → List Text) : List Text → CopyResult
  | [] => ⟨.success, [], []⟩
  | path :: paths =>
    if env.execute command (arguments path) ≠ 0 then
      ⟨.warning, [command ++ " command is failed to execute".toList], [⟨path, arguments path⟩]⟩
    else if type = .kernel then ⟨.success, [], [⟨path, arguments path⟩]⟩
    else
      let r := sendFiles env type command arguments paths
      { r with sent := ⟨path, arguments path⟩ :: r.sent }

def refuse (text : Text) : CopyResult := ⟨.warning, [text], []⟩

/-- The refusal of an optional argument. -/
def checkArgument (arg : Option Text) (regex : RegularExpression Char) (text : Text) : Option Text :=
  match arg with
  | none => none
  | some arg => if validateCliArgs arg regex ≠ 0 then some (text ++ arg) else none

/-- The script of a protocol, or the message with which it is refused. -/
def transferScript (env : Env) (protocol : Text) (userName : Option Text) : Except Text Text :=
  if strncmpEq protocol tftpStr 4 then
    if env.executable tftpNoiScript then .ok tftpNoiScript
    else .error ("Utility not available for execution:".toList ++ tftpNoiScript)
  else if strncmpEq protocol sftpStr 4 then
    match userName with
    | none => .error "Invalid parameter username".toList
    | some user =>
      if validateCliArgs user userNameRegex ≠ 0 then .error ("Failed to validate user name for sftp:".toList ++ user)
      else if env.executable sftpNoiScript then .ok sftpNoiScript
      else .error ("Utility not available for execution:".toList ++ sftpNoiScript)
  else .error ("Invalid parameter protocol :".toList ++ protocol)

def noCoreDump (type : CoreType) (daemon : Text) (instanceId : Option Text) : Text :=
  match type, instanceId with
  | .kernel, _ => "No coredump found for kernel".toList
  | .daemon, some instanceId =>
    "No coredump found for daemon ".toList ++ daemon ++ " with instance ".toList ++ instanceId
  | .daemon, none => "No coredump found for daemon ".toList ++ daemon

/-- The part of `cli_copy_core_dump` behind the validation. -/
def copyFiles (env : Env) (command daemon protocol address : Text) (q : CopyRequest) : CopyResult :=
  let type := if strncmpEq daemon "kernel".toList 10 then CoreType.kernel else .daemon
  let gbPattern := if type = .kernel then kernelCorePattern else daemonCorePattern
  match getFileList env type gbPattern (some daemon) q.instanceId with
  | none => refuse "Error to listing corefiles ".toList
  | some [] => ⟨.success, [noCoreDump type daemon q.instanceId], []⟩
  | some paths => sendFiles env type command (transferArguments protocol address q.userName q.destinationFile) paths

def cliCopyCoreDump (env : Env) (q : CopyRequest) : CopyResult :=
  match q.daemonName, q.protocol, q.address with
  | some daemon, some protocol, some address =>
    match checkArgument (some daemon) daemonNameRegex "Failed to validate daemon name:".toList <|>
        checkArgument (some address) hostNameRegex "Failed to validate hostname name:".toList <|>
        checkArgument q.instanceId corefileInstanceRegex "Failed to validate instance ID:".toList <|>
        checkArgument q.destinationFile fileNameRegex "Failed to validate destination file name:".toList with
    | some text => refuse text
    | none =>
      match transferScript env protocol q.userName with
      | .error text => refuse text
      | .ok command => copyFiles env command daemon protocol address q
  | _, _, _ => refuse "Invalid parameter".toList

end CoreDump
end OpsSupportability
