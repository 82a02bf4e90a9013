import OpsSupportability.Lib.Loop
import OpsSupportability.Syslog
import OpsSupportability.Lib.Text

/-! `show tech`: the configuration of its commands, which a process of vtysh loads once, and the command
    that runs them and reports those that fail. What the commands print themselves is left out. -/

namespace OpsSupportability
namespace ShowTech

open Syslog (CmdStatus)

/-! ### The configuration -/

structure CliCmd where
  command : Text
  commandFailed : Bool
  deriving DecidableEq, Repr

structure OvsTable where
  tablename : Option Text
  columns : List Text
  deriving DecidableEq, Repr

structure SubFeature where
  name : Option Text
  desc : Option Text
  noStaSupport : Bool
  supportStb : Bool
  isDummy : Bool
  cliCmds : List CliCmd
  ovsTables : List OvsTable
  deriving DecidableEq, Repr

structure Feature where
  name : Option Text
  desc : Option Text
  subFeatures : List SubFeature
  deriving DecidableEq, Repr

/-- `strcmp_with_nullcheck` finds two strings, and they are equal. -/
def named (name : Option Text) (key : Text) : Bool := name == some key

/-! ### Runs -/

structure Env where
  /-- The signal handlers of the run are installed. -/
  signals : Bool
  /-- `ctime_r` of the start. -/
  started : Text
  /-- The execution time as it is printed, where it is more than 0. -/
  elapsed : Option Text
  /-- `exec_showtech_cmd` of the `n`-th command of the run does not return `CMD_SUCCESS`. -/
  failed : Nat → Bool
  /-- The moment at which `gUserInterrupt` is set. The `n`-th command runs between the moments `2 * n`
      and `2 * n + 1`. -/
  interrupt : Option Nat
  /-- `skip_further_execution` at a moment: the user has left the pager. -/
  quit : Nat → Bool

/-- The run shows all features, or one, or one sub-feature: three copies of one loop. -/
inductive Copy where
  | all
  | feature
  | subFeature
  deriving DecidableEq, Repr

/-- The copy looks for an interrupt before a command too. -/
def Copy.checksBefore : Copy → Bool
  | .all => false
  | .feature => true
  | .subFeature => true

/-- The copy looks at `skip_further_execution`. -/
def Copy.asksPager : Copy → Bool
  | .all => true
  | .feature => true
  | .subFeature => false

def Env.userInterrupt (env : Env) (moment : Nat) : Bool := env.interrupt.any fun t => t ≤ moment

def Env.stops (env : Env) (copy : Copy) (moment : Nat) : Bool :=
  env.userInterrupt moment || (copy.asksPager && env.quit moment)

/-- The state of a run: the commands it has run, the failures among them, whether it goes to
    `USER_INTERRUPT`, and the lines it has printed. -/
structure Shown where
  visited : Nat
  failureCount : Nat
  stopped : Bool
  out : List Text
  deriving DecidableEq, Repr

def Shown.print (s : Shown) (lines : List Text) : Shown := { s with out := s.out ++ lines }

def equals : Text := List.replicate 52 '='
def stars : Text := List.replicate 33 '*'
def spacedEquals : Text := '=' :: (List.replicate 26 [' ', '=']).flatten

/-- `%s` of a string that may be missing. -/
def shownName (name : Option Text) : Text := name.getD "(null)".toList

def featureBanner (mark : Text) (name : Option Text) : List Text :=
  [equals, mark ++ " Feature ".toList ++ shownName name, equals, []]

def subFeatureBanner (mark : Text) (name : Option Text) : List Text :=
  [spacedEquals, mark ++ " Sub Feature ".toList ++ shownName name, spacedEquals, []]

def beginMark : Text := "[Begin]".toList
def endMark : Text := "[End]".toList

def commandHeader (command : Text) : List Text := [[], stars, "Command : ".toList ++ command, stars]

def commandFailure (command : Text) : List Text :=
  [[], stars, "Command ".toList ++ command ++ " failed to execute".toList, stars]

/-- One round of the loop over the commands. -/
def showCommand (env : Env) (copy : Copy) (c : CliCmd) (s : Shown) : CliCmd × Shown :=
  if copy.checksBefore && env.stops copy (2 * s.visited) then (c, { s with stopped := true })
  else
    let s' := s.print (commandHeader c.command)
    let (c', s'') :=
      if env.failed s.visited then
        ({ c with commandFailed := true },
          { s' with failureCount := s.failureCount + 1 }.print (commandFailure c.command))
      else (c, s')
    if env.stops copy (2 * s.visited + 1) then
      ({ c' with commandFailed := false }, { s'' with visited := s.visited + 1, stopped := true })
    else (c', { s'' with visited := s.visited + 1 })

def showSubFeature (env : Env) (copy : Copy) (sub : SubFeature) (s : Shown) : SubFeature × Shown :=
  let banner (mark : Text) : List Text := if sub.isDummy then [] else subFeatureBanner mark sub.name
  let (cliCmds, s') := Loop.walk Shown.stopped (showCommand env copy) sub.cliCmds (s.print (banner beginMark))
  ({ sub with cliCmds := cliCmds }, if s'.stopped then s' else s'.print (banner endMark))

def showFeature (env : Env) (copy : Copy) (f : Feature) (s : Shown) : Feature × Shown :=
  let (subFeatures, s') := Loop.walk Shown.stopped (showSubFeature env copy) f.subFeatures
    (s.print (featureBanner beginMark f.name))
  ({ f with subFeatures := subFeatures }, if s'.stopped then s' else s'.print (featureBanner endMark f.name))

def showNamedFeature (env : Env) (feature : Text) (f : Feature) (s : Shown) : Option (Feature × Shown) :=
  if named f.name feature then some (showFeature env .feature f s) else none

def showNamedSubFeature (env : Env) (subFeature : Text) (sub : SubFeature) (s : Shown) : Option (SubFeature × Shown) :=
  if !sub.isDummy && named sub.name subFeature then some (showSubFeature env .subFeature sub s) else none

def showSubFeatureOf (env : Env) (feature subFeature : Text) (f : Feature) (s : Shown) : Option (Feature × Shown) :=
  if named f.name feature then
    (Loop.firstOf (showNamedSubFeature env subFeature) f.subFeatures s).map fun (subFeatures, s) =>
      ({ f with subFeatures := subFeatures }, s)
  else none

/-- The loop that a run takes; none when the feature or sub-feature is not found. -/
def showSelected (env : Env) (head : List Feature) (feature subFeature : Option Text) (s : Shown) :
    Option (List Feature × Shown) :=
  match feature, subFeature with
  | none, _ => some (Loop.walk Shown.stopped (showFeature env .all) head s)
  | some feature, none => Loop.firstOf (showNamedFeature env feature) head s
  | some feature, some subFeature => Loop.firstOf (showSubFeatureOf env feature subFeature) head s

/-! ### The report -/

inductive Line where
  | text (line : Text)
  /-- `%d show tech command failed to execute`, or `commands`. -/
  | failures (count : Nat)
  /-- `%d. %s` of `print_failed_commands`. -/
  | failed (index : Nat) (command : Text)
  deriving DecidableEq, Repr

/-- The number of the next command of the list, and the list so far. -/
abbrev Listing := Nat × List Line

def printFailed (c : CliCmd) (listing : Listing) : CliCmd × Listing :=
  if c.commandFailed then
    ({ c with commandFailed := false }, (listing.1 + 1, listing.2 ++ [.failed listing.1 c.command]))
  else (c, listing)

def printFailedOfSubFeature (sub : SubFeature) (listing : Listing) : SubFeature × Listing :=
  let (cliCmds, listing) := Loop.walk (fun _ => false) printFailed sub.cliCmds listing
  ({ sub with cliCmds := cliCmds }, listing)

def printFailedOfFeature (f : Feature) (listing : Listing) : Feature × Listing :=
  let (subFeatures, listing) := Loop.walk (fun _ => false) printFailedOfSubFeature f.subFeatures listing
  ({ f with subFeatures := subFeatures }, listing)

def printFailedCommands (head : List Feature) : List Feature × List Line :=
  let (head, listing) := Loop.walk (fun _ => false) printFailedOfFeature head (1, [])
  (head, listing.2)

structure Result where
  status : CmdStatus
  /-- The configuration that the next run finds. -/
  config : List Feature
  out : List Line
  deriving DecidableEq, Repr

def texts (lines : List Text) : List Line := lines.map Line.text

def failureTitle (count : Nat) : Text := if count = 1 then "Failed command:".toList else "Failed commands:".toList

/-- The end of a run that has not been stopped. -/
def report (head : List Feature) (failureCount : Nat) : List Feature × List Line :=
  if failureCount ≠ 0 then
    let (head, listed) := printFailedCommands head
    (head, texts [[], equals] ++ .failures failureCount :: texts [equals, failureTitle failureCount] ++ listed)
  else (head, texts [[], equals, "Show Tech commands executed successfully".toList, equals])

def startLines (started : Text) : List Text := [equals, "Show Tech executed on ".toList ++ started, equals]

def elapsedLines (elapsed : Option Text) : List Text :=
  elapsed.toList.map fun seconds => "Show Tech took ".toList ++ seconds ++ " seconds for execution".toList

def interruptLines (env : Env) (s : Shown) : List Text :=
  if env.userInterrupt (2 * s.visited) then ["USER INTERRUPT:Show tech terminated".toList] else []

def Shown.initial (env : Env) : Shown := ⟨0, 0, false, startLines env.started⟩

def notSupported (feature : Text) (subFeature : Option Text) : Text :=
  match subFeature with
  | none => "Feature ".toList ++ feature ++ " is not supported".toList
  | some subFeature => "Sub Feature ".toList ++ subFeature ++ " is not supported".toList

def cliShowTech (env : Env) (head : List Feature) (feature subFeature : Option Text) : Result :=
  if !env.signals then ⟨.warning, head, texts ["show tech init failed ".toList]⟩
  else if head = [] then
    ⟨.warning, head, texts [
      "Failed to obtain show tech configuration, please restore the configuration file using default file.".toList,
      "These files are located in /etc/openswitch/supportability/ ".toList]⟩
  else
    match showSelected env head feature subFeature (.initial env) with
    | none => ⟨.success, head, texts (startLines env.started ++ [notSupported (feature.getD []) subFeature])⟩
    | some (head, s) =>
      if s.stopped then ⟨.success, head, texts (s.out ++ interruptLines env s)⟩
      else
        let (head, lines) := report head s.failureCount
        ⟨.success, head, texts s.out ++ lines ++ texts (elapsedLines env.elapsed ++ interruptLines env s)⟩

end ShowTech
end OpsSupportability
