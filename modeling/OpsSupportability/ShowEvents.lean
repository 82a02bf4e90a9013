import OpsSupportability.EventLog
import OpsSupportability.PyEventLog

/-! The commands that show events (`show_events_vty.c`, `supportability_vty.c`) on a journal: the matches
    they set up, the entries they visit, and the words that the command offers for the categories. -/

namespace OpsSupportability
namespace ShowEvents

open EventLog (Event Sent)

def eventIdIndex : Nat := 0
def eventSeverityIndex : Nat := 1
def eventCategoryIndex : Nat := 3
def maxSevs : Nat := 8
def bufSize : Nat := 100
def minSize : Nat := 6
def maxEvCategories : Nat := 999
def maxCmdSize : Nat := 100 * 50
def maxEvHelpSize : Nat := maxEvCategories * 256
def messageOpsEvtMatch : Text := "MESSAGE_ID=50c0fa81c2a545ec982a54293f1b1945".toList

/-! ### The journal -/

/-- What journald adds to the fields that a program sends. -/
structure Stamp where
  syslogIdentifier : Option Text
  timestamp : Option Text
  deriving DecidableEq

def Stamp.fields (s : Stamp) : List Text :=
  (s.syslogIdentifier.map ("SYSLOG_IDENTIFIER=".toList ++ ·)).toList ++
    (s.timestamp.map ("_SOURCE_REALTIME_TIMESTAMP=".toList ++ ·)).toList

/-- Who wrote an entry: `log_event` in C, with the slot of the event table and its call of
    `sd_journal_send`, `log_event` in Python, with the element of `content`, or another program. -/
inductive Origin where
  | c (slot : Event) (sent : Sent)
  | py (entry : PyEventLog.Entry)
  | other
  deriving DecidableEq

/-- An entry of the journal. -/
structure Record where
  origin : Origin
  fields : List Text
  deriving DecidableEq

/-- The name of a field, up to the first `=`. -/
def fieldName (field : Text) : Text := field.takeWhile (· != '=')

/-- What the commands use of the journal's library. `matched` says which entries a handle visits: its matches on one
    field are alternatives, those on different fields must all be met. `getData` is `sd_journal_get_data`. -/
structure Journald where
  matched : List Text → List Text → Bool
  getData : Text → List Text → Option Text
  matched_iff : ∀ {ms fields}, matched ms fields = true ↔ ∀ m ∈ ms, ∃ m' ∈ ms, fieldName m' = fieldName m ∧ m' ∈ fields
  getData_eq : ∀ name fields, getData name fields = fields.find? fun field => fieldName field == name

/-- A journal that can be evaluated. -/
def Journald.basic : Journald where
  matched ms fields := ms.all fun m => ms.any fun m' => fieldName m' == fieldName m && fields.contains m'
  getData name fields := fields.find? fun field => fieldName field == name
  matched_iff := by
    simp only [List.all_eq_true, List.any_eq_true, Bool.and_eq_true, beq_iff_eq, List.contains_iff_mem, implies_true]
  getData_eq _ _ := rfl

/-- What is outside: the journal, and what `localtime` and `strftime` make of a number of seconds. -/
structure Env extends Journald where
  clock : Int → Text

/-- A clock without a time. -/
def noClock : Env := { Journald.basic with clock := fun _ => [] }

/-! ### Filters -/

def sevWords : List Text :=
  ["emer".toList, "alert".toList, "crit".toList, "err".toList, "warn".toList, "notice".toList, "info".toList,
    "debug".toList]

/-- The severity value; `none` is -1. -/
def sevLevel (arg : Text) : Option Nat := sevWords.findIdx? (· == arg)

def strnupr (s : Text) : Text := s.map Char.toUpper

def strnlwr (s : Text) : Text := s.map Char.toLower

/-- `snprintf` into a buffer of `bufSize`. -/
def snprintf (s : Text) : Text := s.take (bufSize - 1)

/-- `PRIORITY=` for a level and all levels below it, counting down. -/
def priorityMatches : Nat → List Text
  | 0 => [snprintf ("PRIORITY=".toList ++ Text.decimal 0)]
  | level + 1 => snprintf ("PRIORITY=".toList ++ Text.decimal (level + 1 : Nat)) :: priorityMatches level

/-- The matches that `journal_filter` adds; `none` is -1. -/
def journalFilter (arg : Option Text) (index : Nat) (list : List Text) : Option (List Text) :=
  if index = eventIdIndex then
    match arg with
    | some _ => some []
    | none => some (list.map fun value => snprintf ("OPS_EVENT_ID=".toList ++ Text.decimal (Text.atoi value)))
  else
    match arg with
    | none => none
    | some arg =>
      if index = eventSeverityIndex then
        match sevLevel arg with
        | some level => if level < maxSevs then some (priorityMatches level) else none
        | none => none
      else if index = eventCategoryIndex then some [snprintf ("OPS_EVENT_CATEGORY=".toList ++ strnupr arg)]
      else none

/-! ### Printing -/

/-- `get_value` -/
def getValue (field : Text) : Option Text :=
  match field.dropWhile (· != '=') with
  | _ :: c :: value => some (c :: value)
  | _ => none

def strchr (c : Char) (s : Text) : Option Text :=
  if c ∈ s then some (s.dropWhile (· != c)) else none

def convertToDatetime (clock : Int → Text) (str : Text) : Text :=
  if minSize ≤ str.length then
    (clock (Text.atoi (str.take (str.length - minSize))) ++ ['.'] ++ str.drop (str.length - minSize)).take (bufSize - 1)
  else []

def orNull (s : Option Text) : Text := s.getD "(null)".toList

/-- The line printed for an entry. -/
def line (env : Env) (fields : List Text) : Text :=
  let message := ((env.getData "MESSAGE".toList fields).bind getValue).bind (strchr '|')
  let module := (env.getData "SYSLOG_IDENTIFIER".toList fields).bind getValue
  let tm := ((env.getData "_SOURCE_REALTIME_TIMESTAMP".toList fields).bind getValue).map (convertToDatetime env.clock)
  tm.getD [] ++ ['|'] ++ orNull module ++ orNull message

inductive Status where
  | success
  | warning
  | errNoMatch
  deriving DecidableEq, Repr

/-- What a command prints; each line of an entry comes with the entry. -/
structure Output where
  status : Status
  header : List Text
  entries : List (Record × Text)
  trailer : List Text

def showHeader : List Text :=
  [[], "---------------------------------------------------".toList, "show event logs".toList,
    "---------------------------------------------------".toList]

/-- `cli_show_events` on the entries that the handle matches, in journal order. -/
def cliShowEvents (env : Env) (selected : List Record) (reverse filter : Bool) : Output where
  status := .success
  header := showHeader
  entries := (if reverse then selected.reverse else selected).map fun r => (r, line env r.fields)
  trailer :=
    if selected.isEmpty then
      [if filter then "No event match the filter provided".toList else "No event has been logged in the system".toList]
    else []

/-- The arguments of the command; `eventIds` holds the values that `cmd_get_range_value` returns. -/
structure Args where
  eventIds : Option (List Text)
  severity : Option Text
  reverse : Bool
  category : Option Text

/-- The matches for the range of event ids. -/
def idFilter : Option (List Text) → Option (List Text)
  | none => some []
  | some list => journalFilter none eventIdIndex list

/-- The matches for an argument of the loop over the filters. -/
def argFilter (index : Nat) : Option Text → Option (List Text)
  | none => some []
  | some arg => journalFilter (some arg) index []

/-- `cli_platform_show_events`; the journal can be opened, matched and walked. -/
def cliPlatformShowEvents (env : Env) (journal : List Record) (args : Args) : Output :=
  if args.eventIds = some [] then ⟨.errNoMatch, [], [], []⟩
  else
    match idFilter args.eventIds, argFilter eventSeverityIndex args.severity,
      argFilter eventCategoryIndex args.category with
    | some ids, some severities, some categories =>
      let ms := messageOpsEvtMatch :: (ids ++ severities ++ categories)
      cliShowEvents env (journal.filter fun r => env.matched ms r.fields) args.reverse
        (args.severity.isSome || args.reverse || args.category.isSome)
    | _, _, _ => ⟨.warning, [], [], ["Log Filter failed".toList]⟩

/-! ### Installing the command -/

def showEventsCmd : Text :=
  "show events \x7bevent-id <A:1001-999999>| severity                                      (emer | alert | crit | err | warn | notice | info | debug)                                      | reverse | category (".toList

/-- `strncat` into a buffer of the given size. -/
def strncat (size : Nat) (dest src : Text) : Text := dest ++ src.take (size - dest.length - 1)

/-- `strncpy` into a zeroed buffer of the given size, its last byte left out. -/
def strncpy (size : Nat) (src : Text) : Text := src.take (size - 1)

/-- The variables of the loop of `install_show_evnts`; `alternatives` are the words appended so far, each
    with the category it was made of. -/
structure Install where
  cmd : Text
  help : Text
  found : Bool
  des : Bool
  foundDes : Bool
  install : Bool
  alternatives : List (Text × Text)

/-- The second scalar behind a category is its help line. -/
def Install.helpLine (key : Text) (s : Install) : Install :=
  if s.foundDes then
    { s with help := strncat maxEvHelpSize (strncat maxEvHelpSize s.help key) ['\n'], foundDes := false }
  else s

/-- The first scalar behind a category is skipped. -/
def Install.skip (s : Install) : Install :=
  if s.des then { s with foundDes := true, des := false } else s

/-- The scalar behind `event_category` is a category. -/
def Install.addCategory (key : Text) (s : Install) : Install :=
  if s.found then
    { s with
      cmd := strncat maxCmdSize (strncat maxCmdSize s.cmd (strnlwr key)) ['|']
      found := false
      des := true
      install := true
      alternatives := s.alternatives ++ [(key, (strnlwr key).take (maxCmdSize - s.cmd.length - 1))] }
  else s

/-- One scalar; the flag says that the loop is left. A category is lower-cased in place. -/
def Install.scalar (key : Text) (s : Install) : Install × Bool :=
  let word := if s.found then strnlwr key else key
  let s := (s.helpLine key).skip.addCategory key
  if word = EventLog.eventDefinitions then (s, true)
  else if word = EventLog.eventCategory then ({ s with found := true }, false)
  else (s, false)

/-- The loop over the scalars of the file, and whether it was left at the definitions. -/
def Install.scalars : List Text → Install → Install × Bool
  | [], s => (s, false)
  | key :: keys, s =>
    match s.scalar key with
    | (s, true) => (s, true)
    | (s, false) => Install.scalars keys s

def Install.init (doc : Text) : Install :=
  ⟨strncpy maxCmdSize showEventsCmd, strncpy maxEvHelpSize doc, false, false, false, false, []⟩

/-- What `install_show_evnts` returns and the element that it installs; `alternatives` are the categories
    that the command then offers, each with its word. -/
structure Installed where
  ret : Int
  element : Option (Text × Text)
  alternatives : List (Text × Text)

/-- `install_show_evnts` on the help text of the command and the scalars of the file. -/
def installShowEvnts (doc : Text) (scalars : List Text) : Installed :=
  match Install.scalars scalars (Install.init doc) with
  | (s, exit) =>
    if ¬ s.install then ⟨1, none, []⟩
    else if exit then ⟨0, some (strncat maxCmdSize s.cmd ")\x7d".toList, s.help), s.alternatives⟩
    else ⟨0, none, []⟩

end ShowEvents
end OpsSupportability
