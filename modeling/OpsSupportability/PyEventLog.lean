import OpsSupportability.Lib.Text

/-! The event log of the Python daemons (`ops_eventlog.py`): loading the definitions of a category, and
    logging an event. Strings are lists of characters. -/

namespace OpsSupportability
namespace PyEventLog

/-- An element of `event_definitions` in the loaded document; a missing key is `none`. -/
structure YamlEvent where
  eventName : Option Text
  eventCategory : Option Text
  eventId : Option Int
  severity : Option Text
  eventDescriptionTemplate : Option Text
  deriving DecidableEq

/-- An element of the global list `content`. -/
structure Entry where
  eventCategory : Text
  eventName : Text
  eventId : Int
  severity : Text
  description : Text
  deriving DecidableEq

/-- The globals `content` and `category`. -/
structure State where
  content : List Entry
  category : List Text
  deriving DecidableEq

def State.init : State := ⟨[], []⟩

/-- `FAIL`; a call that does not fail returns Python's `None`. -/
inductive Ret where
  | fail
  | none
  deriving DecidableEq, Repr

/-- `mydic` of a definition; `none` when a key is missing and the lookup raises. -/
def mydic (e : YamlEvent) : Option Entry := do
  let yamlCat ← e.eventCategory
  let name ← e.eventName
  let id ← e.eventId
  let severity ← e.severity
  let description ← e.eventDescriptionTemplate
  return ⟨yamlCat, name, id, severity, description⟩

/-- The loop over the definitions, with `content` and `found`; `none` when a lookup raised. -/
def loadDefinitions (cat : Text) : List YamlEvent → List Entry → Bool → List Entry × Option Bool
  | [], content, found => (content, some found)
  | e :: es, content, found =>
    match e.eventCategory with
    | none => (content, none)
    | some yamlCat =>
      if yamlCat == cat then
        match mydic e with
        | none => (content, none)
        | some d => loadDefinitions cat es (content ++ [d]) true
      else loadDefinitions cat es content found

/-- `event_log_init` on the loaded `event_definitions`; `none` when the file cannot be loaded. -/
def eventLogInit (doc : Option (List YamlEvent)) (cat : Text) (s : State) : State × Ret :=
  if s.category.any fun c => decide (cat <:+: c) then (s, .fail)
  else
    match doc with
    | none => (s, .fail)
    | some defs =>
      match loadDefinitions cat defs s.content false with
      | (content, some true) => (⟨content, s.category ++ [cat]⟩, .none)
      | (content, _) => ({ s with content }, .fail)

/-- The state after a sequence of calls. -/
def initAll (doc : Option (List YamlEvent)) (calls : List Text) : State :=
  calls.foldl (fun s cat => (eventLogInit doc cat s).1) State.init

def replaceStr (keys : List (Text × Text)) (desc : Text) : Text :=
  keys.foldl (fun desc kv => Text.replaceAll ('{' :: kv.1 ++ ['}']) kv.2 desc) desc

def messageOpsEvt : Text := "50c0fa81c2a545ec982a54293f1b1945".toList

/-- The fields that `journal.send` is given, with the name `daemon` of the process. -/
def journalFields (daemon : Text) (e : Entry) (desc : Text) : List Text :=
  ["MESSAGE=ops-evt|".toList ++ Text.decimal e.eventId ++ ['|'] ++ e.severity ++ ['|'] ++ desc,
    "MESSAGE_ID=".toList ++ messageOpsEvt,
    "PRIORITY=".toList ++ e.severity,
    "OPS_EVENT_ID=".toList ++ Text.decimal e.eventId,
    "OPS_EVENT_CATEGORY=".toList ++ e.eventCategory,
    "SYSLOG_IDENTIFIER=".toList ++ daemon]

/-- `log_event`: the fields sent, or `none` for an unknown event, where the call returns `FAIL`. -/
def logEvent (s : State) (daemon name : Text) (arg : List (Text × Text)) : Option (List Text) :=
  (s.content.find? (·.eventName == name)).map fun e =>
    journalFields daemon e (if arg.isEmpty then e.description else replaceStr arg e.description)

end PyEventLog
end OpsSupportability
