import OpsSupportability.Lib.Text
import Mathlib.Logic.Function.Basic

/-! The event table of a C daemon (`eventlog.c`): the loader that `event_log_init` runs over the scalars
    of `ops_events.yaml`, and the search for an event. Allocation by `asprintf` succeeds. -/

namespace OpsSupportability
namespace EventLog

def maxCategoriesPerDaemon : Nat := 99
def keyValueSize : Nat := 128
def maxLogStr : Nat := 480
def maxEventNameSize : Nat := 64
def maxSevNameSize : Nat := 10
def maxEventTableSize : Nat := 500
def eventNameDelimiterStr : Text := "EV_TBD_TBD".toList

structure Event where
  category : Text
  eventId : Int
  eventName : Text
  severity : Text
  numOfKeys : Int
  eventDescription : Text
  deriving DecidableEq

/-- The memory behind `ev_table`; what was never written holds anything. -/
abbrev Table := Nat → Event

/-- The tokens that matter to the loader. -/
inductive Token where
  | scalar (value : Text)
  | streamEnd
  | noToken
  | other
  deriving DecidableEq

/-- `yaml_parser_scan`. A file is its tokens up to the end of the stream or up to an error, after which
    the scanner keeps returning an empty token. -/
def scan : List Token → Token × List Token
  | [] => (.noToken, [])
  | token :: file => (token, file)

/-- What the calls outside the library answer to `event_log_init`. -/
structure Env where
  file : Option (List Token)
  parserInitialize : Bool
  memory : Option Table

/-! ### The loader -/

/-- `val_flag`, from 0 to 5: which value the next scalar is. -/
inductive ValFlag where
  | none
  | name
  | id
  | severity
  | keys
  | template
  deriving DecidableEq, Repr

/-- The variables of `parse_yaml_for_category`, with the table and the slots written so far. -/
structure Loader where
  table : Table
  buf : Text
  index : Nat
  defFlag : Bool
  evtFlag : Bool
  valFlag : ValFlag
  found : Bool
  categoryFound : Bool
  writes : List Nat

/-- A write to a field of a slot. -/
def Loader.modify (l : Loader) (i : Nat) (f : Event → Event) : Loader :=
  { l with table := Function.update l.table i (f (l.table i)), writes := l.writes ++ [i] }

/-- The number of tokens, and what `strtok` leaves of the string: it ends at the comma after the first. -/
def countKeys (keys : Text) : Int × Text :=
  ((Text.tokens ',' keys).length, keys.takeWhile (· == ',') ++ (keys.dropWhile (· == ',')).takeWhile (· != ','))

/-- The value is stored in the slot of the event; the scalar comes back as `count_keys` leaves it. -/
def assignParsedValues (key : Text) (l : Loader) : Text × Loader :=
  match l.valFlag with
  | .none => (key, l)
  | .name => (key, { l with valFlag := .none })
  | .id => (key, { l.modify l.index (fun e => { e with eventId := Text.atoi key }) with valFlag := .none })
  | .severity =>
    if 0 < key.length ∧ key.length < maxSevNameSize then
      (key, { l.modify l.index (fun e => { e with severity := key }) with valFlag := .none })
    else (key, { l with valFlag := .none })
  | .keys =>
    ((countKeys key).2,
      { l.modify l.index (fun e => { e with numOfKeys := (countKeys key).1 }) with valFlag := .none })
  | .template =>
    let l' := if 0 < key.length ∧ key.length < maxLogStr then
        l.modify l.index (fun e => { e with eventDescription := key })
      else l
    (key, { l'.modify (l.index + 1) (fun e => { e with eventName := eventNameDelimiterStr }) with
      valFlag := .none, found := false, index := l.index + 1 })

/-- The scalar after `event_name` goes to the buffer. -/
def Loader.readName (key : Text) (l : Loader) : Loader :=
  if l.valFlag = .name then
    { l with buf := if 0 < key.length ∧ key.length < maxEventNameSize then key else l.buf, valFlag := .none }
  else l

/-- A scalar that is the category, after the first `event_category`, opens an event. -/
def Loader.matchCategory (category key : Text) (l : Loader) : Loader :=
  if l.evtFlag ∧ key = category then
    let l := { l with found := true, categoryFound := true }
    let l := if 0 < l.buf.length ∧ l.buf.length < maxEventNameSize then
        l.modify l.index (fun e => { e with eventName := l.buf })
      else l
    l.modify l.index (fun e => { e with category })
  else l

def eventDefinitions : Text := "event_definitions".toList
def eventName : Text := "event_name".toList
def eventCategory : Text := "event_category".toList
def eventID : Text := "event_ID".toList
def severity : Text := "severity".toList
def keys : Text := "keys".toList
def eventDescriptionTemplate : Text := "event_description_template".toList

def Loader.recognise (key : Text) (l : Loader) : Loader :=
  if key = eventDefinitions then { l with defFlag := true }
  else if key = eventName ∧ l.defFlag then { l with valFlag := .name }
  else if key = eventCategory ∧ l.defFlag then { l with evtFlag := true }
  else if key = eventID ∧ l.defFlag then { l with valFlag := .id }
  else if key = severity ∧ l.evtFlag then { l with valFlag := .severity }
  else if key = keys ∧ l.evtFlag then { l with valFlag := .keys }
  else if key = eventDescriptionTemplate ∧ l.evtFlag then { l with valFlag := .template }
  else l

/-- The case `YAML_SCALAR_TOKEN` of the token loop. -/
def Loader.scalar (category key : Text) (l : Loader) : Loader :=
  let l := (l.readName key).matchCategory category key
  if l.found then
    let (key, l) := assignParsedValues key l
    l.recognise key
  else l.recognise key

/-- The token loop; `none` when it has not come to the end of the stream. -/
def parseLoop (category : Text) : Nat → List Token → Loader → Option Loader
  | 0, _, _ => none
  | fuel + 1, file, l =>
    match scan file with
    | (.streamEnd, _) => some l
    | (.scalar key, file) => parseLoop category fuel file (l.scalar category key)
    | (_, file) => parseLoop category fuel file l

def findLastIndexFrom (table : Table) : Nat → Nat → Option Nat
  | 0, _ => none
  | n + 1, i => if (table i).eventName = eventNameDelimiterStr then some i else findLastIndexFrom table n (i + 1)

/-- The slot of the delimiter; `none` is -1. -/
def findLastIndex (table : Table) : Option Nat := findLastIndexFrom table maxEventTableSize 0

/-- The return value, the table and the slots written; `none` when the token loop does not end. -/
def parseYamlForCategory (env : Env) (fuel : Nat) (category : Text) (table : Table) : Option (Int × Table × List Nat) :=
  match env.file with
  | none => some (-1, table, [])
  | some file =>
    match findLastIndex table with
    | none => some (-1, table, [])
    | some index =>
      if env.parserInitialize then
        (parseLoop category fuel file ⟨table, [], index, false, false, .none, false, false, []⟩).map fun l =>
          (if l.categoryFound then 1 else 0, l.table, l.writes)
      else some (-1, table, [])

/-! ### Initialising a category -/

/-- The statics of the library: `ev_table`, and `category_table` up to `category_index`; with the slots of
    `ev_table` written so far. -/
structure State where
  evTable : Option Table
  categoryTable : List Text
  writes : List Nat

def State.init : State := ⟨none, [], []⟩

def createEventTable (env : Env) : Option Table :=
  env.memory.map fun table => Function.update table 0 { table 0 with eventName := eventNameDelimiterStr }

def eventCategorySearch (category : Text) (s : State) : Bool := s.categoryTable.contains category

/-- `ev_table`, created if it is not there yet, with the slots that this writes. -/
def tableOf (env : Env) (s : State) : Option (Table × List Nat) :=
  match s.evTable with
  | some table => some (table, [])
  | none => (createEventTable env).map fun table => (table, [0])

/-- The return value and the new state; `none` when the call does not return. -/
def eventLogInit (env : Env) (fuel : Nat) (categoryName : Option Text) (s : State) : Option (Int × State) :=
  match categoryName with
  | none => some (-1, s)
  | some category =>
    if maxCategoriesPerDaemon < s.categoryTable.length then some (-1, s)
    else if eventCategorySearch category s then some (-1, s)
    else
      match tableOf env s with
      | none => some (-1, s)
      | some (table, slots) =>
        (parseYamlForCategory env fuel category table).map fun (ret, table, written) =>
          (ret,
            { evTable := some table
              categoryTable := if 0 < ret then s.categoryTable ++ [category] else s.categoryTable
              writes := s.writes ++ slots ++ written })

/-- A sequence of calls, with their return values. -/
def initAll (env : Env) (fuel : Nat) : List (Option Text) → State → Option (List Int × State)
  | [], s => some ([], s)
  | c :: calls, s => do
    let (ret, s) ← eventLogInit env fuel c s
    let (rets, s) ← initAll env fuel calls s
    return (ret :: rets, s)

/-! ### Searching an event -/

/-- The loop of `event_search`, with the slots it reads. -/
def searchFrom (fmt : Text) (table : Table) : Nat → Nat → Nat × List Nat
  | 0, i => (i, [])
  | n + 1, i =>
    if fmt = (table i).eventName then (i, [i])
    else if eventNameDelimiterStr = (table i).eventDescription then (i, [i])
    else ((searchFrom fmt table n (i + 1)).1, i :: (searchFrom fmt table n (i + 1)).2)

/-- The index found and the slots read; -1 before the table is created. -/
def eventSearch (fmt : Text) (evTable : Option Table) : Int × List Nat :=
  match evTable with
  | none => (-1, [])
  | some table => ((searchFrom fmt table maxEventTableSize 0).1, (searchFrom fmt table maxEventTableSize 0).2)

end EventLog
end OpsSupportability
