import OpsSupportability.EventTable
import OpsSupportability.Lib.Printf

/-! Logging an event from a C daemon (`eventlog.c`): the text of a key and its value, the expansion of a
    template through the static buffer of `replace_str`, and `log_event`. Allocation succeeds. -/

namespace OpsSupportability
namespace EventLog

/-- Why a call gives no result: a loop has not ended, an array is written past its end, a null string is
    measured, or an argument is read that was not passed. -/
inductive Fault where
  | running
  | overflow
  | nullString
  | missingArgument
  deriving DecidableEq, Repr

def sev : List Text :=
  ["LOG_EMERG".toList, "LOG_ALERT".toList, "LOG_CRIT".toList, "LOG_ERR".toList, "LOG_WARN".toList,
    "LOG_NOTICE".toList, "LOG_INFO".toList, "LOG_DEBUG".toList]

/-- The severity value; `none` is -1. -/
def severityLevel (arg : Text) : Option Nat := sev.findIdx? (· == arg)

/-- `key_value_string` on a key and the text that the format makes of the value. The second bound
    compares an unsigned length with a difference of signed ones. -/
def keyValueString (key value : Text) : Option Text :=
  let size : Int := key.length
  let str2 := value.take (keyValueSize - 1)
  if 0 < key.length ∧ key.length < keyValueSize ∧ keyValueSize - (size + 1) > 0 ∧ 0 < str2.length ∧
      (str2.length : Int) < (keyValueSize - (size + 2)) % 2 ^ 32 then
    some (key ++ '=' :: str2)
  else none

/-! ### Expanding a template -/

/-- The key between braces; `none` is -1. `strncat` appends at most as many characters as the key has. -/
def makeKeyFormat (key : Text) : Option Text :=
  if keyValueSize - 2 < key.length then none else some ('{' :: key ++ ['}'].take key.length)

/-- The loop of `replace_str` on the string and the static buffer. -/
def replaceLoop (keyName rep : Text) : Nat → Text → Text → Except Fault (Text × Text)
  | 0, _, _ => .error .running
  | fuel + 1, str, buffer =>
    match Text.cutFirst keyName str with
    | none => .ok (str, buffer)
    | some (pre, post) =>
      if (pre ++ rep ++ post).length < maxLogStr then
        replaceLoop keyName rep fuel (pre ++ rep ++ post) (pre ++ rep ++ post)
      else .error .overflow

/-- The string and the buffer, which is what `replace_str` returns; `none` is its null pointer. -/
def replaceStr (fuel : Nat) (str orig rep buffer : Text) : Except Fault (Option (Text × Text)) :=
  match makeKeyFormat orig with
  | none => .ok none
  | some keyName => (replaceLoop keyName rep fuel str buffer).map some

/-- The token loop of `populate_str`: each token after the first replaces the first. -/
def replaceTokens (fuel : Nat) (key : Text) : List Text → Text → Text → Except Fault (Option (Text × Text))
  | [], s1, buffer => .ok (some (s1, buffer))
  | token :: tokens, s1, buffer => do
    match ← replaceStr fuel s1 key token buffer with
    | none => return none
    | some (s1, buffer) => replaceTokens fuel key tokens s1 buffer

/-- The return value, the string and the static buffer. -/
def populateStr (fuel : Nat) (s1 s2 buffer : Text) : Except Fault (Int × Text × Text) :=
  if 0 < s2.length ∧ s2.length < keyValueSize then
    match Text.tokens '=' s2 with
    | [] => .error .nullString
    | [_] => .ok (-1, s1, buffer)
    | key :: tokens => do
      match ← replaceTokens fuel key tokens s1 buffer with
      | none => return (-1, s1, buffer)
      | some (s1, final) =>
        if 0 < final.length ∧ final.length < maxLogStr then return (0, final, final)
        else return (-1, s1, final)
  else .ok (-1, s1, buffer)

/-! ### Logging -/

/-- What `sd_journal_send` is called with. -/
inductive Sent where
  | unknown (evName : Text)
  | event (message : Text) (priority : Nat) (eventId : Int) (category : Text) (allKeyValuePairs : Option Text)
  deriving DecidableEq

def messageOpsEvt : Text := "50c0fa81c2a545ec982a54293f1b1945".toList

/-- The variable arguments of the call, the terminating null pointer included. -/
def Sent.arguments : Sent → List Printf.Arg
  | unknown evName =>
    [.str "ops-evt|Unknown Event Name %s".toList, .str evName, .str "MESSAGE_ID=%s".toList, .str messageOpsEvt, .null]
  | event message priority eventId category allKeyValuePairs =>
    [.str message, .str "PRIORITY=%d".toList, .int priority, .str "MESSAGE_ID=%s".toList, .str messageOpsEvt,
      .str "OPS_EVENT_ID=%d".toList, .int eventId, .str "OPS_EVENT_CATEGORY=%s".toList, .str category] ++
      allKeyValuePairs.toList.map Printf.Arg.str ++ [.null]

structure Outcome where
  ret : Int
  sent : Option Sent
  buffer : Text
  deriving DecidableEq

/-- The local arrays of `log_event`, and the static buffer. -/
structure Arrays where
  evtMsg : Text
  keyValuePair : Text
  allKeyValuePairs : Text
  buffer : Text
  deriving DecidableEq

/-- How the loop over the keys ends. -/
inductive Filled where
  | refused (buffer : Text)
  | done (keyValueNone : Bool) (arrays : Arrays)
  deriving DecidableEq

/-- `key_value_pair` after the copy of an argument; one that does not fit is not copied. -/
def storedPair (tmp keyValuePair : Text) : Text := if tmp.length < keyValueSize then tmp else keyValuePair

/-- The loop over the keys of the event; an argument is a string or a null pointer. -/
def fillKeys (fuel : Nat) : Nat → List (Option Text) → Arrays → Except Fault Filled
  | 0, _, a => .ok (.done false a)
  | _ + 1, [], _ => .error .missingArgument
  | _ + 1, none :: _, a => .ok (.done true a)
  | n + 1, some tmp :: args, a => do
    let pair := storedPair tmp a.keyValuePair
    let (ret, evtMsg, buffer) ← populateStr fuel a.evtMsg pair a.buffer
    if ret < 0 then return .refused buffer
    else if pair.length + 1 < keyValueSize then
      let pair := pair ++ [',']
      fillKeys fuel n args
        ⟨evtMsg, pair, (a.allKeyValuePairs ++ pair).take (2 * keyValueSize - 1), buffer⟩
    else throw .overflow

def evtMsgOf (e : Event) : Text := if e.eventDescription.length < maxLogStr then e.eventDescription else []

def messageOf (e : Event) (evtMsg : Text) : Text :=
  "MESSAGE=ops-evt|".toList ++ Text.decimal e.eventId ++ ['|'] ++ e.severity ++ ['|'] ++ evtMsg

/-- `log_event` once the slot is found; `journal` is what `sd_journal_send` answers. -/
def logSlot (journal : Sent → Int) (fuel : Nat) (e : Event) (args : List (Option Text)) (buffer : Text) :
    Except Fault Outcome := do
  match ← fillKeys fuel e.numOfKeys.toNat args ⟨evtMsgOf e, [], [], buffer⟩ with
  | .refused buffer => return ⟨-1, none, buffer⟩
  | .done keyValueNone a =>
    match severityLevel e.severity with
    | none => return ⟨-1, none, a.buffer⟩
    | some level =>
      let sent := .event (messageOf e a.evtMsg) level e.eventId e.category
        (if keyValueNone then none else some a.allKeyValuePairs)
      return ⟨journal sent, some sent, a.buffer⟩

/-- The slot that `log_event` uses; `none` is its branch for an unknown event. -/
def lookup (evName : Text) (evTable : Option Table) : Option Nat :=
  let index := (eventSearch evName evTable).1
  if index = maxEventTableSize - 1 ∨ index < 0 then none else some index.toNat

/-- `log_event` on an event name that is not null. -/
def logEvent (journal : Sent → Int) (fuel : Nat) (evTable : Option Table) (evName : Text) (args : List (Option Text))
    (buffer : Text) : Except Fault Outcome :=
  match evTable, lookup evName evTable with
  | some table, some index => logSlot journal fuel (table index) args buffer
  | _, _ => .ok ⟨-1, some (.unknown evName), buffer⟩

/-- The slots of the table that a call of `log_event` reads. -/
def slotsRead (evName : Text) (evTable : Option Table) : List Nat :=
  (eventSearch evName evTable).2 ++ (lookup evName evTable).toList

end EventLog
end OpsSupportability
