import OpsSupportability.EventLog
import OpsSupportability.Lib.Writes

/-! The places that logging an event writes to: for each function of `eventlog.c` on the way from `log_event` to
    `make_key_format`, the writes that it makes into the arrays, in order. What the functions compute is taken from
    their definitions. -/

namespace OpsSupportability
namespace EventLog

open Writes (Write)

inductive Memory where
  /-- `key_name` of `replace_str`, for a key of a length. -/
  | keyName (keyLength : Nat)
  | buffer
  | evtMsg
  | keyValuePair
  | allKeyValuePairs
  deriving DecidableEq, Repr

/-- The declared size. -/
def Memory.size : Memory → Nat
  | .keyName keyLength => keyLength + 2
  | .buffer => maxLogStr
  | .evtMsg => maxLogStr
  | .keyValuePair => keyValueSize
  | .allKeyValuePairs => 2 * keyValueSize

/-- The key and its NUL are moved by one, the brace is put in front, and `strncat` appends the other one, if the key
    has a character, and a NUL. -/
def makeKeyFormatWrites (key : Text) : List (Write Memory) :=
  if keyValueSize - 2 < key.length then []
  else
    [⟨.keyName key.length, key.length + 2⟩, ⟨.keyName key.length, 1⟩,
      ⟨.keyName key.length, key.length + 1 + min 1 key.length + 1⟩]

/-- Each round writes the text before the key, `sprintf` the value and the text behind it, and the whole is copied
    back. -/
def replaceLoopWrites (keyName rep : Text) : Nat → Text → List (Write Memory)
  | 0, _ => []
  | fuel + 1, str =>
    match Text.cutFirst keyName str with
    | none => []
    | some (pre, post) =>
      [⟨.buffer, pre.length⟩, ⟨.buffer, pre.length + 1⟩, ⟨.buffer, (pre ++ rep ++ post).length + 1⟩,
        ⟨.evtMsg, (pre ++ rep ++ post).length + 1⟩] ++
        if (pre ++ rep ++ post).length < maxLogStr then replaceLoopWrites keyName rep fuel (pre ++ rep ++ post) else []

def replaceStrWrites (fuel : Nat) (str orig rep : Text) : List (Write Memory) :=
  [⟨.keyName orig.length, orig.length + 2⟩, ⟨.keyName orig.length, orig.length + 1⟩] ++ makeKeyFormatWrites orig ++
    match makeKeyFormat orig with
    | none => []
    | some keyName => replaceLoopWrites keyName rep fuel str

def replaceTokensWrites (fuel : Nat) (key : Text) : List Text → Text → Text → List (Write Memory)
  | [], _, _ => []
  | token :: tokens, s1, buffer =>
    replaceStrWrites fuel s1 key token ++
      match replaceStr fuel s1 key token buffer with
      | .ok (some (s1, buffer)) => replaceTokensWrites fuel key tokens s1 buffer
      | _ => []

def populateStrWrites (fuel : Nat) (s1 s2 buffer : Text) : List (Write Memory) :=
  if 0 < s2.length ∧ s2.length < keyValueSize then
    match Text.tokens '=' s2 with
    | key :: tokens =>
      replaceTokensWrites fuel key tokens s1 buffer ++
        match tokens, replaceTokens fuel key tokens s1 buffer with
        | _ :: _, .ok (some (_, final)) =>
          if 0 < final.length ∧ final.length < maxLogStr then [⟨.evtMsg, final.length + 1⟩] else []
        | _, _ => []
    | [] => []
  else []

def fillKeysWrites (fuel : Nat) : Nat → List (Option Text) → Arrays → List (Write Memory)
  | n + 1, some tmp :: args, a =>
    let pair := storedPair tmp a.keyValuePair
    (if tmp.length < keyValueSize then [⟨.keyValuePair, tmp.length + 1⟩] else []) ++
      populateStrWrites fuel a.evtMsg pair a.buffer ++
      match populateStr fuel a.evtMsg pair a.buffer with
      | .ok (ret, evtMsg, buffer) =>
        if ret < 0 then []
        else
          let all := (a.allKeyValuePairs ++ (pair ++ [','])).take (2 * keyValueSize - 1)
          ⟨.keyValuePair, pair.length + 2⟩ ::
            if pair.length + 1 < keyValueSize then
              ⟨.allKeyValuePairs, all.length + 1⟩ :: fillKeysWrites fuel n args ⟨evtMsg, pair ++ [','], all, buffer⟩
            else []
      | .error _ => []
  | _, _, _ => []

def logSlotWrites (fuel : Nat) (e : Event) (args : List (Option Text)) (buffer : Text) : List (Write Memory) :=
  (if e.eventDescription.length < maxLogStr then [⟨.evtMsg, e.eventDescription.length + 1⟩] else []) ++
    fillKeysWrites fuel e.numOfKeys.toNat args ⟨evtMsgOf e, [], [], buffer⟩

def logEventWrites (fuel : Nat) (evTable : Option Table) (evName : Text) (args : List (Option Text))
    (buffer : Text) : List (Write Memory) :=
  match evTable, lookup evName evTable with
  | some table, some index => logSlotWrites fuel (table index) args buffer
  | _, _ => []

end EventLog
end OpsSupportability
