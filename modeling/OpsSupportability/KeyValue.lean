import OpsSupportability.EventLog
import OpsSupportability.Lib.Writes

/-! `key_value_string` of `eventlog.c` with its machine integers: lengths are stored in an `int`, and one is compared
    as `unsigned` with a difference of signed ones. With what it returns stand the writes that it makes. -/

namespace OpsSupportability
namespace KeyValue

open EventLog (keyValueSize)
open Writes (Write)

inductive Memory where
  | str
  | str2
  | kvPair
  deriving DecidableEq, Repr

/-- The declared size. -/
def Memory.size : Memory → Nat
  | .str => keyValueSize
  | .str2 => keyValueSize
  | .kvPair => keyValueSize

/-- A length in an `int`. -/
def toInt (n : Nat) : Int := (n : Int).bmod (2 ^ 32)

/-- A number in an `unsigned`. -/
def toUnsigned (n : Int) : Int := n % 2 ^ 32

inductive Returned where
  | null
  | pair (text : Text)
  /-- The memory that was allocated, and has not been written. -/
  | unwritten
  deriving DecidableEq, Repr

structure Outcome where
  returned : Returned
  writes : List (Write Memory)
  /-- The signed difference that the length of the value is compared with, if it is. -/
  compared : Option Int
  deriving DecidableEq, Repr

/-- Writes that were made before. -/
def Outcome.after (o : Outcome) (before : List (Write Memory)) : Outcome := { o with writes := before ++ o.writes }

/-- The right side of the comparison of the value's length, for a key of a size. -/
def room (size : Int) : Int := keyValueSize - (size + 2)

/-- The key in `str`, and the text of its value, formatted into `str2`. -/
def appendValue (str value : Text) : Outcome :=
  let size := toInt str.length
  if keyValueSize - (size + 1) > 0 then
    let tmp := str ++ ['=']
    let str2 := value.take (keyValueSize - 1)
    let before : List (Write Memory) := [⟨.str, str.length + 2⟩, ⟨.str2, str2.length + 1⟩]
    if str2.length > 0 ∧ (str2.length : Int) < toUnsigned (room size) then
      let tmp := tmp ++ str2
      let before := before ++ [⟨.str, tmp.length + 1⟩]
      if 0 < toInt tmp.length ∧ toInt tmp.length < keyValueSize then
        ⟨.pair tmp, before ++ [⟨.kvPair, tmp.length + 1⟩], some (room size)⟩
      else ⟨.unwritten, before, some (room size)⟩
    else ⟨.null, before, some (room size)⟩
  else ⟨.null, [], none⟩

/-- `key_value_string` once the length of the key is in `size`. -/
def keyValueOfSize (size : Int) (s1 value : Text) : Outcome :=
  if 0 < size ∧ size < keyValueSize then
    (appendValue (s1.take size.toNat) value).after [⟨.str, size.toNat⟩, ⟨.str, size.toNat + 1⟩]
  else ⟨.null, [], none⟩

/-- `key_value_string` on a key and the text that the format makes of the value. -/
def keyValueString (s1 value : Text) : Outcome := keyValueOfSize (toInt s1.length) s1 value

end KeyValue
end OpsSupportability
