import OpsSupportability.CoreDump
import OpsSupportability.Lib.Writes

/-! The places that `extract_info` writes to for a daemon core: the members of `core_dump_data`, and the local
    arrays of the function and of `convert_to_date_and_time`. -/

namespace OpsSupportability
namespace CoreDump

open Writes (Write)

inductive Memory where
  | daemonName
  | crashDate
  | crashTime
  | crashSignal
  | crashInstanceId
  | value
  | dateString
  | timeString
  /-- `datestring` and `timestring` of `convert_to_date_and_time`. -/
  | datestring
  | timestring
  deriving DecidableEq, Repr

/-- The declared size. -/
def Memory.size : Memory → Nat
  | .daemonName => daemonNameSize + 1
  | .crashDate => dateStrSize + 1
  | .crashTime => timeStrSize + 1
  | .crashSignal => signalStrSize + 1
  | .crashInstanceId => instanceIdSize + 1
  | .value => sizeDateAndTime + 1
  | .dateString => dateStrSize
  | .timeString => timeStrSize
  | .datestring => dateStrSize
  | .timestring => timeStrSize

/-- The value of an attribute and the NUL behind it, or the characters from the group on, and a NUL behind the
    group and at the end; with neither, the field is made empty. -/
def fieldWrites (env : Env) (file name : Text) (memory : Memory) (size : Nat) (group : Option Text) :
    List (Write Memory) :=
  match getxattr env file name size with
  | some value => [⟨memory, value.length⟩, ⟨memory, (if size < value.length then size else value.length) + 1⟩]
  | none =>
    match group with
    | some group => [⟨memory, size⟩, ⟨memory, group.length + 1⟩, ⟨memory, size + 1⟩]
    | none => [⟨memory, 1⟩]

def convertToDateAndTimeWrites (str : Text) : List (Write Memory) :=
  if minSize ≤ str.length then
    [⟨.timestring, timeStrSize⟩, ⟨.datestring, dateStrSize⟩, ⟨.dateString, dateStrSize⟩, ⟨.timeString, timeStrSize⟩]
  else []

/-- The date and the time, when there is a time stamp. -/
def dateWrites (value : Text) : List (Write Memory) :=
  if value.isEmpty then [⟨.crashDate, 1⟩, ⟨.crashTime, 1⟩]
  else
    convertToDateAndTimeWrites value ++
      [⟨.crashDate, dateStrSize - 1⟩, ⟨.crashDate, dateStrSize + 1⟩, ⟨.crashTime, timeStrSize - 1⟩,
        ⟨.crashTime, timeStrSize + 1⟩]

/-- The function returns where a field is in neither the attributes nor the name. -/
def extractDaemonWrites (env : Env) (pattern : List Capture.Atom) (file : Text) : List (Write Memory) :=
  let found := Capture.search pattern file
  let group (index : Nat) : Option Text := found.bind fun (groups, _) => groups[index]?
  let missing (name : Text) (size index : Nat) : Bool := (attributeOrGroup env file name size found index).isNone
  if missing "user.coredump.comm".toList daemonNameSize 0 then []
  else
    fieldWrites env file "user.coredump.comm".toList .daemonName daemonNameSize (group 0) ++
      fieldWrites env file "user.coredump.signal".toList .crashSignal signalStrSize none ++
      if missing "user.coredump.pid".toList instanceIdSize 3 then []
      else
        fieldWrites env file "user.coredump.pid".toList .crashInstanceId instanceIdSize (group 3) ++
          match attributeOrGroup env file "user.coredump.timestamp".toList sizeDateAndTime found 4 with
          | none => []
          | some value =>
            fieldWrites env file "user.coredump.timestamp".toList .value sizeDateAndTime (group 4) ++ dateWrites value

end CoreDump
end OpsSupportability
