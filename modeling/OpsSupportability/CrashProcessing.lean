import OpsSupportability.Lib.Fgets
import OpsSupportability.Lib.PyRepr

/-! The crash reports of `ops_supportability.py`: `process_coredumps` looks for new core files when the daemon
    starts, and when the watch on their folder is readable. -/

namespace OpsSupportability
namespace CrashProcessing

def coreFolder : Text := "/var/lib/systemd/coredump/".toList

/-- The path that `glob` answers for a name in the folder. -/
def corePath (name : Text) : Text := coreFolder ++ name

/-- A file name that matches `core*`. -/
def CoreName (name : Text) : Prop := "core".toList <+: name ∧ '/' ∉ name ∧ '\x00' ∉ name

instance (name : Text) : Decidable (CoreName name) := inferInstanceAs (Decidable (_ ∧ _))

/-- The search for a path in the lines of `processed_files`. -/
def coreExisting (text corefile : Text) : Bool := (Fgets.lines text).any fun line => corefile <:+: line

/-- The files on which `post_crash_processing` is called, and `processed_files` afterwards. -/
def processCoredumps (processedFiles : Option Text) (corefileList : List Text) : List Text × Text :=
  let text := processedFiles.getD []
  let new := corefileList.filter fun corefile => !coreExisting text corefile
  (new, if new.isEmpty then text else PyRepr.reprList corefileList)

/-! ### Runs -/

/-- The folder, and what has happened so far. -/
structure State where
  /-- The names of the core files that are there. -/
  folder : List Text
  processedFiles : Option Text
  /-- The names of the core files that have ever been there. -/
  arrived : List Text
  /-- The names of the files for which `processed_files` was written last. -/
  listed : List Text
  /-- The files of the calls of `post_crash_processing`. -/
  reported : List Text
  deriving DecidableEq

def State.init : State := ⟨[], none, [], [], []⟩

inductive Action where
  | arrive (name : Text)
  | remove (name : Text)
  /-- The daemon starts anew, and `supportability_init` calls `process_coredumps`. -/
  | restart (names : List Text)
  /-- `process_coredumps`, as `crashprocessing_run` calls it. -/
  | process (names : List Text)
  deriving DecidableEq

/-- The names in the order of `glob`, when the action calls `process_coredumps`. -/
def Action.globbed : Action → Option (List Text)
  | .restart names | .process names => some names
  | _ => none

def State.process (s : State) (names : List Text) : State :=
  let (new, text) := processCoredumps s.processedFiles (names.map corePath)
  { s with
    processedFiles := some text
    listed := if new.isEmpty then s.listed else names
    reported := s.reported ++ new }

/-- Names are not used again; `glob` answers the files of the folder in some order, and nothing comes between the
    steps of a call. -/
def step (s : State) : Action → Option State
  | .arrive name =>
    if CoreName name ∧ name ∉ s.arrived then
      some { s with folder := name :: s.folder, arrived := name :: s.arrived }
    else none
  | .remove name => if name ∈ s.folder then some { s with folder := s.folder.erase name } else none
  | .restart names | .process names => if names.Perm s.folder then some (s.process names) else none

/-! ### One call in its steps -/

/-- Where a call of `process_coredumps` is, with the names that `glob` has answered. -/
inductive Call where
  /-- In the loop, before the names that are left, with `new_core_dump_found`. -/
  | loop (names left : List Text) (newCoreDumpFound : Bool)
  /-- It has opened `processed_files` for writing, which empties it. -/
  | rewrite (names : List Text)
  deriving DecidableEq, Repr

def Call.names : Call → List Text
  | .loop names _ _ | .rewrite names => names

/-- The call has begun: `processed_files` is there. -/
def State.called (s : State) : State := { s with processedFiles := some (s.processedFiles.getD []) }

/-- The next step of a call; without another one it has returned. What it writes reaches the file as a whole. -/
def State.resume (s : State) : Call → State × Option Call
  | .loop names (name :: left) newCoreDumpFound =>
    if coreExisting (s.processedFiles.getD []) (corePath name) then (s, some (.loop names left newCoreDumpFound))
    else ({ s with reported := s.reported ++ [corePath name] }, some (.loop names left true))
  | .loop names [] true => ({ s with processedFiles := some [], listed := [] }, some (.rewrite names))
  | .loop _ [] false => (s, none)
  | .rewrite names =>
    ({ s with processedFiles := some (PyRepr.reprList (names.map corePath)), listed := names }, none)

end CrashProcessing
end OpsSupportability
