import OpsSupportability.DiagDump

/-! The commands that store what they print in a file of the user's choice: `cli_show_tech_file` of `show tech`, and
    the file of `vtysh_diag_dump_show`. What is stored comes from elsewhere. -/

namespace OpsSupportability
namespace OutputFile

open Syslog (CmdStatus)

/-! ### `show tech` -/

/-- The error of `open`. -/
inductive Errno where
  | eexist
  | enoent
  | eacces
  | other (number : Int)
  deriving DecidableEq, Repr

structure Env where
  /-- `open` of a path, with `O_TRUNC` or with `O_EXCL`: the error, if there is one. -/
  openFile : Text → Bool → Option Errno
  strerror : Int → Text
  /-- `vty->obuf` after `cli_show_tech` of a feature or of all, and what `buffer_getstr` makes of it; each may be a
      null pointer. -/
  obuf : Option Text → Option (Option Text)
  /-- `write` succeeds. -/
  writes : Bool

structure FileResult where
  status : CmdStatus
  lines : List Text
  /-- The path that `open` is called with, and whether to overwrite a file. -/
  opened : Option (Text × Bool)
  /-- What is in the file then. -/
  stored : Option Text
  deriving DecidableEq, Repr

def charbuf : Nat := 160

/-- `filename` with the name in it. -/
def filenameOf (fname : Text) : Text := "/tmp/".toList ++ fname

def openFailure (env : Env) (filename : Text) : Errno → Text
  | .eexist =>
    filename ++ " already exists, please give different name or use force option to overwrite existing file".toList
  | .enoent => "Permission denied: can't create file ".toList ++ filename
  | .eacces => "Permission denied: can't create file ".toList ++ filename
  | .other number => "File creation error(".toList ++ Text.decimal number ++ ") : ".toList ++ env.strerror number

/-- `cli_show_tech_file` once the file is open. -/
def storeOutput (env : Env) (filename : Text) (feature : Option Text) (force : Bool) : FileResult :=
  match env.obuf feature with
  | none => ⟨.warning, ["Show Tech execution failed".toList], some (filename, force), some []⟩
  | some none => ⟨.success, ["Show Tech execution failed".toList], some (filename, force), some []⟩
  | some (some outputbuf) =>
    if !env.writes then
      ⟨.success, ["Show Tech execution failed to store in file".toList], some (filename, force), some []⟩
    else
      ⟨.success, ["Show Tech output stored in file ".toList ++ filename], some (filename, force), some outputbuf⟩

def cliShowTechFile (env : Env) (fname feature : Option Text) (force : Bool) : FileResult :=
  match fname with
  | none => ⟨.warning, ["Output file name not found".toList], none, none⟩
  | some fname =>
    if fname.length > charbuf - 11 then
      ⟨.warning, ["File name should be less then 150 characters".toList], none, none⟩
    else
      let filename := filenameOf fname
      match env.openFile filename force with
      | some errno => ⟨.warning, [openFailure env filename errno], some (filename, force), none⟩
      | none => storeOutput env filename feature force

/-! ### `diag-dump` -/

/-- `file_path` with the name in it. -/
def filePathOf (file : Text) : Text := (DiagDump.diagDumpDir ++ '/' :: file).take 255

/-- The path that `vtysh_diag_dump_show` calls `open` with. -/
def diagDumpOpened (env : DiagDump.Env) (name : Text) (file : Option Text) : Option Text :=
  if !env.signals then none
  else match env.featureMapping with
  | none => none
  | some features =>
    match features.find? (·.name == name), file with
    | some _, some file =>
      if !Regex.accepts DiagDump.diagFileNameRegex file then none
      else if !env.directory then none
      else some (filePathOf file)
    | _, _ => none

/-! ### The commands -/

/-- A command with its other arguments. -/
inductive Command where
  | showTech (feature : Option Text) (force : Bool)
  | diagDump (feature : Text)
  deriving DecidableEq, Repr

/-- Where its files are to be. -/
def Command.directory : Command → Text
  | .showTech _ _ => "/tmp".toList
  | .diagDump _ => DiagDump.diagDumpDir

/-- The command on a file name may call `open` with the path. -/
def Command.Opens (c : Command) (file path : Text) : Prop :=
  match c with
  | .showTech feature force => ∃ env, (cliShowTechFile env (some file) feature force).opened = some (path, force)
  | .diagDump feature => ∃ env, diagDumpOpened env feature (some file) = some path

end OutputFile
end OpsSupportability
