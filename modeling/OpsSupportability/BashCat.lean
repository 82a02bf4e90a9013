import OpsSupportability.Lib.Fgets
import OpsSupportability.Syslog

/-! `exec_showtech_cmd_on_thread`: a command of `show tech`, and `bashcat FILE`, which prints a file. The text of
    a file has no NUL, and `VTY_NEWLINE` is printed as a newline. -/

namespace OpsSupportability
namespace BashCat

open Syslog (CmdStatus)

def readLineSize : Nat := 256
def nul : Char := Char.ofNat 0
def bashCatCmd : Text := "bashcat".toList
def vtyNewline : Text := ['\n']

/-- The array `line`. Nothing is known about its bytes before the first read. -/
structure Line where
  bytes : List Char
  length_eq : bytes.length = readLineSize

/-- The text in the array, up to the first NUL. -/
def Line.text (line : Line) : Text := line.bytes.takeWhile (· ≠ nul)

/-- The byte that is looked at after a read. -/
def Line.last (line : Line) : Option Char := line.bytes[readLineSize - 2]?

/-- A read puts a text and a NUL at the beginning of the array, and leaves the bytes after them. -/
def Line.store (line : Line) (chunk : Text) (h : chunk.length ≤ readLineSize - 1) : Line where
  bytes := chunk ++ nul :: line.bytes.drop (chunk.length + 1)
  length_eq := by
    rw [List.length_append, List.length_cons, List.length_drop, line.length_eq]
    rw [readLineSize] at h ⊢
    omega

def Line.cut (line : Line) : Line where
  bytes := line.bytes.set (readLineSize - 2) nul
  length_eq := (List.length_set ..).trans line.length_eq

/-- The loop of `bashcat` over what is left of the file, with the texts that it prints. -/
def catLoop (line : Line) (content : Text) : List Text :=
  match content with
  | [] => []
  | c :: s =>
    let chunk := Fgets.read (readLineSize - 1) (c :: s)
    let line := line.store chunk.1 (Fgets.length_read_le _ _)
    if line.last = some '\n' then
      line.cut.text :: vtyNewline :: line.cut.text :: catLoop line.cut chunk.2
    else line.text :: catLoop line chunk.2
  termination_by content.length
  decreasing_by all_goals exact Fgets.length_rest_lt c s

structure Env where
  /-- The content of a file that `fopen` opens. -/
  readable : Text → Option Text
  /-- `vtysh_execute`, with what it prints. -/
  vtyshExecute : Text → CmdStatus × List Text

/-- The status of a command and what it prints, with what `line` holds before. -/
def execShowtechCmdOnThread (env : Env) (line : Line) (cmd : Option Text) : CmdStatus × List Text :=
  match cmd with
  | none => (.warning, [])
  | some cmd =>
    let trimCmd := cmd.dropWhile Text.isSpace
    if trimCmd = [] then (.warning, ["Invalid command".toList ++ vtyNewline])
    else if trimCmd.take bashCatCmd.length = bashCatCmd then
      let trimCmd := (trimCmd.drop bashCatCmd.length).dropWhile Text.isSpace
      if trimCmd = [] then (.warning, ["Invalid file name".toList ++ vtyNewline])
      else
        match env.readable trimCmd with
        | none => (.warning, ["File ".toList ++ trimCmd ++ " is not readable".toList ++ vtyNewline])
        | some content => (.success, catLoop line content ++ [vtyNewline])
    else env.vtyshExecute trimCmd

end BashCat
end OpsSupportability
