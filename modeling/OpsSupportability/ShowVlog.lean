import OpsSupportability.SupportabilityVty
import OpsSupportability.VlogConfig

/-! `show vlog` on a journal (`show_vlog_vty.c`), and `install_show_vlog` (`supportability_vty.c`), which makes the
    command of the pid files. The journal can be opened and walked, and matches can be added. -/

namespace OpsSupportability
namespace ShowVlog

open ShowEvents (Journald Status getValue orNull sevLevel maxSevs priorityMatches strncat strncpy)
open Columns (column)

/-! ### The journal -/

def bufSize : Nat := 264
def daemonIndex : Nat := 1
def severityIndex : Nat := 0
def messageOvsMatch : Text := "_TRANSPORT=syslog".toList

def snprintf (s : Text) : Text := s.take (bufSize - 1)

/-- The matches that `vlog_filter` adds; `none` is -1. `PRIORITY=` and a level fit into the buffer as they fit into
    that of the events. -/
def vlogFilter (arg : Text) (index : Nat) : Option (List Text) :=
  if index = daemonIndex then some [snprintf ("SYSLOG_IDENTIFIER=".toList ++ arg)]
  else if index = severityIndex then
    match sevLevel arg with
    | some level => if level < maxSevs then some (priorityMatches level) else none
    | none => none
  else none

/-- The first token of `strtok`. -/
def strtok (delim : Char) (s : Text) : Option Text := (Text.tokens delim s).head?

def ovs : Text := "ovs".toList

/-- `%-25.25s|%-200.200s` -/
def line (module msg : Text) : Text := column 25 module ++ '|' :: column 200 msg

/-- What is printed for an entry. -/
def entryLine (journald : Journald) (argv : Option Text) (fields : List Text) : Option Text :=
  let module := (journald.getData "SYSLOG_IDENTIFIER".toList fields).bind getValue
  match (journald.getData "MESSAGE".toList fields).bind getValue with
  | none => none
  | some msg =>
    match argv, module with
    | some argv, some module => if module = argv ∧ strtok '|' msg = some ovs then some (line argv msg) else none
    | _, _ => if strtok '|' msg = some ovs then some (line (orNull module) msg) else none

structure Output where
  status : Status
  header : List Text
  lines : List Text
  trailer : List Text
  deriving DecidableEq, Repr

def showHeader : List Text := [[], List.replicate 51 '-', "show vlog".toList, List.replicate 53 '-']

/-- `cli_show_vlog` on the entries that the handle matches. -/
def cliShowVlog (journald : Journald) (argv : Option Text) (filter : Bool) (selected : List (List Text)) : Output where
  status := .success
  header := showHeader
  lines := selected.filterMap (entryLine journald argv)
  trailer :=
    if selected.isEmpty then
      [if filter then "No match for the filter provided".toList else "No vlog messages logged in the system".toList]
    else []

/-- The matches for an argument. -/
def argFilter (index : Nat) : Option Text → Option (List Text)
  | none => some []
  | some arg => vlogFilter arg index

/-- `cli_platform_show_vlog`, with the severity in `argv[0]` and the daemon in `argv[1]`, as the installed command
    has them. -/
def cliPlatformShowVlog (journald : Journald) (journal : List (List Text)) (severity daemon : Option Text) : Output :=
  match argFilter severityIndex severity, argFilter daemonIndex daemon with
  | some severities, some daemons =>
    cliShowVlog journald daemon (severity.isSome || daemon.isSome)
      (journal.filter (journald.matched (messageOvsMatch :: (severities ++ daemons))))
  | _, _ => ⟨.warning, [], [], ["Failed to filter vlog messages".toList]⟩

/-! ### Installing the command -/

def maxFilenameSize : Nat := 100
def maxVlogCmd : Nat := 200 * 50

def vlogCmd : Text :=
  "show vlog \x7b severity                                  (emer | err | warn | info | debug) | daemon (".toList

def vlogClosing : Text := ")\x7d".toList

def strstr (s pat : Text) : Bool := (Text.cutFirst pat s).isSome

def isPidFile (dName : Text) : Bool := strstr dName "ops".toList && strstr dName ".pid".toList

structure Loop where
  cmd : Text
  install : Bool
  deriving DecidableEq, Repr

/-- The loop over the directory; none is `strncat` of a null pointer. -/
def dirLoop : List Text → Loop → Option Loop
  | [], s => some s
  | dName :: rest, s =>
    if isPidFile dName then
      match strtok '.' (strncpy maxFilenameSize dName) with
      | none => none
      | some ptr => dirLoop rest ⟨strncat maxVlogCmd (strncat maxVlogCmd s.cmd ptr) ['|'], true⟩
    else dirLoop rest s

/-- What is returned, and the string of the element that is installed; no directory cannot be opened. -/
def installShowVlog (dir : Option (List Text)) : Option (Nat × Option Text) :=
  match dir with
  | none => some (1, none)
  | some names =>
    (dirLoop names ⟨strncpy maxVlogCmd vlogCmd, false⟩).map fun s =>
      if s.install then (0, some (strncat maxVlogCmd s.cmd vlogClosing)) else (1, none)

end ShowVlog
end OpsSupportability
