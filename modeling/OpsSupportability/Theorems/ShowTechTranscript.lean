import OpsSupportability.Theorems.ShowTech

/-! What `show tech` prints: the blocks of what it is to show, one after the other, up to the command at which the run
    is stopped. -/

namespace OpsSupportability
namespace ShowTech

/-! ### Blocks -/

inductive Block where
  | feature (mark : Text) (name : Option Text)
  | subFeature (mark : Text) (name : Option Text)
  | command (c : CliCmd)

def SubFeature.banner (sub : SubFeature) (mark : Text) : List Block :=
  if sub.isDummy then [] else [.subFeature mark sub.name]

def Block.commands : Block → List CliCmd
  | .feature _ _ => []
  | .subFeature _ _ => []
  | .command c => [c]

def blockCommands (bs : List Block) : List CliCmd := bs.flatMap Block.commands

/-- What a block prints that begins when `n` commands have been run. -/
def Block.lines (env : Env) (n : Nat) : Block → List Text
  | .feature mark name => featureBanner mark name
  | .subFeature mark name => subFeatureBanner mark name
  | .command c => commandHeader c.command ++ if env.failed n then commandFailure c.command else []

def transcript (env : Env) : Nat → List Block → List Text
  | _, [] => []
  | n, b :: bs => b.lines env n ++ transcript env (n + b.commands.length) bs

variable {env : Env} {copy : Copy} {head head' : List Feature} {s t : Shown} {bs : List Block}

theorem blockCommands_cons (b : Block) (bs : List Block) :
    blockCommands (b :: bs) = b.commands ++ blockCommands bs := List.flatMap_cons

theorem blockCommands_append (bs bs' : List Block) :
    blockCommands (bs ++ bs') = blockCommands bs ++ blockCommands bs' := List.flatMap_append

theorem transcript_append (n : Nat) (bs bs' : List Block) :
    transcript env n (bs ++ bs') = transcript env n bs ++ transcript env (n + (blockCommands bs).length) bs' := by
  induction bs generalizing n with
  | nil => rfl
  | cons b bs ih =>
    rw [List.cons_append, transcript, transcript, ih, List.append_assoc, blockCommands_cons, List.length_append,
      Nat.add_assoc]

/-! ### The commands of the blocks -/

/-- The blocks have been shown. -/
structure Printed (env : Env) (bs : List Block) (s t : Shown) : Prop where
  visited : t.visited = s.visited + (blockCommands bs).length
  out : t.out = s.out ++ transcript env s.visited bs

theorem Printed.nil (h : t.visited = s.visited) (hout : t.out = s.out) : Printed env [] s t where
  visited := h
  out := hout.trans (List.append_nil _).symm

theorem Printed.trans {bs' : List Block} {u : Shown} (h : Printed env bs s t) (h' : Printed env bs' t u) :
    Printed env (bs ++ bs') s u where
  visited := by rw [h'.visited, h.visited, blockCommands_append, List.length_append, Nat.add_assoc]
  out := by rw [h'.out, h.out, h.visited, transcript_append, List.append_assoc]

/-- The blocks of a command at which the run is stopped: it has been run, or not. -/
def lastBlocks (env : Env) (copy : Copy) (n : Nat) (c : CliCmd) : List Block :=
  if copy.checksBefore && env.stops copy (2 * n) then [] else [.command c]

/-- The report about commands that have failed. -/
def reportLines (failed : List Text) : List Line :=
  if failed = [] then texts [[], equals, "Show Tech commands executed successfully".toList, equals]
  else
    texts [[], equals] ++ .failures failed.length :: texts [equals, failureTitle failed.length] ++
      (failed.zipIdx 1).map fun (command, k) => .failed k command

theorem report_eq {count : Nat} {failed : List Text} (hflagged : (flagged (commands head)).map CliCmd.command = failed)
    (hcount : count = failed.length) : (report head count).2 = reportLines failed := by
  have hnumbered : numbered 1 (flagged (commands head)) =
      (failed.zipIdx 1).map fun (command, k) => .failed k command := by
    rw [numbered, ← hflagged, List.zipIdx_map, List.map_map]
    rfl
  rw [report, reportLines, hcount]
  split
  · next hne =>
    rw [if_neg fun hnil => hne (congrArg List.length hnil)]
    dsimp only
    rw [printFailedCommands_snd, hnumbered]
  · next hzero => rw [if_pos (List.eq_nil_of_length_eq_zero (not_not.mp hzero))]

/-- The last line of a run that has run `n` commands. -/
def terminated (env : Env) (n : Nat) : List Text :=
  if env.userInterrupt (2 * n) then ["USER INTERRUPT:Show tech terminated".toList] else []

/-! ### The console -/

theorem Printed.start (h : Printed env bs (.initial env) s) :
    s.out = startLines env.started ++ transcript env 0 bs := h.out

theorem Printed.terminated (h : Printed env bs (.initial env) s) :
    interruptLines env s = ShowTech.terminated env (blockCommands bs).length := by
  rw [interruptLines, h.visited, ShowTech.terminated, Shown.initial, Nat.zero_add]

/-- The blocks that a run shows when it is stopped at a command. -/
def Run.shown (run : Run) (pre : List Block) (c : CliCmd) : List Block :=
  pre ++ lastBlocks run.env (copyOf run.feature run.subFeature) (blockCommands pre).length c

end ShowTech
end OpsSupportability
