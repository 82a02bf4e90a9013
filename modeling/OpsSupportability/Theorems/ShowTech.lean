import OpsSupportability.ShowTech

/-! The failures of `show tech` over the runs of a process. A run reports exactly its own failures as long
    as it finds all flags clear, and it leaves them clear unless it is stopped after a command has failed. -/

namespace OpsSupportability
namespace ShowTech

variable {env : Env} {head head' : List Feature} {cmds : List CliCmd} {n count : Nat}

/-! ### The commands of a configuration -/

def Feature.commands (f : Feature) : List CliCmd := f.subFeatures.flatMap SubFeature.cliCmds

def commands (head : List Feature) : List CliCmd := head.flatMap Feature.commands

/-- The flags are all 0. -/
def AllClear (head : List Feature) : Prop := ∀ c ∈ commands head, c.commandFailed = false

instance : Decidable (AllClear head) := inferInstanceAs (Decidable (∀ c ∈ commands head, c.commandFailed = false))

def CliCmd.cleared (c : CliCmd) : CliCmd := { c with commandFailed := false }

def SubFeature.cleared (sub : SubFeature) : SubFeature := { sub with cliCmds := sub.cliCmds.map CliCmd.cleared }

def Feature.cleared (f : Feature) : Feature := { f with subFeatures := f.subFeatures.map SubFeature.cleared }

theorem cleared_of_clear (h : ∀ c ∈ cmds, c.commandFailed = false) : cmds.map CliCmd.cleared = cmds := by
  refine (List.map_congr_left fun c hc => ?_).trans (List.map_id cmds)
  rw [CliCmd.cleared, ← h c hc]
  rfl

theorem AllClear.cleared (h : AllClear head) : head.map Feature.cleared = head := by
  refine (List.map_congr_left fun f hf => ?_).trans (List.map_id head)
  have hsubs : f.subFeatures.map SubFeature.cleared = f.subFeatures := by
    refine (List.map_congr_left fun sub hsub => ?_).trans (List.map_id _)
    rw [SubFeature.cleared, cleared_of_clear fun c hc =>
      h c (List.mem_flatMap_of_mem hf (List.mem_flatMap_of_mem hsub hc))]
    rfl
  rw [Feature.cleared, hsubs]
  rfl

/-- The commands of a request: of all features, of the first feature of the name, or of its sub-feature. -/
def selected (head : List Feature) (feature subFeature : Option Text) : List CliCmd :=
  match feature, subFeature with
  | none, _ => commands head
  | some feature, none => ((head.find? fun f => named f.name feature).map Feature.commands).getD []
  | some feature, some subFeature =>
    ((head.findSome? fun f =>
      if named f.name feature then f.subFeatures.find? fun sub => !sub.isDummy && named sub.name subFeature
      else none).map SubFeature.cliCmds).getD []

/-! ### What a run must report -/

/-- The `n`-th command and those after it that fail. -/
def failing (env : Env) (n : Nat) (cmds : List CliCmd) : List Text :=
  ((cmds.zipIdx n).filter fun (_, k) => env.failed k).map fun (c, _) => c.command

def reported (out : List Line) : Option Nat :=
  out.findSome? fun
    | .failures count => some count
    | _ => none

/-- What `print_failed_commands` lists. -/
def listed (out : List Line) : List Text :=
  out.filterMap fun
    | .failed _ command => some command
    | _ => none

/-- A request of the command, and what happens while it runs. -/
structure Run where
  env : Env
  feature : Option Text
  subFeature : Option Text

def Run.result (run : Run) (head : List Feature) : Result := cliShowTech run.env head run.feature run.subFeature

/-- The report of the run, where there is one, is about the commands that have failed in this run. -/
def Run.RightReport (run : Run) (head : List Feature) : Prop :=
  ∀ count ∈ reported (run.result head).out,
    count = (listed (run.result head).out).length ∧
      listed (run.result head).out = failing run.env 0 (selected head run.feature run.subFeature)

instance (run : Run) : Decidable (run.RightReport head) :=
  inferInstanceAs (Decidable (∀ count ∈ reported (run.result head).out, _))

/-- Every run of the sequence reports its own failures and returns with all flags clear. -/
def Accounted (head : List Feature) : List Run → Prop
  | [] => True
  | run :: runs =>
    run.RightReport head ∧ AllClear (run.result head).config ∧ Accounted (run.result head).config runs

/-- The copy of the loop that a request takes. -/
def copyOf (feature subFeature : Option Text) : Copy :=
  match feature, subFeature with
  | none, _ => .all
  | some _, none => .feature
  | some _, some _ => .subFeature

/-- The run is stopped at its `n`-th command. -/
def Env.stopsAt (env : Env) (copy : Copy) (n : Nat) : Bool :=
  (copy.checksBefore && env.stops copy (2 * n)) || env.stops copy (2 * n + 1)

def Run.StopsFirstAt (run : Run) (n : Nat) : Prop :=
  run.env.stopsAt (copyOf run.feature run.subFeature) n = true ∧
    ∀ m < n, run.env.stopsAt (copyOf run.feature run.subFeature) m = false

/-- Where the run is stopped, no command before has failed. -/
def Run.StopsClean (run : Run) (head : List Feature) : Prop :=
  run.env.signals = true → ∀ n < (selected head run.feature run.subFeature).length, run.StopsFirstAt n →
    ∀ m < n, run.env.failed m = false

/-! ### One loop over the commands -/

/-- The state of a run without its output. -/
structure Progress where
  visited : Nat
  failureCount : Nat
  stopped : Bool

def Shown.progress (s : Shown) : Progress := ⟨s.visited, s.failureCount, s.stopped⟩

def runCommand (env : Env) (copy : Copy) (c : CliCmd) (p : Progress) : CliCmd × Progress :=
  let failures := if env.failed p.visited then p.failureCount + 1 else p.failureCount
  if copy.checksBefore && env.stops copy (2 * p.visited) then (c, { p with stopped := true })
  else if env.stops copy (2 * p.visited + 1) then (c.cleared, ⟨p.visited + 1, failures, true⟩)
  else
    (if env.failed p.visited then { c with commandFailed := true } else c, ⟨p.visited + 1, failures, p.stopped⟩)

section
variable {copy : Copy}

theorem Shown.progress_initial (env : Env) : (Shown.initial env).progress = ⟨0, 0, false⟩ := rfl

@[simp] theorem Shown.progress_print (s : Shown) (lines : List Text) : (s.print lines).progress = s.progress := rfl

@[simp] theorem Shown.progress_end (s : Shown) (lines : List Text) :
    (if s.stopped then s else s.print lines).progress = s.progress := by
  split <;> rfl

theorem showCommand_eq (c : CliCmd) (s : Shown) :
    ((showCommand env copy c s).1, (showCommand env copy c s).2.progress) = runCommand env copy c s.progress := by
  unfold showCommand runCommand Shown.progress
  dsimp only
  split
  · rfl
  · cases env.failed s.visited <;> cases env.stops copy (2 * s.visited + 1) <;> rfl

/-- The loop over a list of commands, as one of the three copies runs it. -/
abbrev runAll (env : Env) (copy : Copy) (cmds : List CliCmd) (p : Progress) : List CliCmd × Progress :=
  Loop.walk Progress.stopped (runCommand env copy) cmds p

theorem walk_showCommand (cmds : List CliCmd) (s : Shown) :
    ((Loop.walk Shown.stopped (showCommand env copy) cmds s).1,
      (Loop.walk Shown.stopped (showCommand env copy) cmds s).2.progress) = runAll env copy cmds s.progress := by
  have hstop : ∀ s : Shown, s.progress.stopped = s.stopped := fun _ => rfl
  exact Loop.walk_proj hstop showCommand_eq cmds s

theorem showSubFeature_eq (sub : SubFeature) (s : Shown) :
    ((showSubFeature env copy sub s).1.cliCmds, (showSubFeature env copy sub s).2.progress) =
      runAll env copy sub.cliCmds s.progress := by
  rw [showSubFeature]
  dsimp only
  rw [Shown.progress_end, walk_showCommand, Shown.progress_print]

theorem walk_showSubFeature (subs : List SubFeature) (s : Shown) (hs : s.stopped = false) :
    ((Loop.walk Shown.stopped (showSubFeature env copy) subs s).1.flatMap SubFeature.cliCmds,
      (Loop.walk Shown.stopped (showSubFeature env copy) subs s).2.progress) =
        runAll env copy (subs.flatMap SubFeature.cliCmds) s.progress := by
  have hstop : ∀ s : Shown, s.progress.stopped = s.stopped := fun _ => rfl
  exact Loop.walk_flatMap hstop (fun sub s _ => showSubFeature_eq sub s) subs hs

theorem showFeature_eq (f : Feature) (s : Shown) (hs : s.stopped = false) :
    ((showFeature env copy f s).1.commands, (showFeature env copy f s).2.progress) =
      runAll env copy f.commands s.progress := by
  rw [showFeature]
  dsimp only
  rw [Shown.progress_end, Feature.commands,
    walk_showSubFeature f.subFeatures (s.print (featureBanner beginMark f.name)) hs,
    Shown.progress_print, Feature.commands]

theorem walk_showFeature (head : List Feature) (s : Shown) (hs : s.stopped = false) :
    (commands (Loop.walk Shown.stopped (showFeature env copy) head s).1,
      (Loop.walk Shown.stopped (showFeature env copy) head s).2.progress) =
        runAll env copy (commands head) s.progress := by
  have hstop : ∀ s : Shown, s.progress.stopped = s.stopped := fun _ => rfl
  exact Loop.walk_flatMap hstop showFeature_eq head hs

/-! ### Where it stops -/

/-- The flags of commands that have all been run. -/
def marked (env : Env) (n : Nat) (cmds : List CliCmd) : List CliCmd :=
  (cmds.zipIdx n).map fun (c, k) => { c with commandFailed := env.failed k }

theorem failing_cons (c : CliCmd) (cmds : List CliCmd) :
    failing env n (c :: cmds) = failing env n [c] ++ failing env (n + 1) cmds := by
  cases h : env.failed n <;> simp [failing, h]

theorem marked_cons (c : CliCmd) :
    marked env n (c :: cmds) = { c with commandFailed := env.failed n } :: marked env (n + 1) cmds := by
  simp [marked]

theorem runCommand_going (count : Nat) {c : CliCmd} (hc : c.commandFailed = false)
    (hgoing : env.stopsAt copy n = false) :
    runCommand env copy c ⟨n, count, false⟩ =
      ({ c with commandFailed := env.failed n }, ⟨n + 1, count + (failing env n [c]).length, false⟩) := by
  obtain ⟨hbefore, hafter⟩ := Bool.or_eq_false_iff.mp hgoing
  obtain ⟨command, flag⟩ := c
  obtain rfl : flag = false := hc
  simp only [runCommand, hbefore, hafter, Bool.false_eq_true, if_false]
  cases hfailed : env.failed n <;> simp [failing, hfailed]

theorem runAll_going (count : Nat) (hclear : ∀ c ∈ cmds, c.commandFailed = false)
    (hgoing : ∀ k, n ≤ k → k < n + cmds.length → env.stopsAt copy k = false) :
    runAll env copy cmds ⟨n, count, false⟩ =
      (marked env n cmds, ⟨n + cmds.length, count + (failing env n cmds).length, false⟩) := by
  induction cmds generalizing n count with
  | nil => rfl
  | cons c cmds ih =>
    have hc := runCommand_going count (hclear c List.mem_cons_self) (hgoing n (Nat.le_refl n) (by simp))
    have hrest := ih (count + (failing env n [c]).length)
      (fun c hc => hclear c (List.mem_cons_of_mem _ hc)) fun k hle hlt =>
        hgoing k (Nat.le_of_succ_le hle) (by rw [List.length_cons]; omega)
    rw [runAll] at hrest ⊢
    have hlen : (failing env n (c :: cmds)).length =
        (failing env n [c]).length + (failing env (n + 1) cmds).length := by
      rw [failing_cons c cmds, List.length_append]
    rw [Loop.walk_cons_of_going (by rw [hc]), hc, hrest, marked_cons, hlen, List.length_cons, Nat.add_assoc count,
      Nat.succ_add_eq_add_succ]

/-- A run that is stopped leaves the flags of the commands before. -/
theorem runAll_stopped {pre post : List CliCmd} {c : CliCmd}
    (hclear : ∀ c' ∈ pre ++ c :: post, c'.commandFailed = false)
    (hgoing : ∀ k, n ≤ k → k < n + pre.length → env.stopsAt copy k = false)
    (hstop : env.stopsAt copy (n + pre.length) = true) :
    (runAll env copy (pre ++ c :: post) ⟨n, count, false⟩).1 = marked env n pre ++ c :: post ∧
      (runAll env copy (pre ++ c :: post) ⟨n, count, false⟩).2.stopped = true := by
  have hpre := runAll_going count (fun c' hc' => hclear c' (List.mem_append_left _ hc')) hgoing
  have hc : c.cleared = c := by
    rw [CliCmd.cleared, ← hclear c (List.mem_append_right _ List.mem_cons_self)]
  have hlast : ∀ p : Progress, p.visited = n + pre.length → (runCommand env copy c p).1 = c ∧
      (runCommand env copy c p).2.stopped = true := by
    intro p hp
    rw [Env.stopsAt, ← hp, Bool.or_eq_true] at hstop
    rw [runCommand]
    split
    · exact ⟨rfl, rfl⟩
    · next hbefore =>
      rw [if_pos (hstop.resolve_left hbefore)]
      exact ⟨hc, rfl⟩
  rw [runAll] at hpre ⊢
  obtain ⟨hsame, hdone⟩ :=
    hlast (Loop.walk Progress.stopped (runCommand env copy) pre ⟨n, count, false⟩).2 (by rw [hpre])
  rw [Loop.walk_append_of_going (by rw [hpre]), Loop.walk_cons_of_stopped hdone, hsame, hpre]
  exact ⟨rfl, hpre ▸ hdone⟩

end

/-! ### The commands of a request -/

/-- The commands of a request stand together in the configuration, and the run is one loop over them. -/
structure OneLoop (env : Env) (copy : Copy) (cmds : List CliCmd) (head head' : List Feature) (p p' : Progress) :
    Prop where
  loop : ∃ pre cmds' post, commands head = pre ++ cmds ++ post ∧ commands head' = pre ++ cmds' ++ post ∧
    (cmds', p') = runAll env copy cmds p
  cleared : head'.map Feature.cleared = head.map Feature.cleared

section
variable {copy : Copy}

theorem showCommand_cleared (c : CliCmd) (s : Shown) : (showCommand env copy c s).1.cleared = c.cleared := by
  unfold showCommand
  dsimp only
  split
  · rfl
  · cases env.failed s.visited <;> cases env.stops copy (2 * s.visited + 1) <;> rfl

theorem showSubFeature_cleared (sub : SubFeature) (s : Shown) :
    (showSubFeature env copy sub s).1.cleared = sub.cleared := by
  rw [showSubFeature, SubFeature.cleared]
  dsimp only
  rw [Loop.walk_map showCommand_cleared]
  rfl

theorem showFeature_cleared (f : Feature) (s : Shown) : (showFeature env copy f s).1.cleared = f.cleared := by
  rw [showFeature, Feature.cleared]
  dsimp only
  rw [Loop.walk_map showSubFeature_cleared]
  rfl

end

theorem map_splice {α β : Type} {g : α → β} {pre post : List α} {a a' : α} (h : g a' = g a) :
    (pre ++ a' :: post).map g = (pre ++ a :: post).map g := by
  rw [List.map_append, List.map_append, List.map_cons, List.map_cons, h]

/-- The changed feature in its place. -/
theorem OneLoop.splice {copy : Copy} {f f' : Feature} {pre post : List Feature} {p p' : Progress}
    (hloop : ∃ pre cmds' post, f.commands = pre ++ cmds ++ post ∧ f'.commands = pre ++ cmds' ++ post ∧
      (cmds', p') = runAll env copy cmds p)
    (hcleared : f'.cleared = f.cleared) : OneLoop env copy cmds (pre ++ f :: post) (pre ++ f' :: post) p p' where
  loop := by
    obtain ⟨before, cmds', after, hf, hf', hrun⟩ := hloop
    refine ⟨commands pre ++ before, cmds', after ++ commands post, ?_, ?_, hrun⟩
    · simp [commands, hf]
    · simp [commands, hf']
  cleared := map_splice hcleared

section
variable {feature subFeature : Text} {s s' : Shown}

theorem showNamedFeature_eq_none {f : Feature} (h : showNamedFeature env feature f s = none) :
    named f.name feature = false := by
  rw [showNamedFeature] at h
  simpa using h

theorem showNamedSubFeature_eq_none {sub : SubFeature} (h : showNamedSubFeature env subFeature sub s = none) :
    (!sub.isDummy && named sub.name subFeature) = false := by
  rw [showNamedSubFeature] at h
  exact Bool.eq_false_iff.mpr (by simpa using h)

theorem showSubFeatureOf_eq_none {f : Feature} (h : showSubFeatureOf env feature subFeature f s = none) :
    (if named f.name feature then f.subFeatures.find? fun sub => !sub.isDummy && named sub.name subFeature
      else none) = none := by
  rw [showSubFeatureOf] at h
  split at h
  · next hname =>
    rw [if_pos hname, List.find?_eq_none]
    intro sub hsub
    have hnone := Loop.firstOf_eq_none.mp (Option.map_eq_none_iff.mp h) sub hsub
    exact Bool.not_eq_true _ ▸ showNamedSubFeature_eq_none hnone
  · next hname => rw [if_neg hname]

theorem oneLoop_feature (hs : s.stopped = false)
    (h : Loop.firstOf (showNamedFeature env feature) head s = some (head', s')) :
    OneLoop env .feature (selected head (some feature) none) head head' s.progress s'.progress := by
  obtain ⟨pre, f, f', post, rfl, rfl, hf, hpre⟩ := Loop.firstOf_eq_some h
  rw [showNamedFeature] at hf
  split at hf
  · next hname =>
    obtain ⟨hf', hs'⟩ := Prod.ext_iff.mp (Option.some.inj hf)
    have hfind : (pre ++ f :: post).find? (fun f => named f.name feature) = some f :=
      List.find?_eq_some_iff_append.mpr ⟨hname, pre, post, rfl, fun g hg => by
        rw [showNamedFeature_eq_none (hpre g hg)]
        rfl⟩
    have hcmds : selected (pre ++ f :: post) (some feature) none = f.commands := by
      rw [selected, hfind]
      rfl
    rw [hcmds, ← show _ = f' from hf', ← show _ = s' from hs']
    exact OneLoop.splice ⟨[], _, [], by simp, by simp, showFeature_eq f s hs⟩ (showFeature_cleared f s)
  · cases hf

theorem oneLoop_subFeature
    (h : Loop.firstOf (showSubFeatureOf env feature subFeature) head s = some (head', s')) :
    OneLoop env .subFeature (selected head (some feature) (some subFeature)) head head' s.progress s'.progress := by
  obtain ⟨pre, f, f', post, rfl, rfl, hf, hpre⟩ := Loop.firstOf_eq_some h
  rw [showSubFeatureOf] at hf
  split at hf
  · next hname =>
    obtain ⟨⟨subs', t⟩, hsubs, hf'⟩ := Option.map_eq_some_iff.mp hf
    obtain ⟨hf', ht⟩ := Prod.mk.inj hf'
    obtain ⟨before, sub, sub', after, hbefore, rfl, hsub, hfirst⟩ := Loop.firstOf_eq_some hsubs
    rw [showNamedSubFeature] at hsub
    split at hsub
    · next hsubname =>
      obtain ⟨hsub', hs'⟩ := Prod.ext_iff.mp (Option.some.inj hsub)
      have hfind : f.subFeatures.find? (fun sub => !sub.isDummy && named sub.name subFeature) = some sub := by
        rw [hbefore]
        exact List.find?_eq_some_iff_append.mpr ⟨hsubname, before, after, rfl, fun g hg => by
          rw [showNamedSubFeature_eq_none (hfirst g hg)]
          rfl⟩
      have hcmds : selected (pre ++ f :: post) (some feature) (some subFeature) = sub.cliCmds := by
        rw [selected, List.findSome?_eq_some_iff.mpr ⟨pre, f, post, rfl, by rw [if_pos hname, hfind], fun g hg =>
          showSubFeatureOf_eq_none (hpre g hg)⟩]
        rfl
      rw [hcmds, ← hf', ← ht, ← show _ = sub' from hsub', ← show _ = t from hs']
      refine OneLoop.splice ⟨before.flatMap SubFeature.cliCmds, _, after.flatMap SubFeature.cliCmds, ?_, ?_,
        showSubFeature_eq sub s⟩ ?_
      · simp [Feature.commands, hbefore]
      · simp [Feature.commands]
      · rw [Feature.cleared, Feature.cleared, hbefore, map_splice (showSubFeature_cleared sub s)]
    · cases hsub
  · cases hf

end

theorem showSelected_oneLoop {feature subFeature : Option Text} {s s' : Shown} (hs : s.stopped = false)
    (h : showSelected env head feature subFeature s = some (head', s')) :
    OneLoop env (copyOf feature subFeature) (selected head feature subFeature) head head' s.progress s'.progress := by
  cases feature with
  | none =>
    obtain ⟨rfl, rfl⟩ := Prod.mk.inj (Option.some.inj h)
    exact ⟨⟨[], _, [], by simp [selected], by simp, walk_showFeature head s hs⟩,
      Loop.walk_map showFeature_cleared head s⟩
  | some feature =>
    cases subFeature with
    | none => exact oneLoop_feature hs h
    | some subFeature => exact oneLoop_subFeature h

theorem selected_of_none {feature subFeature : Option Text} {s : Shown}
    (h : showSelected env head feature subFeature s = none) : selected head feature subFeature = [] := by
  cases feature with
  | none => cases h
  | some feature =>
    cases subFeature with
    | none =>
      have hfind : head.find? (fun f => named f.name feature) = none :=
        List.find?_eq_none.mpr fun f hf => by
          rw [showNamedFeature_eq_none (Loop.firstOf_eq_none.mp h f hf)]
          exact Bool.false_ne_true
      rw [selected, hfind]
      rfl
    | some subFeature =>
      rw [selected, List.findSome?_eq_none_iff.mpr fun f hf =>
        showSubFeatureOf_eq_none (Loop.firstOf_eq_none.mp h f hf)]
      rfl

/-! ### The list of the failed commands -/

/-- The commands whose flag is set. -/
def flagged (cmds : List CliCmd) : List CliCmd := cmds.filter CliCmd.commandFailed

theorem printFailed_fst (c : CliCmd) (listing : Listing) : (printFailed c listing).1 = c.cleared := by
  obtain ⟨command, flag⟩ := c
  cases flag <;> rfl

theorem printFailedOfSubFeature_fst (sub : SubFeature) (listing : Listing) :
    (printFailedOfSubFeature sub listing).1 = sub.cleared := by
  rw [printFailedOfSubFeature]
  dsimp only
  rw [Loop.walk_eq_map printFailed_fst, SubFeature.cleared]

theorem printFailedOfFeature_fst (f : Feature) (listing : Listing) :
    (printFailedOfFeature f listing).1 = f.cleared := by
  rw [printFailedOfFeature]
  dsimp only
  rw [Loop.walk_eq_map printFailedOfSubFeature_fst, Feature.cleared]

theorem printFailedCommands_fst (head : List Feature) : (printFailedCommands head).1 = head.map Feature.cleared :=
  Loop.walk_eq_map printFailedOfFeature_fst head (1, [])

def numbered (index : Nat) (cmds : List CliCmd) : List Line :=
  (cmds.zipIdx index).map fun (c, k) => .failed k c.command

theorem walk_printFailed (cmds : List CliCmd) (listing : Listing) :
    (Loop.walk (fun _ => false) printFailed cmds listing).2.2 = listing.2 ++ numbered listing.1 (flagged cmds) := by
  induction cmds generalizing listing with
  | nil => simp [Loop.walk, flagged, numbered]
  | cons c cmds ih =>
    rw [Loop.walk_cons_of_going rfl, ih, printFailed]
    cases h : c.commandFailed with
    | true => simp [flagged, h, numbered]
    | false => simp [flagged, h]

/-- The flagged commands of the whole configuration, numbered from 1. -/
theorem printFailedCommands_snd (head : List Feature) :
    (printFailedCommands head).2 = numbered 1 (flagged (commands head)) := by
  have hfeature : ∀ (f : Feature) (listing : Listing), false = false →
      ((printFailedOfFeature f listing).1.commands, (printFailedOfFeature f listing).2) =
        Loop.walk (fun _ => false) printFailed f.commands listing := fun f listing _ =>
    @Loop.walk_flatMap _ _ _ _ (fun _ => false) printFailedOfSubFeature listing (fun _ => false) printFailed
      SubFeature.cliCmds id (fun _ => rfl) (fun _ _ _ => rfl) f.subFeatures rfl
  have hall := @Loop.walk_flatMap _ _ _ _ (fun _ => false) printFailedOfFeature (1, []) (fun _ => false) printFailed
    Feature.commands id (fun _ => rfl) hfeature head rfl
  exact (congrArg (fun r => r.2.2) hall).trans (walk_printFailed (commands head) (1, []))

/-! ### Runs -/

theorem reported_texts (lines : List Text) : reported (texts lines) = none := by
  simp [reported, texts, List.findSome?_eq_none_iff]

theorem listed_texts (lines : List Text) : listed (texts lines) = [] := by
  simp [listed, texts]

theorem listed_numbered (index : Nat) (cmds : List CliCmd) :
    listed (numbered index cmds) = cmds.map CliCmd.command := by
  rw [listed, numbered, List.filterMap_map]
  induction cmds generalizing index with
  | nil => rfl
  | cons c cmds ih => simpa using ih (index + 1)

theorem flagged_marked (cmds : List CliCmd) :
    (flagged (marked env n cmds)).map CliCmd.command = failing env n cmds := by
  simp only [flagged, marked, failing, List.filter_map, List.map_map]
  rfl

theorem flagged_clear (h : ∀ c ∈ cmds, c.commandFailed = false) : flagged cmds = [] := by
  rw [flagged, List.filter_eq_nil_iff]
  intro c hc
  rw [h c hc]
  exact Bool.false_ne_true

theorem allClear_iff_flagged : AllClear head ↔ flagged (commands head) = [] := by
  simp [AllClear, flagged, List.filter_eq_nil_iff]

theorem commands_cleared (head : List Feature) :
    commands (head.map Feature.cleared) = (commands head).map CliCmd.cleared := by
  simp only [commands, Feature.commands, List.flatMap_map, List.map_flatMap, Feature.cleared, SubFeature.cleared]

theorem allClear_cleared : AllClear (head.map Feature.cleared) := by
  intro c hc
  rw [commands_cleared] at hc
  obtain ⟨c', -, rfl⟩ := List.mem_map.mp hc
  rfl

theorem reported_append (out out' : List Line) : reported (out ++ out') = (reported out).or (reported out') :=
  List.findSome?_append ..

theorem listed_append (out out' : List Line) : listed (out ++ out') = listed out ++ listed out' :=
  List.filterMap_append ..

theorem report_zero (head : List Feature) : (report head 0).1 = head ∧ reported (report head 0).2 = none :=
  ⟨rfl, reported_texts _⟩

theorem report_pos (head : List Feature) {count : Nat} (h : count ≠ 0) :
    (report head count).1 = head.map Feature.cleared ∧ reported (report head count).2 = some count ∧
      listed (report head count).2 = (flagged (commands head)).map CliCmd.command := by
  rw [report, if_pos h]
  dsimp only
  rw [printFailedCommands_fst, printFailedCommands_snd, List.append_assoc, reported_append, listed_append,
    reported_texts, listed_texts, List.cons_append]
  refine ⟨rfl, rfl, ?_⟩
  rw [← listed_numbered 1, List.nil_append]
  exact (listed_append _ _).trans (by rw [listed_texts, List.nil_append])

/-! ### Accounting -/

section
variable {run : Run}

theorem marked_clear_iff : (∀ c ∈ marked env 0 cmds, c.commandFailed = false) ↔
    ∀ m < cmds.length, env.failed m = false := by
  rw [marked, List.forall_mem_map]
  constructor
  · intro h m hm
    exact h (cmds[m], m) (List.mem_zipIdx_iff_getElem?.mpr (List.getElem?_eq_getElem hm))
  · intro h c hc
    exact h c.2 (List.snd_lt_of_mem_zipIdx hc)

/-- The run with the loop, when no handler is missing and there is a configuration. -/
theorem result_of_some {s : Shown} (hsignals : run.env.signals = true) (hhead : head ≠ [])
    (h : showSelected run.env head run.feature run.subFeature (.initial run.env) =
      some (head', s)) :
    run.result head = if s.stopped then ⟨.success, head', texts (s.out ++ interruptLines run.env s)⟩
      else ⟨.success, (report head' s.failureCount).1, texts s.out ++ (report head' s.failureCount).2 ++
        texts (elapsedLines run.env.elapsed ++ interruptLines run.env s)⟩ := by
  rw [Run.result, cliShowTech, h]
  simp [hsignals, hhead]

/-- A run that enters no loop. -/
theorem result_of_none (h : run.env.signals = false ∨ head = [] ∨
    showSelected run.env head run.feature run.subFeature (.initial run.env) = none) :
    (run.result head).config = head ∧ reported (run.result head).out = none := by
  rw [Run.result, cliShowTech]
  rcases h with h | h | h
  · rw [h]
    exact ⟨rfl, reported_texts _⟩
  · rw [if_pos h]
    split <;> exact ⟨rfl, reported_texts _⟩
  · rw [h]
    split
    · exact ⟨rfl, reported_texts _⟩
    · split <;> exact ⟨rfl, reported_texts _⟩

theorem clear_splice {pre mid post : List CliCmd} (h : ∀ c ∈ pre ++ cmds ++ post, c.commandFailed = false) :
    (∀ c ∈ pre ++ mid ++ post, c.commandFailed = false) ↔ ∀ c ∈ mid, c.commandFailed = false := by
  constructor
  · intro hall c hc
    exact hall c (List.mem_append_left _ (List.mem_append_right _ hc))
  · intro hmid c hc
    rcases List.mem_append.mp hc with hc | hc
    · rcases List.mem_append.mp hc with hc | hc
      · exact h c (List.mem_append_left _ (List.mem_append_left _ hc))
      · exact hmid c hc
    · exact h c (List.mem_append_right _ hc)

/-- What a run comes to: its report is right, and the flags that it leaves are those of `left`. -/
structure Ends (run : Run) (head : List Feature) (left : Prop) : Prop where
  right : run.RightReport head
  clear : AllClear (run.result head).config ↔ left
  cleared : (run.result head).config.map Feature.cleared = head.map Feature.cleared

theorem rightReport_of_none (h : reported (run.result head).out = none) : run.RightReport head := by
  intro count hcount
  rw [h] at hcount
  cases hcount

variable {s : Shown}

theorem Ends.of_none (hclear : AllClear head) (h : run.env.signals = false ∨ head = [] ∨
    showSelected run.env head run.feature run.subFeature (.initial run.env) = none) :
    Ends run head True := by
  obtain ⟨hconfig, hreported⟩ := result_of_none h
  exact ⟨rightReport_of_none hreported, by simp [hconfig, hclear], by rw [hconfig]⟩

theorem Ends.of_going (hclear : AllClear head) (hsignals : run.env.signals = true) (hhead : head ≠ [])
    (h : showSelected run.env head run.feature run.subFeature (.initial run.env) =
      some (head', s))
    (hgoing : ∀ k < (selected head run.feature run.subFeature).length,
      run.env.stopsAt (copyOf run.feature run.subFeature) k = false) : Ends run head True := by
  obtain ⟨⟨pre, cmds', post, hcmds, hcmds', hrun⟩, hcleared⟩ := showSelected_oneLoop rfl h
  have hall : ∀ c ∈ pre ++ selected head run.feature run.subFeature ++ post, c.commandFailed = false := hcmds ▸ hclear
  have hpre : ∀ c ∈ pre, c.commandFailed = false := fun c hc =>
    hall c (List.mem_append_left _ (List.mem_append_left _ hc))
  have hpost : ∀ c ∈ post, c.commandFailed = false := fun c hc => hall c (List.mem_append_right _ hc)
  rw [Shown.progress_initial] at hrun
  have hend := hrun.trans (runAll_going 0 (fun c hc => hall c (List.mem_append_left _ (List.mem_append_right _ hc)))
    fun k _ hk => hgoing k (by rwa [Nat.zero_add] at hk))
  obtain ⟨rfl, hs⟩ := Prod.mk.inj hend
  have hstopped : s.stopped = false := congrArg Progress.stopped hs
  have hcount : s.failureCount = (failing run.env 0 (selected head run.feature run.subFeature)).length :=
    (congrArg Progress.failureCount hs).trans (Nat.zero_add _)
  have hflagged : (flagged (commands head')).map CliCmd.command =
      failing run.env 0 (selected head run.feature run.subFeature) := by
    rw [hcmds', flagged, List.filter_append, List.filter_append, ← flagged, ← flagged, ← flagged, flagged_clear hpre,
      flagged_clear hpost, List.nil_append, List.append_nil, flagged_marked]
  have hresult := result_of_some hsignals hhead h
  rw [hstopped, if_neg Bool.false_ne_true] at hresult
  have hreported : reported (run.result head).out = reported (report head' s.failureCount).2 := by
    rw [hresult, reported_append, reported_append, reported_texts, reported_texts, Option.or_none, Option.none_or]
  have hlisted : listed (run.result head).out = listed (report head' s.failureCount).2 := by
    rw [hresult, listed_append, listed_append, listed_texts, listed_texts, List.append_nil, List.nil_append]
  by_cases hzero : s.failureCount = 0
  · obtain ⟨hconfig, hnone⟩ := report_zero head'
    rw [hzero] at hreported hresult
    have hclear' : AllClear head' := by
      rw [allClear_iff_flagged, ← List.map_eq_nil_iff, hflagged]
      exact List.eq_nil_of_length_eq_zero (hcount ▸ hzero)
    exact ⟨rightReport_of_none (hreported.trans hnone), by simp [hresult, hconfig, hclear'],
      by rw [hresult, hconfig, hcleared]⟩
  · obtain ⟨hconfig, hsome, hlist⟩ := report_pos head' hzero
    refine ⟨fun count hc => ?_, ?_, ?_⟩
    · rw [hreported, hsome] at hc
      obtain rfl := Option.some.inj hc
      rw [hlisted, hlist, hflagged]
      exact ⟨hcount, rfl⟩
    · simp only [hresult, hconfig, allClear_cleared]
    · rw [hresult, hconfig, allClear_cleared.cleared, hcleared]

theorem Ends.of_stopped (hclear : AllClear head) (hsignals : run.env.signals = true) (hhead : head ≠ [])
    (h : showSelected run.env head run.feature run.subFeature (.initial run.env) =
      some (head', s))
    (hn : n < (selected head run.feature run.subFeature).length)
    (hfirst : run.StopsFirstAt n) : Ends run head (∀ m < n, run.env.failed m = false) := by
  obtain ⟨hstop, hgoing⟩ := hfirst
  obtain ⟨⟨pre, cmds', post, hcmds, hcmds', hrun⟩, hcleared⟩ := showSelected_oneLoop rfl h
  have hall : ∀ c ∈ pre ++ selected head run.feature run.subFeature ++ post, c.commandFailed = false := hcmds ▸ hclear
  have hsplit : selected head run.feature run.subFeature =
      (selected head run.feature run.subFeature).take n ++
        (selected head run.feature run.subFeature)[n] :: (selected head run.feature run.subFeature).drop (n + 1) := by
    rw [← List.drop_eq_getElem_cons hn, List.take_append_drop]
  have hlen : ((selected head run.feature run.subFeature).take n).length = n := by
    rw [List.length_take]
    exact Nat.min_eq_left hn.le
  have hselected : ∀ c ∈ selected head run.feature run.subFeature, c.commandFailed = false := fun c hc =>
    hall c (List.mem_append_left _ (List.mem_append_right _ hc))
  rw [hsplit] at hrun hselected
  rw [Shown.progress_initial] at hrun
  obtain ⟨hfst, hsnd⟩ := runAll_stopped (n := 0) hselected (fun k _ hk => hgoing k (by omega))
    (by rwa [hlen, Nat.zero_add])
  rw [← hrun] at hfst hsnd
  have hcmds'' : cmds' = _ := hfst
  have hstopped : s.stopped = true := hsnd
  have hresult := result_of_some hsignals hhead h
  rw [if_pos hstopped] at hresult
  refine ⟨rightReport_of_none (hresult ▸ reported_texts _), ?_, by rw [hresult, hcleared]⟩
  rw [hresult, AllClear, hcmds', clear_splice hall, hcmds'', List.forall_mem_append, marked_clear_iff, hlen]
  exact and_iff_left fun c hc => hselected c (List.mem_append_right _ hc)

theorem Ends.congr {p q : Prop} (h : Ends run head p) (hpq : p ↔ q) : Ends run head q :=
  ⟨h.right, h.clear.trans hpq, h.cleared⟩

theorem Run.StopsFirstAt.unique {m : Nat} (h : run.StopsFirstAt n) (h' : run.StopsFirstAt m) : n = m := by
  rcases Nat.lt_trichotomy n m with hlt | heq | hlt
  · exact absurd ((h'.2 n hlt).symm.trans h.1) Bool.false_ne_true
  · exact heq
  · exact absurd ((h.2 m hlt).symm.trans h'.1) Bool.false_ne_true

theorem selected_nil (feature subFeature : Option Text) : selected [] feature subFeature = [] := by
  cases feature with
  | none => rfl
  | some _ => cases subFeature <;> rfl

theorem stopsClean_of_nil (h : selected head run.feature run.subFeature = []) : run.StopsClean head := by
  intro _ n hn
  rw [h] at hn
  exact absurd hn (Nat.not_lt_zero n)

theorem Run.ends (hclear : AllClear head) : Ends run head (run.StopsClean head) := by
  cases hsignals : run.env.signals with
  | false =>
    refine (Ends.of_none hclear (Or.inl hsignals)).congr (iff_of_true trivial fun htrue => ?_)
    exact absurd (hsignals.symm.trans htrue) Bool.false_ne_true
  | true =>
    by_cases hhead : head = []
    · refine (Ends.of_none hclear (Or.inr (Or.inl hhead))).congr (iff_of_true trivial (stopsClean_of_nil ?_))
      rw [hhead, selected_nil]
    · cases h : showSelected run.env head run.feature run.subFeature (.initial run.env) with
      | none =>
        exact (Ends.of_none hclear (Or.inr (Or.inr h))).congr
          (iff_of_true trivial (stopsClean_of_nil (selected_of_none h)))
      | some r =>
        by_cases hstop : ∃ n < (selected head run.feature run.subFeature).length, run.StopsFirstAt n
        · obtain ⟨n, hn, hfirst⟩ := hstop
          refine (Ends.of_stopped hclear hsignals hhead h hn hfirst).congr ⟨fun hclean _ m _ hm => ?_, fun hclean => ?_⟩
          · exact hfirst.unique hm ▸ hclean
          · exact hclean hsignals n hn hfirst
        · refine (Ends.of_going hclear hsignals hhead h fun k hk => ?_).congr
            (iff_of_true trivial fun _ n hn hfirst => absurd ⟨n, hn, hfirst⟩ hstop)
          induction k using Nat.strong_induction_on with
          | h k ih =>
            cases hk' : run.env.stopsAt (copyOf run.feature run.subFeature) k with
            | false => rfl
            | true => exact absurd ⟨k, hk, hk', fun m hm => ih m hm (hm.trans hk)⟩ hstop

/-- A run that ends with all flags clear leaves the configuration that it has found. -/
theorem Run.config_eq (hclear : AllClear head) (h : AllClear (run.result head).config) :
    (run.result head).config = head := by
  rw [← h.cleared, (Run.ends hclear).cleared, hclear.cleared]

end

/-- In every run the failures are accounted for, if and only if no run is stopped after one of its commands
    has failed. -/
theorem accounted_iff (head : List Feature) (hclear : AllClear head) (runs : List Run) :
    Accounted head runs ↔ ∀ run ∈ runs, run.StopsClean head := by
  induction runs with
  | nil => simp [Accounted]
  | cons run runs ih =>
    have hends : Ends run head (run.StopsClean head) := Run.ends hclear
    rw [Accounted, List.forall_mem_cons, ← hends.clear]
    constructor
    · rintro ⟨-, hrun, hrest⟩
      rw [Run.config_eq hclear hrun] at hrest
      exact ⟨hrun, ih.mp hrest⟩
    · rintro ⟨hrun, hrest⟩
      refine ⟨hends.right, hrun, ?_⟩
      rw [Run.config_eq hclear hrun]
      exact ih.mpr hrest

/-! ### A run stopped after a failure -/

def showCmd (name : Text) : CliCmd := ⟨"show ".toList ++ name, false⟩

def twoCommands : List Feature :=
  [⟨some "lldp".toList, none, [⟨none, none, false, false, true, [showCmd ['a'], showCmd ['b']], []⟩]⟩]

def quiet (failed : Nat → Bool) (interrupt : Option Nat) : Env := ⟨true, [], none, failed, interrupt, fun _ => false⟩

/-- The first of two commands fails, and the second is interrupted. -/
def stoppedRun : Run := ⟨quiet (fun n => n == 0) (some 3), none, none⟩

/-- Of the same commands the second fails. -/
def laterRun : Run := ⟨quiet (fun n => n == 1) none, none, none⟩

/-- The later run counts one failure and lists two commands. -/
theorem stoppedRun_keeps_failure :
    AllClear twoCommands ∧ ¬ Accounted twoCommands [stoppedRun, laterRun] ∧
      ¬ AllClear (stoppedRun.result twoCommands).config ∧
      reported (laterRun.result (stoppedRun.result twoCommands).config).out = some 1 ∧
      listed (laterRun.result (stoppedRun.result twoCommands).config).out = ["show a".toList, "show b".toList] := by
  have hflag : ¬ AllClear (stoppedRun.result twoCommands).config := by decide
  exact ⟨by decide, fun h => hflag h.2.1, hflag, by decide, by decide⟩

/-- The first command succeeds, and the second is interrupted and fails. -/
def cleanRun : Run := ⟨quiet (fun n => n == 1) (some 3), none, none⟩

/-- Runs that are not interrupted report their failure, also behind one that is stopped in time. -/
theorem accounted_laterRun : Accounted twoCommands [laterRun, cleanRun, laterRun] := by
  refine (accounted_iff twoCommands (by decide) [laterRun, cleanRun, laterRun]).mpr ?_
  have hlater : laterRun.StopsClean twoCommands := fun _ n _ hfirst =>
    absurd ((rfl : laterRun.env.stopsAt (copyOf laterRun.feature laterRun.subFeature) n = false).symm.trans hfirst.1)
      Bool.false_ne_true
  have hclean : cleanRun.StopsClean twoCommands := fun _ n hn _ m hm => by
    have hn : n < 2 := hn
    obtain rfl : m = 0 := by omega
    rfl
  simp only [List.forall_mem_cons, hlater, hclean, List.not_mem_nil, false_implies, implies_true, and_self]

end ShowTech
end OpsSupportability
