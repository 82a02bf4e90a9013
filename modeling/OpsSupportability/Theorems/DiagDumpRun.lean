import OpsSupportability.DiagDumpRun

/-! The command `diag-dump` comes to its end, unless it stands at the label `USER_INTERRUPT` with an interrupt
    and never again writes three lines in a row. -/

namespace OpsSupportability
namespace DiagDumpRun

open DiagDump
open Machine

/-- The command has returned; its file is closed and the old signal handlers are back. -/
def Finished (s : State) : Prop := s.place = .done ∧ s.fd = none ∧ s.handlers = false

def Finishes (e : RunEnv) (r : Request) : Prop := ∃ n, Finished (after e r n)

/-- Three writes in a row that succeed, after a number of writes. -/
def ThreeWrites (e : RunEnv) (writes : Nat) : Prop :=
  ∃ j, writes ≤ j ∧ ∀ i < 3, e.writeError (j + i) = none

/-- At the label with the file open and an interrupt, the lines that come next can be written. -/
def Relieved (e : RunEnv) (s : State) : Prop :=
  s.place = .userInterrupt → s.fd.isSome = true → e.userInterrupt s = true → ThreeWrites e s.writes

section
variable {e : RunEnv} {r : Request} {s : State}

theorem userInterrupt_mono {s' : State} (hmoment : s.moment ≤ s'.moment) (h : e.userInterrupt s = true) :
    e.userInterrupt s' = true := by
  rw [RunEnv.userInterrupt, Option.any_eq_true] at h ⊢
  obtain ⟨t, ht, hle⟩ := h
  exact ⟨t, ht, decide_eq_true ((of_decide_eq_true hle).trans hmoment)⟩

theorem userInterrupt_step (h : e.userInterrupt s = true) : e.userInterrupt (step e r s) = true :=
  userInterrupt_mono (Nat.le_succ s.moment) h

/-! ### The steps of a block -/

section
variable {line : Text} {lines : List Text} {block : Block}

theorem step_write_nil (hplace : s.place = .write [] block) :
    step e r s = { s with place := block.next, moment := s.moment + 1 } := by
  rw [step, act, hplace]

theorem step_print (hplace : s.place = .write (line :: lines) block) (hfd : s.fd = none) :
    step e r s = { s.print line with place := .write lines block, moment := s.moment + 1 } := by
  rw [step, act, hplace]
  dsimp only [writeLine]
  rw [hfd]

theorem step_write (hplace : s.place = .write (line :: lines) block) (hfd : s.fd.isSome = true)
    (hok : e.writeError s.writes = none) :
    step e r s = { s with
      place := .write lines block, moment := s.moment + 1, writes := s.writes + 1,
      out := s.out.append ⟨[], [line]⟩ } := by
  obtain ⟨path, hpath⟩ := Option.isSome_iff_exists.mp hfd
  rw [step, act, hplace]
  dsimp only [writeLine]
  rw [hpath, hok]

/-- A write that fails jumps to the label. -/
theorem step_write_fails {reason : Text} (hplace : s.place = .write (line :: lines) block)
    (hfd : s.fd.isSome = true) (hfail : e.writeError s.writes = some reason) :
    step e r s = { s.print (writeFailure reason) with
      place := .userInterrupt, moment := s.moment + 1, writes := s.writes + 1, returnVal := .warning } := by
  obtain ⟨path, hpath⟩ := Option.isSome_iff_exists.mp hfd
  rw [step, act, hplace]
  dsimp only [writeLine]
  rw [hpath, hfail]

end

theorem step_label (hplace : s.place = .userInterrupt) :
    step e r s = { s with
      place := if s.fd.isSome && e.userInterrupt s then .write noticeLines .notice else .close,
      moment := s.moment + 1 } := by
  rw [step, act, hplace]

/-! ### The way to the end -/

theorem leads_exitFun (hplace : s.place = .exitFun) (hfd : s.fd = none) : Leads (step e r) Finished s := by
  refine .of_step (.of_goal ?_)
  rw [step, act, hplace]
  dsimp only [exitFun]
  split
  · exact ⟨rfl, hfd, rfl⟩
  · exact ⟨rfl, hfd, rfl⟩

theorem leads_close (hplace : s.place = .close) : Leads (step e r) Finished s := by
  have hclose : (step e r s).place = .exitFun ∧ (step e r s).fd = none := by
    rw [step, act, hplace]
    dsimp only [closeFile]
    split
    · exact ⟨rfl, rfl⟩
    · exact ⟨rfl, rfl⟩
  exact .of_step (leads_exitFun hclose.1 hclose.2)

/-- The lines about the interrupt, begun again after each failure until three writes in a row succeed. -/
theorem leads_notice {j : Nat} (hthree : ∀ i < 3, e.writeError (j + i) = none) (n : Nat) (lines : List Text)
    (hplace : s.place = .write lines .notice) (hfd : s.fd.isSome = true) (hint : e.userInterrupt s = true)
    (hlines : lines.length ≤ 3) (hwrites : s.writes + lines.length ≤ j + 3) (hn : j + 3 ≤ n + s.writes) :
    Leads (step e r) Finished s := by
  induction n generalizing s lines with
  | zero =>
    obtain rfl : lines = [] := List.eq_nil_of_length_eq_zero (by omega)
    exact .of_step (leads_close (by rw [step_write_nil hplace]; rfl))
  | succ n ih =>
    cases lines with
    | nil => exact .of_step (leads_close (by rw [step_write_nil hplace]; rfl))
    | cons line lines =>
      rw [List.length_cons] at hlines hwrites
      cases hwrite : e.writeError s.writes with
      | none =>
        have hstep := step_write (r := r) hplace hfd hwrite
        refine .of_step (ih lines ?_ ?_ (userInterrupt_step hint) ?_ ?_ ?_)
        · rw [hstep]
        · rw [hstep]; exact hfd
        · omega
        · rw [hstep]; dsimp only; omega
        · rw [hstep]; dsimp only; omega
      | some reason =>
        -- The failed write is not one of the three, so it comes before them.
        have hbefore : s.writes < j := by
          by_contra hle
          have := hthree (s.writes - j) (by omega)
          rw [show j + (s.writes - j) = s.writes by omega, hwrite] at this
          cases this
        have hstep := step_write_fails (r := r) hplace hfd hwrite
        have hplace' : (step e r s).place = .userInterrupt := by rw [hstep]
        have hfd' : (step e r s).fd.isSome = true := by rw [hstep]; exact hfd
        have hint' := userInterrupt_step (r := r) hint
        have hlabel := step_label (e := e) (r := r) hplace'
        rw [hfd', hint'] at hlabel
        refine .of_step (.of_step (ih noticeLines ?_ ?_ (userInterrupt_step hint') ?_ ?_ ?_))
        · rw [hlabel]; rfl
        · rw [hlabel]; exact hfd'
        · exact Nat.le_refl 3
        · rw [hlabel, hstep]; dsimp only [noticeLines, List.length]; omega
        · rw [hlabel, hstep]; dsimp only; omega

theorem leads_label (hplace : s.place = .userInterrupt) (hrelieved : Relieved e s) :
    Leads (step e r) Finished s := by
  have hlabel := step_label (e := e) (r := r) hplace
  cases hcond : s.fd.isSome && e.userInterrupt s with
  | false =>
    rw [hcond] at hlabel
    exact .of_step (leads_close (by rw [hlabel]; rfl))
  | true =>
    rw [hcond] at hlabel
    obtain ⟨hfd, hint⟩ := Bool.and_eq_true_iff.mp hcond
    obtain ⟨j, hj, hthree⟩ := hrelieved hplace hfd hint
    refine .of_step (leads_notice hthree (j + 3) noticeLines ?_ ?_ (userInterrupt_step hint) ?_ ?_ ?_)
    · rw [hlabel]; rfl
    · rw [hlabel]; exact hfd
    · exact Nat.le_refl 3
    · rw [hlabel]; dsimp only [noticeLines, List.length]; omega
    · rw [hlabel]; dsimp only; omega

/-- A block leads to the end if what comes after it does. -/
theorem leads_block {lines : List Text} {block : Block}
    (hnext : ∀ s : State, s.place = block.next → Always (step e r) (Relieved e) s → Leads (step e r) Finished s)
    (hplace : s.place = .write lines block) (hrelieved : Always (step e r) (Relieved e) s) :
    Leads (step e r) Finished s := by
  refine .of_step ?_
  induction lines generalizing s with
  | nil => exact hnext _ (by rw [step_write_nil hplace]) hrelieved.next
  | cons line lines ih =>
    cases hfd : s.fd with
    | none => exact .of_step (ih (by rw [step_print hplace hfd]) hrelieved.next)
    | some path =>
      have hopen : s.fd.isSome = true := by rw [hfd]; rfl
      cases hwrite : e.writeError s.writes with
      | none => exact .of_step (ih (by rw [step_write hplace hopen hwrite]) hrelieved.next)
      | some reason =>
        exact leads_label (by rw [step_write_fails hplace hopen hwrite]) hrelieved.next.here

theorem leads_footer {lines : List Text} (hplace : s.place = .write lines .footer)
    (hrelieved : Always (step e r) (Relieved e) s) : Leads (step e r) Finished s := by
  refine leads_block (fun s hverdict hrelieved => ?_) hplace hrelieved
  refine .of_step (leads_label ?_ hrelieved.next.here)
  rw [step, act, hverdict]
  rfl

theorem leads_loop {daemons : List Daemon} (hplace : s.place = .loop daemons)
    (hrelieved : Always (step e r) (Relieved e) s) : Leads (step e r) Finished s := by
  induction daemons generalizing s with
  | nil =>
    have hfooter : (step e r s).place = .write (footerLines s.fd.isSome r.name) .footer := by
      rw [step, act, hplace]
      rfl
    exact .of_step (leads_footer hfooter hrelieved.next)
  | cons d ds ih =>
    cases hflag : d.diagFlag with
    | false =>
      refine .of_step (ih ?_ hrelieved.next)
      rw [step, act, hplace]
      dsimp only [nextDaemon]
      rw [hflag]
      rfl
    | true =>
      have hstep : (step e r s).place = if e.userInterrupt s then .userInterrupt else .run d ds := by
        rw [step, act, hplace]
        dsimp only [nextDaemon]
        rw [hflag]
        rfl
      refine .of_step ?_
      split at hstep
      · exact leads_label hstep hrelieved.next.here
      · have hran : (step e r (step e r s)).place = .ran ds := by
          rw [step, act, hstep]
          rfl
        have hchecked : (step e r (step e r (step e r s))).place =
            if e.userInterrupt (step e r (step e r s)) then .userInterrupt else .loop ds := by
          rw [step, act, hran]
        refine .of_step (.of_step ?_)
        split at hchecked
        · exact leads_label hchecked hrelieved.next.next.next.here
        · exact ih hchecked hrelieved.next.next.next

theorem leads_start (hplace : s.place = .start) (hfd : s.fd = none) (hrelieved : Always (step e r) (Relieved e) s) :
    Leads (step e r) Finished s := by
  have hbegin : ((step e r s).place = .exitFun ∧ (step e r s).fd = none) ∨
      ∃ lines daemons, (step e r s).place = .write lines (.header daemons) := by
    rw [step, act, hplace]
    dsimp only [begin]
    cases e.env.featureMapping with
    | none => exact .inl ⟨rfl, hfd⟩
    | some features =>
      dsimp only
      cases features.find? (·.name == r.name) with
      | none => exact .inl ⟨rfl, hfd⟩
      | some feature =>
        cases r.file with
        | none => exact .inr ⟨_, _, rfl⟩
        | some file =>
          dsimp only
          cases openPath e.env file with
          | error text => exact .inl ⟨rfl, hfd⟩
          | ok path => exact .inr ⟨_, _, rfl⟩
  refine .of_step ?_
  rcases hbegin with ⟨hexit, hclosed⟩ | ⟨lines, daemons, hheader⟩
  · exact leads_exitFun hexit hclosed
  · have hnext : ∀ s : State, s.place = (Block.header daemons).next → Always (step e r) (Relieved e) s →
        Leads (step e r) Finished s := fun s hloop hrelieved => leads_loop hloop hrelieved
    exact leads_block hnext hheader hrelieved.next

/-! ### The run that does not end -/

/-- The command writes the lines about the interrupt again and again. Since the last failure it has written `i` of
    the three. -/
def Stuck (e : RunEnv) (s : State) : Prop :=
  s.fd.isSome = true ∧ e.userInterrupt s = true ∧
    ∃ i ≤ s.writes, ¬ ThreeWrites e (s.writes - i) ∧ (∀ k < i, e.writeError (s.writes - i + k) = none) ∧
      (s.place = .userInterrupt ∧ i = 0 ∨ ∃ lines, s.place = .write lines .notice ∧ lines.length + i = 3)

theorem ThreeWrites.mono {n m : Nat} (h : n ≤ m) (hm : ThreeWrites e m) : ThreeWrites e n := by
  obtain ⟨j, hj, hthree⟩ := hm
  exact ⟨j, h.trans hj, hthree⟩

theorem stuck_step (h : Stuck e s) : Stuck e (step e r s) := by
  obtain ⟨hfd, hint, i, hi, hnone, hlast, hplace⟩ := h
  have hint' := userInterrupt_step (r := r) hint
  rcases hplace with ⟨hplace, rfl⟩ | ⟨lines, hplace, hlines⟩
  · have hlabel := step_label (e := e) (r := r) hplace
    rw [hfd, hint] at hlabel
    refine ⟨by rw [hlabel]; exact hfd, hint', 0, Nat.zero_le _, ?_, nofun, .inr ⟨noticeLines, ?_, rfl⟩⟩
    · rw [hlabel]; exact hnone
    · rw [hlabel]; rfl
  · cases lines with
    | nil =>
      rw [List.length_nil, Nat.zero_add] at hlines
      subst hlines
      exact absurd ⟨s.writes - 3, Nat.le_refl _, hlast⟩ hnone
    | cons line lines =>
      rw [List.length_cons] at hlines
      cases hwrite : e.writeError s.writes with
      | none =>
        have hstep := step_write (r := r) hplace hfd hwrite
        have hwrites : (step e r s).writes = s.writes + 1 := by rw [hstep]
        refine ⟨by rw [hstep]; exact hfd, hint', i + 1, by omega, ?_, ?_, .inr ⟨lines, by rw [hstep], by omega⟩⟩
        · rw [hwrites, Nat.add_sub_add_right]
          exact hnone
        · intro k hk
          rw [hwrites, Nat.add_sub_add_right]
          rcases Nat.lt_succ_iff_lt_or_eq.mp hk with hlt | rfl
          · exact hlast k hlt
          · rw [Nat.sub_add_cancel hi]
            exact hwrite
      | some reason =>
        have hstep := step_write_fails (r := r) hplace hfd hwrite
        have hwrites : (step e r s).writes = s.writes + 1 := by rw [hstep]
        refine ⟨by rw [hstep]; exact hfd, hint', 0, Nat.zero_le _, ?_, nofun, .inl ⟨by rw [hstep], rfl⟩⟩
        rw [hwrites]
        exact fun hthree => hnone (hthree.mono (by omega))

theorem not_finished_of_stuck (h : Stuck e s) : ¬ Finished s := by
  rintro ⟨hdone, -, -⟩
  obtain ⟨-, -, i, -, -, -, ⟨hplace, -⟩ | ⟨lines, hplace, -⟩⟩ := h
  · cases hplace.symm.trans hdone
  · cases hplace.symm.trans hdone

theorem finished_step (h : Finished s) : Finished (step e r s) := by
  obtain ⟨hplace, hfd, hhandlers⟩ := h
  rw [step, act, hplace]
  exact ⟨hplace, hfd, hhandlers⟩

end

theorem finishes_iff (e : RunEnv) (r : Request) : Finishes e r ↔ ∀ n, Relieved e (after e r n) := by
  constructor
  · intro hends n hplace hfd hint
    by_contra hnone
    have hstuck : Stuck e (after e r n) := ⟨hfd, hint, 0, Nat.zero_le _, hnone, nofun, .inl ⟨hplace, rfl⟩⟩
    obtain ⟨m, hm⟩ := Leads.iterate (fun s hs => finished_step hs) hends n
    exact not_finished_of_stuck (Always.of_invariant hstuck (fun s hs => stuck_step hs) m) hm
  · exact fun h => leads_start rfl rfl h

/-! ### A run on a full disk -/

/-- The file takes nothing, and the user interrupts the command while the first line is written. -/
def fullDisk : RunEnv where
  env :=
    { signals := true
      featureMapping := some [⟨"lldp".toList, [⟨"ops-lldpd".toList, true⟩]⟩]
      directory := true
      openError := fun _ => none
      time := []
      connect := fun _ => true
      transport := fun _ => true
      server := fun _ => .c fun _ => some []
      unixctl := .basic }
  writeError := fun _ => some "No space left on device".toList
  interrupt := some 1
  thread := fun _ _ => ⟨0, 0, ⟨[], []⟩⟩

def lldpRequest : Request := ⟨"lldp".toList, some "f1".toList⟩

theorem fullDisk_stuck : Stuck fullDisk (after fullDisk lldpRequest 2) := by
  refine ⟨by decide +kernel, by decide +kernel, 0, Nat.zero_le _, ?_, nofun, .inl ⟨by decide +kernel, rfl⟩⟩
  rintro ⟨j, -, hthree⟩
  cases hthree 0 (by decide)

theorem fullDisk_never_ends : ¬ Finishes fullDisk lldpRequest := by
  intro hends
  obtain ⟨m, hm⟩ := Leads.iterate (fun s hs => finished_step hs) hends 2
  exact not_finished_of_stuck (Always.of_invariant fullDisk_stuck (fun s hs => stuck_step hs) m) hm

end DiagDumpRun
end OpsSupportability
