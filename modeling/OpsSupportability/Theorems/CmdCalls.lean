import OpsSupportability.Theorems.CmdThread

/-! The calls of a process come to an end, also when their commands do not, as long as no thread is cancelled where
    a mutex is lost with it: between the lock and the unlock of `waitMutex`, or behind the removal of the cleanup
    handler. -/

namespace OpsSupportability
namespace CmdThread

variable {call : Call} {s t : State}

/-! ### Places -/

def Main.holdsWait : Main → Bool
  | .wait | .unlockWait _ => true
  | _ => false

/-- `pthread_cancel` has not been called. -/
def Main.early : Main → Bool
  | .create | .lockWait | .wait | .waiting | .relock _ | .unlockWait _ | .check _ | .cancel => true
  | _ => false

/-- It has been called, and the call has yet to be reported. -/
def Main.asking : Main → Bool
  | .lockCleanup | .unlockCleanup | .report => true
  | _ => false

/-- The wait has ended before its deadline, or the main thread joins. -/
def Main.woken : Main → Bool
  | .relock false | .unlockWait false | .check false | .join => true
  | _ => false

def Worker.holdsWait : Worker → Bool
  | .signal | .unlockWait => true
  | _ => false

def Worker.holdsCleanup : Worker → Bool
  | .command | .lockWait | .signal | .unlockWait | .unlockCleanup | .handler => true
  | _ => false

def Worker.pastSignal : Worker → Bool
  | .unlockWait | .unlockCleanup | .finished => true
  | _ => false

theorem Main.eq_done {m : Main} (h : m.returned = true) : ∃ status, m = .done status := by
  cases m with
  | done status => exact ⟨status, rfl⟩
  | _ => cases h

/-- Here a mutex is lost with the thread. -/
def Worker.critical (w : Worker) : Bool := w.holdsWait || w == .unlockCleanup

theorem Worker.outside_of_guarded {w : Worker} (hguarded : w.guarded = true) (hcritical : w.critical = false) :
    w.holdsWait = false ∧ w.pastSignal = false := by
  cases w with
  | lockCleanup | command | lockWait => exact ⟨rfl, rfl⟩
  | signal | unlockWait => cases hcritical
  | none | start | unlockCleanup | handler | finished => cases hguarded

/-! ### The invariant -/

structure Tidy (s : State) : Prop where
  threads : s.Threads
  waitMutex : s.waitMutex =
    if s.main.holdsWait then some .main else if s.worker.holdsWait then some .worker else none
  apart : s.main.holdsWait = true → s.worker.holdsWait = false
  cleanupMain : s.cleanupMutex = some .main → s.main = .unlockCleanup
  cleanupWorker : s.cleanupMutex = some .worker → s.worker.holdsCleanup = true
  early : s.main.early = true → s.cancelRequested = false
  asking : s.main.asking = true → s.cancelRequested = true
  woken : s.main.woken = true → s.cancelRequested = false → s.worker.pastSignal = true

/-- The wait has no spurious wake-up, and no thread is cancelled where a mutex is lost with it. -/
def Careful (s : State) (a : Action) : Prop := a ≠ .spurious ∧ (a = .cancelled → s.worker.critical = false)

instance (s : State) (a : Action) : Decidable (Careful s a) := inferInstanceAs (Decidable (_ ∧ (_ → _)))

namespace Tidy
variable {m₀ m : Main} {w : Worker} {waitMutex cleanupMutex : Option Thread}

theorem start (before : Bool) : Tidy (start before) where
  threads := .start
  waitMutex := rfl
  apart := nofun
  cleanupMain := nofun
  cleanupWorker := nofun
  early _ := rfl
  asking := nofun
  woken := nofun

/-- The main thread goes on, without `cleanupMutex`. -/
theorem mainMoves (h : Tidy s) (hmain : s.main = m₀) (ht : { s with main := m, waitMutex := waitMutex }.Threads)
    (hmutex : waitMutex = if m.holdsWait then some .main else if s.worker.holdsWait then some .worker else none)
    (hapart : m.holdsWait = true → s.worker.holdsWait = false) (hcleanup : m₀ ≠ .unlockCleanup)
    (hearly : m.early = true → m₀.early = true) (hasking : m.asking = true → m₀.asking = true)
    (hwoken : m.woken = true → m₀.woken = true ∨ m₀.asking = true) :
    Tidy { s with main := m, waitMutex := waitMutex } := by
  subst hmain
  exact
    { threads := ht
      waitMutex := hmutex
      apart := hapart
      cleanupMain := fun hheld => absurd (h.cleanupMain hheld) hcleanup
      cleanupWorker := h.cleanupWorker
      early := fun hm => h.early (hearly hm)
      asking := fun hm => h.asking (hasking hm)
      woken := fun hm hcancel => (hwoken hm).elim (h.woken · hcancel) fun hasks =>
        absurd (hcancel.symm.trans (h.asking hasks)) Bool.false_ne_true }

/-- The main thread does not hold `waitMutex`. -/
theorem waitMutex_of (h : Tidy s) (hmain : s.main.holdsWait = false) :
    s.waitMutex = if s.worker.holdsWait then some .worker else none := by
  rw [h.waitMutex, hmain]
  rfl

/-- Neither thread does. -/
theorem not_held (h : Tidy s) (hfree : s.waitMutex = none) : s.main.holdsWait = false ∧ s.worker.holdsWait = false := by
  have hmutex := h.waitMutex
  rw [hfree] at hmutex
  split at hmutex
  · cases hmutex
  · next hmain =>
    split at hmutex
    · cases hmutex
    · next hworker => exact ⟨eq_false_of_ne_true hmain, eq_false_of_ne_true hworker⟩

theorem main_not_held (h : Tidy s) (hworker : s.worker.holdsWait = true) : s.main.holdsWait = false :=
  eq_false_of_ne_true fun hmain => Bool.false_ne_true ((h.apart hmain).symm.trans hworker)

theorem not_cleanup (h : Tidy s) (hmain : s.main ≠ .unlockCleanup) : s.cleanupMutex ≠ some .main :=
  fun hheld => hmain (h.cleanupMain hheld)

theorem main (h : Tidy s) (hmove : MainMove call s t) : Tidy t := by
  have ht := threads_main h.threads hmove
  cases hmove with
  | create hmain =>
    have hworker := h.threads.fresh (congrArg Main.stage hmain)
    have hfree := h.waitMutex
    rw [hmain, hworker] at hfree
    exact
      { h with
        threads := ht
        waitMutex := hfree
        apart := nofun
        cleanupMain := fun hheld => absurd hheld (h.not_cleanup (hmain ▸ nofun))
        cleanupWorker := fun hheld => by
          have hholds := h.cleanupWorker hheld
          rw [hworker] at hholds
          cases hholds
        early := fun _ => h.early (by rw [hmain]; rfl)
        asking := nofun
        woken := nofun }
  | lockWait hmain hfree =>
    exact h.mainMoves hmain ht rfl (fun _ => (h.not_held hfree).2) nofun (fun _ => rfl) nofun nofun
  | wait hmain =>
    have hworker := h.apart (by rw [hmain]; rfl)
    exact
      { h with
        threads := ht
        waitMutex := by rw [hworker]; rfl
        apart := nofun
        cleanupMain := fun hheld => absurd hheld (h.not_cleanup (hmain ▸ nofun))
        early := fun _ => h.early (by rw [hmain]; rfl)
        asking := nofun
        woken := nofun }
  | relock timedOut hmain hfree =>
    refine h.mainMoves hmain ht rfl (fun _ => (h.not_held hfree).2) nofun (fun _ => rfl) nofun ?_
    cases timedOut with
    | true => exact nofun
    | false => exact fun _ => Or.inl rfl
  | unlockWait timedOut hmain =>
    have hworker := h.apart (by rw [hmain]; rfl)
    refine h.mainMoves hmain ht (by rw [hworker]; rfl) nofun nofun (fun _ => rfl) nofun ?_
    cases timedOut with
    | true => exact nofun
    | false => exact fun _ => Or.inl rfl
  | timedOut hmain =>
    exact h.mainMoves hmain ht (h.waitMutex_of (by rw [hmain]; rfl)) nofun nofun (fun _ => rfl) nofun nofun
  | woken hmain =>
    exact h.mainMoves hmain ht (h.waitMutex_of (by rw [hmain]; rfl)) nofun nofun nofun nofun fun _ => Or.inl rfl
  | cancel hmain =>
    exact
      { h with
        threads := ht
        waitMutex := h.waitMutex_of (by rw [hmain]; rfl)
        apart := nofun
        cleanupMain := fun hheld => absurd hheld (h.not_cleanup (hmain ▸ nofun))
        early := nofun
        asking := fun _ => rfl
        woken := nofun }
  | lockCleanup hmain =>
    exact
      { h with
        threads := ht
        waitMutex := h.waitMutex_of (by rw [hmain]; rfl)
        apart := nofun
        cleanupMain := fun _ => rfl
        cleanupWorker := nofun
        early := nofun
        asking := fun _ => h.asking (by rw [hmain]; rfl)
        woken := nofun }
  | unlockCleanup hmain =>
    exact
      { h with
        threads := ht
        waitMutex := h.waitMutex_of (by rw [hmain]; rfl)
        apart := nofun
        cleanupMain := nofun
        cleanupWorker := nofun
        early := nofun
        asking := fun _ => h.asking (by rw [hmain]; rfl)
        woken := nofun }
  | report hmain =>
    have hmoves : Tidy { s with main := .join, waitMutex := s.waitMutex } :=
      h.mainMoves hmain ht (h.waitMutex_of (by rw [hmain]; rfl)) nofun nofun nofun nofun fun _ => Or.inr rfl
    exact { hmoves with }
  | join hmain =>
    exact h.mainMoves hmain ht (h.waitMutex_of (by rw [hmain]; rfl)) nofun nofun nofun nofun nofun

/-- The thread of the command goes on. -/
theorem workerMoves (h : Tidy s)
    (ht : { s with worker := w, waitMutex := waitMutex, cleanupMutex := cleanupMutex }.Threads)
    (hmutex : waitMutex = if s.main.holdsWait then some .main else if w.holdsWait then some .worker else none)
    (hapart : s.main.holdsWait = true → w.holdsWait = false)
    (hcleanupMain : cleanupMutex = some .main → s.cleanupMutex = some .main)
    (hcleanupWorker : cleanupMutex = some .worker → w.holdsCleanup = true)
    (hsignal : s.worker.pastSignal = true → w.pastSignal = true) :
    Tidy { s with worker := w, waitMutex := waitMutex, cleanupMutex := cleanupMutex } :=
  { h with
    threads := ht
    waitMutex := hmutex
    apart := hapart
    cleanupMain := fun hheld => h.cleanupMain (hcleanupMain hheld)
    cleanupWorker := hcleanupWorker
    woken := fun hmain hcancel => hsignal (h.woken hmain hcancel) }

/-- The thread of the command does not hold `waitMutex`, before its move and behind it. -/
theorem waitMutex_kept (h : Tidy s) (hfrom : s.worker.holdsWait = false) (hto : w.holdsWait = false) :
    s.waitMutex = if s.main.holdsWait then some .main else if w.holdsWait then some .worker else none := by
  rw [h.waitMutex, hfrom, hto]

/-- Outside the lock of `waitMutex`, with the mutex of the cleanup untouched. -/
theorem workerGoes (h : Tidy s) (ht : { s with worker := w }.Threads) (hfrom : s.worker.holdsWait = false)
    (hto : w.holdsWait = false) (hcleanup : s.worker.holdsCleanup = true → w.holdsCleanup = true)
    (hsignal : s.worker.pastSignal = true → w.pastSignal = true) : Tidy { s with worker := w } :=
  h.workerMoves ht (h.waitMutex_kept hfrom hto) (fun _ => hto) id (fun hheld => hcleanup (h.cleanupWorker hheld)) hsignal

theorem signal (h : Tidy s) (hworker : s.worker = .signal) (signalledInTime : Bool)
    (ht : { CmdThread.signal s with worker := .unlockWait, signalledInTime := signalledInTime }.Threads) :
    Tidy { CmdThread.signal s with worker := .unlockWait, signalledInTime := signalledInTime } := by
  have hmain := h.main_not_held (by rw [hworker]; rfl)
  have hmutex := h.waitMutex_of hmain
  rw [hworker] at hmutex
  by_cases hwaiting : s.main = .waiting
  · rw [signal_of_waiting h.threads hwaiting] at ht ⊢
    exact
      { threads := ht
        waitMutex := hmutex
        apart := by rintro ⟨⟩
        cleanupMain := fun hheld => absurd hheld (h.not_cleanup (hwaiting ▸ (by rintro ⟨⟩)))
        cleanupWorker := fun _ => rfl
        early := fun _ => h.early (by rw [hwaiting]; rfl)
        asking := by rintro ⟨⟩
        woken := fun _ _ => rfl }
  · rw [signal_of_ne h.threads hwaiting] at ht ⊢
    have hmoves : Tidy { s with worker := .unlockWait, waitMutex := s.waitMutex, cleanupMutex := s.cleanupMutex } :=
      h.workerMoves ht (by rw [hmain]; exact hmutex) (fun hholds => absurd (hmain.symm.trans hholds) Bool.false_ne_true) id
        (fun _ => rfl) (fun _ => rfl)
    exact { hmoves with }

theorem worker (h : Tidy s) (hmove : WorkerMove s t) : Tidy t := by
  have ht := threads_worker h.threads hmove
  cases hmove with
  | start hworker => exact h.workerGoes ht (hworker ▸ rfl) rfl (hworker ▸ nofun) (hworker ▸ nofun)
  | lockCleanup hworker =>
    exact h.workerMoves ht (h.waitMutex_kept (hworker ▸ rfl) rfl) (fun _ => rfl) nofun (fun _ => rfl) (hworker ▸ nofun)
  | lockWait hworker hfree =>
    have hmain := (h.not_held hfree).1
    exact h.workerMoves ht (by rw [hmain]; rfl) (fun hholds => absurd (hmain.symm.trans hholds) Bool.false_ne_true) id
      (fun _ => rfl) (hworker ▸ nofun)
  | signal hworker => exact h.signal hworker _ ht
  | unlockWait hworker =>
    have hmain := h.main_not_held (by rw [hworker]; rfl)
    exact h.workerMoves ht (by rw [hmain]; rfl) (fun _ => rfl) id (fun _ => rfl) (fun _ => rfl)
  | ends hworker =>
    have hfrom : s.worker.holdsWait = false := by
      rcases hworker with hworker | hworker <;> rw [hworker] <;> rfl
    exact h.workerMoves ht (h.waitMutex_kept hfrom rfl) (fun _ => rfl) nofun nofun fun _ => rfl

theorem cancel (h : Tidy s) (hcritical : s.worker.critical = false) (hmove : CancelMove s t) : Tidy t := by
  have ht := threads_cancel h.threads hmove
  cases hmove with
  | handler _ hworker =>
    obtain ⟨hfrom, hpast⟩ := Worker.outside_of_guarded hworker hcritical
    exact h.workerGoes ht hfrom rfl (fun _ => rfl) fun hsignal => absurd (hpast.symm.trans hsignal) Bool.false_ne_true
  | finished _ hworker =>
    rw [hworker] at hcritical
    cases hcritical

theorem step {a : Action} (h : Tidy s) (hcareful : Careful s a) (hstep : step call s a = some t) : Tidy t := by
  have ht := threads_step h.threads hstep
  cases a with
  | main => exact h.main (mainMove hstep)
  | createFails =>
    obtain ⟨hmain, rfl⟩ := of_guard hstep
    exact h.mainMoves hmain ht (h.waitMutex_of (by rw [hmain]; rfl)) nofun nofun nofun nofun nofun
  | expire =>
    obtain ⟨⟨hmain, -⟩, rfl⟩ := of_guard hstep
    exact
      { h with
        threads := ht
        waitMutex := h.waitMutex_of (by rw [hmain]; rfl)
        apart := nofun
        cleanupMain := fun hheld => absurd hheld (h.not_cleanup (hmain ▸ nofun))
        early := fun _ => h.early (by rw [hmain]; rfl)
        asking := nofun
        woken := nofun }
  | spurious => exact absurd rfl hcareful.1
  | worker => exact h.worker (workerMove hstep)
  | setupFails =>
    obtain ⟨hworker, rfl⟩ := of_guard hstep
    exact h.workerGoes ht (hworker ▸ rfl) rfl (hworker ▸ nofun) (hworker ▸ nofun)
  | command ok =>
    obtain ⟨hworker, rfl⟩ := of_guard hstep
    have hmoves : Tidy { s with worker := .lockWait } :=
      h.workerGoes ht (hworker ▸ rfl) rfl (fun _ => rfl) (hworker ▸ nofun)
    exact { hmoves with }
  | cancelled => exact h.cancel (hcareful.2 rfl) (cancelMove hstep)
  | deadline =>
    obtain rfl := Option.some.inj hstep
    exact { h with }

/-- The next call finds the mutexes free. -/
theorem again (h : Tidy s) (hreturned : s.main.returned = true) : Tidy s.again := by
  obtain ⟨status, hdone⟩ := Main.eq_done hreturned
  have hstage : s.main.stage = .returned := congrArg Main.stage hdone
  have hworker : s.worker.holdsWait = false ∧ s.worker.holdsCleanup = false := by
    rcases h.threads.returned hstage with hnone | hfinished
    · rw [hnone]
      exact ⟨rfl, rfl⟩
    · rw [hfinished]
      exact ⟨rfl, rfl⟩
  have hfree := h.waitMutex_of (by rw [hdone]; rfl)
  rw [hworker.1] at hfree
  exact
    { threads := h.threads.again hstage
      waitMutex := hfree
      apart := nofun
      cleanupMain := fun hheld => absurd hheld (h.not_cleanup (hdone ▸ nofun))
      cleanupWorker := fun hheld => absurd (hworker.2.symm.trans (h.cleanupWorker hheld)) Bool.false_ne_true
      early := fun _ => rfl
      asking := nofun
      woken := nofun }

end Tidy

/-! ### The end of a call -/

def Main.rank : Main → Nat
  | .create => 12
  | .lockWait => 11
  | .wait => 10
  | .waiting => 9
  | .relock _ => 8
  | .unlockWait _ => 7
  | .check _ => 6
  | .cancel => 5
  | .lockCleanup => 4
  | .unlockCleanup => 3
  | .report => 2
  | .join => 1
  | .done _ => 0

def Worker.rank : Worker → Nat
  | .none => 9
  | .start => 8
  | .lockCleanup => 7
  | .command => 6
  | .lockWait => 5
  | .signal => 4
  | .unlockWait => 3
  | .unlockCleanup => 2
  | .handler => 1
  | .finished => 0

/-- What the two threads and the deadline have before them. -/
def State.rank (s : State) : Nat := s.main.rank + s.worker.rank + if s.expired then 0 else 1

/-- The deadline passes once. -/
def Once (s : State) (a : Action) : Prop := a = .deadline → s.expired = false

instance (s : State) (a : Action) : Decidable (Once s a) := inferInstanceAs (Decidable (_ → _))

theorem rank_main (h : s.Threads) (hmove : MainMove call s t) : t.rank < s.rank := by
  cases hmove with
  | create hmain =>
    simp [State.rank, hmain, h.fresh (congrArg Main.stage hmain), Main.rank, Worker.rank]
  | lockWait hmain | wait hmain | relock _ hmain | unlockWait _ hmain | timedOut hmain | woken hmain | cancel hmain
  | lockCleanup hmain | unlockCleanup hmain | report hmain | join hmain =>
    simp [State.rank, hmain, Main.rank]

theorem rank_worker (h : s.Threads) (hmove : WorkerMove s t) : t.rank < s.rank := by
  cases hmove with
  | start hworker | lockCleanup hworker | lockWait hworker | unlockWait hworker =>
    simp [State.rank, hworker, Worker.rank]
  | ends hworker =>
    rcases hworker with hworker | hworker <;> simp [State.rank, hworker, Worker.rank]
  | signal hworker =>
    by_cases hwaiting : s.main = .waiting
    · rw [signal_of_waiting h hwaiting]
      simp only [State.rank, hwaiting, hworker, Main.rank, Worker.rank]
      omega
    · rw [signal_of_ne h hwaiting]
      simp [State.rank, hworker, Worker.rank]

theorem Worker.rank_of_guarded {w : Worker} (h : w.guarded = true) : Worker.handler.rank < w.rank := by
  cases w with
  | lockCleanup | command | lockWait | signal | unlockWait => decide
  | none | start | unlockCleanup | handler | finished => cases h

theorem rank_cancel (hmove : CancelMove s t) : t.rank < s.rank := by
  cases hmove with
  | handler _ hworker => exact Nat.add_lt_add_right (Nat.add_lt_add_left (Worker.rank_of_guarded hworker) _) _
  | finished _ hworker => simp [State.rank, hworker, Worker.rank]

theorem rank_lt {a : Action} (h : s.Threads) (honce : Once s a) (hstep : step call s a = some t) : t.rank < s.rank := by
  cases a with
  | main => exact rank_main h (mainMove hstep)
  | createFails | spurious =>
    obtain ⟨hmain, rfl⟩ := of_guard hstep
    simp [State.rank, hmain, Main.rank]
  | expire =>
    obtain ⟨⟨hmain, -⟩, rfl⟩ := of_guard hstep
    simp [State.rank, hmain, Main.rank]
  | worker => exact rank_worker h (workerMove hstep)
  | setupFails | command ok =>
    obtain ⟨hworker, rfl⟩ := of_guard hstep
    simp [State.rank, hworker, Worker.rank]
  | cancelled => exact rank_cancel (cancelMove hstep)
  | deadline =>
    obtain rfl := Option.some.inj hstep
    simp [State.rank, honce rfl]

/-- A step that needs nothing of the command: it may run for ever. -/
def Own (s : State) : Action → Prop
  | .main | .worker | .cancelled | .expire => True
  | .deadline => s.expired = false
  | .createFails | .spurious | .setupFails | .command _ => False

/-- One of these steps can be taken. -/
def Goes (call : Call) (s : State) : Prop := ∃ a t, Own s a ∧ Careful s a ∧ step call s a = some t

theorem Goes.main {t : State} (h : mainStep call s = some t) : Goes call s := ⟨.main, t, trivial, ⟨nofun, nofun⟩, h⟩

theorem Goes.worker {t : State} (h : workerStep s = some t) : Goes call s := ⟨.worker, t, trivial, ⟨nofun, nofun⟩, h⟩

theorem Goes.waiting (hmain : s.main = .waiting) : Goes call s := by
  cases hexpired : s.expired with
  | true => exact ⟨.expire, _, trivial, ⟨nofun, nofun⟩, if_pos ⟨hmain, hexpired⟩⟩
  | false => exact ⟨.deadline, _, hexpired, ⟨nofun, nofun⟩, rfl⟩

namespace Tidy

/-- The main thread goes on where nothing is held. -/
theorem main_goes (h : Tidy s) (hreturned : s.main.returned = false) (hwait : s.worker.holdsWait = false)
    (hcleanup : s.main = .lockCleanup → s.cleanupMutex = Option.none) (hjoin : s.main = .join → s.worker = .finished) :
    Goes call s := by
  have hfree : s.main.holdsWait = false → s.waitMutex = Option.none := fun hholds => by
    rw [h.waitMutex_of hholds, hwait]
    rfl
  cases hmain : s.main with
  | waiting => exact .waiting hmain
  | create | wait | unlockWait _ | check _ | cancel | unlockCleanup | report =>
    exact .main (by rw [mainStep, hmain])
  | lockWait | relock _ =>
    exact .main (by rw [mainStep, hmain]; exact if_pos (hfree (by rw [hmain]; rfl)))
  | lockCleanup =>
    exact .main (by rw [mainStep, hmain]; exact if_pos (hcleanup hmain))
  | join =>
    exact .main (by rw [mainStep, hmain]; exact if_pos (hjoin hmain))
  | done status =>
    rw [hmain] at hreturned
    cases hreturned

/-- As long as the main thread has not returned, one of the threads goes on, or the deadline is to pass. -/
theorem goes (h : Tidy s) (hreturned : s.main.returned = false) : Goes call s := by
  cases hworker : s.worker with
  | none =>
    rcases h.threads.none hworker with hfresh | hdone
    · exact .main (by rw [mainStep, Main.stage_eq_fresh hfresh])
    · exact absurd (hreturned.symm.trans (Main.stage_eq_returned hdone)) Bool.false_ne_true
  | start | signal | unlockWait | unlockCleanup | handler => exact .worker (by rw [workerStep, hworker])
  | lockCleanup =>
    cases hheld : s.cleanupMutex with
    | none => exact .worker (by rw [workerStep, hworker]; exact if_pos hheld)
    | some thread =>
      cases thread with
      | main => exact .main (by rw [mainStep, h.cleanupMain hheld])
      | worker =>
        have := h.cleanupWorker hheld
        rw [hworker] at this
        cases this
  | lockWait =>
    cases hheld : s.waitMutex with
    | none => exact .worker (by rw [workerStep, hworker]; exact if_pos hheld)
    | some thread =>
      have hholds : s.main.holdsWait = true := by
        by_contra hfree
        rw [h.waitMutex_of (eq_false_of_ne_true hfree), hworker] at hheld
        cases hheld
      refine h.main_goes hreturned (by rw [hworker]; rfl) (fun hmain => ?_) fun hmain => ?_
      · rw [hmain] at hholds
        cases hholds
      · rw [hmain] at hholds
        cases hholds
  | command =>
    cases hcancel : s.cancelRequested with
    | true =>
      refine ⟨.cancelled, { s with worker := .handler }, trivial, ⟨(by rintro ⟨⟩), fun _ => by rw [hworker]; rfl⟩, ?_⟩
      rw [CmdThread.step, CmdThread.cancelled, if_pos hcancel, hworker]
    | false =>
      refine h.main_goes hreturned (by rw [hworker]; rfl) (fun hmain => ?_) fun hmain => ?_
      · have := h.asking (by rw [hmain]; rfl)
        exact absurd (hcancel.symm.trans this) Bool.false_ne_true
      · have := h.woken (by rw [hmain]; rfl) hcancel
        rw [hworker] at this
        cases this
  | finished =>
    refine h.main_goes hreturned (by rw [hworker]; rfl) (fun hmain => ?_) fun _ => hworker
    cases hheld : s.cleanupMutex with
    | none => rfl
    | some thread =>
      cases thread with
      | main => exact absurd (hmain.symm.trans (h.cleanupMain hheld)) (by rintro ⟨⟩)
      | worker =>
        have := h.cleanupWorker hheld
        rw [hworker] at this
        cases this

end Tidy

/-! ### Processes -/

def CarefulMove (p : Process) : Move → Prop
  | .act a => Careful p.state a
  | .call _ => True

instance (p : Process) : DecidablePred (CarefulMove p)
  | .act _ => inferInstanceAs (Decidable (Careful _ _))
  | .call _ => isTrue trivial

/-- The processes that begin with a call. -/
abbrev ProcessReached (allowed : Process → Move → Prop) (call : Call) (before : Bool) : Process → Prop :=
  Runs.Reached processStep allowed ⟨call, start before⟩

theorem act_eq {p q : Process} {a : Action} (h : processStep p (.act a) = some q) :
    step p.call p.state a = some q.state ∧ q.call = p.call := by
  obtain ⟨s, hs, rfl⟩ := Option.map_eq_some_iff.mp h
  exact ⟨hs, rfl⟩

theorem tidy_of_reached {before : Bool} {p : Process} (h : ProcessReached CarefulMove call before p) :
    Tidy p.state := by
  induction h with
  | start => exact .start before
  | @step p q m _ hcareful hstep ih =>
    cases m with
    | act a => exact ih.step hcareful (act_eq hstep).1
    | call next =>
      obtain ⟨hreturned, rfl⟩ := of_guard hstep
      exact ih.again hreturned

/-- In a process without spurious wake-ups, in which no thread is cancelled where a mutex is lost with it, each call
    takes a bounded number of steps, and until it returns one of them can be taken without waiting for the
    command. -/
theorem call_ends (call : Call) (before : Bool) (p : Process) (h : ProcessReached CarefulMove call before p) :
    (∀ as t, Runs.run (step p.call) (fun s a => Careful s a ∧ Once s a) p.state as = some t → as.length ≤ 22) ∧
      (p.state.main.returned = false → Goes p.call p.state) := by
  have htidy := tidy_of_reached h
  refine ⟨fun as t hrun => ?_, htidy.goes⟩
  have hlength : as.length + State.rank t ≤ State.rank p.state := Runs.length_add_le
    (fun s a t (hs : Tidy s) hallowed hstep => ⟨hs.step hallowed.1 hstep, rank_lt hs.threads hallowed.2 hstep⟩) htidy hrun
  have hmain : p.state.main.rank ≤ 12 := by cases p.state.main <;> simp [Main.rank]
  have hworker : p.state.worker.rank ≤ 9 := by cases p.state.worker <;> simp [Worker.rank]
  have hrank : p.state.rank ≤ 22 := by
    unfold State.rank
    split <;> omega
  omega

/-- A command that does not end, and the next call. -/
def hangingMoves : List Move :=
  [.act .main, .act .main, .act .main, .act .worker, .act .worker, .act .deadline, .act .expire, .act .main, .act .main,
    .act .main, .act .main, .act .cancelled, .act .worker, .act .main, .act .main, .act .main, .act .main,
    .call (showTechCall "show version".toList)]

def afterHanging : Process where
  call := showTechCall "show version".toList
  state := start true

theorem call_ends_afterHanging :
    (∀ as t, Runs.run (step afterHanging.call) (fun s a => Careful s a ∧ Once s a) afterHanging.state as = some t →
      as.length ≤ 22) ∧ (afterHanging.state.main.returned = false → Goes afterHanging.call afterHanging.state) :=
  call_ends (showTechCall "ping 10.0.0.1".toList) false afterHanging
    (Runs.reached_of_run (show Runs.run _ CarefulMove _ hangingMoves = some afterHanging by decide +kernel))

/-! ### Lost mutexes -/

/-- A thread has been cancelled with `waitMutex`. -/
structure Orphaned (s : State) : Prop where
  held : s.waitMutex = some .worker
  worker : s.worker = .handler ∨ s.worker = .finished
  main : s.main.early = false

theorem Orphaned.step {a : Action} (h : Orphaned s) (hstep : step call s a = some t) : Orphaned t := by
  have hearly : ∀ m : Main, s.main = m → m.early = false := fun m hm => hm ▸ h.main
  have hworker : ∀ w : Worker, s.worker = w → w = .handler ∨ w = .finished := fun w hw => hw ▸ h.worker
  cases a with
  | main =>
    cases mainMove hstep with
    | lockCleanup | unlockCleanup | report | join => exact ⟨h.held, h.worker, rfl⟩
    | create hmain | lockWait hmain | wait hmain | relock _ hmain | unlockWait _ hmain | timedOut hmain | woken hmain
    | cancel hmain => cases hearly _ hmain
  | createFails | spurious =>
    obtain ⟨hmain, -⟩ := of_guard hstep
    cases hearly _ hmain
  | expire =>
    obtain ⟨⟨hmain, -⟩, -⟩ := of_guard hstep
    cases hearly _ hmain
  | worker =>
    cases workerMove hstep with
    | ends => exact ⟨h.held, Or.inr rfl, h.main⟩
    | start hw | lockCleanup hw | lockWait hw | signal hw | unlockWait hw => exact absurd (hworker _ hw) (by decide)
  | setupFails | command ok =>
    obtain ⟨hw, -⟩ := of_guard hstep
    exact absurd (hworker _ hw) (by decide)
  | cancelled =>
    cases cancelMove hstep with
    | handler _ hw => rcases h.worker with hgone | hgone <;> rw [hgone] at hw <;> cases hw
    | finished _ hw => exact absurd (hworker _ hw) (by decide)
  | deadline =>
    obtain rfl := Option.some.inj hstep
    exact ⟨h.held, h.worker, h.main⟩

/-- The main thread waits for `waitMutex`, which no thread unlocks. -/
structure Hanging (s : State) : Prop where
  held : s.waitMutex = some .worker
  main : s.main = .create ∨ s.main = .lockWait
  worker : s.worker.holdsWait = false
  cancel : s.cancelRequested = false

theorem Hanging.step {a : Action} (h : Hanging s) (ha : a ≠ .createFails) (hstep : step call s a = some t) :
    Hanging t := by
  have hmain : ∀ m : Main, s.main = m → m = .create ∨ m = .lockWait := fun m hm => hm ▸ h.main
  have hheld : s.waitMutex ≠ none := fun hnone => by cases h.held.symm.trans hnone
  cases a with
  | main =>
    cases mainMove hstep with
    | create => exact ⟨h.held, Or.inr rfl, rfl, h.cancel⟩
    | lockWait _ hfree => exact absurd hfree hheld
    | wait hm | relock _ hm | unlockWait _ hm | timedOut hm | woken hm | cancel hm | lockCleanup hm | unlockCleanup hm
    | report hm | join hm => rcases hmain _ hm with hplace | hplace <;> cases hplace
  | createFails => exact absurd rfl ha
  | spurious =>
    obtain ⟨hm, -⟩ := of_guard hstep
    exact absurd (hmain _ hm) (by decide)
  | expire =>
    obtain ⟨⟨hm, -⟩, -⟩ := of_guard hstep
    exact absurd (hmain _ hm) (by decide)
  | worker =>
    cases workerMove hstep with
    | start | lockCleanup | ends => exact ⟨h.held, h.main, rfl, h.cancel⟩
    | lockWait _ hfree => exact absurd hfree hheld
    | signal hw | unlockWait hw => cases (congrArg Worker.holdsWait hw).symm.trans h.worker
  | setupFails | command ok =>
    obtain ⟨-, rfl⟩ := of_guard hstep
    exact ⟨h.held, h.main, rfl, h.cancel⟩
  | cancelled =>
    cases cancelMove hstep with
    | handler hrequested | finished hrequested => cases h.cancel.symm.trans hrequested
  | deadline =>
    obtain rfl := Option.some.inj hstep
    exact ⟨h.held, h.main, h.worker, h.cancel⟩

theorem Orphaned.of_cancelled (h : Tidy s) (hholds : s.worker.holdsWait = true) (hcancel : cancelled s = some t) :
    Orphaned t := by
  have hheld := h.waitMutex_of (h.main_not_held hholds)
  rw [hholds] at hheld
  have hearly : s.cancelRequested = true → s.main.early = false := fun hrequested =>
    eq_false_of_ne_true fun hearly => Bool.false_ne_true ((h.early hearly).symm.trans hrequested)
  cases cancelMove hcancel with
  | handler hrequested => exact ⟨hheld, Or.inl rfl, hearly hrequested⟩
  | finished _ hworker => cases (congrArg Worker.holdsWait hworker).symm.trans hholds

/-- The threads can be created. -/
def Created (_ : Process) (m : Move) : Prop := m ≠ .act .createFails

instance (p : Process) (m : Move) : Decidable (Created p m) := inferInstanceAs (Decidable (_ ≠ _))

/-- Where the thread of a call has been cancelled between the lock and the unlock of `waitMutex`, that call may
    return, but the next one never does, unless it cannot create its thread. -/
theorem next_call_hangs {before : Bool} {p q r : Process} {next : Call} (h : ProcessReached CarefulMove call before p)
    (hholds : p.state.worker.holdsWait = true) (hcancel : step p.call p.state .cancelled = some s)
    (hrun : Runs.Reached (step p.call) (fun _ _ => True) s t) (hcall : processStep ⟨p.call, t⟩ (.call next) = some q)
    (hnext : Runs.Reached processStep Created q r) :
    r.state.main = .create ∨ r.state.main = .lockWait := by
  have horphaned : Orphaned t :=
    hrun.invariant (.of_cancelled (tidy_of_reached h) hholds hcancel) fun _ _ _ hs _ hstep => hs.step hstep
  obtain ⟨-, rfl⟩ := of_guard hcall
  have hbegin : Hanging t.again := ⟨horphaned.held, Or.inl rfl, rfl, rfl⟩
  have hhanging : Hanging r.state := by
    induction hnext with
    | start => exact hbegin
    | @step p q m _ hm hstep ih =>
      cases m with
      | act a => exact ih.step (fun ha => hm (congrArg Move.act ha)) (act_eq hstep).1
      | call next =>
        obtain ⟨hdone, -⟩ := of_guard hstep
        rcases ih.main with hmain | hmain <;> rw [hmain] at hdone <;> cases hdone
  exact hhanging.main

/-- The main thread waits for `cleanupMutex`, which was lost with the thread of the command. -/
structure Stuck (s : State) : Prop where
  main : s.main = .lockCleanup
  worker : s.worker = .finished
  held : s.cleanupMutex ≠ none

theorem Stuck.step {a : Action} (h : Stuck s) (hstep : step call s a = some t) : Stuck t := by
  cases a with
  | main =>
    rw [CmdThread.step, mainStep, h.main] at hstep
    exact absurd (of_guard hstep).1 h.held
  | createFails | spurious => cases h.main.symm.trans (of_guard hstep).1
  | expire => cases h.main.symm.trans (of_guard hstep).1.1
  | worker =>
    rw [CmdThread.step, workerStep, h.worker] at hstep
    cases hstep
  | setupFails | command ok => cases h.worker.symm.trans (of_guard hstep).1
  | cancelled =>
    rw [CmdThread.step, cancelled, h.worker, ite_self] at hstep
    cases hstep
  | deadline =>
    obtain rfl := Option.some.inj hstep
    exact ⟨h.main, h.worker, h.held⟩

/-- Where the main thread is blocked on `cleanupMutex` and the thread of the command is cancelled behind the removal
    of its cleanup handler, the call never returns. -/
theorem call_hangs {p q r : Process} (hmain : p.state.main = .lockCleanup)
    (hblocked : step p.call p.state .main = none) (hworker : p.state.worker = .unlockCleanup)
    (hcancel : processStep p (.act .cancelled) = some q)
    (hnext : Runs.Reached processStep (fun _ _ => True) q r) : r.state.main = .lockCleanup := by
  have hheld : p.state.cleanupMutex ≠ none := fun hfree => by
    rw [step, mainStep, hmain] at hblocked
    cases (if_pos hfree).symm.trans hblocked
  obtain ⟨hstep, -⟩ := act_eq hcancel
  have hstuck : Stuck q.state := by
    rw [step, cancelled, hworker] at hstep
    split at hstep
    · rw [← Option.some.inj hstep]
      exact ⟨hmain, rfl, hheld⟩
    · cases hstep
  have hlater : Stuck r.state := by
    induction hnext with
    | start => exact hstuck
    | @step p q m _ _ hstep ih =>
      cases m with
      | act a => exact ih.step (act_eq hstep).1
      | call next =>
        obtain ⟨hdone, -⟩ := of_guard hstep
        rw [ih.main] at hdone
        cases hdone
  exact hlater.main

/-! The deadline passes while the thread of the command is about to signal, or has just removed its handler. -/

def versionCall : Call := showTechCall "show version".toList

def lateMoves : List Move :=
  [.act .main, .act .main, .act .main, .act .worker, .act .worker, .act (.command true), .act .deadline, .act .expire,
    .act .main, .act .main, .act .main, .act .main, .act .worker]

def late (worker : Worker) (waitMutex : Option Thread) : State where
  main := .lockCleanup
  worker := worker
  waitMutex := waitMutex
  cleanupMutex := some .worker
  waiters := []
  expired := true
  cancelRequested := true
  outcome := some true
  commandFailed := false
  threadCancelled := false
  out := []
  signalledInTime := false

def lateEnd : State :=
  { late .finished (some .worker) with
    main := .done .warning, cleanupMutex := none, commandFailed := true, threadCancelled := true,
    out := versionCall.timedOutLines }

theorem late_reached : ProcessReached CarefulMove versionCall false ⟨versionCall, late .signal (some .worker)⟩ :=
  Runs.reached_of_run (show Runs.run _ CarefulMove _ lateMoves = some _ by decide +kernel)

/-- The next call, with its thread. -/
def nextCall : Process := ⟨versionCall, { lateEnd.again with main := .lockWait, worker := .start }⟩

theorem next_call_hangs_version : nextCall.state.main = .create ∨ nextCall.state.main = .lockWait := by
  have hrun : Runs.Reached (step versionCall) (fun _ _ => True) (late .handler (some .worker)) lateEnd :=
    Runs.reached_of_run (show Runs.run _ (fun _ _ => True) _ [.worker, .main, .main, .main, .main] = some _ by
      decide +kernel)
  have hcall : processStep ⟨versionCall, lateEnd⟩ (.call versionCall) = some ⟨versionCall, lateEnd.again⟩ := rfl
  have hnext : Runs.Reached processStep Created ⟨versionCall, lateEnd.again⟩ nextCall :=
    Runs.reached_of_run (show Runs.run _ Created _ [.act .main] = some _ by decide +kernel)
  exact next_call_hangs late_reached rfl rfl hrun hcall hnext

/-- A process comes to where the thread has removed its handler and unlocked the wait mutex; time passes. -/
theorem call_hangs_version :
    ProcessReached (fun _ _ => True) versionCall false ⟨versionCall, late .unlockCleanup none⟩ ∧
      (late .finished none).main = .lockCleanup := by
  have hcancel : processStep ⟨versionCall, late .unlockCleanup none⟩ (.act .cancelled) =
      some ⟨versionCall, late .finished none⟩ := rfl
  have hnext : Runs.Reached processStep (fun _ _ => True) ⟨versionCall, late .finished none⟩
      ⟨versionCall, late .finished none⟩ :=
    Runs.reached_of_run (show Runs.run _ (fun _ _ => True) _ [.act .deadline, .act .deadline] = some _ by decide +kernel)
  have hmoves : Runs.run processStep (fun _ _ => True) ⟨versionCall, start false⟩
      (lateMoves ++ [.act .worker, .act .worker]) = some ⟨versionCall, late .unlockCleanup none⟩ := by decide +kernel
  exact ⟨Runs.reached_of_run hmoves, call_hangs rfl rfl rfl hcancel hnext⟩

end CmdThread
end OpsSupportability
