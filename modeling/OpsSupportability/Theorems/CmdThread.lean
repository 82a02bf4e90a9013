import OpsSupportability.CmdThread

/-! The wait for a command has no predicate: a signal that is sent before the main thread waits is lost, and
    the wait then ends at its deadline. When every signal finds the main thread in its wait, or past it, a
    command that signals in time is not treated as timed out. -/

namespace OpsSupportability
namespace CmdThread

open Syslog (CmdStatus)

variable {call : Call} {before : Bool} {s t : State}

/-- The branch of `ETIMEDOUT`, and the way there from the wait. -/
def Main.timedOut : Main → Bool
  | .relock timedOut | .unlockWait timedOut | .check timedOut => timedOut
  | .cancel | .lockCleanup | .unlockCleanup | .report => true
  | .create | .lockWait | .wait | .waiting | .join | .done _ => false

/-- The main thread has called `pthread_cond_timedwait`. -/
def Main.hasWaited : Main → Bool
  | .create | .lockWait | .wait => false
  | _ => true

/-- The command has not ended. -/
def Worker.beforeEnd : Worker → Bool
  | .none | .start | .lockCleanup | .command => true
  | _ => false

/-- The command is not cancelled, not reported as timed out and not counted as failed, unless it has failed. -/
structure Undisturbed (before : Bool) (s : State) : Prop where
  branch : s.main.timedOut = false
  cancel : s.cancelRequested = false
  out : s.out = []
  threadCancelled : s.threadCancelled = before
  failed : s.commandFailed = true → s.outcome = some false
  returned : ∀ status, s.main = .done status → status = .warning → s.outcome = some false

/-- When the signal is sent, the main thread has called `pthread_cond_timedwait`. -/
def SignalSeen (s : State) (a : Action) : Prop := a = .worker → s.worker = .signal → s.main.hasWaited = true

instance (s : State) (a : Action) : Decidable (SignalSeen s a) :=
  inferInstanceAs (Decidable (a = .worker → s.worker = .signal → s.main.hasWaited = true))

/-! ### Moves -/

theorem of_guard {σ : Type*} {p : Prop} [Decidable p] {a b : σ} (h : (if p then some a else none) = some b) :
    p ∧ a = b := by
  rw [Option.ite_none_right_eq_some] at h
  exact ⟨h.1, Option.some.inj h.2⟩

/-- What a step of the main thread finds, and what it leaves. -/
inductive MainMove (call : Call) (s : State) : State → Prop where
  | create (hmain : s.main = .create) : MainMove call s { s with main := .lockWait, worker := .start }
  | lockWait (hmain : s.main = .lockWait) (hfree : s.waitMutex = none) :
    MainMove call s { s with main := .wait, waitMutex := some .main }
  | wait (hmain : s.main = .wait) :
    MainMove call s { s with main := .waiting, waitMutex := none, waiters := s.waiters ++ [.main] }
  | relock (timedOut : Bool) (hmain : s.main = .relock timedOut) (hfree : s.waitMutex = none) :
    MainMove call s { s with main := .unlockWait timedOut, waitMutex := some .main }
  | unlockWait (timedOut : Bool) (hmain : s.main = .unlockWait timedOut) :
    MainMove call s { s with main := .check timedOut, waitMutex := none }
  | timedOut (hmain : s.main = .check true) : MainMove call s { s with main := .cancel }
  | woken (hmain : s.main = .check false) : MainMove call s { s with main := .join }
  | cancel (hmain : s.main = .cancel) : MainMove call s { s with main := .lockCleanup, cancelRequested := true }
  | lockCleanup (hmain : s.main = .lockCleanup) (hfree : s.cleanupMutex = none) :
    MainMove call s { s with main := .unlockCleanup, cleanupMutex := some .main }
  | unlockCleanup (hmain : s.main = .unlockCleanup) :
    MainMove call s { s with main := .report, cleanupMutex := none }
  | report (hmain : s.main = .report) :
    MainMove call s { s with
      main := .join, out := s.out ++ call.timedOutLines, threadCancelled := true, commandFailed := true }
  | join (hmain : s.main = .join) (hfinished : s.worker = .finished) :
    MainMove call s { s with main := .done s.status }

theorem mainMove (hstep : mainStep call s = some t) : MainMove call s t := by
  rw [mainStep] at hstep
  cases hmain : s.main with
  | create =>
    rw [hmain] at hstep
    obtain rfl := Option.some.inj hstep
    exact .create hmain
  | lockWait =>
    rw [hmain] at hstep
    obtain ⟨hfree, rfl⟩ := of_guard hstep
    exact .lockWait hmain hfree
  | wait =>
    rw [hmain] at hstep
    obtain rfl := Option.some.inj hstep
    exact .wait hmain
  | relock timedOut =>
    rw [hmain] at hstep
    obtain ⟨hfree, rfl⟩ := of_guard hstep
    exact .relock timedOut hmain hfree
  | unlockWait timedOut =>
    rw [hmain] at hstep
    obtain rfl := Option.some.inj hstep
    exact .unlockWait timedOut hmain
  | check timedOut =>
    rw [hmain] at hstep
    obtain rfl := Option.some.inj hstep
    cases timedOut with
    | true => exact .timedOut hmain
    | false => exact .woken hmain
  | cancel =>
    rw [hmain] at hstep
    obtain rfl := Option.some.inj hstep
    exact .cancel hmain
  | lockCleanup =>
    rw [hmain] at hstep
    obtain ⟨hfree, rfl⟩ := of_guard hstep
    exact .lockCleanup hmain hfree
  | unlockCleanup =>
    rw [hmain] at hstep
    obtain rfl := Option.some.inj hstep
    exact .unlockCleanup hmain
  | report =>
    rw [hmain] at hstep
    obtain rfl := Option.some.inj hstep
    exact .report hmain
  | join =>
    rw [hmain] at hstep
    obtain ⟨hfinished, rfl⟩ := of_guard hstep
    exact .join hmain hfinished
  | waiting | done status =>
    rw [hmain] at hstep
    cases hstep

inductive WorkerMove (s : State) : State → Prop where
  | start (hworker : s.worker = .start) : WorkerMove s { s with worker := .lockCleanup }
  | lockCleanup (hworker : s.worker = .lockCleanup) (hfree : s.cleanupMutex = none) :
    WorkerMove s { s with worker := .command, cleanupMutex := some .worker }
  | lockWait (hworker : s.worker = .lockWait) (hfree : s.waitMutex = none) :
    WorkerMove s { s with worker := .signal, waitMutex := some .worker }
  | signal (hworker : s.worker = .signal) :
    WorkerMove s { signal s with worker := .unlockWait, signalledInTime := s.signalledInTime || !s.expired }
  | unlockWait (hworker : s.worker = .unlockWait) :
    WorkerMove s { s with worker := .unlockCleanup, waitMutex := none }
  | ends (hworker : s.worker = .unlockCleanup ∨ s.worker = .handler) :
    WorkerMove s { s with worker := .finished, cleanupMutex := none }

theorem workerMove (hstep : workerStep s = some t) : WorkerMove s t := by
  rw [workerStep] at hstep
  cases hworker : s.worker with
  | start =>
    rw [hworker] at hstep
    obtain rfl := Option.some.inj hstep
    exact .start hworker
  | lockCleanup =>
    rw [hworker] at hstep
    obtain ⟨hfree, rfl⟩ := of_guard hstep
    exact .lockCleanup hworker hfree
  | lockWait =>
    rw [hworker] at hstep
    obtain ⟨hfree, rfl⟩ := of_guard hstep
    exact .lockWait hworker hfree
  | signal =>
    rw [hworker] at hstep
    obtain rfl := Option.some.inj hstep
    exact .signal hworker
  | unlockWait =>
    rw [hworker] at hstep
    obtain rfl := Option.some.inj hstep
    exact .unlockWait hworker
  | unlockCleanup =>
    rw [hworker] at hstep
    obtain rfl := Option.some.inj hstep
    exact .ends (.inl hworker)
  | handler =>
    rw [hworker] at hstep
    obtain rfl := Option.some.inj hstep
    exact .ends (.inr hworker)
  | none | command | finished =>
    rw [hworker] at hstep
    cases hstep

/-- The cleanup handler is in place. -/
def Worker.guarded : Worker → Bool
  | .lockCleanup | .command | .lockWait | .signal | .unlockWait => true
  | _ => false

inductive CancelMove (s : State) : State → Prop where
  | handler (hrequested : s.cancelRequested = true) (hworker : s.worker.guarded = true) :
    CancelMove s { s with worker := .handler }
  | finished (hrequested : s.cancelRequested = true) (hworker : s.worker = .unlockCleanup) :
    CancelMove s { s with worker := .finished }

theorem cancelMove (hstep : cancelled s = some t) : CancelMove s t := by
  rw [cancelled] at hstep
  obtain ⟨hrequested, hstep⟩ := Option.ite_none_right_eq_some.mp hstep
  cases hworker : s.worker with
  | lockCleanup | command | lockWait | signal | unlockWait =>
    rw [hworker] at hstep
    obtain rfl := Option.some.inj hstep
    exact .handler hrequested (by rw [hworker]; rfl)
  | unlockCleanup =>
    rw [hworker] at hstep
    obtain rfl := Option.some.inj hstep
    exact .finished hrequested hworker
  | none | start | handler | finished =>
    rw [hworker] at hstep
    cases hstep

/-! ### The two threads -/

/-- How far a call is, as far as the waiters and the thread of the command depend on it. -/
inductive Stage where
  | fresh
  | going
  | waiting
  | returned
  deriving DecidableEq, Repr

def Main.stage : Main → Stage
  | .create => .fresh
  | .waiting => .waiting
  | .done _ => .returned
  | _ => .going

theorem Main.stage_eq_fresh {m : Main} (h : m.stage = .fresh) : m = .create := by
  cases m with
  | create => rfl
  | _ => cases h

theorem Main.stage_ne_waiting {m : Main} (h : m ≠ .waiting) : m.stage ≠ .waiting := by
  cases m with
  | waiting => exact absurd rfl h
  | _ => nofun

theorem Main.stage_eq_returned {m : Main} (h : m.stage = .returned) : m.returned = true := by
  cases m with
  | done status => rfl
  | _ => cases h

/-- Only the main thread waits, and the thread of the command is there until the call returns. -/
structure Threads (stage : Stage) (worker : Worker) (waiters : List Thread) : Prop where
  waiters : waiters = if stage = .waiting then [.main] else []
  fresh : stage = .fresh → worker = .none
  none : worker = .none → stage = .fresh ∨ stage = .returned
  returned : stage = .returned → worker = .none ∨ worker = .finished

namespace Threads
variable {stage : Stage} {w w' : Worker} {waiters : List Thread}

theorem start : Threads .fresh .none [] where
  waiters := rfl
  fresh _ := rfl
  none _ := Or.inl rfl
  returned := nofun

theorem keep {stage' : Stage} (h : Threads stage w waiters) (hstage : stage = stage') : Threads stage' w waiters :=
  hstage ▸ h

/-- The thread of the command is created. -/
theorem create (h : Threads stage w waiters) (hstage : stage = .fresh) : Threads .going .start waiters where
  waiters := by rw [h.waiters, hstage]; rfl
  fresh := nofun
  none := nofun
  returned := nofun

theorem createFails (h : Threads stage w waiters) (hstage : stage = .fresh) : Threads .returned w waiters where
  waiters := by rw [h.waiters, hstage]; rfl
  fresh := nofun
  none _ := Or.inr rfl
  returned _ := Or.inl (h.fresh hstage)

theorem running (h : Threads stage w waiters) (hfresh : stage ≠ .fresh) (hreturned : stage ≠ .returned) : w ≠ .none :=
  fun hnone => (h.none hnone).elim hfresh hreturned

theorem wait (h : Threads stage w waiters) (hstage : stage = .going) : Threads .waiting w (waiters ++ [.main]) where
  waiters := by rw [h.waiters, hstage]; rfl
  fresh := nofun
  none hnone := absurd hnone (h.running (hstage ▸ nofun) (hstage ▸ nofun))
  returned := nofun

theorem waiters_of_waiting (h : Threads stage w waiters) (hstage : stage = .waiting) : waiters = [.main] := by
  rw [h.waiters, if_pos hstage]

theorem wake (h : Threads stage w waiters) (hstage : stage = .waiting) : Threads .going w (waiters.erase .main) where
  waiters := by rw [h.waiters_of_waiting hstage]; rfl
  fresh := nofun
  none hnone := absurd hnone (h.running (hstage ▸ nofun) (hstage ▸ nofun))
  returned := nofun

theorem join (h : Threads stage w waiters) (hstage : stage = .going) (hfinished : w = .finished) :
    Threads .returned w waiters where
  waiters := by rw [h.waiters, hstage]; rfl
  fresh := nofun
  none _ := Or.inr rfl
  returned _ := Or.inr hfinished

/-- While the thread of the command runs, the call does not return. -/
theorem not_returned (h : Threads stage w waiters) (hnone : w ≠ .none) (hfinished : w ≠ .finished) :
    stage ≠ .returned :=
  fun hreturned => (h.returned hreturned).elim hnone hfinished

/-- The thread of the command goes on. -/
theorem worker (h : Threads stage w waiters) (hnone : w ≠ .none) (hfinished : w ≠ .finished) (hto : w' ≠ .none) :
    Threads stage w' waiters where
  waiters := h.waiters
  fresh hstage := absurd (h.fresh hstage) hnone
  none heq := absurd heq hto
  returned hstage := absurd hstage (h.not_returned hnone hfinished)

/-- The next call has no thread yet. -/
theorem again (h : Threads stage w waiters) (hstage : stage = .returned) : Threads .fresh .none waiters where
  waiters := by rw [h.waiters, hstage]; rfl
  fresh _ := rfl
  none _ := Or.inl rfl
  returned := nofun

end Threads

abbrev State.Threads (s : State) : Prop := CmdThread.Threads s.main.stage s.worker s.waiters

theorem signal_of_waiting (h : s.Threads) (hmain : s.main = .waiting) :
    signal s = { s with main := .relock false, waiters := [] } := by
  rw [signal, h.waiters_of_waiting (congrArg Main.stage hmain)]
  rfl

theorem signal_of_ne (h : s.Threads) (hmain : s.main ≠ .waiting) : signal s = s := by
  rw [signal, h.waiters, if_neg (Main.stage_ne_waiting hmain)]

theorem guarded_runs {w : Worker} (h : w.guarded = true) : w ≠ .none ∧ w ≠ .finished := by
  constructor
  · rintro rfl
    cases h
  · rintro rfl
    cases h

theorem threads_main (h : s.Threads) (hmove : MainMove call s t) : t.Threads := by
  cases hmove with
  | create hmain => exact h.create (congrArg Main.stage hmain)
  | wait hmain => exact h.wait (congrArg Main.stage hmain)
  | join hmain hfinished => exact h.join (congrArg Main.stage hmain) hfinished
  | lockWait hmain | relock timedOut hmain | unlockWait timedOut hmain | timedOut hmain | woken hmain | cancel hmain
  | lockCleanup hmain | unlockCleanup hmain | report hmain =>
    have hstage : s.main.stage = .going := congrArg Main.stage hmain
    exact h.keep hstage

theorem threads_worker (h : s.Threads) (hmove : WorkerMove s t) : t.Threads := by
  cases hmove with
  | signal hworker =>
    have hmoved : Threads s.main.stage .unlockWait s.waiters := h.worker (hworker ▸ nofun) (hworker ▸ nofun) nofun
    by_cases hmain : s.main = .waiting
    · rw [signal_of_waiting h hmain]
      exact ⟨rfl, nofun, nofun, nofun⟩
    · rw [signal_of_ne h hmain]
      exact hmoved
  | ends hworker =>
    have hruns : s.worker ≠ .none ∧ s.worker ≠ .finished := by
      rcases hworker with hworker | hworker
      · exact ⟨hworker ▸ nofun, hworker ▸ nofun⟩
      · exact ⟨hworker ▸ nofun, hworker ▸ nofun⟩
    exact h.worker hruns.1 hruns.2 nofun
  | start hworker | lockCleanup hworker | lockWait hworker | unlockWait hworker =>
    exact h.worker (hworker ▸ nofun) (hworker ▸ nofun) nofun

theorem threads_cancel (h : s.Threads) (hmove : CancelMove s t) : t.Threads := by
  cases hmove with
  | handler _ hworker =>
    obtain ⟨hnone, hfinished⟩ := guarded_runs hworker
    exact h.worker hnone hfinished nofun
  | finished _ hworker => exact h.worker (hworker ▸ nofun) (hworker ▸ nofun) nofun

theorem threads_step {a : Action} (h : s.Threads) (hstep : step call s a = some t) : t.Threads := by
  cases a with
  | main => exact threads_main h (mainMove hstep)
  | createFails =>
    obtain ⟨hmain, rfl⟩ := of_guard hstep
    exact h.createFails (congrArg Main.stage hmain)
  | expire =>
    obtain ⟨⟨hmain, -⟩, rfl⟩ := of_guard hstep
    exact h.wake (congrArg Main.stage hmain)
  | spurious =>
    obtain ⟨hmain, rfl⟩ := of_guard hstep
    exact h.wake (congrArg Main.stage hmain)
  | worker => exact threads_worker h (workerMove hstep)
  | setupFails | command ok =>
    obtain ⟨hworker, rfl⟩ := of_guard hstep
    exact h.worker (hworker ▸ nofun) (hworker ▸ nofun) nofun
  | cancelled => exact threads_cancel h (cancelMove hstep)
  | deadline =>
    obtain rfl := Option.some.inj hstep
    exact h

/-! ### The invariant -/

/-- Nothing of a time-out has happened. -/
structure Calm (before : Bool) (s : State) : Prop where
  branch : s.main.timedOut = false
  cancel : s.cancelRequested = false
  out : s.out = []
  threadCancelled : s.threadCancelled = before
  failed : s.commandFailed = true → s.outcome = some false

structure Inv (before : Bool) (s : State) : Prop where
  threads : s.Threads
  /-- Without the deadline, or with a signal before it. -/
  calm : s.expired = false ∨ s.signalledInTime = true → Calm before s
  /-- The signal has ended the wait. -/
  waited : s.signalledInTime = true → s.main.hasWaited = true ∧ s.main ≠ .waiting
  status : ∀ status, s.main = .done status → s.worker = .none ∨ status = s.status
  created : s.worker = .none → s.signalledInTime = false
  running : s.worker.beforeEnd = true → s.outcome = none

theorem Inv.start : Inv before (start before) where
  threads := .start
  calm _ := ⟨rfl, rfl, rfl, rfl, nofun⟩
  waited := nofun
  status := nofun
  created _ := rfl
  running _ := rfl

namespace Inv

/-- The main thread goes on, before its wait or after it, and stays on its way to or past `ETIMEDOUT`. -/
theorem mainMoves {m₀ m : Main} {waitMutex cleanupMutex : Option Thread} (h : Inv before s) (hmain : s.main = m₀)
    (ht : { s with main := m, waitMutex := waitMutex, cleanupMutex := cleanupMutex }.Threads)
    (hto : m ≠ .waiting) (hbranch : m.timedOut = m₀.timedOut) (hwaited : m₀.hasWaited = true → m.hasWaited = true)
    (hdone : ∀ status, m ≠ .done status) :
    Inv before { s with main := m, waitMutex := waitMutex, cleanupMutex := cleanupMutex } := by
  subst hmain
  exact { h with
    threads := ht
    calm := fun hcalm => { h.calm hcalm with branch := hbranch.trans (h.calm hcalm).branch }
    waited := fun hsignal => ⟨hwaited (h.waited hsignal).1, hto⟩
    status := fun status heq => absurd heq (hdone status) }

/-- On the way to `ETIMEDOUT` the deadline has passed without a signal. -/
theorem not_calm (h : Inv before s) (hmain : s.main.timedOut = true) : ¬(s.expired = false ∨ s.signalledInTime = true) :=
  fun hcalm => Bool.false_ne_true ((h.calm hcalm).branch.symm.trans hmain)

theorem not_signalled (h : Inv before s) (hmain : s.main.hasWaited = false ∨ s.main = .waiting) :
    s.signalledInTime ≠ true := by
  intro hsignal
  obtain ⟨hwaited, hne⟩ := h.waited hsignal
  rcases hmain with hmain | hmain
  · exact Bool.false_ne_true (hmain.symm.trans hwaited)
  · exact hne hmain

/-- While the thread of the command runs, the main thread does not return. -/
theorem not_done (h : Inv before s) (hnone : s.worker ≠ .none) (hfinished : s.worker ≠ .finished) (status : CmdStatus) :
    s.main ≠ .done status :=
  fun heq => h.threads.not_returned hnone hfinished (congrArg Main.stage heq)

/-- The thread of the command goes on. -/
theorem workerMoves {w : Worker} {waitMutex cleanupMutex : Option Thread} (h : Inv before s)
    (ht : { s with worker := w, waitMutex := waitMutex, cleanupMutex := cleanupMutex }.Threads)
    (hnone : s.worker ≠ .none) (hfinished : s.worker ≠ .finished) (hto : w ≠ .none)
    (hbefore : w.beforeEnd = true → s.worker.beforeEnd = true) :
    Inv before { s with worker := w, waitMutex := waitMutex, cleanupMutex := cleanupMutex } :=
  { h with
    threads := ht
    calm := fun hcalm => { h.calm hcalm with }
    status := fun status heq => absurd heq (h.not_done hnone hfinished status)
    created := fun heq => absurd heq hto
    running := fun hw => h.running (hbefore hw) }

theorem main (h : Inv before s) (hmove : MainMove call s t) : Inv before t := by
  have ht := threads_main h.threads hmove
  cases hmove with
  | create hmain =>
    have hsignal := h.not_signalled (Or.inl (by rw [hmain]; rfl))
    exact { h with
      threads := ht
      calm := fun hcalm => { h.calm hcalm with branch := rfl }
      waited := fun hs => absurd hs hsignal
      status := nofun
      created := nofun
      running := fun _ => h.running (by rw [h.threads.fresh (congrArg Main.stage hmain)]; rfl) }
  | wait hmain =>
    have hsignal := h.not_signalled (Or.inl (by rw [hmain]; rfl))
    exact { h with
      threads := ht
      calm := fun hcalm => { h.calm hcalm with branch := rfl }
      waited := fun hs => absurd hs hsignal
      status := nofun }
  | lockWait hmain | relock _ hmain | unlockWait _ hmain | timedOut hmain | woken hmain | lockCleanup hmain
  | unlockCleanup hmain => exact h.mainMoves hmain ht nofun rfl id nofun
  | cancel hmain =>
    have hbranch := h.not_calm (by rw [hmain]; rfl)
    have hmoves : Inv before { s with main := .lockCleanup } := h.mainMoves hmain ht nofun rfl id nofun
    exact { hmoves with calm := fun hcalm => absurd hcalm hbranch }
  | report hmain =>
    have hbranch := h.not_calm (by rw [hmain]; rfl)
    exact { h with
      threads := ht
      calm := fun hcalm => absurd hcalm hbranch
      waited := fun hs => absurd (Or.inr hs) hbranch
      status := nofun }
  | join hmain =>
    exact { h with
      threads := ht
      calm := fun hcalm => { h.calm hcalm with branch := rfl }
      waited := fun _ => ⟨rfl, nofun⟩
      status := fun status heq => Or.inr (Main.done.inj heq).symm }

/-- A signal that finds the main thread in its wait ends the wait; past it, there is nothing to end. -/
theorem signal (h : Inv before s) (hworker : s.worker = .signal) (hseen : s.main.hasWaited = true) :
    Inv before { CmdThread.signal s with
      worker := .unlockWait, signalledInTime := s.signalledInTime || !s.expired } := by
  have ht := threads_worker h.threads (.signal hworker)
  have hcalm : s.expired = false ∨ (s.signalledInTime || !s.expired) = true → Calm before s := by
    intro hc
    refine h.calm ?_
    cases hexpired : s.expired with
    | false => exact Or.inl rfl
    | true => simpa [hexpired] using hc
  by_cases hmain : s.main = .waiting
  · rw [signal_of_waiting h.threads hmain] at ht ⊢
    exact { threads := ht
            calm := fun hc => { hcalm hc with branch := rfl }
            waited := fun _ => ⟨rfl, nofun⟩
            status := nofun
            created := nofun
            running := nofun }
  · rw [signal_of_ne h.threads hmain] at ht ⊢
    exact { threads := ht
            calm := fun hc => { hcalm hc with }
            waited := fun _ => ⟨hseen, hmain⟩
            status := fun status heq => absurd heq (h.not_done (hworker ▸ nofun) (hworker ▸ nofun) status)
            created := nofun
            running := nofun }

theorem worker (h : Inv before s) (hseen : SignalSeen s .worker) (hmove : WorkerMove s t) : Inv before t := by
  have ht := threads_worker h.threads hmove
  cases hmove with
  | start hworker | lockCleanup hworker =>
    exact h.workerMoves ht (hworker ▸ nofun) (hworker ▸ nofun) nofun fun _ => hworker ▸ rfl
  | lockWait hworker | unlockWait hworker =>
    exact h.workerMoves ht (hworker ▸ nofun) (hworker ▸ nofun) nofun nofun
  | signal hworker => exact h.signal hworker (hseen rfl hworker)
  | ends hworker =>
    rcases hworker with hworker | hworker
    · exact h.workerMoves ht (hworker ▸ nofun) (hworker ▸ nofun) nofun nofun
    · exact h.workerMoves ht (hworker ▸ nofun) (hworker ▸ nofun) nofun nofun

/-- The wait ends, at its deadline or for no reason. -/
theorem waitEnds (h : Inv before s) (hmain : s.main = .waiting) {timedOut : Bool}
    (hexpired : timedOut = true → s.expired = true) :
    Inv before { s with main := .relock timedOut, waiters := s.waiters.erase .main } := by
  have hsignal := h.not_signalled (Or.inr hmain)
  exact { h with
    threads := h.threads.wake (congrArg Main.stage hmain)
    calm := fun hcalm => { h.calm hcalm with
      branch := by
        cases timedOut with
        | false => rfl
        | true =>
          rcases hcalm with hexp | hsig
          · exact absurd (hexp.symm.trans (hexpired rfl)) Bool.false_ne_true
          · exact absurd hsig hsignal }
    waited := fun hs => absurd hs hsignal
    status := nofun }

theorem cancel (h : Inv before s) (hmove : CancelMove s t) : Inv before t := by
  have ht := threads_cancel h.threads hmove
  cases hmove with
  | handler _ hworker =>
    obtain ⟨hnone, hfinished⟩ := guarded_runs hworker
    exact h.workerMoves ht hnone hfinished nofun nofun
  | finished _ hworker => exact h.workerMoves ht (hworker ▸ nofun) (hworker ▸ nofun) nofun nofun

/-- Every step keeps the invariant, if a signal finds the main thread in its wait or past it. -/
theorem step {a : Action} (h : Inv before s) (hseen : SignalSeen s a) (hstep : step call s a = some t) :
    Inv before t := by
  have ht := threads_step h.threads hstep
  cases a with
  | main => exact h.main (mainMove hstep)
  | createFails =>
    obtain ⟨hmain, rfl⟩ := of_guard hstep
    have hsignal := h.not_signalled (Or.inl (by rw [hmain]; rfl))
    exact { h with
      threads := ht
      calm := fun hcalm => { h.calm hcalm with branch := rfl }
      waited := fun hs => absurd hs hsignal
      status := fun _ _ => Or.inl (h.threads.fresh (congrArg Main.stage hmain)) }
  | expire =>
    obtain ⟨⟨hmain, hexpired⟩, rfl⟩ := of_guard hstep
    exact h.waitEnds hmain fun _ => hexpired
  | spurious =>
    obtain ⟨hmain, rfl⟩ := of_guard hstep
    exact h.waitEnds hmain nofun
  | worker => exact h.worker hseen (workerMove hstep)
  | setupFails =>
    obtain ⟨hworker, rfl⟩ := of_guard hstep
    exact h.workerMoves ht (hworker ▸ nofun) (hworker ▸ nofun) nofun nofun
  | command ok =>
    obtain ⟨hworker, rfl⟩ := of_guard hstep
    exact { h with
      threads := ht
      calm := fun hcalm => { h.calm hcalm with
        failed := fun hfailed => by
          cases ok with
          | true =>
            have hold := (h.calm hcalm).failed ((Bool.or_false _).symm.trans hfailed)
            rw [h.running (hworker ▸ rfl)] at hold
            cases hold
          | false => rfl }
      status := fun status heq => absurd heq (h.not_done (hworker ▸ nofun) (hworker ▸ nofun) status)
      created := nofun
      running := nofun }
  | cancelled => exact h.cancel (cancelMove hstep)
  | deadline =>
    obtain rfl := Option.some.inj hstep
    have hcalm : true = false ∨ s.signalledInTime = true → Calm before s := fun hc => h.calm (Or.inr (hc.resolve_left nofun))
    exact { h with calm := fun hc => { hcalm hc with } }

end Inv

/-- Runs whose steps are restricted. -/
abbrev Reached (call : Call) (allowed : State → Action → Prop) (before : Bool) : State → Prop :=
  Runs.Reached (step call) allowed (start before)

/-- If every signal finds the main thread in its wait or past it, a command that signals before the deadline is
    not disturbed in any state of the run. -/
theorem undisturbed_of_signalSeen (call : Call) (before : Bool) (s : State) (h : Reached call SignalSeen before s)
    (hsignal : s.signalledInTime = true) : Undisturbed before s := by
  have hinv : Inv before s := h.invariant Inv.start fun _ _ _ hs hseen hstep => hs.step hseen hstep
  have hcalm : Calm before s := hinv.calm (Or.inr hsignal)
  refine ⟨hcalm.branch, hcalm.cancel, hcalm.out, hcalm.threadCancelled, hcalm.failed, ?_⟩
  intro status hdone hwarning
  rcases hinv.status status hdone with hworker | hstatus
  · exact absurd (hsignal.symm.trans (hinv.created hworker)) Bool.noConfusion
  · refine hcalm.failed ?_
    rw [hwarning, State.status] at hstatus
    split at hstatus
    · assumption
    · cases hstatus

/-- The main thread waits, and the command signals. -/
def seenRun : List Action :=
  [.main, .worker, .worker, .main, .main, .command true, .worker, .worker, .worker, .worker, .deadline, .main, .main,
    .main, .main]

def seenEnd : State where
  main := .done .success
  worker := .finished
  waitMutex := none
  cleanupMutex := none
  waiters := []
  expired := true
  cancelRequested := false
  outcome := some true
  commandFailed := false
  threadCancelled := false
  out := []
  signalledInTime := true

theorem undisturbed_seenEnd : Undisturbed false seenEnd :=
  undisturbed_of_signalSeen (showTechCall "show version".toList) false seenEnd
    (Runs.reached_of_run (show Runs.run _ _ (start false) seenRun = some seenEnd by decide)) rfl

/-! ### A lost signal -/

/-- The command signals before the main thread waits; then the main thread waits until the deadline. -/
def lostRun : List Action :=
  [.main, .worker, .worker, .command true, .worker, .worker, .worker, .worker, .main, .main, .deadline, .expire, .main,
    .main, .main, .main, .main, .main, .main, .main]

def lostEnd (call : Call) : State where
  main := .done .warning
  worker := .finished
  waitMutex := none
  cleanupMutex := none
  waiters := []
  expired := true
  cancelRequested := true
  outcome := some true
  commandFailed := true
  threadCancelled := true
  out := call.timedOutLines
  signalledInTime := true

theorem lostEnd_reached (call : Call) : Reached call (fun _ _ => True) false (lostEnd call) :=
  Runs.reached_of_run (show Runs.run _ _ (start false) lostRun = some (lostEnd call) from rfl)

/-- A command that has succeeded and signalled in time is cancelled, reported as timed out and has failed, in
    `show tech` and in `diag-dump`. -/
theorem lost_signal :
    (Reached (showTechCall "show version".toList) (fun _ _ => True) false
        (lostEnd (showTechCall "show version".toList)) ∧
      ¬ Undisturbed false (lostEnd (showTechCall "show version".toList))) ∧
    (Reached (diagDumpCall "ops-sysd".toList) (fun _ _ => True) false (lostEnd (diagDumpCall "ops-sysd".toList)) ∧
      ¬ Undisturbed false (lostEnd (diagDumpCall "ops-sysd".toList))) :=
  ⟨⟨lostEnd_reached _, fun h => Bool.noConfusion h.cancel⟩, lostEnd_reached _, fun h => Bool.noConfusion h.cancel⟩

/-- The thread of the command has sent its signal, or will not send it. -/
def Worker.signalled : Worker → Bool
  | .unlockWait | .unlockCleanup | .handler | .finished => true
  | _ => false

/-- The signal has been sent, and the main thread waits for it or has given up. -/
structure Lost (s : State) : Prop where
  worker : s.worker.signalled = true
  main : (s.main = .lockWait ∨ s.main = .wait ∨ s.main = .waiting ∨ s.main.timedOut = true) ∨
    (s.main = .join ∨ s.main = .done .warning) ∧ s.commandFailed = true

theorem Lost.step {a : Action} (h : Lost s) (ha : a ≠ .spurious) (hstep : CmdThread.step call s a = some t) :
    Lost t := by
  obtain ⟨hworker, hmain⟩ := h
  cases a with
  | main =>
    rw [CmdThread.step, mainStep] at hstep
    constructor
    · grind [Main.timedOut, Worker.signalled]
    · grind [Main.timedOut, State.status]
  | createFails => grind [CmdThread.step, Main.timedOut, Lost]
  | expire => grind [CmdThread.step, Main.timedOut, Lost]
  | spurious => exact absurd rfl ha
  | worker => grind [CmdThread.step, workerStep, Worker.signalled, Lost]
  | setupFails => grind [CmdThread.step, Worker.signalled, Lost]
  | command ok => grind [CmdThread.step, Worker.signalled, Lost]
  | cancelled => grind [CmdThread.step, cancelled, Worker.signalled, Lost]
  | deadline => grind [CmdThread.step, Lost]

/-- Once the signal is lost, the call returns a failure, whatever the command has done, unless the wait ends for
    no reason. -/
theorem warning_of_lost (h : Lost s) {status : CmdStatus}
    (hrun : Runs.Reached (step call) (fun _ a => a ≠ .spurious) s t) (hdone : t.main = .done status) :
    status = .warning := by
  have hlost : Lost t := hrun.invariant h fun _ _ _ hs ha hstep => hs.step ha hstep
  rcases hlost.main with (hmain | hmain | hmain | hmain) | ⟨hmain | hmain, -⟩
  · cases hmain.symm.trans hdone
  · cases hmain.symm.trans hdone
  · cases hmain.symm.trans hdone
  · rw [hdone] at hmain
    cases hmain
  · cases hmain.symm.trans hdone
  · exact Main.done.inj (hdone.symm.trans hmain)

end CmdThread
end OpsSupportability
