import OpsSupportability.CmdInterrupt
import OpsSupportability.Lib.Critical
import OpsSupportability.Theorems.CmdThread

/-! A handler locks `waitMutex` on whatever thread it interrupts. When it does so only on threads that do not hold the
    mutex, no thread ever waits for one that it holds; each step at which it does not is followed by such a wait. -/

namespace OpsSupportability
namespace CmdInterrupt

open CmdThread (Stage Thread Worker of_guard)
open Critical (Phase)

variable {call : Call} {before : Before} {s s' : State} {t : Thread}

/-- The alarm reaches, and the handler of SIGTSTP goes on to its lock on, threads only that do not hold `waitMutex`. -/
def Clear (s : State) : Action → Prop
  | .deliver t .sigalrm => s.waitMutex ≠ some (.thread t)
  | .handler t => (s.frames t).head? = some ⟨.sigtstp, .set⟩ → s.waitMutex ≠ some (.thread t)
  | _ => True

instance (s : State) : ∀ a, Decidable (Clear s a)
  | .deliver _ .sigalrm => inferInstanceAs (Decidable (_ ≠ _))
  | .handler _ => inferInstanceAs (Decidable (_ → _ ≠ _))
  | .deliver _ .sigint | .deliver _ .sigtstp | .main | .createFails | .expire | .spurious | .worker | .setupFails
  | .command _ | .cancelled | .deadline => inferInstanceAs (Decidable True)

/-! ### Phases -/

def Frame.phase (f : Frame) : Phase :=
  match f.place with
  | .lock => .locking
  | .signal | .unlock => .holding
  | .check | .set | .checkAlarm | .arm | .clear => .outside

def Main.phase : Main → Phase
  | .lockWait | .relock _ => .locking
  | .wait | .unlockWait _ => .holding
  | _ => .outside

def workerPhase : Worker → Phase
  | .lockWait => .locking
  | .signal | .unlockWait => .holding
  | _ => .outside

/-- What the thread itself does with `waitMutex`. -/
def State.base (s : State) : Thread → Phase
  | .main => s.main.phase
  | .worker => workerPhase s.worker

/-- What stands on the stack of a thread. -/
def State.phases (s : State) (t : Thread) : List Phase := (s.frames t).map Frame.phase ++ [s.base t]

def workerCutOff : Worker → Bool
  | .handler | .finished => true
  | _ => false

/-- The thread has been cancelled, or has returned. -/
def State.CutOff (s : State) : Thread → Prop
  | .main => False
  | .worker => workerCutOff s.worker = true

/-- The thread is where it holds `cleanupMutex`, or has been. -/
def State.InCleanup (s : State) : Thread → Prop
  | .main => ∃ cause, s.main = .unlockCleanup cause
  | .worker => s.worker ≠ .none ∧ s.worker ≠ .start ∧ s.worker ≠ .lockCleanup

/-! ### The invariant -/

def Main.stage : Main → Stage
  | .create => .fresh
  | .waiting => .waiting
  | .done _ => .returned
  | _ => .going

theorem Main.stage_ne_waiting {m : Main} (h : m ≠ .waiting) : m.stage ≠ .waiting := by
  cases m with
  | waiting => exact absurd rfl h
  | _ => nofun

abbrev State.Threads (s : State) : Prop := CmdThread.Threads s.main.stage s.worker s.waiters

structure Inv (s : State) : Prop where
  threads : s.Threads
  stack : ∀ t, Critical.Stack s.waitMutex (.thread t) (s.CutOff t) (s.phases t)
  cleanup : ∀ t, s.cleanupMutex = some (.thread t) → s.InCleanup t

theorem Inv.start : Inv (start before) where
  threads := .start
  stack t := by
    have hleft : left before.waitLeft ≠ some (.thread t) := by
      unfold left
      split <;> exact nofun
    cases t with
    | main => exact .outside hleft
    | worker => exact .outside hleft
  cleanup t h := by
    unfold CmdInterrupt.start left at h
    dsimp only at h
    split at h <;> cases h

namespace Inv
variable {m₀ m : Main} {w₀ w : Worker} {f : Frame} {rest fs : List Frame} {owner cleanup : Option Holder}

/-- The mutex keeps its owner, or goes between this thread and nobody. -/
def Passes (t : Thread) (owner owner' : Option Holder) : Prop :=
  owner' = owner ∨ ∀ t', t' ≠ t → owner ≠ some (.thread t') ∧ owner' ≠ some (.thread t')

theorem passes_take : Passes t none (some (.thread t)) :=
  .inr fun _ ht => ⟨nofun, fun heq => ht (Holder.thread.inj (Option.some.inj heq)).symm⟩

theorem passes_give : Passes t (some (.thread t)) none :=
  .inr fun _ ht => ⟨fun heq => ht (Holder.thread.inj (Option.some.inj heq)).symm, nofun⟩

theorem stack_other {t' : Thread} (h : Inv s) (hpasses : Passes t s.waitMutex owner) (ht : t' ≠ t) :
    Critical.Stack owner (.thread t') (s.CutOff t') (s.phases t') := by
  rcases hpasses with rfl | hne
  · exact h.stack t'
  · exact (h.stack t').other (hne t' ht).1 (hne t' ht).2

/-- The flags and the output are not part of it. -/
theorem flags (h : Inv s) {masked : List Signal}
    {expired cancelRequested userInterrupt userInterruptAlarm commandFailed gThreadCancelled threadCancelled : Bool}
    {out : List Text} :
    Inv { s with masked, expired, cancelRequested, userInterrupt, userInterruptAlarm, commandFailed, gThreadCancelled,
                 threadCancelled, out } :=
  ⟨h.threads, h.stack, h.cleanup⟩

theorem stackMain (h : Inv s) (hframes : s.mainFrames = []) (hmain : s.main = m₀) :
    Critical.Stack s.waitMutex (.thread .main) False [m₀.phase] := by
  have hphases : s.phases .main = [m₀.phase] := by
    rw [State.phases, State.frames, hframes, State.base, hmain]
    rfl
  exact hphases ▸ h.stack .main

/-- The main thread takes a step. -/
theorem mainMoves (h : Inv s) (hframes : s.mainFrames = []) (hmain : s.main = m₀) {waiters : List Thread}
    (ht : CmdThread.Threads m.stage s.worker waiters)
    (hstack : Critical.Stack s.waitMutex (.thread .main) False [m₀.phase] →
      Critical.Stack owner (.thread .main) False [m.phase])
    (hpasses : Passes .main s.waitMutex owner)
    (hcleanup : cleanup = s.cleanupMutex ∧ (∀ cause, m₀ ≠ .unlockCleanup cause) ∨ cleanup = none ∨
      cleanup = some (.thread .main) ∧ ∃ cause, m = .unlockCleanup cause) :
    Inv { s with main := m, waitMutex := owner, cleanupMutex := cleanup, waiters := waiters } where
  threads := ht
  stack t := by
    cases t with
    | main =>
      have hnew := hstack (h.stackMain hframes hmain)
      unfold State.phases State.frames
      dsimp only
      rw [hframes]
      exact hnew
    | worker => exact h.stack_other hpasses (by rintro ⟨⟩)
  cleanup t heq := by
    rcases hcleanup with ⟨rfl, hm₀⟩ | rfl | ⟨rfl, hm⟩
    · have hin := h.cleanup t heq
      cases t with
      | main =>
        obtain ⟨cause, hcause⟩ := hin
        exact absurd (hmain.symm.trans hcause) (hm₀ cause)
      | worker => exact hin
    · cases heq
    · cases heq
      exact hm

theorem threads_keep (h : Inv s) (hmain : s.main = m₀) (hstage : m₀.stage = m.stage) :
    CmdThread.Threads m.stage s.worker s.waiters :=
  h.threads.keep ((congrArg Main.stage hmain).trans hstage)

/-- A step on which no mutex changes hands. -/
theorem mainQuiet (h : Inv s) (hframes : s.mainFrames = []) (hmain : s.main = m₀)
    (hstack : Critical.Stack s.waitMutex (.thread .main) False [m₀.phase] →
      Critical.Stack s.waitMutex (.thread .main) False [m.phase])
    (hcleanup : ∀ cause, m₀ ≠ .unlockCleanup cause) (hstage : m₀.stage = m.stage) : Inv { s with main := m } :=
  h.mainMoves hframes hmain (h.threads_keep hmain hstage) hstack (.inl rfl) (.inl ⟨rfl, hcleanup⟩)

theorem main (h : Inv s) (hframes : s.mainFrames = []) (hstep : mainStep call s = some s') : Inv s' := by
  rw [mainStep] at hstep
  cases hmain : s.main with
  | create =>
    rw [hmain] at hstep
    obtain rfl := Option.some.inj hstep
    have hworker := h.threads.fresh (congrArg Main.stage hmain)
    refine ⟨h.threads.create (congrArg Main.stage hmain), fun t => ?_, fun t heq => ?_⟩
    · cases t with
      | main =>
        have hstack := h.stackMain hframes hmain
        unfold State.phases State.frames
        dsimp only
        rw [hframes]
        exact hstack.enter (hstack.not_owner id (by decide))
      | worker =>
        have hstack := h.stack .worker
        unfold State.phases State.base State.CutOff at hstack ⊢
        dsimp only at hstack ⊢
        rw [hworker] at hstack
        exact hstack
    · cases t with
      | main =>
        obtain ⟨cause, hcause⟩ := h.cleanup .main heq
        cases hmain.symm.trans hcause
      | worker => exact absurd hworker (h.cleanup .worker heq).1
  | lockWait =>
    rw [hmain] at hstep
    obtain ⟨hnone, rfl⟩ := of_guard hstep
    exact h.mainMoves hframes hmain (h.threads_keep hmain rfl) (fun hs => hs.acquire) (hnone ▸ passes_take)
      (.inl ⟨rfl, nofun⟩)
  | wait =>
    rw [hmain] at hstep
    obtain rfl := Option.some.inj hstep
    have howner : s.waitMutex = some (.thread .main) :=
      (h.stack .main).owned (by rw [State.phases, State.base, hmain]; exact List.mem_append_right _ (List.mem_singleton.mpr rfl))
    exact h.mainMoves hframes hmain (h.threads.wait (congrArg Main.stage hmain)) (fun hs => hs.release)
      (howner ▸ passes_give) (.inl ⟨rfl, nofun⟩)
  | waiting =>
    rw [hmain] at hstep
    cases hstep
  | relock timedOut =>
    rw [hmain] at hstep
    obtain ⟨hnone, rfl⟩ := of_guard hstep
    exact h.mainMoves hframes hmain (h.threads_keep hmain rfl) (fun hs => hs.acquire) (hnone ▸ passes_take)
      (.inl ⟨rfl, nofun⟩)
  | unlockWait timedOut =>
    rw [hmain] at hstep
    obtain rfl := Option.some.inj hstep
    have howner : s.waitMutex = some (.thread .main) :=
      (h.stack .main).owned (by rw [State.phases, State.base, hmain]; exact List.mem_append_right _ (List.mem_singleton.mpr rfl))
    exact h.mainMoves hframes hmain (h.threads_keep hmain rfl) (fun hs => hs.release) (howner ▸ passes_give)
      (.inl ⟨rfl, nofun⟩)
  | checkAlarm timedOut =>
    rw [hmain] at hstep
    obtain rfl := Option.some.inj hstep
    split
    · exact h.mainQuiet hframes hmain id nofun rfl
    · exact h.mainQuiet hframes hmain id nofun rfl
  | clearAlarm timedOut =>
    rw [hmain] at hstep
    obtain rfl := Option.some.inj hstep
    exact (h.mainQuiet (m := .branch timedOut) hframes hmain id nofun rfl).flags
  | branch timedOut =>
    rw [hmain] at hstep
    obtain rfl := Option.some.inj hstep
    split
    · exact h.mainQuiet hframes hmain id nofun rfl
    · split
      · exact h.mainQuiet hframes hmain id nofun rfl
      · exact h.mainQuiet hframes hmain id nofun rfl
  | cancel cause =>
    rw [hmain] at hstep
    obtain rfl := Option.some.inj hstep
    exact (h.mainQuiet (m := .lockCleanup cause) hframes hmain id nofun rfl).flags
  | lockCleanup cause =>
    rw [hmain] at hstep
    obtain ⟨-, rfl⟩ := of_guard hstep
    exact h.mainMoves hframes hmain (h.threads_keep hmain rfl) id (.inl rfl) (.inr (.inr ⟨rfl, cause, rfl⟩))
  | unlockCleanup cause =>
    rw [hmain] at hstep
    obtain rfl := Option.some.inj hstep
    exact h.mainMoves hframes hmain (h.threads_keep hmain rfl) id (.inl rfl) (.inr (.inl rfl))
  | report cause =>
    rw [hmain] at hstep
    cases cause with
    | timedOut =>
      obtain rfl := Option.some.inj hstep
      exact (h.mainQuiet (m := .join) hframes hmain id nofun rfl).flags
    | userInterrupt =>
      obtain rfl := Option.some.inj hstep
      exact (h.mainQuiet (m := .join) hframes hmain id nofun rfl).flags
  | join =>
    rw [hmain] at hstep
    obtain ⟨hfinished, rfl⟩ := of_guard hstep
    exact h.mainMoves hframes hmain (h.threads.join (congrArg Main.stage hmain) hfinished) id (.inl rfl)
      (.inl ⟨rfl, nofun⟩)
  | done status =>
    rw [hmain] at hstep
    cases hstep

theorem signal_of_waiting (h : Inv s) (hmain : s.main = .waiting) :
    CmdInterrupt.signal s = { s with main := .relock false, waiters := [] } := by
  rw [CmdInterrupt.signal, h.threads.waiters_of_waiting (congrArg Main.stage hmain)]

theorem signal_of_ne (h : Inv s) (hmain : s.main ≠ .waiting) : CmdInterrupt.signal s = s := by
  rw [CmdInterrupt.signal, h.threads.waiters, if_neg (Main.stage_ne_waiting hmain)]

/-- The wait of the main thread ends, below the handlers that run on it. -/
theorem waitEnds (h : Inv s) (hmain : s.main = .waiting) (timedOut : Bool) :
    Inv { s with main := .relock timedOut, waiters := s.waiters.erase .main } where
  threads := h.threads.wake (congrArg Main.stage hmain)
  stack t := by
    cases t with
    | main =>
      have hstack := h.stack .main
      rw [State.phases, State.base, hmain] at hstack
      exact hstack.enterBelow id
    | worker => exact h.stack .worker
  cleanup t heq := by
    cases t with
    | main =>
      obtain ⟨cause, hcause⟩ := h.cleanup .main heq
      cases hmain.symm.trans hcause
    | worker => exact h.cleanup .worker heq

theorem signal (h : Inv s) : Inv (CmdInterrupt.signal s) := by
  by_cases hmain : s.main = .waiting
  · have hends := h.waitEnds hmain false
    rw [h.threads.waiters_of_waiting (congrArg Main.stage hmain)] at hends
    rw [h.signal_of_waiting hmain]
    exact hends
  · rwa [h.signal_of_ne hmain]

theorem signal_same (s : State) :
    (CmdInterrupt.signal s).worker = s.worker ∧ (CmdInterrupt.signal s).frames = s.frames ∧
      (CmdInterrupt.signal s).waitMutex = s.waitMutex := by
  unfold CmdInterrupt.signal
  split
  · exact ⟨rfl, rfl, rfl⟩
  · exact ⟨rfl, by funext t; cases t <;> rfl, rfl⟩
  · exact ⟨rfl, by funext t; cases t <;> rfl, rfl⟩

/-- The thread of the command takes a step. -/
theorem workerMoves (h : Inv s) (hframes : s.workerFrames = []) (hworker : s.worker = w₀)
    (hstack : Critical.Stack s.waitMutex (.thread .worker) (workerCutOff w₀ = true) [workerPhase w₀] →
      Critical.Stack owner (.thread .worker) (workerCutOff w = true) [workerPhase w])
    (hpasses : Passes .worker s.waitMutex owner)
    (hcleanup : ∀ t, cleanup = some (.thread t) → { s with worker := w }.InCleanup t)
    (hruns : w₀ ≠ .none ∧ w₀ ≠ .finished ∧ w ≠ .none) :
    Inv { s with worker := w, waitMutex := owner, cleanupMutex := cleanup } where
  threads := h.threads.worker (hworker ▸ hruns.1) (hworker ▸ hruns.2.1) hruns.2.2
  stack t := by
    cases t with
    | main => exact h.stack_other hpasses nofun
    | worker =>
      have hphases : s.phases .worker = [workerPhase w₀] := by
        rw [State.phases, State.frames, hframes, State.base, hworker]
        rfl
      have hold := h.stack .worker
      rw [hphases, State.CutOff, hworker] at hold
      have hnew := hstack hold
      unfold State.phases State.frames
      dsimp only
      rw [hframes]
      exact hnew
  cleanup := hcleanup

/-- `cleanupMutex` stays as it is, and the thread stays where it may hold it. -/
theorem inCleanup_keep (h : Inv s) (hworker : s.worker = w₀)
    (hw : w₀ ≠ .none ∧ w₀ ≠ .start ∧ w₀ ≠ .lockCleanup → w ≠ .none ∧ w ≠ .start ∧ w ≠ .lockCleanup) (t : Thread)
    (heq : s.cleanupMutex = some (.thread t)) : { s with worker := w }.InCleanup t := by
  cases t with
  | main => exact h.cleanup .main heq
  | worker => exact hw (hworker ▸ h.cleanup .worker heq)

theorem worker (h : Inv s) (hframes : s.workerFrames = []) (hstep : workerStep s = some s') : Inv s' := by
  rw [workerStep] at hstep
  cases hworker : s.worker with
  | none =>
    rw [hworker] at hstep
    cases hstep
  | start =>
    rw [hworker] at hstep
    obtain rfl := Option.some.inj hstep
    exact h.workerMoves hframes hworker id (.inl rfl) (h.inCleanup_keep hworker (fun hw => absurd rfl hw.2.1)) ⟨nofun, nofun, nofun⟩
  | lockCleanup =>
    rw [hworker] at hstep
    obtain ⟨-, rfl⟩ := of_guard hstep
    refine h.workerMoves hframes hworker id (.inl rfl) ?_ ⟨nofun, nofun, nofun⟩
    rintro t ⟨⟩
    exact ⟨nofun, nofun, nofun⟩
  | command =>
    rw [hworker] at hstep
    cases hstep
  | lockWait =>
    rw [hworker] at hstep
    obtain ⟨hnone, rfl⟩ := of_guard hstep
    exact h.workerMoves hframes hworker (fun hs => hs.acquire) (hnone ▸ passes_take)
      (h.inCleanup_keep hworker fun _ => ⟨nofun, nofun, nofun⟩) ⟨nofun, nofun, nofun⟩
  | signal =>
    rw [hworker] at hstep
    obtain rfl := Option.some.inj hstep
    obtain ⟨hsame, hsameFrames, -⟩ := signal_same s
    have hframes' : (CmdInterrupt.signal s).workerFrames = [] := (congrFun hsameFrames .worker).trans hframes
    exact h.signal.workerMoves hframes' (hsame.trans hworker) id (.inl rfl)
      (h.signal.inCleanup_keep (hsame.trans hworker) fun _ => ⟨nofun, nofun, nofun⟩) ⟨nofun, nofun, nofun⟩
  | unlockWait =>
    rw [hworker] at hstep
    obtain rfl := Option.some.inj hstep
    have howner : s.waitMutex = some (.thread .worker) :=
      (h.stack .worker).owned (by
        rw [State.phases, State.base, hworker]
        exact List.mem_append_right _ (List.mem_singleton.mpr rfl))
    exact h.workerMoves hframes hworker (fun hs => hs.release) (howner ▸ passes_give)
      (h.inCleanup_keep hworker fun _ => ⟨nofun, nofun, nofun⟩) ⟨nofun, nofun, nofun⟩
  | unlockCleanup =>
    rw [hworker] at hstep
    obtain rfl := Option.some.inj hstep
    exact h.workerMoves hframes hworker (fun hs => hs.mono nofun) (.inl rfl) nofun ⟨nofun, nofun, nofun⟩
  | handler =>
    rw [hworker] at hstep
    obtain rfl := Option.some.inj hstep
    exact h.workerMoves hframes hworker id (.inl rfl) nofun ⟨nofun, nofun, nofun⟩
  | finished =>
    rw [hworker] at hstep
    cases hstep

/-- The thread of the command is cancelled, with the handlers that run on it. -/
theorem cutOff (h : Inv s) (hw : workerCutOff w = true) (hphase : workerPhase w = .outside)
    (hruns : s.worker ≠ .none ∧ s.worker ≠ .finished)
    (hcleanup : ∀ t, s.cleanupMutex = some (.thread t) → { s with worker := w }.InCleanup t) (masked : List Signal) :
    Inv { s with worker := w, workerFrames := [], masked := masked } where
  threads := h.threads.worker hruns.1 hruns.2 (by rintro rfl; cases hw)
  stack t := by
    cases t with
    | main => exact h.stack .main
    | worker =>
      have hcut := Critical.Stack.cut s.waitMutex (Holder.thread .worker)
      rw [← hphase] at hcut
      exact hcut.mono fun _ => hw
  cleanup := hcleanup

theorem cancelled (h : Inv s) (hstep : CmdInterrupt.cancelled s = some s') : Inv s' := by
  have hcleanup : ∀ w : Worker, w = .handler ∨ w = .finished → ∀ t, s.cleanupMutex = some (.thread t) →
      { s with worker := w }.InCleanup t := by
    rintro w hw (_ | _) heq
    · exact h.cleanup .main heq
    · rcases hw with rfl | rfl <;> exact ⟨nofun, nofun, nofun⟩
  unfold CmdInterrupt.cancelled at hstep
  dsimp only at hstep
  split at hstep
  · split at hstep
    case h_6 hworker =>
      obtain rfl := Option.some.inj hstep
      exact h.cutOff rfl rfl ⟨hworker ▸ nofun, hworker ▸ nofun⟩ (hcleanup _ (.inr rfl)) _
    case h_7 | h_8 | h_9 | h_10 => cases hstep
    all_goals
      next hworker =>
        obtain rfl := Option.some.inj hstep
        exact h.cutOff rfl rfl ⟨hworker ▸ nofun, hworker ▸ nofun⟩ (hcleanup _ (.inl rfl)) _
  · cases hstep

/-! ### Handlers -/

/-- The handlers on a thread change. -/
theorem framesMove (h : Inv s) (t : Thread)
    (hstack : Critical.Stack s.waitMutex (.thread t) (s.CutOff t) ((s.frames t).map Frame.phase ++ [s.base t]) →
      Critical.Stack owner (.thread t) (s.CutOff t) (fs.map Frame.phase ++ [s.base t]))
    (hpasses : Passes t s.waitMutex owner) : Inv ({ s with waitMutex := owner }.setFrames t fs) := by
  cases t with
  | main =>
    refine ⟨h.threads, fun t' => ?_, h.cleanup⟩
    cases t' with
    | main => exact hstack (h.stack .main)
    | worker => exact h.stack_other hpasses nofun
  | worker =>
    refine ⟨h.threads, fun t' => ?_, h.cleanup⟩
    cases t' with
    | main => exact h.stack_other hpasses nofun
    | worker => exact hstack (h.stack .worker)

theorem deliver (h : Inv s) {sig : Signal} (hclear : Clear s (.deliver t sig)) :
    Inv (s.setFrames t (⟨sig, entry sig⟩ :: s.frames t)) := by
  refine h.framesMove t (fun hs => ?_) (.inl rfl)
  cases sig with
  | sigint => exact hs.push
  | sigtstp => exact hs.push
  | sigalrm => exact hs.push.enter hclear

/-- The innermost handler takes a step on which the mutex does not change hands. -/
theorem frameQuiet (h : Inv s) (hframes : s.frames t = f :: rest)
    (hstack : Critical.Stack s.waitMutex (.thread t) (s.CutOff t) (f.phase :: (rest.map Frame.phase ++ [s.base t])) →
      Critical.Stack s.waitMutex (.thread t) (s.CutOff t) (fs.map Frame.phase ++ [s.base t])) :
    Inv (s.setFrames t fs) := by
  refine h.framesMove t (fun hs => hstack ?_) (.inl rfl)
  rwa [hframes] at hs

theorem frame (h : Inv s) (hframes : s.frames t = f :: rest) (hclear : Clear s (.handler t))
    (hstep : frameStep call s t f rest = some s') : Inv s' := by
  obtain ⟨sig, place⟩ := f
  unfold frameStep at hstep
  dsimp only at hstep
  cases place with
  | check =>
    obtain rfl := Option.some.inj hstep
    split
    · exact h.frameQuiet hframes fun hs => hs.pop
    · exact h.frameQuiet hframes id
  | set =>
    cases sig with
    | sigtstp =>
      obtain rfl := Option.some.inj hstep
      have howner : s.waitMutex ≠ some (.thread t) := hclear (by rw [hframes]; rfl)
      exact h.flags.frameQuiet hframes fun hs => hs.enter howner
    | sigint =>
      obtain rfl := Option.some.inj hstep
      exact h.flags.frameQuiet hframes id
    | sigalrm =>
      obtain rfl := Option.some.inj hstep
      exact h.flags.frameQuiet hframes id
  | checkAlarm =>
    obtain rfl := Option.some.inj hstep
    split
    · exact h.frameQuiet hframes fun hs => hs.pop
    · exact h.frameQuiet hframes id
  | arm =>
    obtain rfl := Option.some.inj hstep
    exact h.flags.frameQuiet hframes fun hs => hs.pop
  | lock =>
    obtain ⟨hnone, rfl⟩ := of_guard hstep
    refine h.framesMove t (fun hs => ?_) (hnone ▸ passes_take)
    rw [hframes] at hs
    exact hs.acquire
  | signal =>
    obtain rfl := Option.some.inj hstep
    obtain ⟨-, hsame, -⟩ := signal_same s
    have hframes' : (CmdInterrupt.signal s).frames t = ⟨sig, .signal⟩ :: rest := hsame ▸ hframes
    exact h.signal.frameQuiet hframes' id
  | unlock =>
    have howner : s.waitMutex = some (.thread t) :=
      (h.stack t).owned (by rw [State.phases, hframes]; exact List.mem_cons_self)
    cases sig with
    | sigalrm =>
      obtain rfl := Option.some.inj hstep
      refine h.framesMove t (fun hs => ?_) (howner ▸ passes_give)
      rw [hframes] at hs
      exact hs.release
    | sigint =>
      obtain rfl := Option.some.inj hstep
      refine h.framesMove t (fun hs => ?_) (howner ▸ passes_give)
      rw [hframes] at hs
      exact hs.release.pop
    | sigtstp =>
      obtain rfl := Option.some.inj hstep
      refine h.framesMove t (fun hs => ?_) (howner ▸ passes_give)
      rw [hframes] at hs
      exact hs.release.pop
  | clear =>
    obtain rfl := Option.some.inj hstep
    exact h.flags.frameQuiet hframes fun hs => hs.pop

/-- Every step keeps the invariant, if the handlers lock `waitMutex` on threads only that do not hold it. -/
theorem step {a : Action} (h : Inv s) (hclear : Clear s a) (hstep : step call s a = some s') : Inv s' := by
  cases a with
  | main =>
    rw [CmdInterrupt.step, Option.ite_none_right_eq_some] at hstep
    exact h.main hstep.1 hstep.2
  | createFails =>
    obtain ⟨⟨hframes, hmain⟩, rfl⟩ := of_guard hstep
    exact h.mainMoves hframes hmain (h.threads.createFails (congrArg Main.stage hmain)) id (.inl rfl)
      (.inl ⟨rfl, (by rintro _ ⟨⟩)⟩)
  | expire =>
    obtain ⟨⟨-, hmain, -⟩, rfl⟩ := of_guard hstep
    exact h.waitEnds hmain true
  | spurious =>
    obtain ⟨⟨-, hmain⟩, rfl⟩ := of_guard hstep
    exact h.waitEnds hmain false
  | worker =>
    rw [CmdInterrupt.step, Option.ite_none_right_eq_some] at hstep
    exact h.worker hstep.1 hstep.2
  | setupFails =>
    obtain ⟨⟨hframes, hworker⟩, rfl⟩ := of_guard hstep
    exact h.workerMoves hframes hworker (fun hs => hs.mono (by rintro ⟨⟩)) (.inl rfl)
      (h.inCleanup_keep hworker fun _ => ⟨by rintro ⟨⟩, by rintro ⟨⟩, by rintro ⟨⟩⟩)
      ⟨by rintro ⟨⟩, by rintro ⟨⟩, by rintro ⟨⟩⟩
  | command ok =>
    obtain ⟨⟨hframes, hworker⟩, rfl⟩ := of_guard hstep
    have howner : s.waitMutex ≠ some (.thread .worker) := by
      refine (h.stack .worker).not_owner ?_ ?_
      · rw [State.CutOff, hworker]
        rintro ⟨⟩
      · rw [State.phases, State.frames, hframes, State.base, hworker]
        decide
    have hmoved : Inv { s with worker := .lockWait } :=
      h.workerMoves hframes hworker (fun hs => hs.enter howner) (.inl rfl)
        (h.inCleanup_keep hworker fun _ => ⟨by rintro ⟨⟩, by rintro ⟨⟩, by rintro ⟨⟩⟩)
        ⟨by rintro ⟨⟩, by rintro ⟨⟩, by rintro ⟨⟩⟩
    exact hmoved.flags
  | cancelled => exact h.cancelled hstep
  | deadline =>
    obtain rfl := Option.some.inj hstep
    exact h.flags
  | deliver t sig =>
    obtain ⟨-, rfl⟩ := of_guard hstep
    exact h.deliver hclear
  | handler t =>
    rw [CmdInterrupt.step] at hstep
    cases hframes : s.frames t with
    | nil =>
      rw [hframes] at hstep
      cases hstep
    | cons f rest =>
      rw [hframes] at hstep
      exact h.frame hframes hclear hstep

theorem locks_base (hframes : s.frames t = []) {m : Mutex} (hlocks : s.locks t = some m) :
    m = .wait ∧ s.base t = .locking ∨ m = .cleanup ∧ ¬ s.InCleanup t := by
  unfold State.locks at hlocks
  rw [hframes] at hlocks
  cases t with
  | main =>
    rw [State.base, State.InCleanup]
    dsimp only at hlocks
    cases hmain : s.main <;> rw [hmain] at hlocks <;> cases hlocks
    · exact .inl ⟨rfl, rfl⟩
    · exact .inl ⟨rfl, rfl⟩
    · exact .inr ⟨rfl, nofun⟩
  | worker =>
    rw [State.base, State.InCleanup]
    dsimp only at hlocks
    cases hworker : s.worker <;> rw [hworker] at hlocks <;> cases hlocks
    · exact .inr ⟨rfl, fun hin => hin.2.2 rfl⟩
    · exact .inl ⟨rfl, rfl⟩

/-- The next step on a thread locks what the thread does not hold. -/
theorem not_selfWaits (h : Inv s) (t : Thread) : ¬ SelfWaits s t := by
  rintro ⟨m, hlocks, howner⟩
  have hstack := h.stack t
  cases hframes : s.frames t with
  | cons f rest =>
    unfold State.locks at hlocks
    rw [hframes] at hlocks
    obtain ⟨hplace, hm⟩ := Option.ite_none_right_eq_some.mp hlocks
    obtain rfl := Option.some.inj hm
    rw [State.phases, hframes, List.map_cons, List.cons_append, Frame.phase, hplace] at hstack
    exact hstack.not_owner_of_locking howner
  | nil =>
    rcases locks_base hframes hlocks with ⟨rfl, hbase⟩ | ⟨rfl, hout⟩
    · rw [State.phases, hframes, hbase] at hstack
      exact hstack.not_owner_of_locking howner
    · exact hout (h.cleanup t howner)

end Inv

/-- The other steps are those after which a thread waits for `waitMutex`, which it holds. -/
theorem selfWaits_of_not_clear {a : Action} (hclear : ¬ Clear s a) (hstep : step call s a = some s') :
    ∃ t, SelfWaits s' t := by
  cases a with
  | deliver t sig =>
    obtain ⟨-, rfl⟩ := of_guard hstep
    cases sig with
    | sigint => exact absurd trivial hclear
    | sigtstp => exact absurd trivial hclear
    | sigalrm =>
      refine ⟨t, .wait, ?_, ?_⟩
      · cases t <;> rfl
      · cases t <;> exact Decidable.not_not.mp hclear
  | handler t =>
    obtain ⟨hhead, howner⟩ := Decidable.not_imp_iff_and_not.mp hclear
    cases hframes : s.frames t with
    | nil =>
      rw [hframes] at hhead
      cases hhead
    | cons f rest =>
      rw [hframes] at hhead
      obtain rfl := Option.some.inj hhead
      rw [step, hframes] at hstep
      obtain rfl := Option.some.inj hstep
      refine ⟨t, .wait, ?_, ?_⟩
      · cases t <;> rfl
      · cases t <;> exact Decidable.not_not.mp howner
  | _ => exact absurd trivial hclear

/-- Runs whose steps are restricted. -/
abbrev Reached (call : Call) (allowed : State → Action → Prop) (before : Before) : State → Prop :=
  Runs.Reached (step call) allowed (start before)

theorem inv_of_reached (h : Reached call Clear before s) : Inv s :=
  h.invariant Inv.start fun _ _ _ hs hclear hstep => hs.step hclear hstep

/-- If the handlers lock `waitMutex` on threads only that do not hold it, in any order of steps and signals, no thread
    waits for a mutex that it holds. -/
theorem not_selfWaits_of_clear (call : Call) (before : Before) (s : State) (h : Reached call Clear before s) (t : Thread) :
    ¬ SelfWaits s t :=
  (inv_of_reached h).not_selfWaits t

def quiet : Before := ⟨false, false, false, false, false⟩

/-- SIGTSTP reaches the main thread in its wait. -/
def waitingRun : List Action :=
  [.main, .main, .main, .deliver .main .sigtstp, .handler .main, .handler .main, .handler .main, .handler .main]

def waitingEnd : State :=
  { start quiet with
    main := .relock false
    worker := .start
    mainFrames := [⟨.sigtstp, .unlock⟩]
    waitMutex := some (.thread .main)
    userInterrupt := true }

theorem waitingEnd_not_selfWaits : ¬ SelfWaits waitingEnd .main :=
  not_selfWaits_of_clear (showTechCall "show version".toList) quiet waitingEnd
    (Runs.reached_of_run (show Runs.run _ _ (start quiet) waitingRun = some waitingEnd by decide)) .main

/-! ### A handler on the thread that holds the mutex -/

/-- The alarm reaches the main thread between its lock and its wait. -/
def alarmRun : List Action := [.main, .main, .deliver .main .sigalrm]

def alarmEnd : State :=
  { start quiet with
    main := .wait
    worker := .start
    mainFrames := [⟨.sigalrm, .lock⟩]
    waitMutex := some (.thread .main) }

/-- SIGTSTP reaches the thread of the command between its lock and its signal. -/
def stopRun : List Action :=
  [.main, .worker, .worker, .command true, .worker, .deliver .worker .sigtstp, .handler .worker, .handler .worker]

def stopEnd : State :=
  { start quiet with
    main := .lockWait
    worker := .signal
    workerFrames := [⟨.sigtstp, .lock⟩]
    waitMutex := some (.thread .worker)
    cleanupMutex := some (.thread .worker)
    userInterrupt := true }

theorem alarmEnd_reached (call : Call) : Reached call (fun _ _ => True) quiet alarmEnd :=
  Runs.reached_of_run (show Runs.run _ _ (start quiet) alarmRun = some alarmEnd from rfl)

theorem stopEnd_reached (call : Call) : Reached call (fun _ _ => True) quiet stopEnd :=
  Runs.reached_of_run (show Runs.run _ _ (start quiet) stopRun = some stopEnd from rfl)

/-- Each thread can come to wait for the mutex that it holds, in `show tech` and in `diag-dump`. -/
theorem selfWaits_reached :
    ¬ (∀ before s, Reached (showTechCall "show version".toList) (fun _ _ => True) before s → ∀ t, ¬ SelfWaits s t) ∧
      ¬ (∀ before s, Reached (diagDumpCall "ops-sysd".toList) (fun _ _ => True) before s → ∀ t, ¬ SelfWaits s t) :=
  ⟨fun h => h quiet alarmEnd (alarmEnd_reached _) .main ⟨.wait, rfl, rfl⟩,
    fun h => h quiet stopEnd (stopEnd_reached _) .worker ⟨.wait, rfl, rfl⟩⟩

theorem step_main (hframes : s.mainFrames = []) : step call s .main = mainStep call s := if_pos hframes

theorem step_worker (hframes : s.workerFrames = []) : step call s .worker = workerStep s := if_pos hframes

/-- The step that a thread takes when no handler runs on it. -/
def ownStep : Thread → Action
  | .main => .main
  | .worker => .worker

/-- A thread that waits for a mutex that is held takes no step of its own, and none of a handler. -/
theorem blocked_of_locks {m : Mutex} (hlocks : s.locks t = some m) (howner : s.owner m ≠ none) :
    step call s (ownStep t) = none ∧ step call s (.handler t) = none := by
  unfold State.locks at hlocks
  cases hframes : s.frames t with
  | cons f rest =>
    rw [hframes] at hlocks
    obtain ⟨hplace, hm⟩ := Option.ite_none_right_eq_some.mp hlocks
    obtain rfl := Option.some.inj hm
    constructor
    · cases t with
      | main => exact if_neg fun hnil => List.cons_ne_nil f rest (hframes.symm.trans hnil)
      | worker => exact if_neg fun hnil => List.cons_ne_nil f rest (hframes.symm.trans hnil)
    · rw [step, hframes]
      dsimp only
      rw [frameStep, hplace]
      exact if_neg howner
  | nil =>
    rw [hframes] at hlocks
    refine ⟨?_, by rw [step, hframes]⟩
    cases t with
    | main =>
      rw [ownStep, step_main hframes, mainStep]
      cases hmain : s.main <;> dsimp only at hlocks <;> rw [hmain] at hlocks <;> cases hlocks <;> exact if_neg howner
    | worker =>
      rw [ownStep, step_worker hframes, workerStep]
      cases hworker : s.worker <;> dsimp only at hlocks <;> rw [hworker] at hlocks <;> cases hlocks <;> exact if_neg howner

theorem blocked_of_selfWaits (h : SelfWaits s t) : step call s (ownStep t) = none ∧ step call s (.handler t) = none := by
  obtain ⟨m, hlocks, howner⟩ := h
  exact blocked_of_locks hlocks (by rw [howner]; exact nofun)

end CmdInterrupt
end OpsSupportability
