import OpsSupportability.Theorems.CmdInterrupt

/-! Without signals the functions do what their model without handlers says: each of its runs is a run here. -/

namespace OpsSupportability
namespace CmdInterrupt

open CmdThread (CancelMove MainMove Thread Worker WorkerMove cancelMove mainMove of_guard workerMove)

variable {call : Call} {s : State}

/-- The place of a main thread that no user interrupts. -/
def undisturbedMain : CmdThread.Main → Main
  | .create => .create
  | .lockWait => .lockWait
  | .wait => .wait
  | .waiting => .waiting
  | .relock timedOut => .relock timedOut
  | .unlockWait timedOut => .unlockWait timedOut
  | .check timedOut => .checkAlarm timedOut
  | .cancel => .cancel .timedOut
  | .lockCleanup => .lockCleanup .timedOut
  | .unlockCleanup => .unlockCleanup .timedOut
  | .report => .report .timedOut
  | .join => .join
  | .done status => .done status

def undisturbed (s : CmdThread.State) : State where
  main := undisturbedMain s.main
  worker := s.worker
  mainFrames := []
  workerFrames := []
  masked := []
  waitMutex := s.waitMutex.map .thread
  cleanupMutex := s.cleanupMutex.map .thread
  waiters := s.waiters
  expired := s.expired
  cancelRequested := s.cancelRequested
  userInterrupt := false
  userInterruptAlarm := false
  commandFailed := s.commandFailed
  gThreadCancelled := s.threadCancelled
  threadCancelled := true
  out := s.out

def ofUndisturbed : CmdThread.Action → Action
  | .main => .main
  | .createFails => .createFails
  | .expire => .expire
  | .spurious => .spurious
  | .worker => .worker
  | .setupFails => .setupFails
  | .command ok => .command ok
  | .cancelled => .cancelled
  | .deadline => .deadline

/-- Neither a signal nor a handler. -/
def NoSignal (_ : State) : Action → Prop
  | .deliver _ _ | .handler _ => False
  | _ => True

theorem noSignal_ofUndisturbed (s : State) (a : CmdThread.Action) : NoSignal s (ofUndisturbed a) := by
  cases a <;> exact trivial

theorem undisturbed_signal (s : CmdThread.State) : undisturbed (CmdThread.signal s) = signal (undisturbed s) := by
  obtain ⟨main, worker, waitMutex, cleanupMutex, waiters, rest⟩ := s
  cases waiters with
  | nil => rfl
  | cons t ts => cases t <;> rfl

theorem undisturbed_status (s : CmdThread.State) : (undisturbed s).status = s.status := by
  unfold State.status CmdThread.State.status undisturbed
  dsimp only
  rw [Bool.false_and, Bool.or_false]

theorem map_thread_eq_none {o : Option Thread} : o.map Holder.thread = none ↔ o = none := Option.map_eq_none_iff

theorem mainMove_undisturbed {s s' : CmdThread.State} (hcheck : ∀ timedOut, s.main ≠ .check timedOut)
    (h : MainMove call.toCall s s') : mainStep call (undisturbed s) = some (undisturbed s') := by
  have hstatus := undisturbed_status s
  have hplace : (undisturbed s).main = undisturbedMain s.main := rfl
  unfold mainStep
  rw [hplace]
  cases h with
  | create hmain | wait hmain | unlockWait _ hmain | cancel hmain | unlockCleanup hmain | report hmain =>
    rw [hmain]
    rfl
  | lockWait hmain hfree | relock _ hmain hfree | lockCleanup hmain hfree =>
    rw [hmain]
    exact if_pos (map_thread_eq_none.mpr hfree)
  | timedOut hmain | woken hmain => exact absurd hmain (hcheck _)
  | join hmain hfinished =>
    rw [hmain]
    refine (if_pos hfinished).trans ?_
    rw [hstatus]
    rfl

theorem workerMove_undisturbed {s s' : CmdThread.State} (h : WorkerMove s s') :
    workerStep (undisturbed s) = some (undisturbed s') := by
  have hplace : (undisturbed s).worker = s.worker := rfl
  unfold workerStep
  rw [hplace]
  cases h with
  | start hworker | unlockWait hworker =>
    rw [hworker]
    rfl
  | lockCleanup hworker hfree | lockWait hworker hfree =>
    rw [hworker]
    exact if_pos (map_thread_eq_none.mpr hfree)
  | signal hworker =>
    rw [hworker]
    dsimp only
    rw [← undisturbed_signal]
    rfl
  | ends hworker =>
    rcases hworker with hworker | hworker
    · rw [hworker]
      rfl
    · rw [hworker]
      rfl

theorem cancelMove_undisturbed {s s' : CmdThread.State} (h : CancelMove s s') :
    cancelled (undisturbed s) = some (undisturbed s') := by
  have hplace : (undisturbed s).worker = s.worker := rfl
  unfold cancelled
  cases h with
  | handler hrequested hworker =>
    refine (if_pos hrequested).trans ?_
    rw [hplace]
    cases hw : s.worker with
    | lockCleanup | command | lockWait | signal | unlockWait => rfl
    | none | start | unlockCleanup | handler | finished =>
      rw [hw] at hworker
      cases hworker
  | finished hrequested hworker =>
    refine (if_pos hrequested).trans ?_
    rw [hplace, hworker]
    rfl

/-- Without signals each step of the undisturbed functions is one here, or two where the flags are looked at. -/
theorem step_undisturbed {s s' : CmdThread.State} {a : CmdThread.Action}
    (h : CmdThread.step call.toCall s a = some s') :
    Runs.Reached (step call) NoSignal (undisturbed s) (undisturbed s') := by
  have hone : step call (undisturbed s) (ofUndisturbed a) = some (undisturbed s') →
      Runs.Reached (step call) NoSignal (undisturbed s) (undisturbed s') := fun hs =>
    Runs.Reached.start.step (noSignal_ofUndisturbed _ a) hs
  cases a with
  | main =>
    by_cases hcheck : ∃ timedOut, s.main = .check timedOut
    · obtain ⟨timedOut, hmain⟩ := hcheck
      rw [CmdThread.step, CmdThread.mainStep, hmain] at h
      obtain rfl := Option.some.inj h
      have hlook : step call (undisturbed s) .main = some { undisturbed s with main := .branch timedOut } := by
        rw [step_main rfl, mainStep, show (undisturbed s).main = .checkAlarm timedOut from congrArg undisturbedMain hmain]
        rfl
      refine (Runs.Reached.start.step trivial hlook).step (a := .main) trivial ?_
      cases timedOut <;> rfl
    · refine hone ((step_main rfl).trans ?_)
      exact mainMove_undisturbed (fun timedOut hmain => hcheck ⟨timedOut, hmain⟩) (mainMove h)
  | createFails =>
    obtain ⟨hmain, rfl⟩ := of_guard h
    exact hone (if_pos ⟨rfl, congrArg undisturbedMain hmain⟩)
  | expire =>
    obtain ⟨⟨hmain, hexpired⟩, rfl⟩ := of_guard h
    exact hone (if_pos ⟨rfl, congrArg undisturbedMain hmain, hexpired⟩)
  | spurious =>
    obtain ⟨hmain, rfl⟩ := of_guard h
    exact hone (if_pos ⟨rfl, congrArg undisturbedMain hmain⟩)
  | worker =>
    refine hone ((step_worker rfl).trans ?_)
    exact workerMove_undisturbed (workerMove h)
  | setupFails =>
    obtain ⟨hworker, rfl⟩ := of_guard h
    exact hone (if_pos ⟨rfl, hworker⟩)
  | command ok =>
    obtain ⟨hworker, rfl⟩ := of_guard h
    exact hone (if_pos ⟨rfl, hworker⟩)
  | cancelled => exact hone (cancelMove_undisturbed (cancelMove h))
  | deadline =>
    obtain rfl := Option.some.inj h
    exact hone rfl

/-- The runs of the undisturbed functions are runs without signals. -/
theorem reached_undisturbed {allowed : CmdThread.State → CmdThread.Action → Prop} {threadCancelled : Bool}
    {s : CmdThread.State} (h : CmdThread.Reached call.toCall allowed threadCancelled s) :
    Reached call NoSignal ⟨false, false, threadCancelled, false, false⟩ (undisturbed s) := by
  induction h with
  | start => exact .start
  | step _ _ hstep ih => exact ih.trans (step_undisturbed hstep)

/-- Without signals nothing is locked by a handler. -/
theorem clear_of_noSignal {a : Action} (h : NoSignal s a) : Clear s a := by
  cases a with
  | deliver _ _ | handler _ => exact h.elim
  | _ => exact trivial

theorem undisturbed_not_selfWaits {allowed : CmdThread.State → CmdThread.Action → Prop} {threadCancelled : Bool}
    {s : CmdThread.State} (h : CmdThread.Reached call.toCall allowed threadCancelled s) (t : Thread) :
    ¬ SelfWaits (undisturbed s) t :=
  (inv_of_reached ((reached_undisturbed h).mono fun _ _ => clear_of_noSignal)).not_selfWaits t

end CmdInterrupt
end OpsSupportability
