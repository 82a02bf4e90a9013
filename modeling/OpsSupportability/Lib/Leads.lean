import Mathlib.Logic.Function.Iterate

/-! Machines with one next step from each state: what the run from a state leads to, and what holds all along. -/

namespace Machine
variable {σ : Type*} {step : σ → σ} {goal : σ → Prop} {s : σ}

/-- The run from the state comes to the goal. -/
def Leads (step : σ → σ) (goal : σ → Prop) (s : σ) : Prop := ∃ n, goal (step^[n] s)

/-- All along the run from the state. -/
def Always (step : σ → σ) (P : σ → Prop) (s : σ) : Prop := ∀ n, P (step^[n] s)

theorem Leads.of_goal (h : goal s) : Leads step goal s := ⟨0, h⟩

theorem Leads.of_step (h : Leads step goal (step s)) : Leads step goal s := by
  obtain ⟨n, hn⟩ := h
  exact ⟨n + 1, hn⟩

/-- A goal that stays is reached from each state of a run that leads to it. -/
theorem Leads.iterate (hstays : ∀ s, goal s → goal (step s)) (h : Leads step goal s) (n : Nat) :
    Leads step goal (step^[n] s) := by
  have hmore : ∀ k t, goal t → goal (step^[k] t) := fun k => by
    induction k with
    | zero => exact fun _ ht => ht
    | succ k ih => exact fun t ht => ih _ (hstays t ht)
  obtain ⟨m, hm⟩ := h
  refine ⟨m, ?_⟩
  rw [← Function.iterate_add_apply, Nat.add_comm, Function.iterate_add_apply]
  exact hmore n _ hm

theorem Always.here {P : σ → Prop} (h : Always step P s) : P s := h 0

theorem Always.next {P : σ → Prop} (h : Always step P s) : Always step P (step s) := fun n => h (n + 1)

theorem Always.of_invariant {P : σ → Prop} (hs : P s) (hstep : ∀ s, P s → P (step s)) : Always step P s := fun n => by
  induction n generalizing s with
  | zero => exact hs
  | succ n ih => exact ih (hstep s hs)

end Machine
