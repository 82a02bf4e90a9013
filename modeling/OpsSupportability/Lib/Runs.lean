import Mathlib.Logic.Basic

/-! Runs of a system whose step is a partial function: an action that has no result is not enabled. The
    actions of a run may be restricted, each in the state in which it is taken. -/

namespace Runs
variable {σ α : Type*} {step : σ → α → Option σ} {allowed : σ → α → Prop} {init s t : σ}

inductive Reached (step : σ → α → Option σ) (allowed : σ → α → Prop) (init : σ) : σ → Prop where
  | start : Reached step allowed init init
  | step {s t : σ} {a : α} : Reached step allowed init s → allowed s a → step s a = some t →
      Reached step allowed init t

namespace Reached

theorem invariant {P : σ → Prop} (hinit : P init)
    (hstep : ∀ s a t, P s → allowed s a → step s a = some t → P t) (h : Reached step allowed init t) : P t := by
  induction h with
  | start => exact hinit
  | step _ hallowed hs ih => exact hstep _ _ _ ih hallowed hs

theorem mono {allowed' : σ → α → Prop} (hsub : ∀ s a, allowed s a → allowed' s a)
    (h : Reached step allowed init t) : Reached step allowed' init t := by
  induction h with
  | start => exact .start
  | step _ hallowed hs ih => exact ih.step (hsub _ _ hallowed) hs

theorem trans (h : Reached step allowed init s) (h' : Reached step allowed s t) : Reached step allowed init t := by
  induction h' with
  | start => exact h
  | step _ hallowed hs ih => exact ih.step hallowed hs

end Reached

variable [∀ s a, Decidable (allowed s a)]

/-- The state after a list of actions, if each is allowed and enabled. -/
def run (step : σ → α → Option σ) (allowed : σ → α → Prop) [∀ s a, Decidable (allowed s a)] (s : σ) :
    List α → Option σ
  | [] => some s
  | a :: as => if allowed s a then (step s a).bind fun t => run step allowed t as else none

theorem reached_of_run {as : List α} (h : run step allowed init as = some t) : Reached step allowed init t := by
  induction as generalizing init with
  | nil =>
    cases h
    exact .start
  | cons a as ih =>
    rw [run] at h
    split at h
    · next hallowed =>
      obtain ⟨s, hs, hrest⟩ := Option.bind_eq_some_iff.mp h
      exact (Reached.start.step hallowed hs).trans (ih hrest)
    · cases h

/-- Steps that all lower a measure: a run of them is no longer than the measure at its start. -/
theorem length_add_le {P : σ → Prop} {measure : σ → Nat}
    (hstep : ∀ s a t, P s → allowed s a → step s a = some t → P t ∧ measure t < measure s) {as : List α} (hs : P s)
    (h : run step allowed s as = some t) : as.length + measure t ≤ measure s := by
  induction as generalizing s with
  | nil =>
    cases h
    exact Nat.le_of_eq (Nat.zero_add _)
  | cons a as ih =>
    rw [run] at h
    split at h
    · next hallowed =>
      obtain ⟨u, hu, hrest⟩ := Option.bind_eq_some_iff.mp h
      obtain ⟨hinv, hless⟩ := hstep s a u hs hallowed hu
      have hlater := ih hinv hrest
      rw [List.length_cons]
      omega
    · cases h

/-- What a step preserves or rejects, in terms of the actions before it, over a list of actions: a run that is
    rejected is so at one of them. -/
theorem foldlM_history {R : List α → σ → Prop} {Rejects : List α → α → Prop}
    (hreject : ∀ before s a, R before s → (step s a = none ↔ Rejects before a))
    (hstep : ∀ before s a t, R before s → step s a = some t → R (before ++ [a]) t) (l : List α) {before : List α}
    (h : R before s) :
    (l.foldlM step s = none ↔ ∃ pre a post, l = pre ++ a :: post ∧ Rejects (before ++ pre) a) ∧
      ∀ t, l.foldlM step s = some t → R (before ++ l) t := by
  induction l generalizing before s with
  | nil =>
    refine ⟨iff_of_false nofun ?_, fun t ht => ?_⟩
    · rintro ⟨pre, a, post, hl, -⟩
      cases pre <;> cases hl
    · cases ht
      rwa [List.append_nil]
  | cons a l ih =>
    rw [List.foldlM_cons]
    cases hs : step s a with
    | none =>
      refine ⟨iff_of_true rfl ⟨[], a, l, rfl, ?_⟩, nofun⟩
      rw [List.append_nil]
      exact (hreject before s a h).mp hs
    | some t =>
      obtain ⟨hrest, hreach⟩ := ih (hstep before s a t h hs)
      refine ⟨hrest.trans ⟨?_, ?_⟩, fun u hu => ?_⟩
      · rintro ⟨pre, b, post, rfl, hb⟩
        refine ⟨a :: pre, b, post, rfl, ?_⟩
        rwa [List.append_assoc, List.singleton_append] at hb
      · rintro ⟨pre, b, post, hl, hb⟩
        cases pre with
        | nil =>
          obtain ⟨rfl, rfl⟩ := List.cons_eq_cons.mp hl
          rw [List.append_nil] at hb
          exact absurd hs ((hreject before s a h).mpr hb ▸ nofun)
        | cons a' pre =>
          obtain ⟨rfl, rfl⟩ := List.cons_eq_cons.mp hl
          refine ⟨pre, b, post, rfl, ?_⟩
          rwa [List.append_assoc, List.singleton_append]
      · rw [List.append_cons]
        exact hreach u hu

end Runs
