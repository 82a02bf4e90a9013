import Mathlib.Logic.Function.Basic

/-! Optimistic transactions: sessions take snapshots of a shared state, plan a transaction on the
    snapshot, and commit it later on whatever the state has become, if the transaction's check of the
    current state passes. A snapshot may be of any past state. -/

namespace Optimistic

/-- A protocol on shared states `σ` with transactions `τ`. `plan h v t` says that a session may plan `t`
    on its view `v` while the states of the history `h` have existed. -/
structure Protocol (σ τ : Type*) where
  shows : σ → σ → Prop
  plan : List σ → σ → τ → Prop
  check : τ → σ → Prop
  apply : τ → σ → σ

/-- The shared state, the states before it, and the view each session plans on. -/
structure System (σ ι : Type*) where
  current : σ
  past : List σ
  sessions : ι → Option σ

def System.history {σ ι : Type*} (s : System σ ι) : List σ := s.current :: s.past

section
variable {σ τ ι : Type*} [DecidableEq ι] (P : Protocol σ τ)

/-- One step of one session. A session that aborts, or whose commit is refused, only drops its view. -/
inductive Step : System σ ι → System σ ι → Prop where
  | snapshot {s : System σ ι} (i : ι) {past view : σ} (hpast : past ∈ s.history) (hview : P.shows past view) :
      Step s { s with sessions := Function.update s.sessions i (some view) }
  | commit {s : System σ ι} (i : ι) {view : σ} {t : τ} (hview : s.sessions i = some view)
      (hplan : P.plan s.history view t) (hcheck : P.check t s.current) :
      Step s ⟨P.apply t s.current, s.history, Function.update s.sessions i none⟩
  | giveUp {s : System σ ι} (i : ι) : Step s { s with sessions := Function.update s.sessions i none }

inductive Reachable (init : σ) : System σ ι → Prop where
  | init : Reachable init ⟨init, [], fun _ => none⟩
  | step {s t : System σ ι} : Reachable init s → Step P s t → Reachable init t

/-- What an invariant `Inv` of the states and a relation `Coherent` between any two of them need: views
    keep `Inv`, and a commit whose check passes leads to a state with `Inv` that is coherent with the
    whole history. -/
structure Sound (Inv : σ → Prop) (Coherent : σ → σ → Prop) : Prop where
  shows : ∀ {s v}, Inv s → P.shows s v → Inv v
  commit : ∀ {h : List σ} {s v cur : σ} {t : τ}, (∀ x ∈ h, Inv x) → (∀ x ∈ h, ∀ y ∈ h, Coherent x y) →
    s ∈ h → cur ∈ h → P.shows s v → P.plan h v t → P.check t cur →
    Inv (P.apply t cur) ∧ Coherent (P.apply t cur) (P.apply t cur) ∧
      ∀ x ∈ h, Coherent x (P.apply t cur) ∧ Coherent (P.apply t cur) x

variable {P} {Inv : σ → Prop} {Coherent : σ → σ → Prop}

/-- What holds in every reachable system: all states so far satisfy the invariant and cohere, and every
    session plans on a view of one of them. -/
structure Consistent (P : Protocol σ τ) (Inv : σ → Prop) (Coherent : σ → σ → Prop) (s : System σ ι) : Prop where
  inv : ∀ x ∈ s.history, Inv x
  coherent : ∀ x ∈ s.history, ∀ y ∈ s.history, Coherent x y
  views : ∀ i v, s.sessions i = some v → ∃ x ∈ s.history, P.shows x v

theorem Step.consistent (sound : Sound P Inv Coherent) {s t : System σ ι} (hs : Consistent P Inv Coherent s)
    (h : Step P s t) : Consistent P Inv Coherent t := by
  cases h with
  | @snapshot i past view hpast hview =>
    refine ⟨hs.inv, hs.coherent, fun j v hv => ?_⟩
    by_cases hj : j = i
    · subst hj
      simp only [Function.update_self, Option.some.injEq] at hv
      exact ⟨past, hpast, hv ▸ hview⟩
    · exact hs.views j v (by simpa [Function.update_of_ne hj] using hv)
  | @commit i view t hview hplan hcheck =>
    obtain ⟨x, hx, hshow⟩ := hs.views i view hview
    obtain ⟨hinv, hself, hcoh⟩ := sound.commit hs.inv hs.coherent hx List.mem_cons_self hshow hplan hcheck
    refine ⟨?_, ?_, fun j v hv => ?_⟩
    · intro y hy
      rcases List.mem_cons.mp hy with rfl | hy
      · exact hinv
      · exact hs.inv y hy
    · intro y hy z hz
      rcases List.mem_cons.mp hy with rfl | hy <;> rcases List.mem_cons.mp hz with rfl | hz
      · exact hself
      · exact (hcoh z hz).2
      · exact (hcoh y hy).1
      · exact hs.coherent y hy z hz
    · by_cases hj : j = i
      · subst hj
        simp at hv
      · obtain ⟨y, hy, hv'⟩ := hs.views j v (by simpa [Function.update_of_ne hj] using hv)
        exact ⟨y, List.mem_cons_of_mem _ hy, hv'⟩
  | giveUp i =>
    refine ⟨hs.inv, hs.coherent, fun j v hv => ?_⟩
    by_cases hj : j = i
    · subst hj
      simp at hv
    · exact hs.views j v (by simpa [Function.update_of_ne hj] using hv)

theorem Reachable.consistent (sound : Sound P Inv Coherent) {init : σ} (hinv : Inv init)
    (hcoh : Coherent init init) {s : System σ ι} (h : Reachable P init s) : Consistent P Inv Coherent s := by
  induction h with
  | init => exact ⟨by simpa [System.history] using hinv, by simpa [System.history] using hcoh, fun _ _ h => by cases h⟩
  | step _ hst ih => exact hst.consistent sound ih

/-- The view of a session satisfies the invariant as well. -/
theorem Reachable.view_inv (sound : Sound P Inv Coherent) {init : σ} (hinv : Inv init)
    (hcoh : Coherent init init) {s : System σ ι} (h : Reachable P init s) {i : ι} {v : σ}
    (hv : s.sessions i = some v) : Inv v := by
  have hc := h.consistent sound hinv hcoh
  obtain ⟨x, hx, hshow⟩ := hc.views i v hv
  exact sound.shows (hc.inv x hx) hshow

end

end Optimistic
