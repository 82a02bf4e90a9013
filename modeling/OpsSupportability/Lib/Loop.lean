import Mathlib.Data.List.Basic

/-! Loops over a list that change its elements in place and carry a state from one element to the next.
    A loop that is left early does not touch the rest of the list. -/

namespace Loop
variable {α β σ τ : Type*}

/-- Every element in turn, until the state says stop. -/
def walk (stopped : σ → Bool) (body : α → σ → α × σ) : List α → σ → List α × σ
  | [], s => ([], s)
  | a :: as, s =>
    let (a', s') := body a s
    if stopped s' then (a' :: as, s')
    else
      let (as', s'') := walk stopped body as s'
      (a' :: as', s'')

/-- The first element for which the body succeeds; the search ends there. -/
def firstOf (body : α → σ → Option (α × σ)) : List α → σ → Option (List α × σ)
  | [], _ => none
  | a :: as, s =>
    match body a s with
    | some (a', s') => some (a' :: as, s')
    | none => (firstOf body as s).map fun (as', s') => (a :: as', s')

section Walk
variable {stopped : σ → Bool} {body : α → σ → α × σ} {a : α} {l l' : List α} {s : σ}

theorem walk_cons_of_stopped (h : stopped (body a s).2 = true) :
    walk stopped body (a :: l) s = ((body a s).1 :: l, (body a s).2) := by
  simp [walk, h]

theorem walk_cons_of_going (h : stopped (body a s).2 = false) :
    walk stopped body (a :: l) s =
      ((body a s).1 :: (walk stopped body l (body a s).2).1, (walk stopped body l (body a s).2).2) := by
  simp [walk, h]

theorem walk_append_of_stopped (hs : stopped s = false) (h : stopped (walk stopped body l s).2 = true) :
    walk stopped body (l ++ l') s = ((walk stopped body l s).1 ++ l', (walk stopped body l s).2) := by
  induction l generalizing s with
  | nil => exact absurd hs (by simpa [walk] using h)
  | cons a l ih =>
    cases hbody : stopped (body a s).2 with
    | true => rw [List.cons_append, walk_cons_of_stopped hbody, walk_cons_of_stopped hbody, List.cons_append]
    | false =>
      rw [walk_cons_of_going hbody] at h ⊢
      rw [List.cons_append, walk_cons_of_going hbody, ih hbody h, List.cons_append]

theorem walk_append_of_going (h : stopped (walk stopped body l s).2 = false) :
    walk stopped body (l ++ l') s =
      ((walk stopped body l s).1 ++ (walk stopped body l' (walk stopped body l s).2).1,
        (walk stopped body l' (walk stopped body l s).2).2) := by
  induction l generalizing s with
  | nil => rfl
  | cons a l ih =>
    cases hbody : stopped (body a s).2 with
    | true =>
      rw [walk_cons_of_stopped hbody] at h
      exact absurd (hbody.symm.trans h) Bool.noConfusion
    | false =>
      rw [walk_cons_of_going hbody] at h ⊢
      rw [List.cons_append, walk_cons_of_going hbody, ih h, List.cons_append]

/-- What the body does not change of an element, the loop does not change of the list. -/
theorem walk_map {g : α → β} (hbody : ∀ a s, g (body a s).1 = g a) (l : List α) (s : σ) :
    (walk stopped body l s).1.map g = l.map g := by
  induction l generalizing s with
  | nil => rfl
  | cons a l ih =>
    cases h : stopped (body a s).2 with
    | true => rw [walk_cons_of_stopped h, List.map_cons, List.map_cons, hbody]
    | false => rw [walk_cons_of_going h, List.map_cons, List.map_cons, hbody, ih]

/-- A loop that always goes to the end. -/
theorem walk_eq_map {g : α → α} (hbody : ∀ a s, (body a s).1 = g a) (l : List α) (s : σ) :
    (walk (fun _ => false) body l s).1 = l.map g := by
  induction l generalizing s with
  | nil => rfl
  | cons a l ih => rw [walk_cons_of_going rfl, List.map_cons, hbody, ih]

/-- A loop on the part of the state that its body depends on. -/
theorem walk_proj {stopped' : τ → Bool} {body' : α → τ → α × τ} {proj : σ → τ}
    (hstop : ∀ s, stopped' (proj s) = stopped s)
    (hbody : ∀ a s, ((body a s).1, proj (body a s).2) = body' a (proj s)) (l : List α) (s : σ) :
    ((walk stopped body l s).1, proj (walk stopped body l s).2) = walk stopped' body' l (proj s) := by
  induction l generalizing s with
  | nil => rfl
  | cons a l ih =>
    have hfst : (body' a (proj s)).1 = (body a s).1 := (congrArg Prod.fst (hbody a s)).symm
    have hsnd : (body' a (proj s)).2 = proj (body a s).2 := (congrArg Prod.snd (hbody a s)).symm
    cases h : stopped (body a s).2 with
    | true => rw [walk_cons_of_stopped h, walk_cons_of_stopped (by rw [hsnd, hstop, h]), hfst, hsnd]
    | false => rw [walk_cons_of_going h, walk_cons_of_going (by rw [hsnd, hstop, h]), hfst, hsnd, ← ih]

/-- A loop whose body is itself a loop over the parts of an element is one loop over all the parts, on
    the part of the state that the inner loop has. -/
theorem walk_flatMap {stopped' : τ → Bool} {body' : β → τ → β × τ} {view : α → List β} {proj : σ → τ}
    (hstop : ∀ s, stopped' (proj s) = stopped s)
    (hbody : ∀ a s, stopped s = false →
      (view (body a s).1, proj (body a s).2) = walk stopped' body' (view a) (proj s))
    (l : List α) (hs : stopped s = false) :
    ((walk stopped body l s).1.flatMap view, proj (walk stopped body l s).2) =
      walk stopped' body' (l.flatMap view) (proj s) := by
  induction l generalizing s with
  | nil => rfl
  | cons a l ih =>
    have hfirst := hbody a s hs
    have hview : (walk stopped' body' (view a) (proj s)).1 = view (body a s).1 := (congrArg Prod.fst hfirst).symm
    have hproj : (walk stopped' body' (view a) (proj s)).2 = proj (body a s).2 := (congrArg Prod.snd hfirst).symm
    cases h : stopped (body a s).2 with
    | true =>
      rw [walk_cons_of_stopped h, List.flatMap_cons, List.flatMap_cons,
        walk_append_of_stopped ((hstop s).trans hs) (by rw [hproj, hstop, h]), hview, hproj]
    | false =>
      rw [walk_cons_of_going h, List.flatMap_cons, List.flatMap_cons,
        walk_append_of_going (by rw [hproj, hstop, h]), hview, hproj, ← ih h]

end Walk

section FirstOf
variable {body : α → σ → Option (α × σ)} {l l' : List α} {s s' : σ}

theorem firstOf_eq_none : firstOf body l s = none ↔ ∀ a ∈ l, body a s = none := by
  induction l with
  | nil => simp [firstOf]
  | cons a l ih => cases h : body a s <;> simp [firstOf, h, ih]

theorem firstOf_eq_some (h : firstOf body l s = some (l', s')) :
    ∃ pre a a' post, l = pre ++ a :: post ∧ l' = pre ++ a' :: post ∧ body a s = some (a', s') ∧
      ∀ x ∈ pre, body x s = none := by
  induction l generalizing l' with
  | nil => cases h
  | cons a l ih =>
    rw [firstOf] at h
    cases hbody : body a s with
    | some r =>
      rw [hbody] at h
      cases h
      exact ⟨[], a, r.1, l, rfl, rfl, hbody, by simp⟩
    | none =>
      rw [hbody] at h
      obtain ⟨⟨as', t⟩, hrest, heq⟩ := Option.map_eq_some_iff.mp h
      cases heq
      obtain ⟨pre, x, x', post, rfl, rfl, hx, hpre⟩ := ih hrest
      refine ⟨a :: pre, x, x', post, rfl, rfl, hx, fun y hy => ?_⟩
      rcases List.mem_cons.mp hy with rfl | hy
      · exact hbody
      · exact hpre y hy

end FirstOf
end Loop
