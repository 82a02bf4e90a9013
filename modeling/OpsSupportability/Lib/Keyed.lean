import Mathlib.Data.List.Nodup

/-! Lists whose entries carry distinct keys: the entry of a key splits the list into two parts that
    do not hold the key. -/

namespace Keyed
variable {α κ : Type*} {f : α → κ} {l pre post : List α} {x : α} {k : κ}

/-- `x` is the only entry of `pre ++ x :: post` with key `k`. -/
structure Split (f : α → κ) (k : κ) (pre : List α) (x : α) (post : List α) : Prop where
  key : f x = k
  pre : ∀ y ∈ pre, f y ≠ k
  post : ∀ y ∈ post, f y ≠ k

theorem exists_split (nd : (l.map f).Nodup) (h : k ∈ l.map f) :
    ∃ pre x post, l = pre ++ x :: post ∧ Split f k pre x post := by
  obtain ⟨x, hx, rfl⟩ := List.mem_map.mp h
  obtain ⟨pre, post, rfl⟩ := List.append_of_mem hx
  simp only [List.map_append, List.map_cons, List.nodup_append, List.nodup_cons, List.mem_cons] at nd
  refine ⟨pre, x, post, rfl, rfl, fun y hy heq => ?_, fun y hy heq => ?_⟩
  · exact nd.2.2 (f y) (List.mem_map_of_mem hy) (f x) (Or.inl rfl) heq
  · exact nd.2.1.1 (heq ▸ List.mem_map_of_mem hy)

namespace Split

theorem eq_of_mem (h : Split f k pre x post) {y : α} (hy : y ∈ pre ++ x :: post) (hk : f y = k) : y = x := by
  rcases List.mem_append.mp hy with hy | hy
  · exact absurd hk (h.pre y hy)
  · rcases List.mem_cons.mp hy with rfl | hy
    · rfl
    · exact absurd hk (h.post y hy)

variable [DecidableEq κ]

theorem filter_eq (h : Split f k pre x post) : (pre ++ x :: post).filter (fun y => f y == k) = [x] := by
  have hpre : pre.filter (fun y => f y == k) = [] := by simpa using h.pre
  have hpost : post.filter (fun y => f y == k) = [] := by simpa using h.post
  simp [hpre, hpost, h.key]

theorem filter_ne (h : Split f k pre x post) :
    (pre ++ x :: post).filter (fun y => f y != k) = pre ++ post := by
  have hpre : pre.filter (fun y => f y != k) = pre := by simpa using h.pre
  have hpost : post.filter (fun y => f y != k) = post := by simpa using h.post
  simp [hpre, hpost, h.key]

theorem find?_eq (h : Split f k pre x post) : (pre ++ x :: post).find? (fun y => f y == k) = some x := by
  have hpre : pre.find? (fun y => f y == k) = none := by simpa using h.pre
  simp [hpre, h.key]

end Split

theorem filter_eq_nil [DecidableEq κ] (h : k ∉ l.map f) : l.filter (fun y => f y == k) = [] := by
  rw [List.filter_eq_nil_iff]
  intro y hy hk
  exact h (List.mem_map.mpr ⟨y, hy, beq_iff_eq.mp hk⟩)

theorem find?_eq_some_iff [DecidableEq κ] (nd : (l.map f).Nodup) :
    l.find? (fun y => f y == k) = some x ↔ x ∈ l ∧ f x = k := by
  constructor
  · intro h
    have hkey : (f x == k) = true := List.find?_some (p := fun y => f y == k) h
    exact ⟨List.mem_of_find?_eq_some h, beq_iff_eq.mp hkey⟩
  · rintro ⟨hx, hk⟩
    have hmem : k ∈ l.map f := hk ▸ List.mem_map_of_mem hx
    obtain ⟨pre, y, post, rfl, hsplit⟩ := exists_split nd hmem
    rw [hsplit.find?_eq, hsplit.eq_of_mem hx hk]

end Keyed
