import Mathlib.Data.List.Infix
import Mathlib.Data.List.Nodup

/-! The distinct elements of a list that satisfy a predicate, each where it occurs first. Lists grow at
    the end, as a history of calls does. -/

namespace Firsts

section
variable {α : Type*} [DecidableEq α] {p : α → Prop} [DecidablePred p] {l l' : List α} {a : α}

def firsts (p : α → Prop) [DecidablePred p] (l : List α) : List α := (l.filter fun a => decide (p a)).eraseDups

@[simp] theorem firsts_nil : firsts p [] = [] := rfl

theorem mem_firsts : a ∈ firsts p l ↔ a ∈ l ∧ p a := by
  simp [firsts]

theorem firsts_concat :
    firsts p (l ++ [a]) = if p a ∧ a ∉ firsts p l then firsts p l ++ [a] else firsts p l := by
  by_cases hp : p a
  · by_cases hmem : a ∈ l
    · simp [firsts, List.eraseDups_append, List.removeAll, hp, hmem]
    · simp [firsts, List.eraseDups_append, List.removeAll, hp, hmem, List.eraseDups_cons]
  · simp [firsts, hp]

theorem firsts_concat_of_new (hp : p a) (h : a ∉ firsts p l) : firsts p (l ++ [a]) = firsts p l ++ [a] := by
  rw [firsts_concat, if_pos ⟨hp, h⟩]

theorem firsts_concat_of_old (h : ¬ (p a ∧ a ∉ firsts p l)) : firsts p (l ++ [a]) = firsts p l := by
  rw [firsts_concat, if_neg h]

theorem firsts_prefix_concat : firsts p l <+: firsts p (l ++ [a]) := by
  rw [firsts_concat]
  split
  · exact List.prefix_append _ _
  · exact List.prefix_refl _

theorem firsts_prefix_append (l l' : List α) : firsts p l <+: firsts p (l ++ l') := by
  induction l' using List.reverseRecOn with
  | nil => rw [List.append_nil]
  | append_singleton l' a ih => exact ih.trans (List.append_assoc l l' [a] ▸ firsts_prefix_concat)

theorem firsts_eq_self (hl : l.Nodup) (hp : ∀ a ∈ l, p a) : firsts p l = l := by
  induction l using List.reverseRecOn with
  | nil => rfl
  | append_singleton l a ih =>
    obtain ⟨hl', -, hdisj⟩ := List.nodup_append'.mp hl
    have hself := ih hl' fun b hb => hp b (List.mem_append_left _ hb)
    have hnew : a ∉ firsts p l := fun hmem => hdisj (mem_firsts.mp hmem).1 (List.mem_singleton_self a)
    rw [firsts_concat_of_new (hp a (by simp)) hnew, hself]

theorem nodup_firsts : (firsts p l).Nodup := by
  induction l using List.reverseRecOn with
  | nil => exact List.nodup_nil
  | append_singleton l a ih =>
    rw [firsts_concat]
    split
    · next h => exact List.nodup_append'.mpr ⟨ih, List.nodup_singleton a, by simpa using h.2⟩
    · exact ih

end

end Firsts
