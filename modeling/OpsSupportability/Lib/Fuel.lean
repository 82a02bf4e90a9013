import Mathlib.Logic.Basic

/-! Computations that take fuel and fail with `running` when it is used up: with more fuel they give the
    same result, or go on where they stopped. -/

namespace Fuel

universe u v

section
variable {ε : Type u} {α β : Type v} {running : ε} {x y z : Except ε α}

/-- `y` is what `x` gives with more fuel. -/
def Below (running : ε) (x y : Except ε α) : Prop := x = .error running ∨ x = y

theorem Below.refl (x : Except ε α) : Below running x x := Or.inr rfl

theorem Below.bot (y : Except ε α) : Below running (.error running) y := Or.inl rfl

theorem Below.ok {a : α} (h : Below running x y) (hx : x = .ok a) : y = .ok a := by
  rcases h with h | h
  · rw [h] at hx
    cases hx
  · rwa [← h]

theorem Below.bind {f g : α → Except ε β} (h : Below running x y) (hf : ∀ a, Below running (f a) (g a)) :
    Below running (x >>= f) (y >>= g) := by
  rcases h with rfl | rfl
  · exact Or.inl rfl
  · cases x with
    | error fault => exact Or.inr rfl
    | ok a => exact hf a

theorem Below.map {f : α → β} (h : Below running x y) : Below running (x.map f) (y.map f) := by
  rcases h with rfl | rfl
  · exact Or.inl rfl
  · exact Or.inr rfl

/-- Results with two amounts of fuel are results with the larger one. -/
theorem ok_of_max {run : Nat → Except ε α} (mono : ∀ {m n}, m ≤ n → Below running (run m) (run n)) {m n : Nat} {a : α}
    (h : run m = .ok a) : run (max m n) = .ok a ∧ run (max n m) = .ok a :=
  ⟨(mono (Nat.le_max_left m n)).ok h, (mono (Nat.le_max_right n m)).ok h⟩

/-- The result does not depend on the fuel. -/
theorem ok_unique {run : Nat → Except ε α} (mono : ∀ {m n}, m ≤ n → Below running (run m) (run n)) {m n : Nat} {a b : α}
    (h : run m = .ok a) (h' : run n = .ok b) : a = b :=
  Except.ok.inj ((ok_of_max mono h).1.symm.trans (ok_of_max mono h').2)

end

end Fuel
