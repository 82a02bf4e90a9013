/-! Writes into arrays of declared sizes. -/

namespace Writes
variable {μ : Type}

/-- The indices below `stop` are written, or some of them. -/
structure Write (μ : Type) where
  memory : μ
  stop : Nat
  deriving DecidableEq, Repr

def Write.Inside (size : μ → Nat) (w : Write μ) : Prop := w.stop ≤ size w.memory

instance (size : μ → Nat) (w : Write μ) : Decidable (w.Inside size) := inferInstanceAs (Decidable (_ ≤ _))

/-- Each write lies in its array. -/
def InBounds (size : μ → Nat) (ws : List (Write μ)) : Prop := ∀ w ∈ ws, w.Inside size

instance (size : μ → Nat) (ws : List (Write μ)) : Decidable (InBounds size ws) := List.decidableBAll _ _

variable {size : μ → Nat} {ws ws' : List (Write μ)} {m : μ} {stop : Nat}

@[simp] theorem inBounds_nil : InBounds size [] := nofun

@[simp] theorem inBounds_cons : InBounds size (⟨m, stop⟩ :: ws) ↔ stop ≤ size m ∧ InBounds size ws :=
  List.forall_mem_cons

@[simp] theorem inBounds_append : InBounds size (ws ++ ws') ↔ InBounds size ws ∧ InBounds size ws' :=
  List.forall_mem_append

end Writes
