import OpsSupportability.Lib.Text

/-! Paths of components between slashes: what is left of a path when `.` and `..` are resolved without a look at the
    file system, and the normal form of a path that is walked from a directory. -/

namespace Paths

/-- The component stays in the directory. -/
def Stays (c : Text) : Prop := c = [] ∨ c = ['.']

instance (c : Text) : Decidable (Stays c) := inferInstanceAs (Decidable (_ ∨ _))

/-- The directory after one component; the root is its own parent. -/
def enter (dir : List Text) (c : Text) : List Text :=
  if Stays c then dir else if c = ['.', '.'] then dir.dropLast else dir ++ [c]

def walk (dir : List Text) (cs : List Text) : List Text := cs.foldl enter dir

def components (p : Text) : List Text := p.splitOn '/'

/-- The names on the way from the root to what an absolute path means. -/
def resolve (p : Text) : List Text := walk [] (components p)

/-- Directly inside the directory. -/
def Inside (dir p : Text) : Prop := ∃ name, resolve p = resolve dir ++ [name]

/-- So many `..`, and then names. -/
structure Relative where
  up : Nat
  down : List Text
  deriving DecidableEq, Repr

/-- A component in front of a path: a name is cancelled by `..`. -/
def Relative.from (c : Text) (r : Relative) : Relative :=
  if Stays c then r
  else if c = ['.', '.'] then ⟨r.up + 1, r.down⟩
  else
    match r.up with
    | 0 => ⟨0, c :: r.down⟩
    | up + 1 => ⟨up, r.down⟩

def normal (cs : List Text) : Relative := cs.foldr Relative.from ⟨0, []⟩

/-- From the directory the path goes up, down the same way again, and down to one more name. -/
def Relative.Below (dir : List Text) (r : Relative) : Prop := ∃ name, r.down = dir.drop (dir.length - r.up) ++ [name]

theorem Relative.below_iff {dir : List Text} {r : Relative} :
    r.Below dir ↔ r.down ≠ [] ∧ r.down.dropLast = dir.drop (dir.length - r.up) := by
  constructor
  · rintro ⟨x, hx⟩
    rw [hx, List.dropLast_concat]
    exact ⟨List.append_ne_nil_of_right_ne_nil _ (List.cons_ne_nil x []), rfl⟩
  · rintro ⟨hne, hdown⟩
    exact ⟨r.down.getLast hne, by rw [← hdown, List.dropLast_append_getLast]⟩

instance (dir : List Text) (r : Relative) : Decidable (r.Below dir) := decidable_of_iff _ Relative.below_iff.symm

section
variable {dir : List Text} {c : Text} {cs : List Text} {d name : Text}

theorem normal_cons : normal (c :: cs) = (normal cs).from c := rfl

/-- The normal form leads to the same place. -/
theorem walk_eq (dir cs : List Text) : walk dir cs = dir.take (dir.length - (normal cs).up) ++ (normal cs).down := by
  induction cs generalizing dir with
  | nil => simp [walk, normal]
  | cons c cs ih =>
    have hwalk : walk dir (c :: cs) = walk (enter dir c) cs := rfl
    rw [hwalk, ih, normal_cons]
    unfold enter Relative.from
    by_cases hstays : Stays c
    · rw [if_pos hstays, if_pos hstays]
    · rw [if_neg hstays, if_neg hstays]
      by_cases hup : c = ['.', '.']
      · rw [if_pos hup, if_pos hup, List.dropLast_eq_take, List.take_take, List.length_take]
        congr 2
        dsimp only
        omega
      · rw [if_neg hup, if_neg hup, List.length_append, List.length_singleton]
        cases (normal cs).up with
        | zero =>
          rw [Nat.sub_zero, Nat.sub_zero, List.take_length, List.take_of_length_le (by simp), List.append_assoc,
            List.singleton_append]
        | succ up => rw [Nat.add_sub_add_right, List.take_append_of_le_length (Nat.sub_le _ _)]

theorem components_append (d name : Text) : components (d ++ '/' :: name) = components d ++ components name :=
  List.splitOn_append_cons_self ..

theorem resolve_append (d name : Text) : resolve (d ++ '/' :: name) = walk (resolve d) (components name) := by
  rw [resolve, components_append, walk, List.foldl_append]
  rfl

/-- A file of a directory is directly inside it if and only if its normal form leads back to it. -/
theorem inside_iff (d name : Text) : Inside d (d ++ '/' :: name) ↔ (normal (components name)).Below (resolve d) := by
  unfold Inside Relative.Below
  rw [resolve_append, walk_eq]
  refine exists_congr fun x => ?_
  conv_lhs => rhs; rw [← List.take_append_drop ((resolve d).length - (normal (components name)).up) (resolve d)]
  rw [List.append_assoc, List.append_cancel_left_eq]

/-- A single component leads to a file of the directory unless it is one of the three that are no names. -/
theorem below_singleton (hname : '/' ∉ name) :
    (normal (components name)).Below dir ↔ ¬ Stays name ∧ name ≠ ['.', '.'] := by
  have hcomponents : components name = [name] := List.splitOn_eq_singleton hname
  have hnone : ∀ up, ¬ (⟨up, []⟩ : Relative).Below dir := by
    rintro up ⟨x, hx⟩
    exact List.append_ne_nil_of_right_ne_nil _ (List.cons_ne_nil x []) hx.symm
  rw [hcomponents, normal_cons, Relative.from]
  by_cases hstays : Stays name
  · rw [if_pos hstays]
    exact iff_of_false (hnone 0) (fun h => h.1 hstays)
  · rw [if_neg hstays]
    by_cases hup : name = ['.', '.']
    · rw [if_pos hup]
      exact iff_of_false (hnone 1) (fun h => h.2 hup)
    · rw [if_neg hup]
      exact iff_of_true ⟨name, by simp [normal]⟩ ⟨hstays, hup⟩

end

end Paths
