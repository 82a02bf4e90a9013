import Mathlib.Data.List.DropRight
import OpsSupportability.Lib.Text

/-! Text in columns: fields that are padded with blanks and cut to the width of their column, and how to read them
    back at the places of the columns. -/

namespace Columns

/-- `%-N.Ns` -/
def column (n : Nat) (s : Text) : Text := s.take n ++ List.replicate (n - s.length) ' '

/-- A field without the blanks at its end. -/
def trim (s : Text) : Text := s.rdropWhile (· == ' ')

/-- The columns of a row, each with what stands in front of it. -/
abbrev Layout := List (Text × Nat)

def row : Layout → List Text → Text
  | (gap, n) :: layout, s :: ss => gap ++ column n s ++ row layout ss
  | _, _ => []

def readRow : Layout → Text → List Text
  | [], _ => []
  | (gap, n) :: layout, line => trim ((line.drop gap.length).take n) :: readRow layout (line.drop (gap.length + n))

variable {n : Nat} {s : Text}

theorem length_column (n : Nat) (s : Text) : (column n s).length = n := by
  rw [column, List.length_append, List.length_take, List.length_replicate]
  omega

theorem trim_append_blanks (s : Text) (k : Nat) : trim (s ++ List.replicate k ' ') = trim s := by
  induction k with
  | zero => rw [List.replicate_zero, List.append_nil]
  | succ k ih =>
    rw [List.replicate_succ', ← List.append_assoc, trim, List.rdropWhile_concat_pos _ _ _ (by decide)]
    exact ih

theorem trim_column (n : Nat) (s : Text) : trim (column n s) = trim (s.take n) := trim_append_blanks _ _

theorem length_trim_le (s : Text) : (trim s).length ≤ s.length := (List.rdropWhile_prefix _ _).length_le

/-- What `trim` takes away is blanks. -/
theorem exists_blanks (s : Text) : ∃ k, s = trim s ++ List.replicate k ' ' := by
  refine ⟨(s.rtakeWhile (· == ' ')).length, ?_⟩
  have hblanks : s.rtakeWhile (· == ' ') = List.replicate (s.rtakeWhile (· == ' ')).length ' ' :=
    List.eq_replicate_of_mem fun c hc => by simpa using List.mem_rtakeWhile_imp hc
  rw [← hblanks]
  exact (List.rdropWhile_append_rtakeWhile ..).symm

/-- A field is cut where its column is too narrow. -/
theorem trim_take_iff : trim (s.take n) = trim s ↔ (trim s).length ≤ n := by
  constructor
  · intro h
    rw [← h]
    exact (length_trim_le _).trans (List.length_take_le n s)
  · intro h
    obtain ⟨k, hs⟩ := exists_blanks s
    have htake : s.take n = trim s ++ List.replicate (min (n - (trim s).length) k) ' ' := by
      conv_lhs => rw [hs, List.take_append, List.take_of_length_le h, List.take_replicate]
    rw [htake, trim_append_blanks, trim, trim, List.rdropWhile_idempotent]

variable {layout : Layout} {ss : List Text}

theorem readRow_row (h : ss.length = layout.length) :
    readRow layout (row layout ss) = List.zipWith (fun c s => trim (s.take c.2)) layout ss := by
  induction layout generalizing ss with
  | nil => rfl
  | cons c layout ih =>
    obtain ⟨gap, n⟩ := c
    cases ss with
    | nil => cases h
    | cons s ss =>
      have hcolumn : ((gap ++ column n s ++ row layout ss).drop gap.length).take n = column n s := by
        rw [List.append_assoc, List.drop_left, List.take_left' (length_column n s)]
      have hrest : (gap ++ column n s ++ row layout ss).drop (gap.length + n) = row layout ss :=
        List.drop_left' (by rw [List.length_append, length_column])
      rw [row, readRow, hcolumn, hrest, trim_column, ih (Nat.succ.inj h), List.zipWith_cons_cons]

/-- A row can be read back if and only if no field is cut. -/
theorem readRow_row_iff (h : ss.length = layout.length) :
    readRow layout (row layout ss) = ss.map trim ↔ List.Forall₂ (fun c s => (trim s).length ≤ c.2) layout ss := by
  rw [readRow_row h]
  induction layout generalizing ss with
  | nil =>
    obtain rfl := List.eq_nil_of_length_eq_zero h
    simp
  | cons c layout ih =>
    cases ss with
    | nil => cases h
    | cons s ss =>
      rw [List.zipWith_cons_cons, List.map_cons, List.cons.injEq, ih (Nat.succ.inj h), trim_take_iff,
        List.forall₂_cons]

end Columns
