import OpsSupportability.Lib.Text

/-! `fgets`: a stream is read by lines, and a long line in pieces of the size of the buffer. -/

namespace Fgets

/-- At most `n` characters, up to a newline and with it, and what is left of the stream. -/
def read : Nat → Text → Text × Text
  | 0, s => ([], s)
  | _ + 1, [] => ([], [])
  | n + 1, c :: s => if c = '\n' then ([c], s) else (c :: (read n s).1, (read n s).2)

/-- The lines, each with the newline that ends it. -/
def lines : Text → List Text
  | [] => []
  | c :: s =>
    if c = '\n' then [c] :: lines s
    else
      match lines s with
      | [] => [[c]]
      | l :: ls => (c :: l) :: ls

section
variable {c : Char} {s l : Text} {ls : List Text} {n : Nat}

theorem read_append (n : Nat) (s : Text) : (read n s).1 ++ (read n s).2 = s := by
  induction n generalizing s with
  | zero => rfl
  | succ n ih =>
    cases s with
    | nil => rfl
    | cons c s =>
      rw [read]
      split
      · rfl
      · exact congrArg (c :: ·) (ih s)

theorem length_read_le (n : Nat) (s : Text) : (read n s).1.length ≤ n := by
  induction n generalizing s with
  | zero => exact Nat.le_refl 0
  | succ n ih =>
    cases s with
    | nil => exact Nat.zero_le _
    | cons c s =>
      rw [read]
      split
      · exact Nat.succ_le_succ (Nat.zero_le n)
      · exact Nat.succ_le_succ (ih s)

theorem length_rest_lt (c : Char) (s : Text) : (read (n + 1) (c :: s)).2.length < (c :: s).length := by
  have hparts := congrArg List.length (read_append (n + 1) (c :: s))
  rw [List.length_append] at hparts
  have hpos : 0 < (read (n + 1) (c :: s)).1.length := by
    rw [read]
    split
    · exact Nat.one_pos
    · exact Nat.succ_pos _
  omega

/-! ### Lines -/

theorem lines_ne_nil (c : Char) (s : Text) : lines (c :: s) ≠ [] := by
  rw [lines]
  split
  · nofun
  · split <;> nofun

/-- A newline stands at the end of a line only. -/
theorem not_mem_dropLast_of_mem_lines (h : l ∈ lines s) : '\n' ∉ l.dropLast := by
  induction s generalizing l with
  | nil => cases h
  | cons c s ih =>
    rw [lines] at h
    split at h
    · rcases List.mem_cons.mp h with rfl | hmem
      · nofun
      · exact ih hmem
    · next hc =>
      split at h
      · rw [List.mem_singleton.mp h]
        nofun
      · next l' ls heq =>
        rw [heq] at ih
        rcases List.mem_cons.mp h with rfl | hmem
        · cases l' with
          | nil => nofun
          | cons d l' =>
            rw [List.dropLast_cons_cons, List.mem_cons, not_or]
            exact ⟨fun h => hc h.symm, ih List.mem_cons_self⟩
        · exact ih (List.mem_cons_of_mem _ hmem)

theorem lines_of_notMem (hne : s ≠ []) (h : '\n' ∉ s) : lines s = [s] := by
  induction s with
  | nil => exact absurd rfl hne
  | cons c s ih =>
    obtain ⟨hc, hs⟩ := not_or.mp (mt List.mem_cons.mpr h)
    rw [lines, if_neg fun heq => hc heq.symm]
    cases s with
    | nil => rfl
    | cons d s => rw [ih (List.cons_ne_nil d s) hs]

/-- A line that fits is read as a whole. -/
theorem read_of_le (h : lines s = l :: ls) (hle : l.length ≤ n) : (read n s).1 = l ∧ lines (read n s).2 = ls := by
  induction s generalizing n l ls with
  | nil => cases h
  | cons c s ih =>
    rw [lines] at h
    split at h
    · next hc =>
      cases h
      obtain ⟨n, rfl⟩ := Nat.exists_eq_succ_of_ne_zero (Nat.pos_iff_ne_zero.mp hle)
      rw [read, if_pos hc]
      exact ⟨rfl, rfl⟩
    · next hc =>
      split at h
      · next heq =>
        cases h
        obtain ⟨n, rfl⟩ := Nat.exists_eq_succ_of_ne_zero (Nat.pos_iff_ne_zero.mp hle)
        cases s with
        | cons d s => exact absurd heq (lines_ne_nil d s)
        | nil =>
          rw [read, if_neg hc]
          cases n <;> exact ⟨rfl, rfl⟩
      · next l' ls' heq =>
        cases h
        rw [List.length_cons] at hle
        obtain ⟨n, rfl⟩ := Nat.exists_eq_succ_of_ne_zero (Nat.pos_iff_ne_zero.mp (Nat.lt_of_lt_of_le (Nat.succ_pos _) hle))
        obtain ⟨hline, hrest⟩ := ih heq (Nat.le_of_succ_le_succ hle)
        rw [read, if_neg hc]
        exact ⟨congrArg (c :: ·) hline, hrest⟩

/-- Of a line that does not fit, the rest is the first line of what is left. -/
theorem read_of_lt (h : lines s = l :: ls) (hlt : n < l.length) :
    (read n s).1 = l.take n ∧ lines (read n s).2 = l.drop n :: ls := by
  induction s generalizing n l ls with
  | nil => cases h
  | cons c s ih =>
    cases n with
    | zero => exact ⟨rfl, h⟩
    | succ n =>
      rw [lines] at h
      split at h
      · next hc =>
        cases h
        exact absurd hlt (by simp)
      · next hc =>
        split at h
        · next heq =>
          cases h
          exact absurd hlt (by simp)
        · next l' ls' heq =>
          cases h
          obtain ⟨hline, hrest⟩ := ih heq (Nat.lt_of_succ_lt_succ hlt)
          rw [read, if_neg hc]
          exact ⟨congrArg (c :: ·) hline, hrest⟩

end

end Fgets
