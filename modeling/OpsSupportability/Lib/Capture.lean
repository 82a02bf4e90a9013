import OpsSupportability.Lib.Text

/-! `regexec` with submatches, for expressions that are rows of characters and groups of one repeated
    character class: the leftmost match, the longest of these, and earlier groups as long as possible. -/

namespace Capture

inductive Atom where
  | char (c : Char)
  /-- A group of `min` to `max` characters of a class. -/
  | group (is : Char → Bool) (min : Nat) (max : Option Nat)

/-- The lengths that a group can take at the front of a text, the longest first. -/
def lengths (is : Char → Bool) (min : Nat) (max : Option Nat) (s : Text) : List Nat :=
  let longest := (s.takeWhile is).length
  ((List.range (Nat.min longest (max.getD longest) + 1)).filter (min ≤ ·)).reverse

/-- The ways to match a row of atoms at the front of a text: the groups, and the text behind. -/
def splits : List Atom → Text → List (List Text × Text)
  | [], s => [([], s)]
  | .char c :: p, s => if s.head? = some c then splits p s.tail else []
  | .group is min max :: p, s =>
    (lengths is min max s).flatMap fun k => (splits p (s.drop k)).map fun (groups, rest) => (s.take k :: groups, rest)

/-- The first among the longest. -/
def longest : List (List Text × Text) → Option (List Text × Text)
  | [] => none
  | m :: ms =>
    match longest ms with
    | none => some m
    | some m' => if m'.2.length < m.2.length then some m' else some m

def search (p : List Atom) : Text → Option (List Text × Text)
  | [] => longest (splits p [])
  | c :: s =>
    match longest (splits p (c :: s)) with
    | some m => some m
    | none => search p s

/-- What a row of atoms matches, the groups filled in. -/
def assemble : List Atom → List Text → Text
  | [], _ => []
  | .char c :: p, groups => c :: assemble p groups
  | .group _ _ _ :: p, groups => groups.headD [] ++ assemble p groups.tail

/-- Each group has its class and length. -/
def Fits : List Atom → List Text → Prop
  | [], groups => groups = []
  | .char _ :: p, groups => Fits p groups
  | .group is min max :: p, groups =>
    ∃ w ws, groups = w :: ws ∧ (∀ c ∈ w, is c = true) ∧ min ≤ w.length ∧ (∀ n, max = some n → w.length ≤ n) ∧ Fits p ws

section
variable {p : List Atom} {s rest : Text} {groups : List Text} {ms : List (List Text × Text)}

theorem mem_lengths {is : Char → Bool} {min k : Nat} {max : Option Nat} :
    k ∈ lengths is min max s ↔ min ≤ k ∧ k ≤ (s.takeWhile is).length ∧ ∀ n, max = some n → k ≤ n := by
  rw [lengths, List.mem_reverse, List.mem_filter, List.mem_range, decide_eq_true_iff, Nat.lt_succ_iff, Nat.le_min]
  cases max with
  | none => exact ⟨fun ⟨hle, hmin⟩ => ⟨hmin, hle.1, nofun⟩, fun ⟨hmin, hle, _⟩ => ⟨⟨hle, hle⟩, hmin⟩⟩
  | some n =>
    exact ⟨fun ⟨hle, hmin⟩ => ⟨hmin, hle.1, fun _ heq => Option.some.inj heq ▸ hle.2⟩,
      fun ⟨hmin, hle, hmax⟩ => ⟨⟨hle, hmax n rfl⟩, hmin⟩⟩

theorem le_length_takeWhile {is : Char → Bool} {k : Nat} :
    k ≤ (s.takeWhile is).length ↔ k ≤ s.length ∧ ∀ c ∈ s.take k, is c = true := by
  induction s generalizing k with
  | nil => simp
  | cons c s ih =>
    cases k with
    | zero => simp
    | succ k => by_cases hc : is c = true <;> simp [hc, ih]

theorem mem_splits : (groups, rest) ∈ splits p s ↔ s = assemble p groups ++ rest ∧ Fits p groups := by
  induction p generalizing s groups with
  | nil => simp [splits, assemble, Fits, and_comm, eq_comm]
  | cons atom p ih =>
    cases atom with
    | char c =>
      cases s with
      | nil => simp [splits, assemble]
      | cons d s =>
        by_cases hc : d = c
        · simp [splits, assemble, Fits, hc, ih]
        · simp [splits, assemble, hc]
    | group is min max =>
      simp only [splits, List.mem_flatMap, List.mem_map, Prod.exists, Prod.mk.injEq, mem_lengths, le_length_takeWhile]
      constructor
      · rintro ⟨k, ⟨hmin, ⟨hlen, his⟩, hmax⟩, ws, rest, hmem, rfl, rfl⟩
        obtain ⟨hs, hfits⟩ := ih.mp hmem
        have htake : (s.take k).length = k := List.length_take_of_le hlen
        refine ⟨?_, _, ws, rfl, his, htake.symm ▸ hmin, htake.symm ▸ hmax, hfits⟩
        rw [assemble, List.headD_cons, List.tail_cons, List.append_assoc, ← hs, List.take_append_drop]
      · rintro ⟨hs, w, ws, rfl, his, hmin, hmax, hfits⟩
        rw [assemble, List.headD_cons, List.tail_cons, List.append_assoc] at hs
        have htake : s.take w.length = w := by rw [hs, List.take_left]
        have hdrop : s.drop w.length = assemble p ws ++ rest := by rw [hs, List.drop_left]
        have hlen : w.length ≤ s.length := by
          rw [hs, List.length_append]
          exact Nat.le_add_right _ _
        refine ⟨w.length, ⟨hmin, ⟨hlen, htake.symm ▸ his⟩, hmax⟩, ws, rest, ih.mpr ⟨hdrop, hfits⟩, ?_, rfl⟩
        rw [htake]

theorem longest_eq_none : longest ms = none ↔ ms = [] := by
  cases ms with
  | nil => exact iff_of_true rfl rfl
  | cons m ms =>
    rw [longest]
    split
    · simp
    · split <;> simp

theorem mem_of_longest {m : List Text × Text} (h : longest ms = some m) : m ∈ ms := by
  induction ms generalizing m with
  | nil => cases h
  | cons m' ms ih =>
    rw [longest] at h
    split at h
    · obtain rfl := Option.some.inj h
      exact List.mem_cons_self
    · next hlong =>
      split at h
      · obtain rfl := Option.some.inj h
        exact List.mem_cons_of_mem _ (ih hlong)
      · obtain rfl := Option.some.inj h
        exact List.mem_cons_self

theorem length_le_of_longest {m m' : List Text × Text} (h : longest ms = some m) (hmem : m' ∈ ms) :
    m.2.length ≤ m'.2.length := by
  induction ms generalizing m with
  | nil => cases hmem
  | cons m₀ ms ih =>
    rw [longest] at h
    split at h
    · next hnone =>
      obtain rfl := Option.some.inj h
      obtain rfl : ms = [] := longest_eq_none.mp hnone
      rw [List.mem_singleton.mp hmem]
    · next m₁ hlong =>
      split at h
      · next hlt =>
        obtain rfl := Option.some.inj h
        rcases List.mem_cons.mp hmem with rfl | hmem
        · exact Nat.le_of_lt hlt
        · exact ih hlong hmem
      · next hge =>
        obtain rfl := Option.some.inj h
        rcases List.mem_cons.mp hmem with rfl | hmem
        · exact Nat.le_refl _
        · exact (Nat.le_of_not_lt hge).trans (ih hlong hmem)

/-- The match that is found starts somewhere, and is the longest that starts there. -/
theorem search_longest (h : search p s = some (groups, rest)) :
    ∃ pre t, s = pre ++ t ∧ longest (splits p t) = some (groups, rest) := by
  induction s with
  | nil => exact ⟨[], [], rfl, h⟩
  | cons c s ih =>
    rw [search] at h
    split at h
    · next hlong => exact ⟨[], c :: s, rfl, hlong.trans h⟩
    · obtain ⟨pre, t, hs, hlong⟩ := ih h
      exact ⟨c :: pre, t, by rw [hs]; rfl, hlong⟩

/-- A match lies somewhere in the text. -/
theorem search_some (h : search p s = some (groups, rest)) :
    ∃ pre, s = pre ++ assemble p groups ++ rest ∧ Fits p groups := by
  obtain ⟨pre, t, rfl, hlong⟩ := search_longest h
  obtain ⟨rfl, hfits⟩ := mem_splits.mp (mem_of_longest hlong)
  exact ⟨pre, (List.append_assoc _ _ _).symm, hfits⟩

/-- Where there is an occurrence, there is a match. -/
theorem search_isSome {pre : Text} (h : Fits p groups) : (search p (pre ++ assemble p groups ++ rest)).isSome = true := by
  induction pre with
  | nil =>
    have hmem : (groups, rest) ∈ splits p (assemble p groups ++ rest) := mem_splits.mpr ⟨rfl, h⟩
    have hlong : longest (splits p (assemble p groups ++ rest)) ≠ none := fun hnone =>
      absurd (longest_eq_none.mp hnone ▸ hmem) List.not_mem_nil
    obtain ⟨m, hm⟩ := Option.ne_none_iff_exists'.mp hlong
    rw [List.nil_append]
    cases hs : assemble p groups ++ rest with
    | nil =>
      rw [hs] at hm
      rw [search, hm]
      rfl
    | cons c s =>
      rw [hs] at hm
      rw [search, hm]
      rfl
  | cons c pre ih =>
    rw [List.cons_append, List.cons_append, search]
    split
    · rfl
    · exact ih

end

end Capture
