import Mathlib.Data.List.ModifyLast

/-! Lists read from left to right, where some elements are marks: a mark begins a section, and what follows
    belongs to it up to the next mark. A program that reads such a list appends a node at a mark, and changes
    its last node at any other element. -/

namespace Sections
variable {α β γ κ : Type*}

/-- What stands before the first mark, and the sections. -/
def sections (mark : α → Option β) : List α → List α × List (β × List α)
  | [] => ([], [])
  | a :: l =>
    match mark a with
    | some b => ([], (b, (sections mark l).1) :: (sections mark l).2)
    | none => (a :: (sections mark l).1, (sections mark l).2)

section
variable {mark : α → Option β} {a : α} {b : β} {l : List α}

theorem sections_cons_of_some (h : mark a = some b) :
    sections mark (a :: l) = ([], (b, (sections mark l).1) :: (sections mark l).2) := by
  rw [sections, h]

theorem sections_cons_of_none (h : mark a = none) :
    sections mark (a :: l) = (a :: (sections mark l).1, (sections mark l).2) := by
  rw [sections, h]

theorem sections_eq_nil_iff : (sections mark l).2 = [] ↔ ∀ a ∈ l, mark a = none := by
  induction l with
  | nil => simp [sections]
  | cons a l ih =>
    cases h : mark a with
    | some b => simp [sections_cons_of_some h, h]
    | none => rw [sections_cons_of_none h, List.forall_mem_cons, ih, and_iff_right h]

theorem sections_append_of_none {t : List α} (ht : ∀ a ∈ t, mark a = none) (l : List α) :
    sections mark (t ++ l) = (t ++ (sections mark l).1, (sections mark l).2) := by
  induction t with
  | nil => rfl
  | cons a t ih =>
    obtain ⟨ha, ht⟩ := List.forall_mem_cons.mp ht
    rw [List.cons_append, sections_cons_of_none ha, ih ht]
    rfl

/-- A list that is put together of sections. -/
theorem sections_flatMap {m : γ → α} {name : γ → β} {t : γ → List α} (hm : ∀ c, mark (m c) = some (name c))
    (ht : ∀ c, ∀ a ∈ t c, mark a = none) (l : List γ) :
    sections mark (l.flatMap fun c => m c :: t c) = ([], l.map fun c => (name c, t c)) := by
  induction l with
  | nil => rfl
  | cons c l ih =>
    rw [List.flatMap_cons, List.cons_append, sections_cons_of_some (hm c), sections_append_of_none (ht c), ih,
      List.append_nil, List.map_cons]

/-- There is a section for each mark. -/
theorem map_sections (l : List α) : (sections mark l).2.map (·.1) = l.filterMap mark := by
  induction l with
  | nil => rfl
  | cons a l ih =>
    cases h : mark a with
    | some b => rw [sections_cons_of_some h, List.filterMap_cons_some h, List.map_cons, ih]
    | none => rw [sections_cons_of_none h, List.filterMap_cons_none h, ih]

end

/-! ### Nodes -/

theorem modifyLast_modifyLast (f g : γ → γ) (l : List γ) :
    (l.modifyLast f).modifyLast g = l.modifyLast fun c => g (f c) := by
  rcases l.eq_nil_or_concat with rfl | ⟨l, c, rfl⟩
  · rfl
  · rw [List.concat_eq_append, List.modifyLast_concat, List.modifyLast_concat, List.modifyLast_concat]

theorem modifyLast_id (l : List γ) : (l.modifyLast fun c => c) = l := by
  rcases l.eq_nil_or_concat with rfl | ⟨l, c, rfl⟩
  · rfl
  · rw [List.concat_eq_append, List.modifyLast_concat]

/-- Each section is read into the node of its mark, and what stands before them into the last node there was. -/
theorem foldl_eq_sections {mark : α → Option β} {step : List γ → α → List γ} {start : β → γ} {extend : γ → α → γ}
    (hmark : ∀ nodes a b, mark a = some b → step nodes a = nodes ++ [start b])
    (hother : ∀ nodes a, mark a = none → step nodes a = nodes.modifyLast fun c => extend c a)
    (l : List α) (nodes : List γ) :
    l.foldl step nodes = (nodes.modifyLast fun c => (sections mark l).1.foldl extend c) ++
      (sections mark l).2.map fun s => s.2.foldl extend (start s.1) := by
  induction l generalizing nodes with
  | nil => exact ((List.append_nil _).trans (modifyLast_id nodes)).symm
  | cons a l ih =>
    rw [List.foldl_cons, ih]
    cases h : mark a with
    | some b =>
      rw [sections_cons_of_some h, hmark nodes a b h, List.modifyLast_concat, List.map_cons, List.append_assoc,
        List.singleton_append]
      exact congrArg (· ++ _) (modifyLast_id nodes).symm
    | none =>
      rw [sections_cons_of_none h, hother nodes a h, modifyLast_modifyLast]
      rfl

/-- A field that an element sets, or leaves as it is, has the last value that has been set. -/
theorem field_foldl {extend : γ → α → γ} {field : γ → β} {f : α → Option β}
    (hfield : ∀ c a, field (extend c a) = (f a).getD (field c)) (l : List α) (c : γ) :
    field (l.foldl extend c) = (l.filterMap f).getLast?.getD (field c) := by
  induction l generalizing c with
  | nil => rfl
  | cons a l ih =>
    rw [List.foldl_cons, ih, hfield]
    cases h : f a with
    | none => rw [List.filterMap_cons_none h, Option.getD_none]
    | some b => rw [List.filterMap_cons_some h, List.getLast?_cons, Option.getD_some, Option.getD_some]

/-- A field whose new value is made of what the element says. -/
theorem map_field_foldl {δ : Type*} {extend : γ → α → γ} {field : γ → β} {f : α → Option δ} {g : δ → β}
    (hfield : ∀ c a, field (extend c a) = ((f a).map g).getD (field c)) (l : List α) (c : γ) :
    field (l.foldl extend c) = ((l.filterMap f).getLast?.map g).getD (field c) := by
  rw [field_foldl hfield, ← List.getLast?_map, List.map_filterMap]

/-- A field to which an element appends. -/
theorem append_foldl {extend : γ → α → γ} {field : γ → List β} {f : α → Option β}
    (hfield : ∀ c a, field (extend c a) = field c ++ (f a).toList) (l : List α) (c : γ) :
    field (l.foldl extend c) = field c ++ l.filterMap f := by
  induction l generalizing c with
  | nil => exact (List.append_nil _).symm
  | cons a l ih =>
    rw [List.foldl_cons, ih, hfield, List.append_assoc]
    cases h : f a with
    | none => rw [List.filterMap_cons_none h, Option.toList_none, List.nil_append]
    | some b => rw [List.filterMap_cons_some h, Option.toList_some, List.singleton_append]

/-! ### Keys and values -/

/-- The elements that are no keys, each with the last key before it. -/
def entries (key : α → Option κ) : κ → List α → List (κ × α)
  | _, [] => []
  | state, a :: l =>
    match key a with
    | some k => entries key k l
    | none => (state, a) :: entries key state l

end Sections
