import Mathlib.Data.List.GetD
import Mathlib.Data.List.ModifyLast

/-! Linked lists in a store: a node is reached by its chain and by its position there. A node is inserted behind a
    cursor, or it begins a chain behind the null pointer; none is ever taken out. A program that keeps each of its
    cursors at the end reads, through the pointers of its nodes, lists that grow at their ends only. -/

namespace Chains
variable {α β ν : Type*}

structure Addr where
  chain : Nat
  pos : Nat
  deriving DecidableEq, Repr

abbrev Store (α : Type*) := List (List α)

/-- A new node behind another one, and where it is. -/
def add (s : Store α) (after : Option Addr) (x : α) : Store α × Addr :=
  match after with
  | none => (s ++ [[x]], ⟨s.length, 0⟩)
  | some a => (s.modify a.chain fun l => l.insertIdx (a.pos + 1) x, ⟨a.chain, a.pos + 1⟩)

def alter (f : α → α) (s : Store α) : Option Addr → Store α
  | none => s
  | some a => s.modify a.chain fun l => l.modify a.pos f

/-- The nodes from a pointer on. -/
def follow (s : Store α) : Option Addr → List α
  | none => []
  | some a => (s.getD a.chain []).drop a.pos

/-! ### Cursors -/

/-- The cursor is null, or at the last node of the last chain. -/
inductive AtEnd : Store α → Option Addr → Prop
  | null (s : Store α) : AtEnd s none
  | last (pre : Store α) (l : List α) (x : α) : AtEnd (pre ++ [l ++ [x]]) (some ⟨pre.length, l.length⟩)

/-- The nodes other than the one at the cursor. -/
def others (s : Store α) : Option Addr → List α
  | none => s.flatten
  | some _ => s.flatten.dropLast

def current (s : Store α) : Option Addr → Option α
  | none => none
  | some _ => s.flatten.getLast?

section
variable {s pre : Store α} {l : List α} {x y : α} {a : Addr} {c p : Option Addr}

theorem flatten_last : (pre ++ [l ++ [x]]).flatten = pre.flatten ++ l ++ [x] := by
  rw [List.flatten_append, List.flatten_singleton, List.append_assoc]

@[simp] theorem others_last : others (pre ++ [l ++ [x]]) (some a) = pre.flatten ++ l := by
  rw [others, flatten_last, List.dropLast_concat]

@[simp] theorem current_last : current (pre ++ [l ++ [x]]) (some a) = some x := by
  rw [current, flatten_last, List.getLast?_concat]

theorem mem_flatten_iff (h : AtEnd s c) : x ∈ s.flatten ↔ x ∈ others s c ∨ x ∈ current s c := by
  cases h with
  | null => simp [others, current]
  | last pre l y => simp only [flatten_last, others_last, current_last, List.mem_append, List.mem_singleton,
      Option.mem_some_iff, eq_comm]

theorem modify_last (f : α → α) : (l ++ [x]).modify l.length f = l ++ [f x] :=
  List.modifyTailIdx_add _ 0 l [x]

theorem add_last : add (pre ++ [l ++ [x]]) (some ⟨pre.length, l.length⟩) y =
    (pre ++ [(l ++ [x]) ++ [y]], ⟨pre.length, (l ++ [x]).length⟩) := by
  have hlen : l.length + 1 = (l ++ [x]).length := by rw [List.length_append, List.length_singleton]
  rw [add]
  dsimp only
  rw [hlen, modify_last, List.insertIdx_length_self]

theorem alter_last (f : α → α) : alter f (pre ++ [l ++ [x]]) (some ⟨pre.length, l.length⟩) = pre ++ [l ++ [f x]] := by
  rw [alter]
  dsimp only
  rw [modify_last, modify_last]

theorem alter_id (h : AtEnd s c) : alter (fun x => x) s c = s := by
  cases h with
  | null => rfl
  | last pre l x => exact alter_last _

/-! #### The cursor behind a change -/

theorem AtEnd.add (h : AtEnd s c) (x : α) : AtEnd (add s c x).1 (some (add s c x).2) := by
  cases h with
  | null => exact .last s [] x
  | last pre l y =>
    rw [add_last]
    exact .last pre (l ++ [y]) x

theorem others_add (h : AtEnd s c) : others (Chains.add s c x).1 (some (Chains.add s c x).2) = s.flatten := by
  cases h with
  | null => exact (others_last (l := [])).trans (List.append_nil _)
  | last pre l y => rw [add_last, others_last, flatten_last, List.append_assoc]

theorem current_add (h : AtEnd s c) : current (Chains.add s c x).1 (some (Chains.add s c x).2) = some x := by
  cases h with
  | null => exact current_last (l := [])
  | last pre l y => rw [add_last, current_last]

theorem AtEnd.alter (h : AtEnd s c) (f : α → α) : AtEnd (alter f s c) c := by
  cases h with
  | null => exact .null s
  | last pre l x =>
    rw [alter_last]
    exact .last pre l (f x)

theorem others_alter (h : AtEnd s c) (f : α → α) : others (Chains.alter f s c) c = others s c := by
  cases h with
  | null => rfl
  | last pre l x => rw [alter_last, others_last, others_last]

theorem current_alter (h : AtEnd s c) (f : α → α) : current (Chains.alter f s c) c = (current s c).map f := by
  cases h with
  | null => rfl
  | last pre l x => rw [alter_last, current_last, current_last, Option.map_some]

/-! ### Pointers -/

/-- The pointer is null, or leads into a chain before that of the cursor. -/
def Closed (s : Store α) (c p : Option Addr) : Prop :=
  ∀ a ∈ p, a.chain < (c.map Addr.chain).getD s.length

/-- The pointer leads to the head of the chain of the cursor; both may be null. -/
def Owns (c p : Option Addr) : Prop := p = c.map fun a => ⟨a.chain, 0⟩

theorem Owns.orElse (h : Owns c p) : (p <|> c) = p := by
  cases c with
  | none => rw [h]; rfl
  | some a => rw [h]; rfl

theorem follow_append {t : Store α} (h : a.chain < s.length) : follow (s ++ t) (some a) = follow s (some a) := by
  rw [follow, follow, List.getD_append _ _ _ _ h]

theorem follow_head : follow (pre ++ [l]) (some ⟨pre.length, 0⟩) = l := by
  rw [follow]
  dsimp only
  rw [List.getD_append_right _ _ _ _ (Nat.le_refl _), Nat.sub_self, List.getD_cons_zero, List.drop_zero]

theorem mem_flatten_of_mem_follow (h : x ∈ follow s (some a)) : x ∈ s.flatten := by
  have hmem : x ∈ s.getD a.chain [] := List.mem_of_mem_drop h
  refine List.mem_flatten.mpr ⟨_, ?_, hmem⟩
  by_cases hlt : a.chain < s.length
  · rw [List.getD_eq_getElem _ _ hlt]
    exact List.getElem_mem hlt
  · rw [List.getD_eq_default _ _ (Nat.le_of_not_lt hlt)] at hmem
    exact absurd hmem List.not_mem_nil

/-- The lists of other chains have no part in the node at the cursor. -/
theorem mem_others_of_mem_follow (h : AtEnd s c) (hp : Closed s c p) (hx : x ∈ follow s p) : x ∈ others s c := by
  cases p with
  | none => exact absurd hx List.not_mem_nil
  | some a =>
    have hlt := hp a rfl
    cases h with
    | null => exact mem_flatten_of_mem_follow hx
    | last pre l y =>
      rw [follow_append hlt] at hx
      rw [others_last]
      exact List.mem_append_left l (mem_flatten_of_mem_follow hx)

/-- When the cursor is taken away all chains are closed. -/
theorem Closed.of_closed (h : AtEnd s c) (hp : Closed s c p) : Closed s none p := fun a ha => by
  have hlt := hp a ha
  cases h with
  | null => exact hlt
  | last pre l x =>
    rw [Option.map_none, Option.getD_none, List.length_append]
    exact Nat.lt_add_right _ hlt

theorem Closed.of_owns (h : AtEnd s c) (hp : Owns c p) : Closed s none p := fun a ha => by
  cases h with
  | null =>
    rw [hp] at ha
    cases ha
  | last pre l x =>
    rw [hp] at ha
    obtain rfl := Option.some.inj ha
    rw [Option.map_none, Option.getD_none, List.length_append]
    exact Nat.lt_succ_self _

end

/-! ### What a change does to the lists that are read -/

/-- Between two stores the lists of closed chains are read as before, and the list of the open chain is changed: a
    null pointer of the owner is set to the cursor. -/
structure Effect (s s' : Store ν) (c c' : Option Addr) (rd rd' : ν → β) (g : List β → List β) : Prop where
  closed : ∀ {p}, Closed s c p → Closed s' c' p ∧ (follow s' p).map rd' = (follow s p).map rd
  own : ∀ {p}, Owns c p → Owns c' (p <|> c') ∧ (follow s' (p <|> c')).map rd' = g ((follow s p).map rd)

section
variable {s : Store ν} {c : Option Addr} {rd rd' : ν → β}

theorem Effect.add (h : AtEnd s c) (hrd : ∀ n ∈ s.flatten, rd' n = rd n) (x : ν) :
    Effect s (add s c x).1 c (some (add s c x).2) rd rd' (· ++ [rd' x]) := by
  have hread (p : Option Addr) : (follow s p).map rd' = (follow s p).map rd := by
    cases p with
    | none => rfl
    | some a => exact List.map_congr_left fun n hn => hrd n (mem_flatten_of_mem_follow hn)
  cases h with
  | null =>
    refine ⟨fun {p} hp => ⟨fun a ha => hp a ha, ?_⟩, fun {p} hp => ?_⟩
    · rw [← hread]
      cases p with
      | none => rfl
      | some a => exact congrArg _ (follow_append (hp a rfl))
    · obtain rfl : p = none := hp
      have hfollow : follow (s ++ [[x]]) (some ⟨s.length, 0⟩) = [x] := follow_head
      exact ⟨rfl, congrArg _ hfollow⟩
  | last pre l y =>
    rw [add_last]
    refine ⟨fun {p} hp => ⟨fun a ha => hp a ha, ?_⟩, fun {p} hp => ?_⟩
    · rw [← hread]
      cases p with
      | none => rfl
      | some a => rw [follow_append (hp a rfl), follow_append (hp a rfl)]
    · obtain rfl : p = some ⟨pre.length, 0⟩ := hp
      refine ⟨rfl, ?_⟩
      rw [← hread, follow_head]
      exact (congrArg _ follow_head).trans List.map_append

/-- The node at the cursor is changed, or something that is read through it. -/
theorem Effect.alter {f : ν → ν} {g : β → β} (h : AtEnd s c) (hothers : ∀ n ∈ others s c, rd' n = rd n)
    (hcurrent : ∀ n ∈ current s c, rd' (f n) = g (rd n)) :
    Effect s (alter f s c) c c rd rd' (·.modifyLast g) := by
  have hread {p : Option Addr} (hp : Closed s c p) : (follow s p).map rd' = (follow s p).map rd :=
    List.map_congr_left fun n hn => hothers n (mem_others_of_mem_follow h hp hn)
  cases h with
  | null =>
    refine ⟨fun {p} hp => ⟨hp, hread hp⟩, fun {p} hp => ?_⟩
    obtain rfl : p = none := hp
    exact ⟨rfl, rfl⟩
  | last pre l x =>
    rw [alter_last]
    refine ⟨fun {p} hp => ⟨fun a ha => hp a ha, ?_⟩, fun {p} hp => ?_⟩
    · rw [← hread hp]
      cases p with
      | none => rfl
      | some a => rw [follow_append (hp a rfl), follow_append (hp a rfl)]
    · obtain rfl : p = some ⟨pre.length, 0⟩ := hp
      refine ⟨rfl, ?_⟩
      rw [follow_head]
      have hlast : rd' (f x) = g (rd x) := hcurrent x (current_last (l := l))
      have hl : l.map rd' = l.map rd := List.map_congr_left fun n hn => hothers n (by
        rw [others_last]
        exact List.mem_append_right _ hn)
      refine (congrArg _ follow_head).trans ?_
      rw [List.map_append, List.map_append, List.map_singleton, List.map_singleton, List.modifyLast_concat, hl, hlast]

end

/-! ### Parents -/

/-- The parent at its cursor owns the open chain, and the chains of the other parents are closed. -/
structure Tends (parents : Store ν) (cp : Option Addr) (ptr : ν → Option Addr) (s : Store α) (c : Option Addr) :
    Prop where
  others : ∀ n ∈ others parents cp, Closed s c (ptr n)
  current : ∀ n ∈ current parents cp, Owns c (ptr n)

section
variable {P : Store ν} {s s' : Store α} {cp c c' : Option Addr} {ptr : ν → Option Addr}

theorem Tends.closed (h : Tends P cp ptr s c) (hP : AtEnd P cp) (hs : AtEnd s c) :
    ∀ n ∈ P.flatten, Closed s none (ptr n) := fun n hn => by
  rcases (mem_flatten_iff hP).mp hn with hn | hn
  · exact (h.others n hn).of_closed hs
  · exact .of_owns hs (h.current n hn)

/-- Without a parent there is no open chain. -/
theorem Tends.reset (h : Tends P cp ptr s c) (hP : AtEnd P cp) (hs : AtEnd s c) : Tends P none ptr s none :=
  ⟨h.closed hP hs, nofun⟩

/-- A new parent has no children. -/
theorem Tends.add (h : Tends P cp ptr s c) (hP : AtEnd P cp) (hs : AtEnd s c) {x : ν} (hx : ptr x = none) :
    Tends (add P cp x).1 (some (add P cp x).2) ptr s none where
  others n hn := h.closed hP hs n (others_add hP ▸ hn)
  current n hn := by
    rw [current_add hP] at hn
    obtain rfl := Option.some.inj hn
    exact hx

/-- A child is added, and the pointer of the parent is set if it is null. -/
theorem Tends.adopt {rd rd' : α → β} {g : List β → List β} (h : Tends P cp ptr s c) (hP : AtEnd P cp)
    (e : Effect s s' c c' rd rd' g) {f : ν → ν} (hf : ∀ n, ptr (f n) = (ptr n <|> c')) :
    Tends (alter f P cp) cp ptr s' c' where
  others n hn := (e.closed (h.others n (others_alter hP f ▸ hn))).1
  current n hn := by
    rw [current_alter hP] at hn
    obtain ⟨m, hm, rfl⟩ := Option.map_eq_some_iff.mp hn
    rw [hf]
    exact (e.own (h.current m hm)).1

theorem Tends.of_effect {rd rd' : α → β} {g : List β → List β} (h : Tends P cp ptr s c)
    (e : Effect s s' c c rd rd' g) : Tends P cp ptr s' c where
  others n hn := (e.closed (h.others n hn)).1
  current n hn := h.current n hn

theorem Tends.alter (h : Tends P cp ptr s c) (hP : AtEnd P cp) {f : ν → ν} (hf : ∀ n, ptr (f n) = ptr n) :
    Tends (alter f P cp) cp ptr s c where
  others n hn := h.others n (others_alter hP f ▸ hn)
  current n hn := by
    rw [current_alter hP] at hn
    obtain ⟨m, hm, rfl⟩ := Option.map_eq_some_iff.mp hn
    rw [hf]
    exact h.current m hm

end

end Chains
