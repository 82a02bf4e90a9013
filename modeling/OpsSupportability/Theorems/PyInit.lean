import OpsSupportability.Lib.Firsts
import OpsSupportability.PyEventLog

/-! Sequences of `event_log_init` calls in Python: they load each defined category once, in the order of
    the first calls, exactly when no name is part of one that was first called before it (`NoPart`). -/

namespace OpsSupportability
namespace PyEventLog

open Firsts

section
variable {defs : List YamlEvent} {calls pre post : List Text} {cat : Text} {s : State}

/-- Every definition has all fields. -/
def Complete (defs : List YamlEvent) : Prop := ∀ e ∈ defs, (mydic e).isSome

def Defines (defs : List YamlEvent) (cat : Text) : Prop := ∃ e ∈ defs, e.eventCategory = some cat

instance : Decidable (Defines defs cat) := inferInstanceAs (Decidable (∃ e ∈ defs, e.eventCategory = some cat))

/-- The definitions of a category in document order. -/
def definitionsOf (defs : List YamlEvent) (cat : Text) : List Entry :=
  (defs.filter (·.eventCategory == some cat)).filterMap mydic

/-- The distinct defined categories in the order of their first call. -/
def distinctDefined (defs : List YamlEvent) (calls : List Text) : List Text :=
  firsts (Defines defs) calls

/-- No category is part of the name of one that was first called before it. -/
def NoPart (cats : List Text) : Prop := cats.Pairwise fun a b => ¬ b <:+: a

/-- A call fails exactly when its category is already initialised or not defined. -/
def ReturnsRight (defs : List YamlEvent) (calls : List Text) : Prop :=
  ∀ pre cat post, calls = pre ++ cat :: post →
    ((eventLogInit (some defs) cat (initAll (some defs) pre)).2 = .fail ↔
      cat ∈ (initAll (some defs) pre).category ∨ ¬ Defines defs cat)

/-! ### One call -/

theorem loadDefinitions_complete (hd : Complete defs) (content : List Entry) (found : Bool) :
    loadDefinitions cat defs content found =
      (content ++ definitionsOf defs cat, some (found || decide (Defines defs cat))) := by
  induction defs generalizing content found with
  | nil => simp [loadDefinitions, definitionsOf, Defines]
  | cons e es ih =>
    obtain ⟨d, he⟩ := Option.isSome_iff_exists.mp (hd e List.mem_cons_self)
    have hes : Complete es := fun x hx => hd x (List.mem_cons_of_mem _ hx)
    obtain ⟨yamlCat, hcat⟩ : ∃ yamlCat, e.eventCategory = some yamlCat := by
      cases hc : e.eventCategory with
      | none => simp [mydic, hc] at he
      | some yamlCat => exact ⟨yamlCat, rfl⟩
    by_cases hy : yamlCat = cat
    · subst hy
      simp [loadDefinitions, hcat, he, ih hes, definitionsOf, Defines]
    · have hdef : Defines (e :: es) cat ↔ Defines es cat := by simp [Defines, hcat, hy]
      simp [loadDefinitions, hcat, hy, ih hes, definitionsOf, hdef]

/-- A call whose name is part of an initialised one, or that is not defined, changes nothing. -/
theorem eventLogInit_skip (hd : Complete defs) (h : (∃ c ∈ s.category, cat <:+: c) ∨ ¬ Defines defs cat) :
    eventLogInit (some defs) cat s = (s, .fail) := by
  by_cases hpart : ∃ c ∈ s.category, cat <:+: c
  · simp [eventLogInit, hpart]
  · have hdef := h.resolve_left hpart
    have hnone : definitionsOf defs cat = [] := by
      rw [definitionsOf, List.filter_eq_nil_iff.mpr, List.filterMap_nil]
      intro e he
      simpa using fun hcat => hdef ⟨e, he, hcat⟩
    simp [eventLogInit, hpart, loadDefinitions_complete hd, hdef, hnone]

theorem eventLogInit_load (hd : Complete defs) (hpart : ¬ ∃ c ∈ s.category, cat <:+: c) (hdef : Defines defs cat) :
    eventLogInit (some defs) cat s = (⟨s.content ++ definitionsOf defs cat, s.category ++ [cat]⟩, .none) := by
  simp [eventLogInit, hpart, loadDefinitions_complete hd, hdef]

/-! ### Sequences of calls -/

theorem initAll_append (doc : Option (List YamlEvent)) (calls : List Text) (cat : Text) :
    initAll doc (calls ++ [cat]) = (eventLogInit doc cat (initAll doc calls)).1 := by
  simp [initAll]

/-- The state that a sequence of calls should reach. -/
def loaded (defs : List YamlEvent) (calls : List Text) : State where
  content := (distinctDefined defs calls).flatMap (definitionsOf defs)
  category := distinctDefined defs calls

theorem NoPart.of_prefix (h : NoPart (distinctDefined defs (pre ++ post))) : NoPart (distinctDefined defs pre) :=
  h.sublist (firsts_prefix_append pre post).sublist

/-- The last call neither meets a longer name nor misses one it should load. -/
theorem NoPart.last (h : NoPart (distinctDefined defs (calls ++ [cat]))) (hdef : Defines defs cat)
    (hnew : cat ∉ distinctDefined defs calls) : ¬ ∃ c ∈ distinctDefined defs calls, cat <:+: c := by
  rw [distinctDefined, firsts_concat_of_new hdef hnew] at h
  rintro ⟨c, hc, hpart⟩
  exact (List.pairwise_append.mp h).2.2 c hc cat (List.mem_singleton_self cat) hpart

theorem initAll_eq_loaded (hd : Complete defs) (h : NoPart (distinctDefined defs calls)) :
    initAll (some defs) calls = loaded defs calls := by
  induction calls using List.reverseRecOn with
  | nil => rfl
  | append_singleton calls cat ih =>
    rw [initAll_append, ih h.of_prefix]
    by_cases hload : Defines defs cat ∧ cat ∉ distinctDefined defs calls
    · rw [eventLogInit_load hd (h.last hload.1 hload.2) hload.1]
      simp [loaded, distinctDefined, firsts_concat_of_new hload.1 hload.2]
    · have hskip : (∃ c ∈ (loaded defs calls).category, cat <:+: c) ∨ ¬ Defines defs cat := by
        by_cases hdef : Defines defs cat
        · exact Or.inl ⟨cat, not_not.mp fun hnew => hload ⟨hdef, hnew⟩, List.infix_refl cat⟩
        · exact Or.inr hdef
      rw [eventLogInit_skip hd hskip, loaded, loaded, distinctDefined, distinctDefined, firsts_concat_of_old hload]

theorem returnsRight_of_noPart (hd : Complete defs) (h : NoPart (distinctDefined defs calls)) :
    ReturnsRight defs calls := by
  intro pre cat post heq
  have hcat : NoPart (distinctDefined defs (pre ++ [cat])) := by
    rw [heq, ← List.singleton_append, ← List.append_assoc] at h
    exact h.of_prefix
  rw [initAll_eq_loaded hd hcat.of_prefix]
  constructor
  · intro hfail
    by_contra hno
    obtain ⟨hnew, hdef⟩ := not_or.mp hno
    rw [eventLogInit_load hd (hcat.last (not_not.mp hdef) hnew) (not_not.mp hdef)] at hfail
    cases hfail
  · rintro (hmem | hdef)
    · rw [eventLogInit_skip hd (Or.inl ⟨cat, hmem, List.infix_refl cat⟩)]
    · rw [eventLogInit_skip hd (Or.inr hdef)]

theorem ReturnsRight.of_append (h : ReturnsRight defs (calls ++ [cat])) : ReturnsRight defs calls := by
  intro pre c post heq
  exact h pre c (post ++ [cat]) (by rw [heq, List.append_assoc, List.cons_append])

theorem noPart_of_returnsRight (hd : Complete defs) (h : ReturnsRight defs calls) :
    NoPart (distinctDefined defs calls) := by
  induction calls using List.reverseRecOn with
  | nil => exact List.Pairwise.nil
  | append_singleton calls cat ih =>
    have hpre := ih h.of_append
    by_cases hload : Defines defs cat ∧ cat ∉ distinctDefined defs calls
    · rw [distinctDefined, firsts_concat_of_new hload.1 hload.2]
      refine List.pairwise_append.mpr ⟨hpre, List.pairwise_singleton _ _, fun c hc b hb hpart => ?_⟩
      obtain rfl := List.mem_singleton.mp hb
      have hret := h calls b [] rfl
      rw [initAll_eq_loaded hd hpre, eventLogInit_skip hd (Or.inl ⟨c, hc, hpart⟩)] at hret
      rcases hret.mp rfl with hold | hundef
      · exact hload.2 hold
      · exact hundef hload.1
    · rwa [distinctDefined, firsts_concat_of_old hload]

/-- A sequence of calls loads the distinct defined categories in the order of their first calls, and
    fails exactly where it should, if and only if none of them is part of an earlier one. -/
theorem initAll_iff_noPart (hd : Complete defs) :
    ((initAll (some defs) calls).content = (distinctDefined defs calls).flatMap (definitionsOf defs) ∧
      ReturnsRight defs calls) ↔ NoPart (distinctDefined defs calls) := by
  constructor
  · rintro ⟨-, hret⟩
    exact noPart_of_returnsRight hd hret
  · intro h
    exact ⟨by rw [initAll_eq_loaded hd h, loaded], returnsRight_of_noPart hd h⟩

end

/-- Two of the shipped definitions, of the categories INTERFACE and SUBINTERFACE. -/
def interfaces : List YamlEvent :=
  [⟨some "INTERFACE_UP".toList, some "INTERFACE".toList, some 4001, some "LOG_INFO".toList,
      some "Interface port_admin set to up for \x7binterface\x7d interface".toList⟩,
    ⟨some "SUBINTERFACE_CREATE".toList, some "SUBINTERFACE".toList, some 10001, some "LOG_INFO".toList,
      some "Sub-Interface \x7binterface\x7d, created".toList⟩]

theorem interfaces_complete : Complete interfaces := by
  unfold Complete
  decide

theorem initAll_iff_noPart_interfaces :
    ((initAll (some interfaces) ["INTERFACE".toList, "SUBINTERFACE".toList]).content =
        (distinctDefined interfaces ["INTERFACE".toList, "SUBINTERFACE".toList]).flatMap (definitionsOf interfaces) ∧
      ReturnsRight interfaces ["INTERFACE".toList, "SUBINTERFACE".toList]) ↔
    NoPart (distinctDefined interfaces ["INTERFACE".toList, "SUBINTERFACE".toList]) :=
  initAll_iff_noPart interfaces_complete

/-- SUBINTERFACE first: INTERFACE is then taken for an initialised category. -/
theorem subinterface_first_fails :
    Complete interfaces ∧
      ¬ ((initAll (some interfaces) ["SUBINTERFACE".toList, "INTERFACE".toList]).content =
          (distinctDefined interfaces ["SUBINTERFACE".toList, "INTERFACE".toList]).flatMap (definitionsOf interfaces) ∧
        ReturnsRight interfaces ["SUBINTERFACE".toList, "INTERFACE".toList]) := by
  refine ⟨interfaces_complete, fun h => ?_⟩
  have hret := (h.2 ["SUBINTERFACE".toList] "INTERFACE".toList [] rfl).mp (by decide)
  exact absurd hret (by decide)

end PyEventLog
end OpsSupportability
