import OpsSupportability.Theorems.PyInit

/-! A call of `event_log_init` in Python that fails: the definitions that the walk over the document has
    passed stay in `content`, so the call is undone only if none of them is of the category. -/

namespace OpsSupportability
namespace PyEventLog

variable {defs : List YamlEvent} {doc : Option (List YamlEvent)} {cat : Text} {s : State}

/-- The walk raises at the definition: its category is missing, or it is of the category and incomplete. -/
def raises (cat : Text) (e : YamlEvent) : Bool :=
  e.eventCategory.isNone || (e.eventCategory == some cat && (mydic e).isNone)

/-- The definitions before the first one at which the walk raises. -/
def passed (cat : Text) (defs : List YamlEvent) : List YamlEvent := defs.takeWhile fun e => !raises cat e

/-- A category of which the name is a part is initialised already. -/
def Initialised (cat : Text) (s : State) : Prop := ∃ c ∈ s.category, cat <:+: c

/-- Where the walk raises, no definition of the category has been passed. -/
def StopsClean (cat : Text) (defs : List YamlEvent) : Prop :=
  (∃ e ∈ defs, raises cat e = true) → ∀ e ∈ passed cat defs, e.eventCategory ≠ some cat

/-- A call that fails changes nothing, and a later call on any document does what it would have done. -/
structure Atomic (doc : Option (List YamlEvent)) (cat : Text) (s : State) : Prop where
  unchanged : (eventLogInit doc cat s).2 = .fail → (eventLogInit doc cat s).1 = s
  retry : (eventLogInit doc cat s).2 = .fail → ∀ repaired,
    eventLogInit repaired cat (eventLogInit doc cat s).1 = eventLogInit repaired cat s

/-! ### The walk over the document -/

theorem loadDefinitions_cons_of_raises {e : YamlEvent} (h : raises cat e = true) (content : List Entry)
    (found : Bool) : loadDefinitions cat (e :: defs) content found = (content, none) := by
  rw [raises, Bool.or_eq_true, Bool.and_eq_true] at h
  rw [loadDefinitions]
  rcases h with hnone | ⟨hcat, hincomplete⟩
  · rw [Option.isNone_iff_eq_none.mp hnone]
  · rw [beq_iff_eq.mp hcat]
    simp only [beq_self_eq_true, if_true, Option.isNone_iff_eq_none.mp hincomplete]

theorem definitionsOf_cons (e : YamlEvent) (defs : List YamlEvent) (cat : Text) :
    definitionsOf (e :: defs) cat =
      (if e.eventCategory = some cat then (mydic e).toList else []) ++ definitionsOf defs cat := by
  by_cases hcat : e.eventCategory = some cat
  · cases hmydic : mydic e <;> simp [definitionsOf, hcat, hmydic]
  · simp [definitionsOf, hcat]

theorem loadDefinitions_cons_of_passes {e : YamlEvent} (h : raises cat e = false) (content : List Entry)
    (found : Bool) :
    loadDefinitions cat (e :: defs) content found =
      loadDefinitions cat defs (content ++ (if e.eventCategory = some cat then (mydic e).toList else []))
        (found || decide (e.eventCategory = some cat)) := by
  obtain ⟨hsome, hpass⟩ := Bool.or_eq_false_iff.mp h
  obtain ⟨yamlCat, hyaml⟩ := Option.isSome_iff_exists.mp (Option.isNone_eq_false_iff.mp hsome)
  rw [loadDefinitions, hyaml]
  by_cases hcat : yamlCat = cat
  · subst hcat
    rw [hyaml, beq_self_eq_true, Bool.true_and] at hpass
    obtain ⟨d, hd⟩ := Option.isSome_iff_exists.mp (Option.isNone_eq_false_iff.mp hpass)
    simp [hd]
  · simp [hcat]

theorem loadDefinitions_eq (defs : List YamlEvent) (content : List Entry) (found : Bool) :
    loadDefinitions cat defs content found =
      (content ++ definitionsOf (passed cat defs) cat,
        if ∃ e ∈ defs, raises cat e = true then none else some (found || decide (Defines defs cat))) := by
  induction defs generalizing content found with
  | nil => simp [loadDefinitions, passed, definitionsOf, Defines]
  | cons e defs ih =>
    cases h : raises cat e with
    | true => simp [loadDefinitions_cons_of_raises h, passed, h, definitionsOf]
    | false =>
      rw [loadDefinitions_cons_of_passes h, ih]
      have hpassed : passed cat (e :: defs) = e :: passed cat defs := by simp [passed, h]
      have hdefines : Defines (e :: defs) cat ↔ e.eventCategory = some cat ∨ Defines defs cat := by simp [Defines]
      simp [hpassed, definitionsOf_cons, h, hdefines, Bool.or_assoc]

/-- What is passed of the category is complete. -/
theorem definitionsOf_passed_eq_nil :
    definitionsOf (passed cat defs) cat = [] ↔ ∀ e ∈ passed cat defs, e.eventCategory ≠ some cat := by
  induction defs with
  | nil => simp [passed, definitionsOf]
  | cons e defs ih =>
    cases h : raises cat e with
    | true => simp [passed, h, definitionsOf]
    | false =>
      have hpassed : passed cat (e :: defs) = e :: passed cat defs := by simp [passed, h]
      rw [hpassed, definitionsOf_cons, List.append_eq_nil_iff, ih, List.forall_mem_cons]
      refine and_congr_left fun _ => ?_
      by_cases hcat : e.eventCategory = some cat
      · have hcomplete : (mydic e).isNone = false := by
          simpa [hcat] using (Bool.or_eq_false_iff.mp h).2
        obtain ⟨d, hd⟩ := Option.isSome_iff_exists.mp (Option.isNone_eq_false_iff.mp hcomplete)
        simp [hcat, hd]
      · simp [hcat]

/-! ### A call -/

theorem eventLogInit_of_initialised (h : Initialised cat s) : eventLogInit doc cat s = (s, .fail) := by
  obtain ⟨c, hc, hpart⟩ := h
  unfold eventLogInit
  rw [if_pos (List.any_eq_true.mpr ⟨c, hc, decide_eq_true hpart⟩)]

theorem eventLogInit_of_new (h : ¬ Initialised cat s) :
    eventLogInit (some defs) cat s =
      if (∃ e ∈ defs, raises cat e = true) ∨ ¬ Defines defs cat then
        ({ s with content := s.content ++ definitionsOf (passed cat defs) cat }, .fail)
      else (⟨s.content ++ definitionsOf (passed cat defs) cat, s.category ++ [cat]⟩, .none) := by
  have hany : ¬ (s.category.any fun c => decide (cat <:+: c)) = true := by
    simpa [Initialised] using h
  rw [eventLogInit, if_neg hany]
  simp only [loadDefinitions_eq]
  by_cases hraises : ∃ e ∈ defs, raises cat e = true
  · simp [hraises]
  · by_cases hdefines : Defines defs cat <;> simp [hraises, hdefines]

theorem Atomic.of_unchanged (h : (eventLogInit doc cat s).2 = .fail → (eventLogInit doc cat s).1 = s) :
    Atomic doc cat s :=
  ⟨h, fun hfail repaired => by rw [h hfail]⟩

/-- A call is undone when it fails, if and only if the category is initialised already, or the document cannot
    be loaded, or the walk over it passes no definition of the category before it raises. -/
theorem atomic_iff (doc : Option (List YamlEvent)) (cat : Text) (s : State) :
    Atomic doc cat s ↔ Initialised cat s ∨ ∀ defs ∈ doc, StopsClean cat defs := by
  by_cases hinit : Initialised cat s
  · exact iff_of_true (.of_unchanged fun _ => by rw [eventLogInit_of_initialised hinit]) (Or.inl hinit)
  · cases doc with
    | none =>
      refine iff_of_true (.of_unchanged fun _ => ?_) (Or.inr nofun)
      rw [eventLogInit]
      split <;> rfl
    | some defs =>
      have hcall := @eventLogInit_of_new defs cat s hinit
      have hdoc : (∀ defs' ∈ some defs, StopsClean cat defs') ↔ StopsClean cat defs := by simp
      rw [or_iff_right hinit, hdoc]
      constructor
      · intro h hraises
        rw [if_pos (Or.inl hraises)] at hcall
        have hsame := h.unchanged (by rw [hcall])
        rw [hcall] at hsame
        refine definitionsOf_passed_eq_nil.mp ?_
        exact List.append_right_eq_self.mp (congrArg State.content hsame)
      · intro h
        refine .of_unchanged fun hfail => ?_
        by_cases hraises : ∃ e ∈ defs, raises cat e = true
        · rw [hcall, if_pos (Or.inl hraises), definitionsOf_passed_eq_nil.mpr (h hraises), List.append_nil]
        · by_cases hdefines : Defines defs cat
          · rw [hcall, if_neg (by simp [hraises, hdefines])] at hfail
            cases hfail
          · rw [hcall, if_pos (Or.inr hdefines), definitionsOf_passed_eq_nil.mpr, List.append_nil]
            intro e he hcat
            exact hdefines ⟨e, (List.takeWhile_sublist _).subset he, hcat⟩

/-! ### A definition that lacks its severity -/

/-- The second definition of INTERFACE has no severity. -/
def brokenInterfaces : List YamlEvent :=
  [⟨some "INTERFACE_UP".toList, some "INTERFACE".toList, some 4001, some "LOG_INFO".toList, some "up".toList⟩,
    ⟨some "INTERFACE_DOWN".toList, some "INTERFACE".toList, some 4002, none, some "down".toList⟩]

def repairedInterfaces : List YamlEvent :=
  [⟨some "INTERFACE_UP".toList, some "INTERFACE".toList, some 4001, some "LOG_INFO".toList, some "up".toList⟩,
    ⟨some "INTERFACE_DOWN".toList, some "INTERFACE".toList, some 4002, some "LOG_INFO".toList, some "down".toList⟩]

/-- The failed call leaves the first event, and the retry loads it a second time. -/
theorem broken_not_atomic :
    (eventLogInit (some brokenInterfaces) "INTERFACE".toList State.init).2 = .fail ∧
      ¬ Atomic (some brokenInterfaces) "INTERFACE".toList State.init ∧
      ((eventLogInit (some repairedInterfaces) "INTERFACE".toList
        (eventLogInit (some brokenInterfaces) "INTERFACE".toList State.init).1).1.content.map (·.eventName)) =
        ["INTERFACE_UP".toList, "INTERFACE_UP".toList, "INTERFACE_DOWN".toList] := by
  have hfail : (eventLogInit (some brokenInterfaces) "INTERFACE".toList State.init).2 = .fail := by decide
  refine ⟨hfail, fun h => ?_, by decide⟩
  exact absurd (h.unchanged hfail) (by decide)

end PyEventLog
end OpsSupportability
