import Mathlib.Data.List.ReduceOption
import OpsSupportability.Lib.Firsts
import OpsSupportability.Theorems.EventLoad

/-! Sequences of `event_log_init` calls in C: the used part of the table is the concatenation of the
    categories, each loaded by its first call. -/

namespace OpsSupportability
namespace EventLog

open Firsts

section
variable {env : Env} {memory : Table} {file : List Token} {categories : List Text} {defs ds : List Definition}
  {category : Text} {fuel : Nat} {calls pre : List (Option Text)} {c : Option Text} {s : State}

/-- The calls outside the library succeed. -/
structure Env.Ok (env : Env) (file : List Token) (memory : Table) : Prop where
  file : env.file = some file
  parserInitialize : env.parserInitialize = true
  memory : env.memory = some memory

/-! ### One category -/

theorem findLastIndexFrom_eq {table : Table} {n m : Nat} (hn : (table n).eventName = eventNameDelimiterStr)
    (hlt : ∀ i < n, (table i).eventName ≠ eventNameDelimiterStr) (i : Nat) (hi : i ≤ n) (hm : n < i + m) :
    findLastIndexFrom table m i = some n := by
  induction m generalizing i with
  | zero => omega
  | succ m ih =>
    by_cases heq : i = n
    · subst heq
      simp [findLastIndexFrom, hn]
    · have := hlt i (by omega)
      simp only [findLastIndexFrom, this, if_false]
      exact ih (i + 1) (by omega) (by omega)

theorem findLastIndex_filled (wf : ∀ d ∈ ds, d.WellFormed) (hlen : ds.length < maxEventTableSize) :
    findLastIndex (filled memory ds) = some ds.length := by
  refine findLastIndexFrom_eq (by rw [filled_length]; rfl) (fun i hi => ?_) 0 (Nat.zero_le _) (by omega)
  rw [filled_lt hi]
  exact (wf _ (List.getElem_mem hi)).name_ne

/-- The file adds the definitions of the category behind those loaded before. -/
theorem parseYaml_filled (ok : env.Ok file memory) (layout : Layout file categories defs) (hfuel : file.length ≤ fuel)
    (wf : ∀ d ∈ ds, d.WellFormed) (hlen : ds.length < maxEventTableSize) (ho : ∀ d ∈ defs, category ∉ d.otherScalars) :
    ∃ writes, parseYamlForCategory env fuel category (filled memory ds) =
        some (if Defines defs category then 1 else 0, filled memory (ds ++ definitionsOf defs category), writes) ∧
      ∀ i ∈ writes, i ≤ (ds ++ definitionsOf defs category).length := by
  obtain ⟨body, rest, rfl, hend, hscalars⟩ := layout.tokens
  let start : Loader := ⟨filled memory ds, [], ds.length, false, false, .none, false, false, []⟩
  have hstart : start.readScalars category (categories ++ [eventDefinitions]) = { start with defFlag := true } := by
    rw [readScalars_append, readScalars_categories layout.categories rfl rfl rfl rfl]
    simp [start, Loader.scalar, Loader.readName, Loader.matchCategory]
  have hfilled : ({ start with defFlag := true } : Loader).Filled memory ds :=
    ⟨⟨rfl, rfl, by simp [start]⟩, rfl, rfl, by simp [start]⟩
  obtain ⟨hdefs, hfound⟩ := hfilled.definitions layout.wellFormed ho
  have hloop : parseLoop category fuel (body ++ Token.streamEnd :: rest) start =
      some (({ start with defFlag := true } : Loader).readScalars category (defs.flatMap Definition.scalars)) := by
    rw [parseLoop_body hend (by simp at hfuel; omega), hscalars, List.append_cons, readScalars_append, hstart]
  refine ⟨_, ?_, hdefs.writes⟩
  simp only [parseYamlForCategory, ok.file, findLastIndex_filled wf hlen, ok.parserInitialize, if_true]
  rw [hloop, Option.map_some, hdefs.table, hfound]
  simp [start]

/-! ### Sequences of calls -/

/-- The distinct defined categories in the order of their first call. -/
def distinctDefined (defs : List Definition) (calls : List (Option Text)) : List Text :=
  firsts (Defines defs) calls.reduceOption

def loadedBy (defs : List Definition) (calls : List (Option Text)) : List Definition :=
  (distinctDefined defs calls).flatMap (definitionsOf defs)

/-- What a call returns after the calls `pre`: a repeated category is refused, an undefined one adds
    nothing. -/
def answer (defs : List Definition) (pre : List (Option Text)) : Option Text → Int
  | none => -1
  | some category =>
    if category ∈ distinctDefined defs pre then -1 else if Defines defs category then 1 else 0

def answers (defs : List Definition) (pre : List (Option Text)) : List (Option Text) → List Int
  | [] => []
  | c :: calls => answer defs pre c :: answers defs (pre ++ [c]) calls

/-- The statics after the calls `pre`. -/
structure Reached (memory : Table) (defs : List Definition) (pre : List (Option Text)) (s : State) : Prop where
  categoryTable : s.categoryTable = distinctDefined defs pre
  evTable : s.evTable = if pre.reduceOption = [] then none else some (filled memory (loadedBy defs pre))
  writes : ∀ i ∈ s.writes, i ≤ (loadedBy defs pre).length

theorem reached_init : Reached memory defs [] State.init := ⟨rfl, rfl, by simp [State.init]⟩

/-- Every definition has one category, so distinct categories load it at most once. -/
theorem length_flatMap_definitionsOf {cats : List Text} (h : cats.Nodup) :
    (cats.flatMap (definitionsOf defs)).length ≤ defs.length := by
  induction defs with
  | nil => simp [definitionsOf]
  | cons d defs ih =>
    have hcons : ∀ cats : List Text, (cats.flatMap (definitionsOf (d :: defs))).length =
        cats.count d.category + (cats.flatMap (definitionsOf defs)).length := by
      intro cats
      induction cats with
      | nil => rfl
      | cons category cats ihc =>
        rw [List.flatMap_cons, List.flatMap_cons, List.length_append, List.length_append, ihc, List.count_cons]
        by_cases hc : d.category = category
        · simp [definitionsOf, hc]
          omega
        · simp [definitionsOf, hc, Ne.symm hc]
          omega
    have := List.nodup_iff_count_le_one.mp h d.category
    rw [hcons, List.length_cons]
    omega

theorem length_loadedBy : (loadedBy defs pre).length ≤ defs.length := length_flatMap_definitionsOf nodup_firsts

variable (pre) in
theorem wellFormed_loadedBy (layout : Layout file categories defs) : ∀ d ∈ loadedBy defs pre, d.WellFormed := by
  intro d hd
  obtain ⟨category, -, hmem⟩ := List.mem_flatMap.mp hd
  exact layout.wellFormed d (List.mem_filter.mp hmem).1

theorem definitionsOf_undefined (h : ¬ Defines defs category) : definitionsOf defs category = [] := by
  rw [definitionsOf, List.filter_eq_nil_iff]
  intro d hd
  simpa using fun heq => h ⟨d, hd, heq⟩

theorem distinctDefined_null : distinctDefined defs (pre ++ [none]) = distinctDefined defs pre := by
  simp [distinctDefined, List.reduceOption]

theorem distinctDefined_concat (category : Text) :
    distinctDefined defs (pre ++ [some category]) = firsts (Defines defs) (pre.reduceOption ++ [category]) := by
  simp [distinctDefined, List.reduceOption]

/-- A new category adds its definitions behind those loaded before. -/
theorem loadedBy_concat (hnew : category ∉ distinctDefined defs pre) :
    loadedBy defs (pre ++ [some category]) = loadedBy defs pre ++ definitionsOf defs category := by
  rw [loadedBy, distinctDefined_concat]
  by_cases hdef : Defines defs category
  · rw [firsts_concat_of_new hdef hnew]
    simp [loadedBy, distinctDefined]
  · rw [firsts_concat_of_old fun hnew => hdef hnew.1, definitionsOf_undefined hdef, List.append_nil]
    rfl

/-- The table that a call finds or creates. -/
theorem Reached.tableOf (h : Reached memory defs pre s) (ok : env.Ok file memory) : EventLog.tableOf env s =
    some (filled memory (loadedBy defs pre), if pre.reduceOption = [] then [0] else []) := by
  rw [EventLog.tableOf, h.evTable]
  by_cases hnil : pre.reduceOption = []
  · simp [hnil, createEventTable, ok.memory, loadedBy, distinctDefined, filled_nil, Event.delimiter]
  · simp [hnil]

/-- A call after `pre`, while the category table has room. -/
theorem Reached.call (h : Reached memory defs pre s) (ok : env.Ok file memory) (layout : Layout file categories defs)
    (hfuel : file.length ≤ fuel) (hroom : (distinctDefined defs pre).length ≤ maxCategoriesPerDaemon)
    (ho : ∀ category, c = some category → ∀ d ∈ defs, category ∉ d.otherScalars) :
    ∃ s', eventLogInit env fuel c s = some (answer defs pre c, s') ∧ Reached memory defs (pre ++ [c]) s' := by
  cases c with
  | none =>
    refine ⟨s, rfl, ?_, ?_, ?_⟩
    · rw [distinctDefined_null, h.categoryTable]
    · rw [loadedBy, distinctDefined_null, h.evTable, List.reduceOption_append]
      simp [loadedBy, List.reduceOption]
    · rw [loadedBy, distinctDefined_null]
      exact h.writes
  | some category =>
    have hlen : (loadedBy defs pre).length < maxEventTableSize := lt_of_le_of_lt length_loadedBy layout.capacity
    by_cases hold : category ∈ distinctDefined defs pre
    · have hfirsts : distinctDefined defs (pre ++ [some category]) = distinctDefined defs pre := by
        rw [distinctDefined_concat]
        exact firsts_concat_of_old fun hnew => hnew.2 hold
      have hpre : pre.reduceOption ≠ [] := fun hnil => by
        simp [distinctDefined, hnil] at hold
      refine ⟨s, ?_, ?_, ?_, ?_⟩
      · simp [eventLogInit, eventCategorySearch, h.categoryTable, hold, answer]
      · rw [hfirsts, h.categoryTable]
      · rw [loadedBy, hfirsts, h.evTable]
        simp [loadedBy, hpre, List.reduceOption_append]
      · rw [loadedBy, hfirsts]
        exact h.writes
    · obtain ⟨writes, hparse, hwrites⟩ := parseYaml_filled ok layout hfuel
        (wellFormed_loadedBy pre layout) hlen (ho category rfl)
      have hloaded := loadedBy_concat hold
      have hcats : distinctDefined defs (pre ++ [some category]) =
          if Defines defs category then distinctDefined defs pre ++ [category] else distinctDefined defs pre := by
        rw [distinctDefined_concat]
        by_cases hdef : Defines defs category
        · rw [firsts_concat_of_new hdef hold, if_pos hdef]
          rfl
        · rw [firsts_concat_of_old fun hnew => hdef hnew.1, if_neg hdef]
          rfl
      have hcreated := h.tableOf ok
      refine ⟨⟨some (filled memory (loadedBy defs (pre ++ [some category]))),
        distinctDefined defs (pre ++ [some category]),
        s.writes ++ (if pre.reduceOption = [] then [0] else []) ++ writes⟩, ?_, rfl, ?_, ?_⟩
      · simp only [eventLogInit, h.categoryTable, Nat.not_lt.mpr hroom, if_false, eventCategorySearch,
          List.contains_eq_mem, hold, decide_false, Bool.false_eq_true, hcreated, hparse, Option.map_some, answer, hloaded, hcats]
        by_cases hdef : Defines defs category <;> simp [hdef]
      · simp [List.reduceOption_append]
      · intro i hi
        simp only [List.mem_append] at hi
        rw [hloaded]
        rcases hi with (hi | hi) | hi
        · exact (h.writes i hi).trans (by simp)
        · have : i = 0 := by
            split at hi
            · exact List.mem_singleton.mp hi
            · cases hi
          omega
        · exact hwrites i hi

theorem initAll_append (env : Env) (fuel : Nat) (a b : List (Option Text)) (s : State) :
    initAll env fuel (a ++ b) s = (initAll env fuel a s).bind fun r =>
      (initAll env fuel b r.2).map fun r' => (r.1 ++ r'.1, r'.2) := by
  induction a generalizing s with
  | nil => cases h : initAll env fuel b s <;> simp [initAll, h]
  | cons c a ih =>
    rw [List.cons_append, initAll, initAll]
    cases hc : eventLogInit env fuel c s with
    | none => rfl
    | some r =>
      cases ha : initAll env fuel a r.2 with
      | none => simp [ih, ha]
      | some r' => cases hb : initAll env fuel b r'.2 <;> simp [ih, ha, hb]

variable (calls) in
/-- The calls after `pre`, one after the other. -/
theorem Reached.sequence (h : Reached memory defs pre s) (ok : env.Ok file memory) (layout : Layout file categories defs)
    (hfuel : file.length ≤ fuel) (hroom : (distinctDefined defs (pre ++ calls)).length ≤ maxCategoriesPerDaemon)
    (ho : ∀ category, some category ∈ calls → ∀ d ∈ defs, category ∉ d.otherScalars) :
    ∃ s', initAll env fuel calls s = some (answers defs pre calls, s') ∧ Reached memory defs (pre ++ calls) s' := by
  induction calls generalizing pre s with
  | nil => exact ⟨s, rfl, by rwa [List.append_nil]⟩
  | cons c calls ih =>
    have hpre : (distinctDefined defs pre).length ≤ maxCategoriesPerDaemon := by
      refine le_trans ?_ hroom
      rw [distinctDefined, distinctDefined, List.reduceOption_append]
      exact (firsts_prefix_append _ _).length_le
    obtain ⟨s₁, hcall, h₁⟩ := h.call (c := c) ok layout hfuel hpre fun category hc => ho category (hc ▸ List.mem_cons_self)
    obtain ⟨s₂, hcalls, h₂⟩ := ih h₁ (by rwa [List.append_assoc, List.singleton_append])
      fun category hc => ho category (List.mem_cons_of_mem _ hc)
    refine ⟨s₂, ?_, by rwa [List.append_assoc, List.singleton_append] at h₂⟩
    simp [initAll, hcall, hcalls, answers]

/-- An events file in the documented layout, and calls whose categories are no other scalar of it. -/
structure Documented (file : List Token) (categories : List Text) (defs : List Definition)
    (calls : List (Option Text)) : Prop where
  layout : Layout file categories defs
  apart : ∀ category, some category ∈ calls → ∀ d ∈ defs, category ∉ d.otherScalars

/-- A table that some calls of `event_log_init` on some events file leave. -/
def LoadedTable (table : Table) : Prop :=
  ∃ env fuel calls rets s, initAll env fuel calls State.init = some (rets, s) ∧ s.evTable = some table

/-! ### Files written from their definitions -/

def fileOf (categories : List Text) (defs : List Definition) : List Token :=
  (categories ++ eventDefinitions :: defs.flatMap Definition.scalars).map Token.scalar ++ [.streamEnd]

theorem scalarsOf_map (scalars : List Text) : scalarsOf (scalars.map Token.scalar) = scalars := by
  simp [scalarsOf, List.filterMap_map]

theorem layout_fileOf (hc : eventDefinitions ∉ categories) (wf : ∀ d ∈ defs, d.WellFormed)
    (hlen : defs.length < maxEventTableSize) : Layout (fileOf categories defs) categories defs where
  tokens := ⟨_, [], rfl, by simp, scalarsOf_map _⟩
  categories := hc
  wellFormed := wf
  capacity := hlen

end

/-- Memory as `malloc` may return it, with a severity left from before. -/
def usedMemory : Table := fun _ => ⟨[], 0, [], "LOG_DEBUG".toList, 0, []⟩

def envOf (file : List Token) : Env := ⟨some file, true, some usedMemory⟩

theorem envOf_ok (file : List Token) : (envOf file).Ok file usedMemory := ⟨rfl, rfl, rfl⟩

def lldpEnabled : Definition where
  name := "LLDP_ENABLED".toList
  category := "LLDP".toList
  id := "1001".toList
  severity := "LOG_INFO".toList
  keys := "NA".toList
  description := some "This command enables the LLDP (Link Layer Discovery Protocol) feature in the device.".toList
  template := "LLDP Enabled".toList

def fanCount : Definition where
  name := "FAN_COUNT".toList
  category := "FAN".toList
  id := "2001".toList
  severity := "LOG_INFO".toList
  keys := "count, subsystem".toList
  description := none
  template := "There are \x7bcount\x7d total fans in subsystem \x7bsubsystem\x7d".toList

theorem lldpEnabled_wellFormed : lldpEnabled.WellFormed :=
  ⟨by decide, by decide, by decide, by decide, by decide, by decide, by decide⟩

theorem fanCount_wellFormed : fanCount.WellFormed :=
  ⟨by decide, by decide, by decide, by decide, by decide, by decide, by decide⟩

def shipped : List Definition := [lldpEnabled, fanCount]

/-- FAN, a null pointer, LLDP, and FAN again. -/
def shippedCalls : List (Option Text) := [some "FAN".toList, none, some "LLDP".toList, some "FAN".toList]

theorem shipped_documented : Documented (fileOf ["categories".toList] shipped) ["categories".toList] shipped shippedCalls where
  layout := layout_fileOf (by decide) (fun d hd => by
    rcases List.mem_pair.mp hd with rfl | rfl
    · exact lldpEnabled_wellFormed
    · exact fanCount_wellFormed) (by decide)
  apart := fun category hc => by
    have : ∀ c ∈ shippedCalls.reduceOption, ∀ d ∈ shipped, c ∉ d.otherScalars := by decide
    exact this category (List.reduceOption_mem_iff.mpr hc)

theorem shipped_loaded :
    ∃ s, initAll (envOf (fileOf ["categories".toList] shipped)) 100 shippedCalls State.init =
        some (answers shipped [] shippedCalls, s) ∧
      s.evTable = some (filled usedMemory [fanCount, lldpEnabled]) := by
  have doc := shipped_documented
  have hfuel : (fileOf ["categories".toList] shipped).length ≤ 100 := by decide
  obtain ⟨s, hrun, hs⟩ := reached_init.sequence shippedCalls (envOf_ok _) doc.layout hfuel (by decide) doc.apart
  refine ⟨s, hrun, ?_⟩
  rw [hs.evTable, if_neg (by decide)]
  exact congrArg (fun ds => some (filled usedMemory ds)) (by decide)

/-- Definition `i` has a category of its own, of `i + 1` letters. -/
def nthCategory (i : Nat) : Definition := { fanCount with category := List.replicate (i + 1) 'C' }

def nthCalls (n : Nat) : List (Option Text) := (List.range n).map fun i => some (nthCategory i).category

def manyCategories : List Definition := (List.range 101).map nthCategory

theorem nthCategory_wellFormed (i : Nat) : (nthCategory i).WellFormed := by
  have wf := fanCount_wellFormed
  refine ⟨wf.name_pos, wf.name_lt, wf.name_ne, wf.severity_lt, wf.template_pos, wf.template_lt, fun v hv => ?_⟩
  by_cases hcat : v = (nthCategory i).category
  · have hhead : ∀ w ∈ keywords, w.head? ≠ some 'C' := by decide
    exact fun hmem => hhead v hmem (by rw [hcat]; rfl)
  · refine wf.values v ?_
    simp only [Definition.values, List.mem_append, List.mem_cons, List.not_mem_nil, or_false] at hv ⊢
    rcases hv with ((hv | hv | hv) | hv) | hv
    · exact Or.inl (Or.inl (Or.inl hv))
    · exact absurd hv hcat
    · exact Or.inl (Or.inl (Or.inr (Or.inr hv)))
    · exact Or.inl (Or.inr hv)
    · exact Or.inr hv

/-- No other scalar begins with the letter of the categories. -/
theorem nthCategory_apart (i j : Nat) : (nthCategory j).category ∉ (nthCategory i).otherScalars := by
  have hhead : ∀ w ∈ fanCount.otherScalars, w.head? ≠ some 'C' := by decide
  exact fun hmem => hhead _ hmem rfl

theorem manyCategories_documented (n : Nat) :
    Documented (fileOf [] manyCategories) [] manyCategories (nthCalls n) where
  layout := layout_fileOf (by decide) (fun d hd => by
    obtain ⟨i, -, rfl⟩ := List.mem_map.mp hd
    exact nthCategory_wellFormed i) (by simp [manyCategories, maxEventTableSize])
  apart := fun category hc d hd => by
    obtain ⟨j, -, hj⟩ := List.mem_map.mp hc
    obtain ⟨i, -, rfl⟩ := List.mem_map.mp hd
    rw [← Option.some.inj hj]
    exact nthCategory_apart i j

theorem distinctDefined_nthCalls {n : Nat} (hn : n ≤ 101) :
    distinctDefined manyCategories (nthCalls n) = (List.range n).map fun i => (nthCategory i).category := by
  have hcalls : (nthCalls n).reduceOption = (List.range n).map fun i => (nthCategory i).category := by
    simp [nthCalls, List.reduceOption, List.filterMap_map]
  rw [distinctDefined, hcalls]
  refine firsts_eq_self (List.Nodup.map (fun i j h => ?_) List.nodup_range) fun c hc => ?_
  · simpa [nthCategory] using congrArg List.length h
  · obtain ⟨i, hi, rfl⟩ := List.mem_map.mp hc
    have := List.mem_range.mp hi
    exact ⟨nthCategory i, List.mem_map.mpr ⟨i, List.mem_range.mpr (by omega), rfl⟩, rfl⟩

theorem nthCalls_succ (n : Nat) : nthCalls (n + 1) = nthCalls n ++ [some (nthCategory n).category] := by
  simp [nthCalls, List.range_succ]

end EventLog
end OpsSupportability
