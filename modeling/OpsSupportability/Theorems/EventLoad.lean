import OpsSupportability.EventTable

/-! The loader on an events file in the documented layout: what the scalars of one definition do, and
    from it what the whole file does for one category. -/

namespace OpsSupportability
namespace EventLog

/-- An element of `event_definitions` in the documented layout. -/
structure Definition where
  name : Text
  category : Text
  id : Text
  severity : Text
  keys : Text
  description : Option Text
  template : Text
  deriving DecidableEq

def descriptionKey : Text := "description".toList

def keywords : List Text :=
  [eventDefinitions, eventName, eventCategory, eventID, EventLog.severity, EventLog.keys, eventDescriptionTemplate]

namespace Definition

def descriptionScalars (d : Definition) : List Text :=
  match d.description with
  | none => []
  | some text => [descriptionKey, text]

def scalars (d : Definition) : List Text :=
  [eventName, d.name, eventCategory, d.category, eventID, d.id, EventLog.severity, d.severity, EventLog.keys, d.keys] ++
    d.descriptionScalars ++ [eventDescriptionTemplate, d.template]

/-- The scalars of a definition except its category. -/
def otherScalars (d : Definition) : List Text :=
  [eventName, d.name, eventCategory, eventID, d.id, EventLog.severity, d.severity, EventLog.keys, d.keys] ++
    d.descriptionScalars ++ [eventDescriptionTemplate, d.template]

def values (d : Definition) : List Text :=
  [d.name, d.category, d.id, d.severity, d.keys, d.keys.takeWhile (· != ',')] ++ d.description.toList ++ [d.template]

/-- The bounds of the documented layout, and no value among the key words. -/
structure WellFormed (d : Definition) : Prop where
  name_pos : 0 < d.name.length
  name_lt : d.name.length < maxEventNameSize
  name_ne : d.name ≠ eventNameDelimiterStr
  severity_lt : d.severity.length < maxSevNameSize
  template_pos : 0 < d.template.length
  template_lt : d.template.length < maxLogStr
  values : ∀ v ∈ d.values, v ∉ keywords

/-- The slot that a definition fills; an empty severity leaves the field as it was. -/
def entry (d : Definition) (slot : Event) : Event where
  category := d.category
  eventId := Text.atoi d.id
  eventName := d.name
  severity := if d.severity = [] then slot.severity else d.severity
  numOfKeys := (Text.tokens ',' d.keys).length
  eventDescription := d.template

end Definition

def Event.delimiter (slot : Event) : Event := { slot with eventName := eventNameDelimiterStr }

section
variable {category key : Text} {l : Loader} {d : Definition}

/-! ### One scalar -/

@[simp] theorem recognise_eventDefinitions : l.recognise eventDefinitions = { l with defFlag := true } := by
  simp [Loader.recognise]

@[simp] theorem recognise_eventName (h : l.defFlag = true) :
    l.recognise eventName = { l with valFlag := .name } := by
  simp +decide [Loader.recognise, h]

@[simp] theorem recognise_eventCategory (h : l.defFlag = true) :
    l.recognise eventCategory = { l with evtFlag := true } := by
  simp +decide [Loader.recognise, h]

@[simp] theorem recognise_eventID (h : l.defFlag = true) : l.recognise eventID = { l with valFlag := .id } := by
  simp +decide [Loader.recognise, h]

@[simp] theorem recognise_severity (h : l.evtFlag = true) :
    l.recognise severity = { l with valFlag := .severity } := by
  simp +decide [Loader.recognise, h]

@[simp] theorem recognise_keys (h : l.evtFlag = true) : l.recognise keys = { l with valFlag := .keys } := by
  simp +decide [Loader.recognise, h]

@[simp] theorem recognise_eventDescriptionTemplate (h : l.evtFlag = true) :
    l.recognise eventDescriptionTemplate = { l with valFlag := .template } := by
  simp +decide [Loader.recognise, h]

theorem recognise_value (h : key ∉ keywords) : l.recognise key = l := by
  simp only [keywords, List.mem_cons, List.not_mem_nil, or_false, not_or] at h
  obtain ⟨h₁, h₂, h₃, h₄, h₅, h₆, h₇⟩ := h
  simp [Loader.recognise, h₁, h₂, h₃, h₄, h₅, h₆, h₇]

/-- Outside an event of the category, a scalar only moves the flags. -/
theorem scalar_outside (hf : l.found = false) (hv : l.valFlag ≠ .name) (hk : key ≠ category) :
    l.scalar category key = l.recognise key := by
  simp [Loader.scalar, Loader.readName, Loader.matchCategory, hf, hv, hk]

theorem scalar_name (hf : l.found = false) (hv : l.valFlag = .name) (hk : key ≠ category) (hpos : 0 < key.length)
    (hlt : key.length < maxEventNameSize) (hw : key ∉ keywords) :
    l.scalar category key = { l with buf := key, valFlag := .none } := by
  simp [Loader.scalar, Loader.readName, Loader.matchCategory, hf, hv, hk, hpos, hlt, recognise_value hw]

/-- Inside an event of the category, a scalar is first assigned to the field announced before it. -/
theorem scalar_inside (hf : l.found = true) (hv : l.valFlag ≠ .name) (hk : key ≠ category) :
    l.scalar category key = (assignParsedValues key l).2.recognise (assignParsedValues key l).1 := by
  simp [Loader.scalar, Loader.readName, Loader.matchCategory, hf, hv, hk]

theorem scalar_category (hv : l.valFlag = .none) (he : l.evtFlag = true)
    (hpos : 0 < l.buf.length) (hlt : l.buf.length < maxEventNameSize) (hw : category ∉ keywords) :
    l.scalar category category =
      { l with
        table := Function.update l.table l.index { l.table l.index with eventName := l.buf, category }
        writes := l.writes ++ [l.index] ++ [l.index]
        found := true
        categoryFound := true } := by
  simp [Loader.scalar, Loader.readName, Loader.matchCategory, hv, he, hpos, hlt, Loader.modify, assignParsedValues,
    recognise_value hw]

/-! ### One definition -/

def Loader.readScalars (category : Text) (scalars : List Text) (l : Loader) : Loader :=
  scalars.foldl (fun l key => l.scalar category key) l

@[simp] theorem readScalars_nil : l.readScalars category [] = l := rfl

@[simp] theorem readScalars_cons (scalars : List Text) :
    l.readScalars category (key :: scalars) = (l.scalar category key).readScalars category scalars := rfl

theorem readScalars_append (a b : List Text) :
    l.readScalars category (a ++ b) = (l.readScalars category a).readScalars category b := List.foldl_append

/-- Between two definitions, after `event_definitions`. -/
structure Loader.Ready (l : Loader) : Prop where
  defFlag : l.defFlag = true
  found : l.found = false
  valFlag : l.valFlag ≠ .name

theorem descriptionKey_value : descriptionKey ∉ keywords := by
  decide

/-- What `strtok` leaves of the keys is no key word: it starts with a comma or is their first part. -/
theorem countKeys_value (h : key.takeWhile (· != ',') ∉ keywords) : (countKeys key).2 ∉ keywords := by
  cases key with
  | nil => exact h
  | cons c rest =>
    by_cases hc : c = ','
    · subst hc
      intro hmem
      have hhead : ∀ w ∈ keywords, w.head? ≠ some ',' := by decide
      exact hhead _ hmem (by simp [countKeys])
    · have : (countKeys (c :: rest)).2 = (c :: rest).takeWhile (· != ',') := by
        simp [countKeys, hc]
      rwa [this]

/-- No scalar of the definition but its category is the category being initialised. -/
structure Definition.Apart (d : Definition) (category : Text) : Prop where
  eventName : EventLog.eventName ≠ category
  name : d.name ≠ category
  eventCategory : EventLog.eventCategory ≠ category
  eventID : EventLog.eventID ≠ category
  id : d.id ≠ category
  severityKey : EventLog.severity ≠ category
  severity : d.severity ≠ category
  keysKey : EventLog.keys ≠ category
  keys : d.keys ≠ category
  description : ∀ text, d.description = some text → descriptionKey ≠ category ∧ text ≠ category
  templateKey : eventDescriptionTemplate ≠ category
  template : d.template ≠ category

theorem Definition.apart (h : category ∉ d.otherScalars) : d.Apart category := by
  have hne : ∀ x ∈ d.otherScalars, x ≠ category := fun x hx heq => h (heq ▸ hx)
  refine ⟨?_, ?_, ?_, ?_, ?_, ?_, ?_, ?_, ?_, fun text htext => ⟨?_, ?_⟩, ?_, ?_⟩
  all_goals exact hne _ (by simp [otherScalars, descriptionScalars, *])

/-- A definition of another category changes neither the table nor the index. -/
theorem readScalars_skip (ready : l.Ready) (wf : d.WellFormed) (hc : d.category ≠ category)
    (ho : category ∉ d.otherScalars) :
    l.readScalars category d.scalars = { l with buf := d.name, evtFlag := true, valFlag := .template } := by
  obtain ⟨hdef, hfound, hval⟩ := ready
  have apart := d.apart ho
  have hname := wf.values d.name (by simp [Definition.values])
  have hcat := wf.values d.category (by simp [Definition.values])
  have hid := wf.values d.id (by simp [Definition.values])
  have hsev := wf.values d.severity (by simp [Definition.values])
  have hkeys := wf.values d.keys (by simp [Definition.values])
  have htemplate := wf.values d.template (by simp [Definition.values])
  have hbegin : l.readScalars category
      [eventName, d.name, eventCategory, d.category, eventID, d.id, severity, d.severity, keys, d.keys] =
      { l with buf := d.name, evtFlag := true, valFlag := .keys } := by
    simp [scalar_outside, scalar_name, recognise_value, hdef, hfound, hval, hc, hname, hcat, hid, hsev, hkeys,
      apart.eventName, apart.name, apart.eventCategory, apart.eventID, apart.id, apart.severityKey, apart.severity,
      apart.keysKey, apart.keys, wf.name_pos, wf.name_lt]
  have hdescription : ({ l with buf := d.name, evtFlag := true, valFlag := .keys } : Loader).readScalars category
      d.descriptionScalars = { l with buf := d.name, evtFlag := true, valFlag := .keys } := by
    cases hd : d.description with
    | none => simp [Definition.descriptionScalars, hd]
    | some text =>
      obtain ⟨hkey, htext⟩ := apart.description text hd
      have hvalue := wf.values text (by simp [Definition.values, hd])
      simp [Definition.descriptionScalars, hd, scalar_outside, recognise_value, hfound, hkey, htext, hvalue,
        descriptionKey_value]
  rw [Definition.scalars, readScalars_append, readScalars_append, hbegin, hdescription]
  simp [scalar_outside, recognise_value, hfound, apart.templateKey, apart.template, htemplate]

/-- Inside an event of the category, its fields are assigned one after the other. -/
theorem readScalars_fields (hf : l.found = true) (hdef : l.defFlag = true) (hevt : l.evtFlag = true)
    (hv : l.valFlag = .none) (wf : d.WellFormed) (apart : d.Apart category) :
    l.readScalars category [eventID, d.id, severity, d.severity, keys, d.keys] =
      { l with
        table := Function.update l.table l.index
          { l.table l.index with
            eventId := Text.atoi d.id
            severity := if d.severity = [] then (l.table l.index).severity else d.severity
            numOfKeys := (countKeys d.keys).1 }
        writes := l.writes ++ [l.index] ++ (if d.severity = [] then [] else [l.index]) ++ [l.index] } := by
  have hid := wf.values d.id (by simp [Definition.values])
  have hsev := wf.values d.severity (by simp [Definition.values])
  have hkeys := countKeys_value (wf.values (d.keys.takeWhile (· != ',')) (by simp [Definition.values]))
  have hlt := wf.severity_lt
  by_cases hs : d.severity = []
  · have : ([] : Text) ∉ keywords := by decide
    have hne := apart.severity
    rw [hs] at hne
    simp [scalar_inside, assignParsedValues, recognise_value, hf, hdef, hevt, hv, hid, hkeys, apart.eventID, apart.id,
      apart.severityKey, hne, apart.keysKey, apart.keys, Loader.modify, hs, this]
  · have hpos : 0 < d.severity.length := List.length_pos_iff.mpr hs
    simp [scalar_inside, assignParsedValues, recognise_value, hf, hdef, hevt, hv, hid, hsev, hkeys, apart.eventID,
      apart.id, apart.severityKey, apart.severity, apart.keysKey, apart.keys, Loader.modify, hs, hlt, hpos]

/-- A definition of the category fills the slot at the index and moves the delimiter behind it. -/
structure Loader.Loads (l : Loader) (d : Definition) (l' : Loader) : Prop where
  ready : l'.Ready
  index : l'.index = l.index + 1
  categoryFound : l'.categoryFound = true
  table : l'.table = Function.update (Function.update l.table l.index (d.entry (l.table l.index))) (l.index + 1)
    (l.table (l.index + 1)).delimiter
  writes : ∀ i ∈ l'.writes, i ∈ l.writes ∨ i ≤ l.index + 1

theorem readScalars_load (ready : l.Ready) (wf : d.WellFormed) (ho : d.category ∉ d.otherScalars) :
    l.Loads d (l.readScalars d.category d.scalars) := by
  obtain ⟨hdef, hfound, hval⟩ := ready
  have apart := d.apart ho
  have hname := wf.values d.name (by simp [Definition.values])
  have hcat := wf.values d.category (by simp [Definition.values])
  have htemplate := wf.values d.template (by simp [Definition.values])
  have hopen : l.readScalars d.category [eventName, d.name, eventCategory, d.category] =
      { l with
        table := Function.update l.table l.index { l.table l.index with eventName := d.name, category := d.category }
        writes := l.writes ++ [l.index] ++ [l.index]
        buf := d.name
        evtFlag := true
        valFlag := .none
        found := true
        categoryFound := true } := by
    simp [scalar_outside, scalar_name, scalar_category, hdef, hfound, hval, hname, hcat, apart.eventName, apart.name,
      apart.eventCategory, wf.name_pos, wf.name_lt]
  have hdescription : ∀ l : Loader, l.found = true → l.valFlag = .none →
      l.readScalars d.category d.descriptionScalars = l := fun l hf hv => by
    cases hd : d.description with
    | none => simp [Definition.descriptionScalars, hd]
    | some text =>
      obtain ⟨hkey, htext⟩ := apart.description text hd
      have hvalue := wf.values text (by simp [Definition.values, hd])
      simp [Definition.descriptionScalars, hd, scalar_inside, assignParsedValues, recognise_value, hf, hv, hkey, htext,
        hvalue, descriptionKey_value]
  have hsplit : d.scalars = [eventName, d.name, eventCategory, d.category] ++
      [eventID, d.id, severity, d.severity, keys, d.keys] ++ d.descriptionScalars ++
        [eventDescriptionTemplate, d.template] := by simp [Definition.scalars]
  rw [hsplit, readScalars_append, readScalars_append, readScalars_append, hopen,
    readScalars_fields rfl (by exact hdef) rfl rfl wf apart, hdescription _ rfl rfl]
  simp only [readScalars_cons, readScalars_nil]
  rw [scalar_inside rfl (by simp) apart.templateKey]
  simp only [assignParsedValues]
  rw [recognise_eventDescriptionTemplate rfl, scalar_inside rfl (by simp) apart.template]
  simp only [assignParsedValues, wf.template_pos, wf.template_lt, and_self, if_true]
  rw [recognise_value htemplate]
  refine ⟨⟨hdef, rfl, by simp⟩, rfl, rfl, ?_, ?_⟩
  · simp [Loader.modify, Definition.entry, Event.delimiter, countKeys]
  · intro i hi
    by_cases hold : i ∈ l.writes
    · exact Or.inl hold
    · right
      by_cases hs : d.severity = []
      · simp [Loader.modify, hs, hold] at hi
        omega
      · simp [Loader.modify, hs, hold] at hi
        omega

/-! ### The definitions of the file -/

/-- The table that holds definitions from slot 0 and the delimiter behind them. -/
def filled (memory : Table) (ds : List Definition) : Table := fun i =>
  match ds[i]? with
  | some d => d.entry (memory i)
  | none => if i = ds.length then (memory i).delimiter else memory i

variable {memory : Table} {ds defs : List Definition}

theorem filled_lt {i : Nat} (h : i < ds.length) : filled memory ds i = (ds[i]).entry (memory i) := by
  simp [filled, h]

variable (memory ds) in
theorem filled_length : filled memory ds ds.length = (memory ds.length).delimiter := by
  simp [filled]

theorem filled_gt {i : Nat} (h : ds.length < i) : filled memory ds i = memory i := by
  simp [filled, List.getElem?_eq_none h.le, h.ne']

theorem filled_nil : filled memory [] = Function.update memory 0 (memory 0).delimiter := by
  funext i
  by_cases hi : i = 0
  · subst hi
    simp [filled]
  · simp [filled, hi]

theorem entry_delimiter (slot : Event) : d.entry slot.delimiter = d.entry slot := rfl

/-- Filling the slot of the delimiter and moving the delimiter behind it. -/
theorem filled_concat :
    Function.update (Function.update (filled memory ds) ds.length (d.entry (filled memory ds ds.length)))
      (ds.length + 1) (filled memory ds (ds.length + 1)).delimiter = filled memory (ds ++ [d]) := by
  rw [filled_length, entry_delimiter, filled_gt (Nat.lt_succ_self _)]
  funext i
  rcases lt_trichotomy i ds.length with hi | hi | hi
  · rw [Function.update_of_ne (by omega), Function.update_of_ne (by omega), filled_lt hi, filled_lt (by simp; omega)]
    simp [List.getElem_append_left hi]
  · subst hi
    rw [Function.update_of_ne (by omega), Function.update_self, filled_lt (by simp)]
    simp
  · by_cases hlast : i = ds.length + 1
    · subst hlast
      simp [filled]
    · rw [Function.update_of_ne hlast, Function.update_of_ne (by omega)]
      rw [filled_gt hi, filled_gt (by simp; omega)]

/-- The loader has filled the table with `ds`. -/
structure Loader.Filled (l : Loader) (memory : Table) (ds : List Definition) : Prop where
  ready : l.Ready
  index : l.index = ds.length
  table : l.table = filled memory ds
  writes : ∀ i ∈ l.writes, i ≤ ds.length

/-- The definitions of a category in file order. -/
def definitionsOf (defs : List Definition) (category : Text) : List Definition :=
  defs.filter fun d => d.category == category

def Defines (defs : List Definition) (category : Text) : Prop := ∃ d ∈ defs, d.category = category

instance : Decidable (Defines defs category) := inferInstanceAs (Decidable (∃ d ∈ defs, d.category = category))

theorem Loader.Filled.definition (h : l.Filled memory ds) (wf : d.WellFormed) (ho : category ∉ d.otherScalars) :
    (l.readScalars category d.scalars).Filled memory (ds ++ definitionsOf [d] category) ∧
      (l.readScalars category d.scalars).categoryFound = (l.categoryFound || decide (Defines [d] category)) := by
  by_cases hc : d.category = category
  · subst hc
    have loads := readScalars_load h.ready wf ho
    have hof : definitionsOf [d] d.category = [d] := by simp [definitionsOf]
    have hdef : Defines [d] d.category := ⟨d, List.mem_singleton_self d, rfl⟩
    rw [hof]
    refine ⟨⟨loads.ready, ?_, ?_, ?_⟩, by simp [loads.categoryFound, hdef]⟩
    · rw [loads.index, h.index, List.length_append, List.length_singleton]
    · rw [loads.table, h.index, h.table, filled_concat]
    · intro i hi
      rw [List.length_append, List.length_singleton]
      rcases loads.writes i hi with hold | hnew
      · have := h.writes i hold
        omega
      · rwa [h.index] at hnew
  · have hof : definitionsOf [d] category = [] := by simp [definitionsOf, hc]
    have hdef : ¬ Defines [d] category := by simp [Defines, hc]
    rw [readScalars_skip h.ready wf hc ho, hof, List.append_nil]
    exact ⟨⟨⟨h.ready.defFlag, h.ready.found, by simp⟩, h.index, h.table, h.writes⟩, by simp [hdef]⟩

theorem Loader.Filled.definitions (h : l.Filled memory ds) (wf : ∀ d ∈ defs, d.WellFormed)
    (ho : ∀ d ∈ defs, category ∉ d.otherScalars) :
    (l.readScalars category (defs.flatMap Definition.scalars)).Filled memory (ds ++ definitionsOf defs category) ∧
      (l.readScalars category (defs.flatMap Definition.scalars)).categoryFound =
        (l.categoryFound || decide (Defines defs category)) := by
  induction defs generalizing l ds with
  | nil => simpa [definitionsOf, Defines] using h
  | cons d defs ih =>
    obtain ⟨hd, hfound⟩ := h.definition (wf d List.mem_cons_self) (ho d List.mem_cons_self)
    obtain ⟨hrest, hrestFound⟩ := ih hd (fun x hx => wf x (List.mem_cons_of_mem _ hx))
      (fun x hx => ho x (List.mem_cons_of_mem _ hx))
    have hof : definitionsOf [d] category ++ definitionsOf defs category = definitionsOf (d :: defs) category := by
      rw [definitionsOf, definitionsOf, definitionsOf, ← List.filter_append, List.singleton_append]
    have hdef : Defines (d :: defs) category ↔ Defines [d] category ∨ Defines defs category := by simp [Defines]
    rw [List.flatMap_cons, readScalars_append]
    refine ⟨?_, ?_⟩
    · rwa [List.append_assoc, hof] at hrest
    · rw [hrestFound, hfound, Bool.or_assoc, ← Bool.decide_or]
      simp [hdef]

/-! ### The whole file -/

def scalarsOf (file : List Token) : List Text :=
  file.filterMap fun token => match token with
    | .scalar value => some value
    | _ => none

/-- An events file: a categories section, `event_definitions`, and at most 499 definitions; then the
    stream ends. -/
structure Layout (file : List Token) (categories : List Text) (defs : List Definition) : Prop where
  tokens : ∃ body rest, file = body ++ Token.streamEnd :: rest ∧ Token.streamEnd ∉ body ∧
    scalarsOf body = categories ++ eventDefinitions :: defs.flatMap Definition.scalars
  categories : eventDefinitions ∉ categories
  wellFormed : ∀ d ∈ defs, d.WellFormed
  capacity : defs.length < maxEventTableSize

theorem parseLoop_body {body rest : List Token} (hend : Token.streamEnd ∉ body) {fuel : Nat}
    (hfuel : body.length < fuel) :
    parseLoop category fuel (body ++ Token.streamEnd :: rest) l = some (l.readScalars category (scalarsOf body)) := by
  induction body generalizing fuel l with
  | nil =>
    obtain ⟨fuel, rfl⟩ := Nat.exists_eq_add_of_lt hfuel
    simp [parseLoop, scan, scalarsOf]
  | cons token body ih =>
    obtain ⟨fuel, rfl⟩ := Nat.exists_eq_add_of_lt hfuel
    have hbody : Token.streamEnd ∉ body := fun h => hend (List.mem_cons_of_mem _ h)
    have hlt : body.length < body.length + 1 + fuel := by omega
    have hsucc : (token :: body).length + fuel + 1 = (body.length + 1 + fuel) + 1 := by simp
    rw [hsucc]
    cases token with
    | scalar value => simpa [parseLoop, scan, scalarsOf] using ih (l := l.scalar category value) hbody hlt
    | streamEnd => exact absurd List.mem_cons_self hend
    | noToken => simpa [parseLoop, scan, scalarsOf] using ih (l := l) hbody hlt
    | other => simpa [parseLoop, scan, scalarsOf] using ih (l := l) hbody hlt

/-- Before `event_definitions` nothing happens. -/
theorem readScalars_categories {categories : List Text} (h : eventDefinitions ∉ categories)
    (hd : l.defFlag = false) (he : l.evtFlag = false) (hv : l.valFlag = .none) (hf : l.found = false) :
    l.readScalars category categories = l := by
  induction categories with
  | nil => rfl
  | cons key categories ih =>
    obtain ⟨hkey, hrest⟩ := not_or.mp (fun hmem => h (List.mem_cons.mpr hmem))
    have hstep : l.scalar category key = l := by
      simp [Loader.scalar, Loader.readName, Loader.matchCategory, Loader.recognise, hd, he, hv, hf, Ne.symm hkey]
    rw [readScalars_cons, hstep, ih hrest]

end

end EventLog
end OpsSupportability
