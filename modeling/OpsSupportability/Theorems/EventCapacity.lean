import OpsSupportability.Theorems.EventSearch

/-! The capacity of the event tables, for arbitrary events files. The loader checks its limits before the
    token loop only, so whether it stays inside the arrays is decided by the file: by how many events of
    the category it completes, and by whether it leaves one open. -/

namespace OpsSupportability
namespace EventLog

open Firsts

/-! ### What a file holds for a category -/

/-- Where the scalars of a file lead, whatever the table holds. `name` is the name in the next slot: the
    delimiter, or the name of the event that is open. -/
structure Cursor where
  buf : Text
  defFlag : Bool
  evtFlag : Bool
  valFlag : ValFlag
  opened : Bool
  mentioned : Bool
  completed : Nat
  name : Text

namespace Cursor

def start : Cursor := ⟨[], false, false, .none, false, false, 0, eventNameDelimiterStr⟩

def readName (key : Text) (c : Cursor) : Cursor :=
  if c.valFlag = .name then
    { c with buf := if 0 < key.length ∧ key.length < maxEventNameSize then key else c.buf, valFlag := .none }
  else c

/-- The category opens an event. -/
def matchCategory (category key : Text) (c : Cursor) : Cursor :=
  if c.evtFlag ∧ key = category then
    { c with
      opened := true
      mentioned := true
      name := if 0 < c.buf.length ∧ c.buf.length < maxEventNameSize then c.buf else c.name }
  else c

/-- The value of the template completes the event. -/
def complete (c : Cursor) : Cursor :=
  match c.valFlag with
  | .template =>
    { c with valFlag := .none, opened := false, completed := c.completed + 1, name := eventNameDelimiterStr }
  | _ => { c with valFlag := .none }

def recognise (key : Text) (c : Cursor) : Cursor :=
  if key = eventDefinitions then { c with defFlag := true }
  else if key = eventName ∧ c.defFlag then { c with valFlag := .name }
  else if key = eventCategory ∧ c.defFlag then { c with evtFlag := true }
  else if key = eventID ∧ c.defFlag then { c with valFlag := .id }
  else if key = severity ∧ c.evtFlag then { c with valFlag := .severity }
  else if key = keys ∧ c.evtFlag then { c with valFlag := .keys }
  else if key = eventDescriptionTemplate ∧ c.evtFlag then { c with valFlag := .template }
  else c

/-- The keys are cut at their first comma before they are compared with the key words. -/
def scalar (category key : Text) (c : Cursor) : Cursor :=
  let c := (c.readName key).matchCategory category key
  if c.opened then c.complete.recognise (if c.valFlag = .keys then (countKeys key).2 else key)
  else c.recognise key

def read (category : Text) : List Token → Cursor → Cursor
  | [], c => c
  | .streamEnd :: _, c => c
  | .scalar key :: file, c => read category file (c.scalar category key)
  | _ :: file, c => read category file c

end Cursor

def readFile (category : Text) (file : List Token) : Cursor := Cursor.start.read category file

section
variable {category key : Text} {l l' : Loader} {c : Cursor} {i n : Nat} {file : List Token}

/-! ### The loader follows the cursor -/

/-- The loader that began at slot `i`. -/
structure Loader.Follows (l : Loader) (i : Nat) (c : Cursor) : Prop where
  buf : l.buf = c.buf
  defFlag : l.defFlag = c.defFlag
  evtFlag : l.evtFlag = c.evtFlag
  valFlag : l.valFlag = c.valFlag
  found : l.found = c.opened
  categoryFound : l.categoryFound = c.mentioned
  index : l.index = i + c.completed
  name : (l.table l.index).eventName = c.name
  writes : ∀ j ∈ l.writes, j ≤ l.index
  delimiters : ∀ k < c.completed, i + k + 1 ∈ l.writes

namespace Loader.Follows

theorem readName (h : l.Follows i c) : (l.readName key).Follows i (c.readName key) := by
  obtain ⟨hbuf, hdef, hevt, hval, hfound, hcat, hindex, hname, hwrites, hdel⟩ := h
  by_cases hv : c.valFlag = .name
  · have hl : l.readName key = { l with
        buf := if 0 < key.length ∧ key.length < maxEventNameSize then key else l.buf, valFlag := .none } := by
      rw [Loader.readName, hval, if_pos hv]
    have hc : c.readName key = { c with
        buf := if 0 < key.length ∧ key.length < maxEventNameSize then key else c.buf, valFlag := .none } := by
      rw [Cursor.readName, if_pos hv]
    rw [hl, hc]
    exact ⟨by simp only [hbuf], hdef, hevt, rfl, hfound, hcat, hindex, hname, hwrites, hdel⟩
  · have hl : l.readName key = l := by rw [Loader.readName, hval, if_neg hv]
    have hc : c.readName key = c := by rw [Cursor.readName, if_neg hv]
    rw [hl, hc]
    exact ⟨hbuf, hdef, hevt, hval, hfound, hcat, hindex, hname, hwrites, hdel⟩

/-- A write at the index that may change the name. -/
theorem modify (h : l.Follows i c) (f : Event → Event) :
    (l.modify l.index f).Follows i { c with name := (f (l.table l.index)).eventName } where
  buf := h.buf
  defFlag := h.defFlag
  evtFlag := h.evtFlag
  valFlag := h.valFlag
  found := h.found
  categoryFound := h.categoryFound
  index := h.index
  name := by simp [Loader.modify]
  writes := fun j hj => by
    rcases List.mem_append.mp hj with hj | hj
    · exact h.writes j hj
    · exact (List.mem_singleton.mp hj).le
  delimiters := fun k hk => List.mem_append_left _ (h.delimiters k hk)

/-- A write at the index to a field that is not the name. -/
theorem modify_field (h : l.Follows i c) {f : Event → Event} (hf : ∀ e, (f e).eventName = e.eventName) :
    (l.modify l.index f).Follows i c := by
  have := h.modify f
  rwa [hf, h.name] at this

theorem opened (h : l.Follows i c) :
    ({ l with found := true, categoryFound := true } : Loader).Follows i
      { c with opened := true, mentioned := true } where
  buf := h.buf
  defFlag := h.defFlag
  evtFlag := h.evtFlag
  valFlag := h.valFlag
  found := rfl
  categoryFound := rfl
  index := h.index
  name := h.name
  writes := h.writes
  delimiters := h.delimiters

theorem assigned (h : l.Follows i c) :
    ({ l with valFlag := .none } : Loader).Follows i { c with valFlag := .none } where
  buf := h.buf
  defFlag := h.defFlag
  evtFlag := h.evtFlag
  valFlag := rfl
  found := h.found
  categoryFound := h.categoryFound
  index := h.index
  name := h.name
  writes := h.writes
  delimiters := h.delimiters

theorem matchCategory (h : l.Follows i c) :
    (l.matchCategory category key).Follows i (c.matchCategory category key) := by
  by_cases hm : c.evtFlag = true ∧ key = category
  · have hm' : l.evtFlag = true ∧ key = category := by rwa [h.evtFlag]
    rw [Loader.matchCategory, if_pos hm', Cursor.matchCategory, if_pos hm]
    by_cases hb : 0 < l.buf.length ∧ l.buf.length < maxEventNameSize
    · have hc : 0 < c.buf.length ∧ c.buf.length < maxEventNameSize := by rwa [← h.buf]
      have hname : ({ c with opened := true, mentioned := true, name := c.buf } : Cursor) =
          { c with opened := true, mentioned := true, name := l.buf } := by rw [h.buf]
      simp only [hb, hc, and_self, if_true]
      rw [hname]
      exact (h.opened.modify fun e => { e with eventName := l.buf }).modify_field
        (f := fun e => { e with category }) fun _ => rfl
    · have hc : ¬ (0 < c.buf.length ∧ c.buf.length < maxEventNameSize) := by rwa [← h.buf]
      simp only [hb, hc, if_false]
      exact h.opened.modify_field (f := fun e => { e with category }) fun _ => rfl
  · have hm' : ¬ (l.evtFlag = true ∧ key = category) := by rwa [h.evtFlag]
    rwa [Loader.matchCategory, if_neg hm', Cursor.matchCategory, if_neg hm]

/-- The delimiter goes to the slot behind, which becomes the next one. -/
theorem template (h : l.Follows i c) :
    ({ l.modify (l.index + 1) (fun e => { e with eventName := eventNameDelimiterStr }) with
      valFlag := .none, found := false, index := l.index + 1 } : Loader).Follows i
      { c with valFlag := .none, opened := false, completed := c.completed + 1, name := eventNameDelimiterStr } where
  buf := h.buf
  defFlag := h.defFlag
  evtFlag := h.evtFlag
  valFlag := rfl
  found := rfl
  categoryFound := h.categoryFound
  index := by simp only [h.index, Nat.add_assoc]
  name := by simp [Loader.modify]
  writes := fun j hj => by
    rcases List.mem_append.mp hj with hj | hj
    · exact (h.writes j hj).trans (Nat.le_succ _)
    · exact (List.mem_singleton.mp hj).le
  delimiters := fun k hk => by
    rcases Nat.lt_succ_iff_lt_or_eq.mp hk with hk | rfl
    · exact List.mem_append_left _ (h.delimiters k hk)
    · exact List.mem_append_right _ (by simp [h.index])

theorem complete (h : l.Follows i c) : (assignParsedValues key l).2.Follows i c.complete := by
  have hval := h.valFlag
  have hnone := h.assigned
  cases hv : l.valFlag with
  | none =>
    rw [hv] at hval
    simp only [assignParsedValues, hv, Cursor.complete, ← hval]
    rwa [show ({ l with valFlag := .none } : Loader) = l by rw [← hv]] at hnone
  | name => simpa only [assignParsedValues, hv, Cursor.complete, ← hval] using hnone
  | id =>
    simp only [assignParsedValues, hv, Cursor.complete, ← hval]
    exact hnone.modify_field (f := fun e => { e with eventId := Text.atoi key }) fun _ => rfl
  | severity =>
    simp only [assignParsedValues, hv, Cursor.complete, ← hval]
    split
    · exact hnone.modify_field (f := fun e => { e with severity := key }) fun _ => rfl
    · exact hnone
  | keys =>
    simp only [assignParsedValues, hv, Cursor.complete, ← hval]
    exact hnone.modify_field (f := fun e => { e with numOfKeys := (countKeys key).1 }) fun _ => rfl
  | template =>
    simp only [assignParsedValues, hv, Cursor.complete, ← hval]
    by_cases hk : 0 < key.length ∧ key.length < maxLogStr
    · rw [if_pos hk]
      exact (h.modify_field (f := fun e => { e with eventDescription := key }) fun _ => rfl).template
    · rw [if_neg hk]
      exact h.template

theorem recognise (h : l.Follows i c) : (l.recognise key).Follows i (c.recognise key) := by
  obtain ⟨hbuf, hdef, hevt, hval, hfound, hcat, hindex, hname, hwrites, hdel⟩ := h
  simp only [Loader.recognise, Cursor.recognise, hdef, hevt]
  repeat' split
  all_goals
    refine ⟨hbuf, ?_, ?_, ?_, hfound, hcat, hindex, hname, hwrites, hdel⟩
    all_goals first | rfl | assumption

theorem scalar (h : l.Follows i c) : (l.scalar category key).Follows i (c.scalar category key) := by
  have hopen : ((l.readName key).matchCategory category key).Follows i
      ((c.readName key).matchCategory category key) := h.readName.matchCategory
  simp only [Loader.scalar, Cursor.scalar, hopen.found, ← hopen.valFlag]
  split
  · have hkey : (assignParsedValues key ((l.readName key).matchCategory category key)).1 =
        if ((l.readName key).matchCategory category key).valFlag = .keys then (countKeys key).2 else key := by
      cases hv : ((l.readName key).matchCategory category key).valFlag
      case severity =>
        simp only [assignParsedValues, hv]
        split <;> rfl
      all_goals simp [assignParsedValues, hv]
    rw [← hkey]
    exact hopen.complete.recognise
  · exact hopen.recognise

end Loader.Follows

/-! ### The token loop -/

/-- The loader after `n` tokens, also where the stream never ends. -/
def Loader.after (category : Text) : Nat → List Token → Loader → Loader
  | 0, _, l => l
  | n + 1, file, l =>
    match scan file with
    | (.streamEnd, _) => l
    | (.scalar key, file) => Loader.after category n file (l.scalar category key)
    | (_, file) => Loader.after category n file l

/-- The loop returns where the loader is after any number of tokens from its own on. -/
theorem parseLoop_after {fuel n : Nat} (h : parseLoop category fuel file l = some l') (hle : fuel ≤ n) :
    l.after category n file = l' := by
  induction fuel generalizing n file l with
  | zero => cases h
  | succ fuel ih =>
    obtain ⟨n, rfl⟩ : ∃ m, n = m + 1 := ⟨n - 1, by omega⟩
    have hle : fuel ≤ n := Nat.le_of_succ_le_succ hle
    cases file with
    | nil =>
      have hrest : l.after category n [] = l' := ih (by simpa [parseLoop, scan] using h) hle
      exact hrest
    | cons token file =>
      cases token with
      | streamEnd => exact Option.some.inj h
      | scalar key =>
        have hrest : (l.scalar category key).after category n file = l' := ih (by simpa [parseLoop, scan] using h) hle
        exact hrest
      | noToken | other =>
        have hrest : l.after category n file = l' := ih (by simpa [parseLoop, scan] using h) hle
        exact hrest

theorem after_nil (n : Nat) : l.after category n [] = l := by
  induction n with
  | zero => rfl
  | succ n ih => exact ih

variable (category file) in
theorem Loader.Follows.after (h : l.Follows i c) (n : Nat) :
    (l.after category n file).Follows i (c.read category (file.take n)) := by
  induction n generalizing file l c with
  | zero => exact h
  | succ n ih =>
    cases file with
    | nil => rwa [after_nil]
    | cons token file =>
      cases token with
      | streamEnd => exact h
      | scalar key => exact ih file h.scalar
      | noToken => exact ih file h
      | other => exact ih file h

/-- The loop returns when it has read the whole file. -/
theorem Loader.Follows.parseLoop {fuel : Nat} (h : l.Follows i c)
    (hloop : EventLog.parseLoop category fuel file l = some l') : l'.Follows i (c.read category file) := by
  have hafter := h.after category file (fuel + file.length)
  rwa [parseLoop_after hloop (Nat.le_add_right _ _), List.take_of_length_le (Nat.le_add_left _ _)] at hafter

theorem completed_recognise : (c.recognise key).completed = c.completed := by
  rw [Cursor.recognise]
  repeat' split
  all_goals rfl

theorem completed_scalar : c.completed ≤ (c.scalar category key).completed := by
  have hname : (c.readName key).completed = c.completed := by
    rw [Cursor.readName]
    split <;> rfl
  have hmatch : ((c.readName key).matchCategory category key).completed = c.completed := by
    rw [Cursor.matchCategory]
    split
    · exact hname
    · exact hname
  have hcomplete : ∀ c : Cursor, c.completed ≤ c.complete.completed := fun c => by
    rw [Cursor.complete]
    split
    · exact Nat.le_succ _
    · exact le_rfl
  rw [Cursor.scalar]
  split
  · rw [completed_recognise]
    exact hmatch.ge.trans (hcomplete _)
  · rw [completed_recognise, hmatch]

theorem completed_read : c.completed ≤ (c.read category file).completed := by
  induction file generalizing c with
  | nil => exact le_rfl
  | cons token file ih =>
    cases token with
    | streamEnd => exact le_rfl
    | scalar key => exact completed_scalar.trans ih
    | noToken => exact ih
    | other => exact ih

theorem completed_read_take (n : Nat) :
    (c.read category (file.take n)).completed ≤ (c.read category file).completed := by
  induction n generalizing file c with
  | zero => exact completed_read
  | succ n ih =>
    cases file with
    | nil => exact le_rfl
    | cons token file =>
      cases token with
      | streamEnd => exact le_rfl
      | scalar key => exact ih
      | noToken => exact ih
      | other => exact ih

/-! ### The slot of the delimiter -/

theorem findLastIndexFrom_isSome {table : Table} {m j : Nat} (hj : n ≤ j) (hlt : j < n + m)
    (hname : (table j).eventName = eventNameDelimiterStr) : (findLastIndexFrom table m n).isSome := by
  induction m generalizing n with
  | zero => omega
  | succ m ih =>
    rw [findLastIndexFrom]
    split
    · rfl
    · next hne =>
      have : n ≠ j := fun heq => hne (heq ▸ hname)
      exact ih (by omega) (by omega)

/-- The loader as `parse_yaml_for_category` starts it at the slot of the delimiter. -/
def Loader.start (table : Table) (index : Nat) : Loader :=
  ⟨table, [], index, false, false, .none, false, false, []⟩

theorem follows_start {table : Table} (h : findLastIndex table = some i) :
    (Loader.start table i).Follows i Cursor.start where
  buf := rfl
  defFlag := rfl
  evtFlag := rfl
  valFlag := rfl
  found := rfl
  categoryFound := rfl
  index := rfl
  name := (findLastIndex_some h).2.1
  writes := nofun
  delimiters := nofun

/-! ### One call -/

/-- A call that comes to read its file, from slot `index` of the table on. -/
structure Reads (env : Env) (s : State) (category : Text) (file : List Token) (table : Table) (index : Nat) : Prop where
  guard : s.categoryTable.length ≤ maxCategoriesPerDaemon
  new : category ∉ s.categoryTable
  file : env.file = some file
  parserInitialize : env.parserInitialize = true
  created : ∃ slots, tableOf env s = some (table, slots)
  index : findLastIndex table = some index

/-- The file completes no more events than there are slots before the last, leaves none open, and there
    is room for the category if it occurs. -/
structure Room (category : Text) (file : List Token) (index categories : Nat) : Prop where
  slots : index + (readFile category file).completed < maxEventTableSize
  closed : (readFile category file).name = eventNameDelimiterStr
  categories : (readFile category file).mentioned = true → categories < maxCategoriesPerDaemon

def Fits (env : Env) (c : Option Text) (s : State) : Prop :=
  ∀ category file table index, c = some category → Reads env s category file table index →
    Room category file index s.categoryTable.length

structure InBounds (s : State) : Prop where
  evTable : ∀ i ∈ s.writes, i < maxEventTableSize
  categoryTable : s.categoryTable.length ≤ maxCategoriesPerDaemon
  delimiter : ∀ table, s.evTable = some table → (findLastIndex table).isSome

variable {env : Env} {s s' : State} {name : Option Text} {fuel : Nat} {ret : Int} {table : Table} {index : Nat}
  {slots : List Nat}

theorem inBounds_init : InBounds State.init := ⟨nofun, Nat.zero_le _, nofun⟩

/-- What a call can do: nothing, create the table, or read the file. -/
theorem eventLogInit_cases (h : eventLogInit env fuel name s = some (ret, s')) :
    s' = s ∨ (∃ table slots, tableOf env s = some (table, slots) ∧
      s' = { s with evTable := some table, writes := s.writes ++ slots }) ∨
      ∃ category file table index, name = some category ∧ Reads env s category file table index := by
  cases name with
  | none => exact Or.inl (Prod.mk.inj (Option.some.inj h)).2.symm
  | some category =>
    rw [eventLogInit] at h
    split at h
    · exact Or.inl (Prod.mk.inj (Option.some.inj h)).2.symm
    next hguard =>
    split at h
    · exact Or.inl (Prod.mk.inj (Option.some.inj h)).2.symm
    next hnew =>
    cases htable : tableOf env s with
    | none =>
      rw [htable] at h
      exact Or.inl (Prod.mk.inj (Option.some.inj h)).2.symm
    | some r =>
      obtain ⟨table, slots⟩ := r
      rw [htable] at h
      have hfailed : parseYamlForCategory env fuel category table = some (-1, table, []) →
          s' = { s with evTable := some table, writes := s.writes ++ slots } := fun hfail => by
        simp only [hfail, Option.map_some] at h
        rw [← (Prod.mk.inj (Option.some.inj h)).2]
        simp
      cases hfile : env.file with
      | none => exact Or.inr (Or.inl ⟨table, slots, rfl, hfailed (by rw [parseYamlForCategory, hfile])⟩)
      | some file =>
        cases hindex : findLastIndex table with
        | none => exact Or.inr (Or.inl ⟨table, slots, rfl, hfailed (by simp only [parseYamlForCategory, hfile, hindex])⟩)
        | some index =>
          by_cases hparser : env.parserInitialize = true
          · exact Or.inr (Or.inr ⟨category, file, table, index, rfl, Nat.not_lt.mp hguard,
              by simpa [eventCategorySearch] using hnew, hfile, hparser, ⟨slots, htable⟩, hindex⟩)
          · exact Or.inr (Or.inl ⟨table, slots, rfl,
              hfailed (by simp only [parseYamlForCategory, hfile, hindex, hparser]; rfl)⟩)

/-- A call that read its file and returned. -/
theorem Reads.returned (h : Reads env s category file table index)
    (hcall : eventLogInit env fuel (some category) s = some (ret, s')) :
    ∃ (slots : List Nat) (l : Loader), tableOf env s = some (table, slots) ∧ l.Follows index (readFile category file) ∧
      s' = { evTable := some l.table
             categoryTable := if l.categoryFound then s.categoryTable ++ [category] else s.categoryTable
             writes := s.writes ++ slots ++ l.writes } := by
  obtain ⟨slots, htable⟩ := h.created
  rw [eventLogInit, if_neg (Nat.not_lt.mpr h.guard), if_neg (by simpa [eventCategorySearch] using h.new), htable] at hcall
  simp only [parseYamlForCategory, h.file, h.index, h.parserInitialize, if_true] at hcall
  obtain ⟨⟨ret', table', written⟩, hparse, hs⟩ := Option.map_eq_some_iff.mp hcall
  obtain ⟨l, hl, heq⟩ := Option.map_eq_some_iff.mp hparse
  obtain ⟨rfl, htail⟩ := Prod.mk.inj heq
  obtain ⟨rfl, rfl⟩ := Prod.mk.inj htail
  obtain ⟨rfl, rfl⟩ := Prod.mk.inj hs
  refine ⟨slots, l, htable, (follows_start h.index).parseLoop hl, ?_⟩
  cases hfound : l.categoryFound <;> simp

/-- A table that is there, or was created for the call, has its delimiter; creating it writes slot 0. -/
theorem InBounds.tableOf (h : InBounds s) (htable : EventLog.tableOf env s = some (table, slots)) :
    (findLastIndex table).isSome ∧ ∀ i ∈ slots, i < maxEventTableSize := by
  rw [EventLog.tableOf] at htable
  split at htable
  · next hs =>
    obtain ⟨rfl, rfl⟩ := Prod.mk.inj (Option.some.inj htable)
    exact ⟨h.delimiter _ hs, by rintro _ ⟨⟩⟩
  · obtain ⟨table', hcreated, heq⟩ := Option.map_eq_some_iff.mp htable
    obtain ⟨rfl, rfl⟩ := Prod.mk.inj heq
    obtain ⟨memory, -, rfl⟩ := Option.map_eq_some_iff.mp hcreated
    refine ⟨findLastIndexFrom_isSome (j := 0) le_rfl (by decide) (by simp), fun i hi => ?_⟩
    rw [List.mem_singleton.mp hi]
    decide

/-- A call that read its file has stayed inside `ev_table` if and only if there were enough slots. -/
theorem Reads.writes_iff (h : Reads env s category file table index) (hs : InBounds s)
    (hcall : eventLogInit env fuel (some category) s = some (ret, s')) :
    (∀ i ∈ s'.writes, i < maxEventTableSize) ↔ index + (readFile category file).completed < maxEventTableSize := by
  obtain ⟨slots, l, htable, hl, rfl⟩ := h.returned hcall
  refine ⟨fun hwrites => ?_, fun hlt i hi => ?_⟩
  · by_cases hnone : (readFile category file).completed = 0
    · have := (findLastIndex_some h.index).1
      omega
    · have hlast := hl.delimiters ((readFile category file).completed - 1) (Nat.sub_lt (by omega) Nat.one_pos)
      have := hwrites _ (List.mem_append_right _ hlast)
      omega
  · rcases List.mem_append.mp hi with hi | hi
    · rcases List.mem_append.mp hi with hi | hi
      · exact hs.evTable i hi
      · exact (hs.tableOf htable).2 i hi
    · have := hl.writes i hi
      rw [hl.index] at this
      omega

/-- And inside `category_table` if and only if there was room for the category. -/
theorem Reads.categoryTable_iff (h : Reads env s category file table index)
    (hcall : eventLogInit env fuel (some category) s = some (ret, s')) :
    s'.categoryTable.length ≤ maxCategoriesPerDaemon ↔
      ((readFile category file).mentioned = true → s.categoryTable.length < maxCategoriesPerDaemon) := by
  obtain ⟨slots, l, -, hl, rfl⟩ := h.returned hcall
  have hguard := h.guard
  simp only [hl.categoryFound]
  cases hmentioned : (readFile category file).mentioned with
  | false => exact iff_of_true hguard nofun
  | true =>
    rw [if_pos rfl, List.length_append, List.length_singleton, Nat.succ_le_iff]
    exact ⟨fun hlt _ => hlt, fun hlt => hlt rfl⟩

theorem InBounds.call (h : InBounds s) (fits : Fits env name s) (hcall : eventLogInit env fuel name s = some (ret, s')) :
    InBounds s' := by
  rcases eventLogInit_cases hcall with rfl | ⟨table, slots, htable, rfl⟩ | ⟨category, file, table, index, rfl, hreads⟩
  · exact h
  · obtain ⟨hsome, hslots⟩ := h.tableOf htable
    refine ⟨fun i hi => ?_, h.categoryTable, fun table' heq => Option.some.inj heq ▸ hsome⟩
    rcases List.mem_append.mp hi with hi | hi
    · exact h.evTable i hi
    · exact hslots i hi
  · obtain ⟨hslots, hclosed, hcategories⟩ := fits category file table index rfl hreads
    refine ⟨(hreads.writes_iff h hcall).mpr hslots, (hreads.categoryTable_iff hcall).mpr hcategories, fun table' heq => ?_⟩
    obtain ⟨slots, l, -, hl, rfl⟩ := hreads.returned hcall
    obtain rfl := Option.some.inj heq
    refine findLastIndexFrom_isSome (j := l.index) (Nat.zero_le _) ?_ (hl.name.trans hclosed)
    rw [hl.index, Nat.zero_add]
    exact hslots

/-! ### Runs of calls -/

/-- The statics after calls that each satisfy `P` where they are made. -/
inductive Initialised (P : Env → Option Text → State → Prop) : State → Prop
  | init : Initialised P State.init
  | call {env : Env} {name : Option Text} {fuel : Nat} {ret : Int} {s s' : State} : Initialised P s → P env name s →
      eventLogInit env fuel name s = some (ret, s') → Initialised P s'

/-- While every call fits, both arrays keep their bounds and the table its delimiter; also a call that is
    still reading, or never returns, has written inside the table only. -/
theorem initialised_inBounds (h : Initialised Fits s) :
    InBounds s ∧ ∀ env category file table index n, Fits env (some category) s →
      Reads env s category file table index →
      ∀ i ∈ ((Loader.start table index).after category n file).writes, i < maxEventTableSize := by
  refine ⟨?_, fun env category file table index n fits hreads i hi => ?_⟩
  · induction h with
    | init => exact inBounds_init
    | call _ fits hcall ih => exact ih.call fits hcall
  · have hroom := (fits category file table index rfl hreads).slots
    have hafter := (follows_start hreads.index).after category file n
    have hle := hafter.writes i hi
    have hcompleted : (Cursor.start.read category (file.take n)).completed ≤ (readFile category file).completed :=
      completed_read_take n
    rw [hafter.index] at hle
    omega

/-! ### Files in the documented layout -/

variable (category) in
/-- A documented file completes the definitions of the category and leaves none open. -/
theorem readFile_documented {body : List Token} (rest : List Token) {categories : List Text} {defs : List Definition}
    (hend : Token.streamEnd ∉ body)
    (hscalars : scalarsOf body = categories ++ eventDefinitions :: defs.flatMap Definition.scalars)
    (hcategories : eventDefinitions ∉ categories) (wf : ∀ d ∈ defs, d.WellFormed)
    (ho : ∀ d ∈ defs, category ∉ d.otherScalars) :
    (readFile category (body ++ Token.streamEnd :: rest)).completed = (definitionsOf defs category).length ∧
      (readFile category (body ++ Token.streamEnd :: rest)).name = eventNameDelimiterStr ∧
      (readFile category (body ++ Token.streamEnd :: rest)).mentioned = decide (Defines defs category) := by
  let memory : Table := fun _ => ⟨[], 0, [], [], 0, []⟩
  let begun : Loader := Loader.start (filled memory []) 0
  have hbegun : begun.readScalars category (categories ++ [eventDefinitions]) = { begun with defFlag := true } := by
    rw [readScalars_append, readScalars_categories hcategories rfl rfl rfl rfl]
    simp [begun, Loader.start, Loader.scalar, Loader.readName, Loader.matchCategory]
  have hempty : ({ begun with defFlag := true } : Loader).Filled memory [] :=
    ⟨⟨rfl, rfl, by rintro ⟨⟩⟩, rfl, rfl, by rintro _ ⟨⟩⟩
  obtain ⟨hfilled, hfound⟩ := hempty.definitions wf ho
  have hindex : findLastIndex (filled memory []) = some 0 := findLastIndex_filled (by rintro _ ⟨⟩) (by decide)
  have hloop : parseLoop category (body.length + 1) (body ++ Token.streamEnd :: rest) begun =
      some (begun.readScalars category (scalarsOf body)) := parseLoop_body hend (Nat.lt_succ_self _)
  have hfollows := (follows_start hindex).parseLoop hloop
  rw [hscalars, List.append_cons, readScalars_append, hbegun] at hfollows
  rw [readFile]
  refine ⟨?_, ?_, ?_⟩
  · have := hfollows.index.symm.trans hfilled.index
    rwa [Nat.zero_add, List.nil_append] at this
  · rw [← hfollows.name, hfilled.table, hfilled.index, filled_length]
    rfl
  · rw [← hfollows.categoryFound, hfound]
    rfl

end

/-- A documented file fits where calls on it have led, as long as there is room for its categories. -/
theorem Reached.fits {memory : Table} {categories : List Text} {defs : List Definition} {pre : List (Option Text)}
    {c : Option Text} {env : Env} {file : List Token} {s : State} (h : Reached memory defs pre s)
    (ok : env.Ok file memory) (layout : Layout file categories defs)
    (hroom : (distinctDefined defs (pre ++ [c])).length ≤ maxCategoriesPerDaemon)
    (ho : ∀ category, c = some category → ∀ d ∈ defs, category ∉ d.otherScalars) : Fits env c s := by
  rintro category file' table index rfl hreads
  obtain rfl : file' = file := Option.some.inj (hreads.file.symm.trans ok.file)
  have hnew : category ∉ distinctDefined defs pre := h.categoryTable ▸ hreads.new
  obtain ⟨slots, htable⟩ := hreads.created
  rw [h.tableOf ok] at htable
  obtain ⟨rfl, -⟩ := Prod.mk.inj (Option.some.inj htable)
  have hlen : (loadedBy defs pre).length < maxEventTableSize := lt_of_le_of_lt length_loadedBy layout.capacity
  obtain rfl : (loadedBy defs pre).length = index :=
    Option.some.inj ((findLastIndex_filled (wellFormed_loadedBy pre layout) hlen).symm.trans hreads.index)
  obtain ⟨body, rest, rfl, hend, hscalars⟩ := layout.tokens
  obtain ⟨hcompleted, hname, hmentioned⟩ :=
    readFile_documented category rest hend hscalars layout.categories layout.wellFormed (ho category rfl)
  refine ⟨?_, hname, fun hdef => ?_⟩
  · rw [hcompleted, ← List.length_append, ← loadedBy_concat hnew]
    exact lt_of_le_of_lt length_loadedBy layout.capacity
  · rw [hmentioned, decide_eq_true_iff] at hdef
    rw [distinctDefined_concat, firsts_concat_of_new hdef hnew, List.length_append] at hroom
    rw [h.categoryTable]
    exact hroom

/-- So each call on a documented file fits. -/
theorem initialised_documented {memory : Table} {categories : List Text} {defs : List Definition}
    {calls : List (Option Text)} {env : Env} {file : List Token} {fuel : Nat} (ok : env.Ok file memory)
    (doc : Documented file categories defs calls) (hfuel : file.length ≤ fuel)
    (hroom : (distinctDefined defs calls).length ≤ maxCategoriesPerDaemon) :
    ∃ s, initAll env fuel calls State.init = some (answers defs [] calls, s) ∧ Reached memory defs calls s ∧
      Initialised Fits s := by
  suffices h : ∃ r, initAll env fuel calls State.init = some r ∧ Reached memory defs calls r.2 ∧ Initialised Fits r.2 by
    obtain ⟨r, hrun, hreached, hinit⟩ := h
    obtain ⟨s, hrun', -⟩ := reached_init.sequence calls ok doc.layout hfuel hroom doc.apart
    obtain rfl := Option.some.inj (hrun.symm.trans hrun')
    exact ⟨s, hrun', hreached, hinit⟩
  induction calls using List.reverseRecOn with
  | nil => exact ⟨_, rfl, reached_init, .init⟩
  | append_singleton pre c ih =>
    have hpre : (distinctDefined defs pre).length ≤ maxCategoriesPerDaemon := by
      refine le_trans ?_ hroom
      rw [distinctDefined, distinctDefined, List.reduceOption_append]
      exact (firsts_prefix_append _ _).length_le
    have ho : ∀ category, c = some category → ∀ d ∈ defs, category ∉ d.otherScalars := fun category hc =>
      doc.apart category (hc ▸ List.mem_append_right _ List.mem_cons_self)
    obtain ⟨r, hrun, hreached, hinit⟩ :=
      ih ⟨doc.layout, fun category hc => doc.apart category (List.mem_append_left _ hc)⟩ hpre
    obtain ⟨s, hcall, hs⟩ := hreached.call ok doc.layout hfuel hpre ho
    refine ⟨(r.1 ++ [answer defs pre c], s), ?_, hs, hinit.call (hreached.fits ok doc.layout hroom ho) hcall⟩
    rw [initAll_append, hrun, Option.bind_some, initAll, hcall]
    rfl

/-- Four calls on a file with two categories: of FAN, with a null pointer, of LLDP, and of FAN again. -/
theorem initialised_inBounds_shipped : ∃ s,
    initAll (envOf (fileOf ["categories".toList] shipped)) 100 shippedCalls State.init = some ([1, -1, 1, -1], s) ∧
      s.categoryTable = ["FAN".toList, "LLDP".toList] ∧ InBounds s ∧
      ∀ env category file table index n, Fits env (some category) s → Reads env s category file table index →
        ∀ i ∈ ((Loader.start table index).after category n file).writes, i < maxEventTableSize := by
  have hfuel : (fileOf ["categories".toList] shipped).length ≤ 100 := by decide
  obtain ⟨s, hrun, hs, hinit⟩ := initialised_documented (envOf_ok _) shipped_documented hfuel (by decide)
  have hanswers : answers shipped [] shippedCalls = [1, -1, 1, -1] := by decide
  have hcategories : distinctDefined shipped shippedCalls = ["FAN".toList, "LLDP".toList] := by decide
  exact ⟨s, hanswers ▸ hrun, hs.categoryTable.trans hcategories, initialised_inBounds hinit⟩

/-! ### Where the arrays are left -/

theorem initialised_initAll {P : Env → Option Text → State → Prop} {env : Env} {fuel : Nat} {calls : List (Option Text)}
    {s : State} {r : List Int × State} (h : Initialised P s) (hP : ∀ name s, P env name s)
    (hrun : initAll env fuel calls s = some r) : Initialised P r.2 := by
  induction calls generalizing s r with
  | nil => exact Option.some.inj hrun ▸ h
  | cons name calls ih =>
    rw [initAll] at hrun
    cases hcall : eventLogInit env fuel name s with
    | none => simp [hcall] at hrun
    | some r₁ =>
      cases hcalls : initAll env fuel calls r₁.2 with
      | none => simp [hcall, hcalls] at hrun
      | some r₂ =>
        obtain rfl : (r₁.1 :: r₂.1, r₂.2) = r := by simpa [hcall, hcalls] using hrun
        have hrest := ih (h.call (hP name s) hcall) hcalls
        exact hrest

/-- A first call comes to read its file, into slot 0. -/
theorem reads_first (category : Text) (file : List Token) :
    Reads (envOf file) State.init category file (filled usedMemory []) 0 := by
  have hcreated : tableOf (envOf file) State.init = some (filled usedMemory [], [0]) := by
    rw [filled_nil]
    rfl
  have hindex : findLastIndex (filled usedMemory []) = some 0 := findLastIndex_filled nofun (by decide)
  exact ⟨Nat.zero_le _, nofun, rfl, rfl, ⟨_, hcreated⟩, hindex⟩

/-- A first call on a file whose stream ends. -/
theorem first_call (category : Text) {body : List Token} (hend : Token.streamEnd ∉ body) :
    Reads (envOf (body ++ [.streamEnd])) State.init category (body ++ [.streamEnd]) (filled usedMemory []) 0 ∧
      eventLogInit (envOf (body ++ [.streamEnd])) (body.length + 1) (some category) State.init =
        some (let l := (Loader.start (filled usedMemory []) 0).readScalars category (scalarsOf body)
          (if l.categoryFound then 1 else 0, ⟨some l.table, if l.categoryFound then [category] else [], 0 :: l.writes⟩)) := by
  have hreads := reads_first category (body ++ [.streamEnd])
  have hindex := hreads.index
  have hcreated : tableOf (envOf (body ++ [.streamEnd])) State.init = some (filled usedMemory [], [0]) := by
    rw [filled_nil]
    rfl
  refine ⟨hreads, ?_⟩
  have hloop : parseLoop category (body.length + 1) (body ++ [.streamEnd]) (Loader.start (filled usedMemory []) 0) =
      some ((Loader.start (filled usedMemory []) 0).readScalars category (scalarsOf body)) :=
    parseLoop_body hend (Nat.lt_succ_self _)
  have hparse : parseYamlForCategory (envOf (body ++ [.streamEnd])) (body.length + 1) category (filled usedMemory []) =
      (some ((Loader.start (filled usedMemory []) 0).readScalars category (scalarsOf body))).map fun l =>
        (if l.categoryFound then 1 else 0, l.table, l.writes) := by
    rw [← hloop]
    simp only [parseYamlForCategory, envOf, hindex, if_true]
    rfl
  have hguard : ¬ maxCategoriesPerDaemon < State.init.categoryTable.length := by decide
  have hnew : ¬ eventCategorySearch category State.init = true := by simp [eventCategorySearch, State.init]
  rw [eventLogInit, if_neg hguard, if_neg hnew, hcreated]
  simp only [hparse, Option.map_some]
  cases hfound : ((Loader.start (filled usedMemory []) 0).readScalars category (scalarsOf body)).categoryFound <;>
    simp [State.init]

/-- 500 definitions of one category. -/
def manyFans : List Definition := List.replicate 500 fanCount

/-- The file ends behind the category of a definition. -/
def openFan : List Token :=
  [eventDefinitions, eventName, fanCount.name, eventCategory, fanCount.category].map Token.scalar ++ [.streamEnd]

/-- The delimiter behind the 500th definition is written to slot 500. -/
theorem manyFans_exceeds : ∃ s, Initialised (fun env _ _ => env = envOf (fileOf [] manyFans)) s ∧
    ¬ ∀ i ∈ s.writes, i < maxEventTableSize := by
  have wf : ∀ d ∈ manyFans, d.WellFormed := fun d hd => List.eq_of_mem_replicate hd ▸ fanCount_wellFormed
  have ho : ∀ d ∈ manyFans, fanCount.category ∉ d.otherScalars := fun d hd => by
    rw [List.eq_of_mem_replicate hd]
    decide
  have hscalars := scalarsOf_map ([] ++ eventDefinitions :: manyFans.flatMap Definition.scalars)
  have hend : Token.streamEnd ∉ ([] ++ eventDefinitions :: manyFans.flatMap Definition.scalars).map Token.scalar := by
    simp
  obtain ⟨hcompleted, -, -⟩ := readFile_documented fanCount.category [] hend hscalars nofun wf ho
  obtain ⟨hreads, hcall⟩ := first_call fanCount.category hend
  refine ⟨_, Initialised.init.call rfl hcall, fun hwrites => ?_⟩
  have hlt := (hreads.writes_iff inBounds_init hcall).mp hwrites
  have hlength : (definitionsOf manyFans fanCount.category).length = maxEventTableSize := by
    rw [definitionsOf, List.filter_eq_self.mpr fun d hd => by simp [List.eq_of_mem_replicate hd]]
    exact List.length_replicate
  rw [hcompleted, hlength] at hlt
  omega

/-- The hundredth category is accepted. -/
theorem manyCategories_exceeds : ∃ s, Initialised (fun env _ _ => env = envOf (fileOf [] manyCategories)) s ∧
    ¬ s.categoryTable.length ≤ maxCategoriesPerDaemon := by
  have doc := manyCategories_documented 100
  have hroom : (distinctDefined manyCategories (nthCalls 99)).length ≤ maxCategoriesPerDaemon := by
    rw [distinctDefined_nthCalls (by omega), List.length_map, List.length_range]
    rfl
  obtain ⟨s₁, hrun₁, h₁⟩ := reached_init.sequence (nthCalls 99) (envOf_ok _) doc.layout le_rfl
    hroom (manyCategories_documented 99).apart
  obtain ⟨s₂, hrun₂, h₂⟩ := h₁.call (c := some (nthCategory 99).category) (envOf_ok _) doc.layout le_rfl
    hroom fun category hc => doc.apart category (List.mem_map.mpr ⟨99, by simp, hc⟩)
  refine ⟨s₂, (initialised_initAll .init (fun _ _ => rfl) hrun₁).call rfl hrun₂, ?_⟩
  rw [List.nil_append, ← nthCalls_succ] at h₂
  rw [h₂.categoryTable, distinctDefined_nthCalls (by omega), List.length_map, List.length_range]
  decide

theorem openFan_table :
    ((Loader.start (filled usedMemory []) 0).readScalars fanCount.category
      [eventDefinitions, eventName, fanCount.name, eventCategory, fanCount.category]).table =
      Function.update (filled usedMemory []) 0
        { filled usedMemory [] 0 with eventName := fanCount.name, category := fanCount.category } := by
  have apart : fanCount.Apart fanCount.category := fanCount.apart (by decide)
  have hname : fanCount.name ∉ keywords := by decide
  have hcategory : fanCount.category ∉ keywords := by decide
  have hbegin : eventDefinitions ≠ fanCount.category := by decide
  simp [Loader.start, scalar_outside, scalar_name, scalar_category, hname, hcategory, hbegin, apart.eventName,
    apart.name, apart.eventCategory, fanCount_wellFormed.name_pos, fanCount_wellFormed.name_lt]

/-- The name of the open definition replaces the delimiter. -/
theorem openFan_exceeds : ∃ s, Initialised (fun env _ _ => env = envOf openFan) s ∧
    ¬ ∀ table, s.evTable = some table → (findLastIndex table).isSome := by
  have hend : Token.streamEnd ∉
      [eventDefinitions, eventName, fanCount.name, eventCategory, fanCount.category].map Token.scalar := by simp
  obtain ⟨-, hcall⟩ := first_call fanCount.category hend
  refine ⟨_, Initialised.init.call rfl hcall, fun hdelimiter => ?_⟩
  have hsome := hdelimiter _ rfl
  rw [scalarsOf_map, openFan_table] at hsome
  obtain ⟨i, hi⟩ := Option.isSome_iff_exists.mp hsome
  have hname := (findLastIndex_some hi).2.1
  by_cases hzero : i = 0
  · subst hzero
    rw [Function.update_self] at hname
    exact fanCount_wellFormed.name_ne hname
  · rw [Function.update_of_ne hzero, filled_gt (Nat.pos_of_ne_zero hzero)] at hname
    have hne : ([] : Text) ≠ eventNameDelimiterStr := by decide
    exact hne hname

/-- Every part of the capacity fails for some file. -/
theorem capacity_exceeded :
    (∃ s, Initialised (fun env _ _ => env = envOf (fileOf [] manyFans)) s ∧ ¬ ∀ i ∈ s.writes, i < maxEventTableSize) ∧
    (∃ s, Initialised (fun env _ _ => env = envOf (fileOf [] manyCategories)) s ∧
      ¬ s.categoryTable.length ≤ maxCategoriesPerDaemon) ∧
    (∃ s, Initialised (fun env _ _ => env = envOf openFan) s ∧
      ¬ ∀ table, s.evTable = some table → (findLastIndex table).isSome) :=
  ⟨manyFans_exceeds, manyCategories_exceeds, openFan_exceeds⟩

end EventLog
end OpsSupportability
