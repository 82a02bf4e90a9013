import OpsSupportability.ShowEvents

/-! The journals that the two loggers write, and the fields of their entries. The text of a C event is a
    format for `sd_journal_send`; an entry keeps its fields as long as that format takes no arguments. -/

namespace OpsSupportability
namespace ShowEvents

open EventLog Printf

/-! ### Fields -/

def priorityField (level : Int) : Text := "PRIORITY=".toList ++ Text.decimal level
def eventIdField (id : Int) : Text := "OPS_EVENT_ID=".toList ++ Text.decimal id
def categoryField (category : Text) : Text := "OPS_EVENT_CATEGORY=".toList ++ category

theorem fieldName_mark : fieldName messageOpsEvtMatch = "MESSAGE_ID".toList := by
  decide +kernel

theorem fieldName_message (value : Text) : fieldName ("MESSAGE=".toList ++ value) = "MESSAGE".toList := by
  simp [fieldName]

theorem fieldName_priority (value : Text) : fieldName ("PRIORITY=".toList ++ value) = "PRIORITY".toList := by
  simp [fieldName]

theorem fieldName_eventId (value : Text) : fieldName ("OPS_EVENT_ID=".toList ++ value) = "OPS_EVENT_ID".toList := by
  simp [fieldName]

theorem fieldName_category (category : Text) :
    fieldName ("OPS_EVENT_CATEGORY=".toList ++ category) = "OPS_EVENT_CATEGORY".toList := by
  simp [fieldName]

theorem fieldName_priorityField (n : Int) : fieldName (priorityField n) = "PRIORITY".toList := fieldName_priority _

theorem fieldName_eventIdField (n : Int) : fieldName (eventIdField n) = "OPS_EVENT_ID".toList := fieldName_eventId _

theorem fieldName_categoryField (category : Text) :
    fieldName (categoryField category) = "OPS_EVENT_CATEGORY".toList := fieldName_category _

theorem fieldName_syslogIdentifier (value : Text) :
    fieldName ("SYSLOG_IDENTIFIER=".toList ++ value) = "SYSLOG_IDENTIFIER".toList := by
  simp [fieldName]

theorem fieldName_timestamp (value : Text) :
    fieldName ("_SOURCE_REALTIME_TIMESTAMP=".toList ++ value) = "_SOURCE_REALTIME_TIMESTAMP".toList := by
  simp [fieldName]

theorem priorityField_injective {a b : Int} (h : priorityField a = priorityField b) : a = b :=
  Text.decimal_injective (List.append_cancel_left h)

theorem eventIdField_injective {a b : Int} (h : eventIdField a = eventIdField b) : a = b :=
  Text.decimal_injective (List.append_cancel_left h)

theorem categoryField_inj {a b : Text} : categoryField a = categoryField b ↔ a = b := List.append_right_inj _

theorem fieldName_stamp {s : Stamp} {field : Text} (h : field ∈ s.fields) :
    fieldName field = "SYSLOG_IDENTIFIER".toList ∨ fieldName field = "_SOURCE_REALTIME_TIMESTAMP".toList := by
  rcases List.mem_append.mp h with h | h
  · obtain ⟨value, -, rfl⟩ := Option.map_eq_some_iff.mp (Option.mem_toList.mp h)
    exact Or.inl (fieldName_syslogIdentifier value)
  · obtain ⟨value, -, rfl⟩ := Option.map_eq_some_iff.mp (Option.mem_toList.mp h)
    exact Or.inr (fieldName_timestamp value)

/-! ### The pairs of a C event -/

section
variable {answer : Sent → Int} {fuel n : Nat} {e : Event} {args : List (Option Text)} {buffer : Text} {o : Outcome}

/-- Each pair is appended with its comma, and the first one fits whole. -/
theorem comma_mem_fillKeys {a a' : Arrays} {keyValueNone : Bool}
    (h : fillKeys fuel n args a = .ok (.done keyValueNone a')) (hlen : a.allKeyValuePairs.length ≤ 2 * keyValueSize - 1)
    (ha : a.allKeyValuePairs = [] ∨ ',' ∈ a.allKeyValuePairs) :
    a'.allKeyValuePairs = [] ∨ ',' ∈ a'.allKeyValuePairs := by
  induction n generalizing args a with
  | zero =>
    cases h
    exact ha
  | succ n ih =>
    match args with
    | [] => cases h
    | none :: args =>
      cases h
      exact ha
    | some tmp :: args =>
      rw [fillKeys] at h
      cases hp : populateStr fuel a.evtMsg (storedPair tmp a.keyValuePair) a.buffer with
      | error fault => simp [hp, bind, Except.bind] at h
      | ok r =>
        simp only [hp, bind, Except.bind] at h
        split at h
        · cases h
        split at h
        · next hfit =>
          refine ih h (List.length_take_le _ _) (Or.inr ?_)
          rcases ha with ha | ha
          · rw [ha, List.nil_append, List.take_of_length_le]
            · simp
            · simp only [List.length_append, List.length_singleton, keyValueSize] at hfit ⊢
              omega
          · rw [List.take_append]
            rw [List.take_of_length_le hlen]
            exact List.mem_append_left _ ha
        · cases h

/-- What a C event is sent with. -/
structure SentFor (e : Event) (message : Text) (level : Nat) (pairs : Option Text) : Prop where
  message : "MESSAGE=".toList <+: message
  level : severityLevel e.severity = some level
  pairs : ∀ text ∈ pairs, text = [] ∨ ',' ∈ text

theorem sentFor_of_logSlot {sent : Sent} (h : logSlot answer fuel e args buffer = .ok o) (hsent : o.sent = some sent) :
    ∃ message level pairs, sent = .event message level e.eventId e.category pairs ∧ SentFor e message level pairs := by
  unfold logSlot at h
  cases hf : fillKeys fuel e.numOfKeys.toNat args ⟨evtMsgOf e, [], [], buffer⟩ with
  | error fault => simp [hf, bind, Except.bind] at h
  | ok filled =>
    cases filled with
    | refused buffer =>
      simp only [hf, bind, Except.bind, pure, Except.pure, Except.ok.injEq] at h
      simp [← h] at hsent
    | done keyValueNone a =>
      cases hl : severityLevel e.severity with
      | none =>
        simp only [hf, hl, bind, Except.bind, pure, Except.pure, Except.ok.injEq] at h
        simp [← h] at hsent
      | some level =>
        simp only [hf, hl, bind, Except.bind, pure, Except.pure, Except.ok.injEq] at h
        rw [← h] at hsent
        refine ⟨_, level, _, (Option.some.inj hsent).symm, ⟨?_, hl, ?_⟩⟩
        · exact ⟨_, rfl⟩
        · intro text htext
          cases keyValueNone with
          | true => cases htext
          | false =>
            obtain rfl := Option.some.inj htext
            exact comma_mem_fillKeys hf (Nat.zero_le _) (Or.inl rfl)

end

/-! ### The fields of a C event -/

section
variable {F : Formatter} {args : List Arg}

theorem texts_priority (level : Int) :
    F.texts (.str "PRIORITY=%d".toList :: .int level :: args) = (F.texts args).map (priorityField level :: ·) := by
  have hfmt : "PRIORITY=%d".toList = "PRIORITY=".toList ++ ['%', 'd'] := by simp
  rw [hfmt, F.texts_int_format (by simp)]
  rfl

theorem texts_eventId (id : Int) :
    F.texts (.str "OPS_EVENT_ID=%d".toList :: .int id :: args) = (F.texts args).map (eventIdField id :: ·) := by
  have hfmt : "OPS_EVENT_ID=%d".toList = "OPS_EVENT_ID=".toList ++ ['%', 'd'] := by simp
  rw [hfmt, F.texts_int_format (by simp)]
  rfl

theorem texts_category (category : Text) :
    F.texts (.str "OPS_EVENT_CATEGORY=%s".toList :: .str category :: args) =
      (F.texts args).map (categoryField category :: ·) := by
  have hfmt : "OPS_EVENT_CATEGORY=%s".toList = "OPS_EVENT_CATEGORY=".toList ++ ['%', 's'] := by simp
  rw [hfmt, F.texts_str_format (by simp)]
  rfl

theorem texts_messageId :
    F.texts (.str "MESSAGE_ID=%s".toList :: .str messageOpsEvt :: args) =
      (F.texts args).map (messageOpsEvtMatch :: ·) := by
  have hfmt : "MESSAGE_ID=%s".toList = "MESSAGE_ID=".toList ++ ['%', 's'] := by simp
  have hmark : "MESSAGE_ID=".toList ++ messageOpsEvt = messageOpsEvtMatch := by decide +kernel
  rw [hfmt, F.texts_str_format (by simp), hmark]

/-- The key of the ops events as a format of its own. -/
theorem texts_messageOpsEvt : F.texts (.str messageOpsEvt :: args) = (F.texts args).map (messageOpsEvt :: ·) :=
  F.texts_plain (by decide +kernel) args

/-- A field that holds pairs. -/
def PairsField (field : Text) : Prop := field = [] ∨ ',' ∈ field

/-- The arguments behind the category: the pairs and the null pointer. -/
def pairsArgs (pairs : Option Text) : List Arg := pairs.toList.map Arg.str ++ [.null]

/-- As formats of their own these arguments make one field at most, which holds pairs. -/
theorem pairsField_of_texts {pairs : Option Text} {rest : List Arg} {tail : List Text}
    (hpairs : ∀ text ∈ pairs, text = [] ∨ ',' ∈ text) (hrest : rest <:+ pairsArgs pairs)
    (h : F.texts rest = some tail) : tail = [] ∨ ∃ field, tail = [field] ∧ PairsField field := by
  cases pairs with
  | none =>
    rcases List.suffix_cons_iff.mp hrest with rfl | hrest
    · exact Or.inl (Option.some.inj h).symm
    · obtain rfl := List.suffix_nil.mp hrest
      cases h
  | some text =>
    rcases List.suffix_cons_iff.mp hrest with rfl | hrest
    · obtain ⟨text', rest, tail, hf, htail, rfl⟩ := F.texts_str_some h
      have htail' : tail = [] := by
        rcases List.suffix_cons_iff.mp (F.leaves hf) with rfl | hrest
        · exact (Option.some.inj htail).symm
        · obtain rfl := List.suffix_nil.mp hrest
          cases htail
      refine Or.inr ⟨text', by rw [htail'], ?_⟩
      rcases hpairs text rfl with rfl | hcomma
      · rw [F.nil] at hf
        exact Or.inl (Prod.mk.inj (Option.some.inj hf)).1.symm
      · exact Or.inr (F.keeps (by decide) hcomma hf)
    · rcases List.suffix_cons_iff.mp hrest with rfl | hrest
      · exact Or.inl (Option.some.inj h).symm
      · obtain rfl := List.suffix_nil.mp hrest
        cases h

/-- The fields sent for a C event: `taken` is how many of the arguments behind it the message takes. -/
inductive Sends (F : Formatter) (level : Nat) (id : Int) (category : Text) (pairs : Option Text) : Nat → List Text → Prop
  | all {text extra} : fieldName text = "MESSAGE".toList → F.texts (pairsArgs pairs) = some extra →
    Sends F level id category pairs 0 (text :: priorityField level :: messageOpsEvtMatch :: eventIdField id ::
      categoryField category :: extra)
  | noPriority {text extra} : fieldName text = "MESSAGE".toList → F.texts (pairsArgs pairs) = some extra →
    Sends F level id category pairs 2 (text :: messageOpsEvtMatch :: eventIdField id :: categoryField category :: extra)
  /-- The category is a format of its own. -/
  | category {text first rest extra} : fieldName text = "MESSAGE".toList →
    F.format category (pairsArgs pairs) = some (first, rest) → F.texts rest = some extra →
    Sends F level id category pairs 7 (text :: first :: extra)
  | few {taken text tail} : 2 < taken → taken ≠ 7 → fieldName text = "MESSAGE".toList → messageOpsEvtMatch ∉ tail →
    Sends F level id category pairs taken (text :: tail)

theorem not_pairsField_mark : ¬ PairsField messageOpsEvtMatch := by
  rintro (h | h) <;> revert h <;> decide +kernel

/-- The arguments behind the message. -/
def behind (level : Nat) (id : Int) (category : Text) (pairs : Option Text) : List Arg :=
  .str "PRIORITY=%d".toList :: .int level :: .str "MESSAGE_ID=%s".toList :: .str messageOpsEvt ::
    .str "OPS_EVENT_ID=%d".toList :: .int id :: .str "OPS_EVENT_CATEGORY=%s".toList :: .str category :: pairsArgs pairs

theorem arguments_event {message category : Text} {level : Nat} {id : Int} {pairs : Option Text} :
    (Sent.event message level id category pairs).arguments = .str message :: behind level id category pairs := rfl

theorem mark_ne_of_name {field name : Text} (h : fieldName field = name) (hne : name ≠ "MESSAGE_ID".toList) :
    messageOpsEvtMatch ≠ field := by
  rintro rfl
  exact hne (h.symm.trans fieldName_mark)

section
variable {level : Nat} {id : Int} {category : Text} {pairs : Option Text} {rest : List Arg} {tail extra : List Text}

theorem mark_notMem_pairs (hpairs : ∀ text ∈ pairs, text = [] ∨ ',' ∈ text) (hrest : rest <:+ pairsArgs pairs)
    (h : F.texts rest = some tail) : messageOpsEvtMatch ∉ tail := by
  rcases pairsField_of_texts hpairs hrest h with rfl | ⟨field, rfl, hfield⟩
  · exact List.not_mem_nil
  · rintro hmem
    exact not_pairsField_mark (List.mem_singleton.mp hmem ▸ hfield)

/-- One case for each place where the message can leave off. -/
theorem sends_of_behind {text : Text} (hpairs : ∀ text ∈ pairs, text = [] ∨ ',' ∈ text)
    (htext : fieldName text = "MESSAGE".toList) (hrest : rest <:+ behind level id category pairs)
    (h : F.texts rest = some tail) :
    Sends F level id category pairs ((behind level id category pairs).length - rest.length) (text :: tail) := by
  have hid : messageOpsEvtMatch ≠ eventIdField id := mark_ne_of_name (fieldName_eventIdField _) (by simp)
  have hcategory : messageOpsEvtMatch ≠ categoryField category := mark_ne_of_name (fieldName_categoryField _) (by simp)
  have hkey : messageOpsEvtMatch ≠ messageOpsEvt := by decide +kernel
  have hnone {extra : List Text} (hextra : F.texts (pairsArgs pairs) = some extra) : messageOpsEvtMatch ∉ extra :=
    mark_notMem_pairs hpairs List.suffix_rfl hextra
  have hlen : (behind level id category pairs).length = (pairsArgs pairs).length + 8 := rfl
  generalize hk : (behind level id category pairs).length - rest.length = taken
  rw [hlen] at hk
  rcases List.suffix_cons_iff.mp hrest with rfl | hrest
  · obtain rfl : taken = 0 := by simp [← hk]
    rw [texts_priority, texts_messageId, texts_eventId, texts_category] at h
    simp only [Option.map_eq_some_iff] at h
    obtain ⟨_, ⟨_, ⟨_, ⟨extra, hextra, rfl⟩, rfl⟩, rfl⟩, rfl⟩ := h
    exact Sends.all htext hextra
  rcases List.suffix_cons_iff.mp hrest with rfl | hrest
  · cases h
  rcases List.suffix_cons_iff.mp hrest with rfl | hrest
  · obtain rfl : taken = 2 := by simp [← hk]
    rw [texts_messageId, texts_eventId, texts_category] at h
    simp only [Option.map_eq_some_iff] at h
    obtain ⟨_, ⟨_, ⟨extra, hextra, rfl⟩, rfl⟩, rfl⟩ := h
    exact Sends.noPriority htext hextra
  rcases List.suffix_cons_iff.mp hrest with rfl | hrest
  · obtain rfl : taken = 3 := by simp [← hk]
    rw [texts_messageOpsEvt, texts_eventId, texts_category] at h
    simp only [Option.map_eq_some_iff] at h
    obtain ⟨_, ⟨_, ⟨extra, hextra, rfl⟩, rfl⟩, rfl⟩ := h
    exact Sends.few (by decide) (by decide) htext (by simp [hkey, hid, hcategory, hnone hextra])
  rcases List.suffix_cons_iff.mp hrest with rfl | hrest
  · obtain rfl : taken = 4 := by simp [← hk]
    rw [texts_eventId, texts_category] at h
    simp only [Option.map_eq_some_iff] at h
    obtain ⟨_, ⟨extra, hextra, rfl⟩, rfl⟩ := h
    exact Sends.few (by decide) (by decide) htext (by simp [hid, hcategory, hnone hextra])
  rcases List.suffix_cons_iff.mp hrest with rfl | hrest
  · cases h
  rcases List.suffix_cons_iff.mp hrest with rfl | hrest
  · obtain rfl : taken = 6 := by simp [← hk]
    rw [texts_category] at h
    obtain ⟨extra, hextra, rfl⟩ := Option.map_eq_some_iff.mp h
    exact Sends.few (by decide) (by decide) htext (by simp [hcategory, hnone hextra])
  rcases List.suffix_cons_iff.mp hrest with rfl | hrest
  · obtain rfl : taken = 7 := by simp [← hk]
    obtain ⟨first, left, extra, hf, hextra, rfl⟩ := F.texts_str_some h
    exact Sends.category htext hf hextra
  have htaken : 7 < taken := by
    have := hrest.length_le
    omega
  exact Sends.few (Nat.lt_trans (by decide) htaken) (Nat.ne_of_gt htaken) htext (mark_notMem_pairs hpairs hrest h)

end

theorem sends_of_texts {e : Event} {message : Text} {level : Nat} {pairs : Option Text} {texts : List Text}
    (hs : SentFor e message level pairs)
    (h : F.texts (Sent.event message level e.eventId e.category pairs).arguments = some texts) :
    ∃ taken, F.taken (Sent.event message level e.eventId e.category pairs).arguments = some taken ∧
      Sends F level e.eventId e.category pairs taken texts := by
  rw [arguments_event] at h ⊢
  obtain ⟨text, rest, tail, hf, htail, rfl⟩ := F.texts_str_some h
  refine ⟨_, congrArg (Option.map _) hf, ?_⟩
  have htext : fieldName text = "MESSAGE".toList := by
    obtain ⟨rest', rfl⟩ := hs.message
    obtain ⟨value, rfl⟩ := F.prefix_of_format (by simp) hf
    exact fieldName_message value
  exact sends_of_behind hs.pairs htext (F.leaves hf) htail

end

/-! ### Journals -/

/-- The entry of a successful call of a logger, with `answer` for what `sd_journal_send` answers, or of
    another program. The severity of a Python event is one of the eight. -/
inductive Wrote (F : Formatter) : Record → Prop
  | c {answer : Sent → Int} {fuel : Nat} {table : EventLog.Table} {evName : Text} {args : List (Option Text)}
    {buffer : Text} {o : Outcome} {i : Nat} {sent : Sent} {fields : List Text} (stamp : Stamp) :
    lookup evName (some table) = some i → logEvent answer fuel (some table) evName args buffer = .ok o →
    o.ret = 0 → o.sent = some sent → F.texts sent.arguments = some fields →
    Wrote F ⟨.c (table i) sent, fields ++ stamp.fields⟩
  | py {s : PyEventLog.State} {daemon name : Text} {arg : List (Text × Text)} {e : PyEventLog.Entry}
    {fields : List Text} (stamp : Stamp) :
    s.content.find? (·.eventName == name) = some e → PyEventLog.logEvent s daemon name arg = some fields →
    e.severity ∈ sev → Wrote F ⟨.py e, fields ++ stamp.fields⟩
  | other {fields : List Text} : messageOpsEvtMatch ∉ fields → Wrote F ⟨.other, fields⟩

/-- The journals that grow by one entry after another. -/
inductive Written (F : Formatter) : List Record → Prop
  | empty : Written F []
  | append {journal : List Record} {record : Record} : Written F journal → Wrote F record →
    Written F (journal ++ [record])

theorem Written.wrote {F : Formatter} {journal : List Record} (h : Written F journal) :
    ∀ r ∈ journal, Wrote F r := by
  induction h with
  | empty =>
    intro r hr
    cases hr
  | append _ hwrote ih =>
    intro r hr
    rcases List.mem_append.mp hr with hr | hr
    · exact ih r hr
    · obtain rfl := List.mem_singleton.mp hr
      exact hwrote

/-- How many of the arguments behind it the message of an entry takes as a format; an entry of Python is
    no format. -/
def Origin.taken (F : Formatter) : Origin → Nat
  | c _ sent => (F.taken sent.arguments).getD 0
  | _ => 0

/-- The arguments from the pairs on that stay formats of their own in an entry with the mark: the message takes no more
    than the priority, or it leaves off at the category, and that makes the mark. -/
def keptPairs (F : Formatter) (category : Text) (pairs : Option Text) (taken : Nat) : Option (List Arg) :=
  if taken ≤ 2 then some (pairsArgs pairs)
  else if taken = 7 then
    match F.format category (pairsArgs pairs) with
    | some (first, rest) => if first = messageOpsEvtMatch then some rest else none
    | none => none
  else none

/-- The same for an entry; one of Python has the mark, and no pairs. -/
def Origin.pairsLeft (F : Formatter) (o : Origin) : Option (List Arg) :=
  match o with
  | c _ (.event _ _ _ category pairs) => keptPairs F category pairs (o.taken F)
  | c _ (.unknown _) => none
  | py _ => some []
  | other => none

/-- The pairs of the entry make that field. -/
def Origin.PairsRead (F : Formatter) (o : Origin) (field : Text) : Prop :=
  ∃ rest, o.pairsLeft F = some rest ∧ F.texts rest = some [field]

def Origin.eventId? : Origin → Option Int
  | c slot _ => some slot.eventId
  | py entry => some entry.eventId
  | other => none

def Origin.severity? : Origin → Option Text
  | c slot _ => some slot.severity
  | py entry => some entry.severity
  | other => none

def Origin.category? : Origin → Option Text
  | c slot _ => some slot.category
  | py entry => some entry.eventCategory
  | other => none

/-- The priority of an entry is sent as a number. -/
def Origin.numbered : Origin → Bool
  | c _ _ => true
  | _ => false

/-! ### What the entries of events hold -/

/-- What the fields of an event's entry tell, by how many arguments its message takes. -/
structure Tells (F : Formatter) (r : Record) (id : Int) (severity category : Text) : Prop where
  level : (severityLevel severity).isSome
  mark : messageOpsEvtMatch ∈ r.fields ↔ (r.origin.pairsLeft F).isSome = true
  early : r.origin.taken F ≤ 2 → messageOpsEvtMatch ∈ r.fields
  priority : messageOpsEvtMatch ∈ r.fields → ∀ n : Nat, priorityField n ∈ r.fields ↔
    r.origin.numbered ∧ r.origin.taken F = 0 ∧ severityLevel severity = some n
  eventId : messageOpsEvtMatch ∈ r.fields → ∀ n, eventIdField n ∈ r.fields ↔ r.origin.taken F ≤ 2 ∧ n = id
  category : messageOpsEvtMatch ∈ r.fields → ∀ text, categoryField text ∈ r.fields ↔
    (r.origin.taken F ≤ 2 ∧ text = category) ∨ r.origin.PairsRead F (categoryField text)
  pairs : ∀ field, r.origin.PairsRead F field → PairsField field

theorem not_pairsField {name value : Text} (hname : ',' ∉ name) (hvalue : ',' ∉ value) (hne : name ≠ []) :
    ¬ PairsField (name ++ value) := by
  rintro (h | h)
  · exact hne (List.append_eq_nil_iff.mp h).1
  · rcases List.mem_append.mp h with h | h
    · exact hname h
    · exact hvalue h

theorem not_pairsField_priority (n : Int) : ¬ PairsField (priorityField n) :=
  not_pairsField (by simp) (Text.notMem_decimal (by decide) (by decide) n) (by simp)

theorem not_pairsField_eventId (n : Int) : ¬ PairsField (eventIdField n) :=
  not_pairsField (by simp) (Text.notMem_decimal (by decide) (by decide) n) (by simp)

theorem ne_of_name {a b x y : Text} (ha : fieldName a = x) (hb : fieldName b = y) (hne : x ≠ y) : a ≠ b := by
  rintro rfl
  exact hne (ha.symm.trans hb)

theorem priorityField_ne_mark (n : Int) : priorityField n ≠ messageOpsEvtMatch :=
  ne_of_name (fieldName_priorityField _) fieldName_mark (by simp)

theorem priorityField_ne_eventId (n id : Int) : priorityField n ≠ eventIdField id :=
  ne_of_name (fieldName_priorityField _) (fieldName_eventIdField _) (by simp)

theorem priorityField_ne_category (n : Int) (category : Text) : priorityField n ≠ categoryField category :=
  ne_of_name (fieldName_priorityField _) (fieldName_categoryField _) (by simp)

theorem eventIdField_ne_mark (id : Int) : eventIdField id ≠ messageOpsEvtMatch :=
  ne_of_name (fieldName_eventIdField _) fieldName_mark (by simp)

theorem eventIdField_ne_category (id : Int) (category : Text) : eventIdField id ≠ categoryField category :=
  ne_of_name (fieldName_eventIdField _) (fieldName_categoryField _) (by simp)

theorem categoryField_ne_mark (category : Text) : categoryField category ≠ messageOpsEvtMatch :=
  ne_of_name (fieldName_categoryField _) fieldName_mark (by simp)

theorem mem_append_stamp {field name : Text} {fields : List Text} {stamp : Stamp} (h : fieldName field = name)
    (h₁ : name ≠ "SYSLOG_IDENTIFIER".toList) (h₂ : name ≠ "_SOURCE_REALTIME_TIMESTAMP".toList) :
    field ∈ fields ++ stamp.fields ↔ field ∈ fields := by
  rw [List.mem_append]
  refine or_iff_left fun hmem => ?_
  rcases fieldName_stamp hmem with hstamp | hstamp
  · exact h₁ (h.symm.trans hstamp)
  · exact h₂ (h.symm.trans hstamp)

section
variable {F : Formatter} {level taken : Nat} {id : Int} {category field : Text} {pairs : Option Text} {rest : List Arg}
  {fields extra : List Text}

theorem mem_extra_iff (hpairs : ∀ text ∈ pairs, text = [] ∨ ',' ∈ text) (hrest : rest <:+ pairsArgs pairs)
    (h : F.texts rest = some extra) : field ∈ extra ↔ F.texts rest = some [field] := by
  rw [h, Option.some_inj]
  rcases pairsField_of_texts hpairs hrest h with rfl | ⟨field', rfl, -⟩
  · simp
  · rw [List.mem_singleton, List.singleton_inj, eq_comm]

theorem keptPairs_suffix (h : keptPairs F category pairs taken = some rest) : rest <:+ pairsArgs pairs := by
  unfold keptPairs at h
  split at h
  · exact Option.some.inj h ▸ List.suffix_rfl
  · split at h
    · cases hf : F.format category (pairsArgs pairs) with
      | none => simp [hf] at h
      | some r =>
        simp only [hf, Option.ite_none_right_eq_some, Option.some.injEq] at h
        exact h.2 ▸ F.leaves hf
    · cases h

theorem keptPairs_category {first : Text} (hf : F.format category (pairsArgs pairs) = some (first, rest)) :
    keptPairs F category pairs 7 = if first = messageOpsEvtMatch then some rest else none := by
  rw [keptPairs, if_neg (by decide), if_pos rfl, hf]

theorem keptPairs_of_le (h : taken ≤ 2) : keptPairs F category pairs taken = some (pairsArgs pairs) := if_pos h

theorem mark_ne_message {text : Text} (h : fieldName text = "MESSAGE".toList) : messageOpsEvtMatch ≠ text :=
  mark_ne_of_name h (by simp)

theorem Sends.mark_iff (h : Sends F level id category pairs taken fields)
    (hpairs : ∀ text ∈ pairs, text = [] ∨ ',' ∈ text) :
    messageOpsEvtMatch ∈ fields ↔ (keptPairs F category pairs taken).isSome = true := by
  cases h with
  | all => exact iff_of_true (by simp) (by rw [keptPairs_of_le (by decide)]; rfl)
  | noPriority => exact iff_of_true (by simp) (by rw [keptPairs_of_le (by decide)]; rfl)
  | @category text first rest extra htext hf hextra =>
    have hnone := mark_notMem_pairs hpairs (F.leaves hf) hextra
    rw [keptPairs_category hf, List.mem_cons, List.mem_cons, or_iff_right (mark_ne_message htext), or_iff_left hnone]
    split
    · next heq => exact iff_of_true heq.symm rfl
    · next hne => exact iff_of_false (Ne.symm hne) Bool.false_ne_true
  | few hlt hne htext hnone =>
    rw [keptPairs, if_neg (Nat.not_le.mpr hlt), if_neg hne]
    exact iff_of_false (List.not_mem_cons_of_ne_of_not_mem (mark_ne_message htext) hnone) Bool.false_ne_true

/-- A field of an entry with the mark that is neither the message nor the mark is one of the three others, or it is
    made of the pairs. -/
theorem Sends.mem_iff (h : Sends F level id category pairs taken fields)
    (hpairs : ∀ text ∈ pairs, text = [] ∨ ',' ∈ text) (hmark : messageOpsEvtMatch ∈ fields)
    (hname : fieldName field ≠ "MESSAGE".toList) (hne : field ≠ messageOpsEvtMatch) :
    field ∈ fields ↔ ((taken = 0 ∧ field = priorityField level) ∨
      (taken ≤ 2 ∧ (field = eventIdField id ∨ field = categoryField category))) ∨
        ∃ rest, keptPairs F category pairs taken = some rest ∧ F.texts rest = some [field] := by
  cases h with
  | @all text extra htext hextra =>
    have htext' : field ≠ text := fun heq => hname (heq ▸ htext)
    simp [htext', hne, keptPairs_of_le, mem_extra_iff hpairs List.suffix_rfl hextra, or_assoc]
  | @noPriority text extra htext hextra =>
    have htext' : field ≠ text := fun heq => hname (heq ▸ htext)
    simp [htext', hne, keptPairs_of_le, mem_extra_iff hpairs List.suffix_rfl hextra, or_assoc]
  | @category text first rest extra htext hf hextra =>
    have htext' : field ≠ text := fun heq => hname (heq ▸ htext)
    have hnone := mark_notMem_pairs hpairs (F.leaves hf) hextra
    obtain rfl : messageOpsEvtMatch = first := by
      simpa [mark_ne_message htext, hnone] using hmark
    simp [htext', hne, keptPairs_category hf, mem_extra_iff hpairs (F.leaves hf) hextra]
  | few hlt hne htext hnone =>
    exact absurd hmark (List.not_mem_cons_of_ne_of_not_mem (mark_ne_message htext) hnone)

end

/-- The fields that a C event is sent with. -/
theorem tells_of_sends {F : Formatter} {e : Event} {message : Text} {level taken : Nat} {pairs : Option Text}
    {fields : List Text} (stamp : Stamp) (hfor : SentFor e message level pairs)
    (htaken : F.taken (Sent.event message level e.eventId e.category pairs).arguments = some taken)
    (h : Sends F level e.eventId e.category pairs taken fields) :
    Tells F ⟨.c e (.event message level e.eventId e.category pairs), fields ++ stamp.fields⟩ e.eventId e.severity
      e.category := by
  have horigin : (Origin.c e (.event message level e.eventId e.category pairs)).taken F = taken := by
    rw [Origin.taken, htaken, Option.getD_some]
  have hleft : (Origin.c e (.event message level e.eventId e.category pairs)).pairsLeft F =
      keptPairs F e.category pairs taken := by rw [Origin.pairsLeft, horigin]
  have hread (field : Text) : (Origin.c e (.event message level e.eventId e.category pairs)).PairsRead F field ↔
      ∃ rest, keptPairs F e.category pairs taken = some rest ∧ F.texts rest = some [field] := by
    rw [Origin.PairsRead, hleft]
  have hmark : messageOpsEvtMatch ∈ fields ++ stamp.fields ↔ messageOpsEvtMatch ∈ fields :=
    mem_append_stamp fieldName_mark (by simp) (by simp)
  have hfield (field : Text) (hread' : ∃ rest, keptPairs F e.category pairs taken = some rest ∧
      F.texts rest = some [field]) : PairsField field := by
    obtain ⟨rest, hrest, htexts⟩ := hread'
    rcases pairsField_of_texts hfor.pairs (keptPairs_suffix hrest) htexts with hnil | ⟨field', heq, hfield⟩
    · cases hnil
    · exact List.singleton_inj.mp heq ▸ hfield
  refine ⟨by rw [hfor.level]; rfl, ?_, ?_, ?_, ?_, ?_, ?_⟩ <;> simp only [horigin, hleft, hread]
  · exact hmark.trans (h.mark_iff hfor.pairs)
  · intro hle
    rw [hmark, h.mark_iff hfor.pairs, keptPairs_of_le hle]
    rfl
  · intro hmem n
    rw [mem_append_stamp (fieldName_priorityField _) (by simp) (by simp), h.mem_iff hfor.pairs (hmark.mp hmem)
      (by rw [fieldName_priorityField]; simp) (priorityField_ne_mark n),
      or_iff_left fun hpairs => not_pairsField_priority n (hfield _ hpairs)]
    have hn : priorityField n = priorityField level ↔ level = n := by
      refine ⟨fun heq => (Int.ofNat.inj (priorityField_injective heq)).symm, ?_⟩
      rintro rfl
      rfl
    simp [hn, hfor.level, priorityField_ne_eventId, priorityField_ne_category, Origin.numbered]
  · intro hmem n
    rw [mem_append_stamp (fieldName_eventIdField _) (by simp) (by simp), h.mem_iff hfor.pairs (hmark.mp hmem)
      (by rw [fieldName_eventIdField]; simp) (eventIdField_ne_mark n),
      or_iff_left fun hpairs => not_pairsField_eventId n (hfield _ hpairs)]
    have hn : eventIdField n = eventIdField e.eventId ↔ n = e.eventId := by
      refine ⟨eventIdField_injective, ?_⟩
      rintro rfl
      rfl
    simp [hn, (priorityField_ne_eventId level n).symm, eventIdField_ne_category]
  · intro hmem text
    rw [mem_append_stamp (fieldName_categoryField _) (by simp) (by simp), h.mem_iff hfor.pairs (hmark.mp hmem)
      (by rw [fieldName_categoryField]; simp) (categoryField_ne_mark text)]
    simp [categoryField_inj, (priorityField_ne_category level text).symm, (eventIdField_ne_category e.eventId text).symm]
  · exact hfield

/-- No number is one of the names of the severities. -/
theorem decimal_notMem_sev (n : Int) : Text.decimal n ∉ sev := by
  have hname : ∀ name ∈ sev, 'L' ∈ name := by decide +kernel
  exact fun hmem => Text.notMem_decimal (by decide) (by decide) n (hname _ hmem)

theorem journalFields_eq (e : PyEventLog.Entry) (daemon desc : Text) :
    ∃ text, fieldName text = "MESSAGE".toList ∧ PyEventLog.journalFields daemon e desc =
      [text, messageOpsEvtMatch, "PRIORITY=".toList ++ e.severity, eventIdField e.eventId,
        categoryField e.eventCategory, "SYSLOG_IDENTIFIER=".toList ++ daemon] := by
  have hmark : "MESSAGE_ID=".toList ++ PyEventLog.messageOpsEvt = messageOpsEvtMatch := by decide +kernel
  have hmessage (value : Text) : fieldName ("MESSAGE=ops-evt|".toList ++ value) = "MESSAGE".toList := by
    simp [fieldName]
  refine ⟨_, ?_, by rw [PyEventLog.journalFields, hmark, List.append_assoc, List.append_assoc, List.append_assoc]; rfl⟩
  exact hmessage _

theorem mem_journalFields_iff {e : PyEventLog.Entry} {daemon desc field name : Text} (hfield : fieldName field = name)
    (h₁ : name ≠ "MESSAGE".toList) (h₂ : name ≠ "SYSLOG_IDENTIFIER".toList) :
    field ∈ PyEventLog.journalFields daemon e desc ↔ field = messageOpsEvtMatch ∨
      field = "PRIORITY=".toList ++ e.severity ∨ field = eventIdField e.eventId ∨ field = categoryField e.eventCategory := by
  obtain ⟨text, htext, heq⟩ := journalFields_eq e daemon desc
  have hmessage : field ≠ text := ne_of_name hfield htext h₁
  have hdaemon : field ≠ "SYSLOG_IDENTIFIER=".toList ++ daemon := ne_of_name hfield (fieldName_syslogIdentifier _) h₂
  rw [heq]
  simp only [List.mem_cons, List.not_mem_nil, hmessage, hdaemon, or_false, false_or]

theorem tells_of_journalFields {F : Formatter} {e : PyEventLog.Entry} {daemon desc : Text} (stamp : Stamp)
    (hsev : e.severity ∈ sev) :
    Tells F ⟨.py e, PyEventLog.journalFields daemon e desc ++ stamp.fields⟩ e.eventId e.severity e.eventCategory := by
  have htaken : (Origin.py e).taken F ≤ 2 := Nat.zero_le 2
  have hcategory (text : Text) :
      categoryField text ∈ PyEventLog.journalFields daemon e desc ++ stamp.fields ↔ text = e.eventCategory := by
    rw [mem_append_stamp (fieldName_categoryField _) (by simp) (by simp),
      mem_journalFields_iff (fieldName_categoryField _) (by simp) (by simp), categoryField_inj]
    have hpriority : categoryField text ≠ "PRIORITY=".toList ++ e.severity :=
      ne_of_name (fieldName_categoryField _) (fieldName_priority _) (by simp)
    simp only [categoryField_ne_mark, hpriority, (eventIdField_ne_category _ _).symm, false_or]
  have hmark : messageOpsEvtMatch ∈ PyEventLog.journalFields daemon e desc ++ stamp.fields := by
    rw [mem_append_stamp fieldName_mark (by simp) (by simp), mem_journalFields_iff fieldName_mark (by simp) (by simp)]
    exact Or.inl rfl
  have hread (field : Text) : ¬ (Origin.py e).PairsRead F field := by
    rintro ⟨rest, hrest, htexts⟩
    obtain rfl := Option.some.inj hrest
    cases htexts
  refine ⟨List.findIdx?_isSome.trans (List.any_eq_true.mpr ⟨_, hsev, beq_self_eq_true _⟩), iff_of_true hmark rfl,
    fun _ => hmark, ?_, ?_, ?_, fun field h => absurd h (hread field)⟩
  · intro _ n
    rw [mem_append_stamp (fieldName_priorityField _) (by simp) (by simp),
      mem_journalFields_iff (fieldName_priorityField _) (by simp) (by simp)]
    refine iff_of_false ?_ fun h => Bool.false_ne_true h.1
    rintro (h | h | h | h)
    · exact priorityField_ne_mark n h
    · exact decimal_notMem_sev n (List.append_cancel_left h ▸ hsev)
    · exact priorityField_ne_eventId n _ h
    · exact priorityField_ne_category n _ h
  · intro _ n
    rw [mem_append_stamp (fieldName_eventIdField _) (by simp) (by simp),
      mem_journalFields_iff (fieldName_eventIdField _) (by simp) (by simp)]
    have hpriority : eventIdField n ≠ "PRIORITY=".toList ++ e.severity :=
      ne_of_name (fieldName_eventIdField _) (fieldName_priority _) (by simp)
    have hn : eventIdField n = eventIdField e.eventId ↔ n = e.eventId := by
      refine ⟨eventIdField_injective, ?_⟩
      rintro rfl
      rfl
    simp only [eventIdField_ne_mark, hpriority, eventIdField_ne_category, hn, htaken, true_and, false_or, or_false]
  · intro _ text
    rw [hcategory, or_iff_left (hread _)]
    exact (and_iff_right htaken).symm

/-- An entry of a written journal is no event and has no mark, or it is an event and tells of it. -/
theorem Wrote.tells {F : Formatter} {r : Record} (h : Wrote F r) :
    (r.origin = .other ∧ messageOpsEvtMatch ∉ r.fields) ∨
      ∃ id severity category, r.origin.eventId? = some id ∧ r.origin.severity? = some severity ∧
        r.origin.category? = some category ∧ Tells F r id severity category := by
  cases h with
  | @c answer fuel table evName args buffer o i sent fields stamp hlookup hlog _ hsent hfields =>
    right
    have hslot : logSlot answer fuel (table i) args buffer = .ok o := by
      unfold logEvent at hlog
      rwa [hlookup] at hlog
    obtain ⟨message, level, pairs, rfl, hfor⟩ := sentFor_of_logSlot hslot hsent
    obtain ⟨taken, htaken, hsends⟩ := sends_of_texts hfor hfields
    exact ⟨_, _, _, rfl, rfl, rfl, tells_of_sends stamp hfor htaken hsends⟩
  | @py s daemon name arg e fields stamp hfind hlog hsev =>
    right
    unfold PyEventLog.logEvent at hlog
    rw [hfind] at hlog
    obtain rfl := Option.some.inj hlog
    exact ⟨_, _, _, rfl, rfl, rfl, tells_of_journalFields stamp hsev⟩
  | other hmark => exact Or.inl ⟨rfl, hmark⟩

end ShowEvents
end OpsSupportability
