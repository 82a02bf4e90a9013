import Mathlib.Data.List.ReduceOption
import OpsSupportability.Theorems.EventDecode
import OpsSupportability.Theorems.EventFormat
import OpsSupportability.Theorems.EventJournal

/-! What the journal receives of a C event: its description with the placeholders replaced by the values, and its
    pairs. The text of the event and its pairs are handed over as formats, and the pairs through an array of 256 bytes:
    they arrive as they are if they have no percent sign and fit. -/

namespace OpsSupportability
namespace EventLog

open Printf ShowEvents Template Rewriting

/-! ### The pairs of a call -/

/-- The strings that a call passes, up to its null pointer. -/
def given (args : List (Option Text)) : List Text := (args.takeWhile Option.isSome).reduceOption

/-- The pairs, each followed by a comma. -/
def concatenated (pairs : List Text) : Text := pairs.flatMap (· ++ [','])

def Accepted (pair : Text) : Prop := ∃ key value, keyValueString key value = some pair

/-- The description with the placeholders of the pairs for its keys replaced, one key after the other. -/
def expanded (e : Event) (pairs : List (Text × Text)) : Text :=
  PyEventLog.replaceStr (pairs.take e.numOfKeys.toNat) e.eventDescription

/-- The calls expand a pair in a text: the placeholder is replaced, where neither the key nor the value is taken apart
    and no value is part of a placeholder; or there is none, where the static buffer already holds the text. -/
inductive ExpandsPair (settled : Prop) (s key value : Text) : Prop
  | replaced : '=' ∉ key → '=' ∉ value → braced key <:+: s → OnePass (braced key) value s → ExpandsPair settled s key value
  | absent : settled → ¬ braced key <:+: s →
      (∀ token tokens, Text.tokens '=' (key ++ '=' :: value) = token :: tokens → ¬ braced token <:+: s) →
      ExpandsPair settled s key value

/-- Each pair is expanded in what the ones before it make of the text. -/
def ExpandsFrom (settled : Prop) (s : Text) : List (Text × Text) → Prop
  | [] => True
  | (key, value) :: pairs =>
    ExpandsPair settled s key value ∧ ExpandsFrom True (Text.replaceAll (braced key) value s) pairs

/-- The description fits its array, and each pair for a key is expanded. -/
structure Expands (e : Event) (pairs : List (Text × Text)) (buffer : Text) : Prop where
  short : Short e.eventDescription
  pairs : ExpandsFrom (buffer = e.eventDescription) e.eventDescription (pairs.take e.numOfKeys.toNat)

theorem Accepted.fits {pair : Text} (h : Accepted pair) : pair.length + 1 < keyValueSize := by
  obtain ⟨key, value, hpair⟩ := h
  obtain ⟨rfl, -, hlen⟩ := keyValueString_some hpair
  rw [List.length_append, List.length_cons, keyValueSize]
  omega

@[simp] theorem given_some (tmp : Text) (args : List (Option Text)) :
    given (some tmp :: args) = tmp :: given args := rfl

theorem concatenated_cons (pair : Text) (pairs : List Text) :
    concatenated (pair :: pairs) = (pair ++ [',']) ++ concatenated pairs := rfl

theorem concatenated_append (pairs pairs' : List Text) :
    concatenated (pairs ++ pairs') = concatenated pairs ++ concatenated pairs' := List.flatMap_append

theorem concatenated_eq_nil_iff {pairs : List Text} : concatenated pairs = [] ↔ pairs = [] := by
  refine ⟨fun h => ?_, fun h => h ▸ rfl⟩
  cases pairs with
  | nil => rfl
  | cons pair pairs =>
    rw [concatenated_cons, List.append_assoc, List.append_eq_nil_iff] at h
    exact absurd h.2 (List.cons_ne_nil _ _)

theorem take_append_take (n : Nat) (s s' : Text) : (s.take n ++ s').take n = (s ++ s').take n := by
  rw [List.take_append, List.take_append, List.take_take, Nat.min_self, List.length_take]
  congr 2
  omega

section
variable {answer : Sent → Int} {fuel n : Nat} {e : Event} {args : List (Option Text)} {pairs : List (Text × Text)}
  {buffer full s key value pair : Text} {o : Outcome}

theorem mem_given {p : Text} (h : p ∈ given args) : some p ∈ args.takeWhile Option.isSome := List.reduceOption_mem_iff.mp h

theorem accepted_encoded {p : Text} (hp : some p ∈ encoded pairs) : Accepted p := by
  obtain ⟨kv, -, hkv⟩ := List.mem_map.mp hp
  exact ⟨kv.1, kv.2, hkv⟩

theorem encoded_cons {tmp : Text} (hargs : (some tmp :: args).takeWhile Option.isSome = encoded pairs) :
    ∃ key value pairs', pairs = (key, value) :: pairs' ∧ keyValueString key value = some tmp ∧
      args.takeWhile Option.isSome = encoded pairs' := by
  rw [List.takeWhile_cons_of_pos rfl] at hargs
  cases pairs with
  | nil => cases hargs
  | cons kv pairs =>
    obtain ⟨hkv, hrest⟩ := List.cons.inj hargs
    exact ⟨kv.1, kv.2, pairs, rfl, hkv.symm, hrest⟩

/-! ### The description -/

/-- What `populate_str` makes of a pair whose placeholder occurs. -/
theorem populateStr_replaced {fuel : Nat} {ret : Int} {text b buffer : Text} (hpair : keyValueString key value = some pair)
    (heq : '=' ∉ key) (hvalue : '=' ∉ value) (hocc : braced key <:+: s) (once : OnePass (braced key) value s)
    (h : populateStr fuel s pair buffer = .ok (ret, text, b)) (hret : ¬ ret < 0) :
    text = Text.replaceAll (braced key) value s ∧ b = text := by
  obtain ⟨rfl, hpos, hlen⟩ := keyValueString_some hpair
  have hkey : key ≠ [] := by
    rintro rfl
    rw [keyValueString_eq, if_neg (by simp)] at hpair
    cases hpair
  have hformat : makeKeyFormat key = some (braced key) := makeKeyFormat_braced hkey (by omega)
  have htokens : Text.tokens '=' (key ++ '=' :: value) = [key, value] := by
    rw [tokens_encoded hkey heq, Text.tokens, List.splitOn_eq_singleton hvalue]
    simp [List.length_pos_iff.mp hpos]
  have hlength : (key ++ '=' :: value).length < keyValueSize := by
    simp only [List.length_append, List.length_cons, keyValueSize]
    omega
  obtain ⟨r, hloop⟩ := replaceLoop_of_populateStr hformat htokens h hret
  have hresult : r.1 = Text.replaceAll (braced key) value s := eq_of_onePass (makeKeyFormat_ne_nil hformat) once.apart hloop
  obtain ⟨habsent, -, hbuffer⟩ := replaceLoop_ok hloop
  have hsame : r.2 = r.1 := by
    rcases hbuffer with rfl | hbuffer
    · exact absurd hocc habsent
    · exact hbuffer
  rw [populateStr_first (by simp) hlength hformat htokens hloop] at h
  split at h
  · obtain ⟨-, rfl, rfl⟩ := by simpa using h
    exact ⟨hsame.trans hresult, rfl⟩
  · obtain ⟨rfl, -⟩ := Prod.mk.inj (Except.ok.inj h)
    exact absurd (by decide) hret

/-- Without a placeholder the buffer is handed out, which holds the text already. -/
theorem populateStr_settled {fuel : Nat} {ret : Int} {text b : Text} (hpair : keyValueString key value = some pair)
    (habsent : ∀ token tokens, Text.tokens '=' pair = token :: tokens → ¬ braced token <:+: s)
    (h : populateStr fuel s pair s = .ok (ret, text, b)) (hret : ¬ ret < 0) : text = s ∧ b = s := by
  have hfits := Accepted.fits ⟨key, value, hpair⟩
  obtain ⟨keyName, hk⟩ := Option.isSome_iff_exists.mp (acceptedKey_of_populateStr h hret)
  obtain ⟨hpos, hlt, token, value', tokens, htokens, hformat⟩ := acceptedKey_some hk
  have htoken : token ∈ Text.tokens '=' pair := htokens ▸ List.mem_cons_self
  have hne : token ≠ [] := by simpa using (List.mem_filter.mp htoken).2
  have hle := (Text.mem_tokens htoken).2.length_le
  have hlong : token.length ≤ 126 := Nat.le_trans hle (Nat.le_of_lt_succ (Nat.lt_of_succ_lt_succ hfits))
  obtain rfl : braced token = keyName := Option.some.inj ((makeKeyFormat_braced hne hlong).symm.trans hformat)
  have hmore := (populateStr_below (Nat.le_succ fuel)).ok h
  rw [populateStr_absent hk (habsent token _ htokens)] at hmore
  split at hmore
  · obtain ⟨-, rfl, rfl⟩ := by simpa using hmore
    exact ⟨rfl, rfl⟩
  · obtain ⟨rfl, -⟩ := Prod.mk.inj (Except.ok.inj hmore)
    exact absurd (by decide) hret

/-- The loop over the keys makes of the description what the pairs make of it. By induction on the keys. -/
theorem fillKeys_expands {a a' : Arrays} {keyValueNone : Bool} (hargs : args.takeWhile Option.isSome = encoded pairs)
    (expands : ExpandsFrom (a.buffer = a.evtMsg) a.evtMsg (pairs.take n))
    (h : fillKeys fuel n args a = .ok (.done keyValueNone a')) :
    a'.evtMsg = PyEventLog.replaceStr (pairs.take n) a.evtMsg := by
  induction n generalizing args a pairs with
  | zero =>
    cases h
    rfl
  | succ n ih =>
    match args with
    | [] => cases h
    | none :: args =>
      cases h
      obtain rfl : pairs = [] := by simpa [encoded] using hargs.symm
      rfl
    | some tmp :: args =>
      obtain ⟨key, value, pairs', rfl, hpair, hargs'⟩ := encoded_cons hargs
      have hfits := Accepted.fits ⟨key, value, hpair⟩
      obtain ⟨hexpands, hrest⟩ := expands
      rw [fillKeys, storedPair, if_pos (Nat.lt_of_succ_lt hfits)] at h
      cases hp : populateStr fuel a.evtMsg tmp a.buffer with
      | error fault => simp [hp, bind, Except.bind] at h
      | ok r =>
        simp only [hp, bind, Except.bind, if_pos hfits] at h
        split at h
        · cases h
        · next hret =>
          have hstep : r.2.1 = Text.replaceAll (braced key) value a.evtMsg ∧ r.2.2 = r.2.1 := by
            rcases hexpands with ⟨heq, hvalue, hocc, once⟩ | ⟨hsettled, habsent, htoken⟩
            · exact populateStr_replaced hpair heq hvalue hocc once hp hret
            · rw [hsettled] at hp
              obtain ⟨htext, hbuffer⟩ := populateStr_settled hpair
                ((keyValueString_some hpair).1 ▸ htoken) hp hret
              rw [Text.replaceAll_none value (Text.cutFirst_none.mpr habsent)]
              exact ⟨htext, hbuffer.trans htext.symm⟩
          have hmore : ExpandsFrom (r.2.2 = r.2.1) r.2.1 (pairs'.take n) := by
            rw [hstep.2, hstep.1]
            simpa using hrest
          rw [ih hargs' hmore h, hstep.1]
          rfl

/-! ### The pairs -/

/-- The array of the pairs holds as much of them as it has room for, and the loop ends early where there are fewer
    pairs than keys. -/
theorem fillKeys_pairs {a a' : Arrays} {keyValueNone : Bool} (hpairs : ∀ p ∈ given args, Accepted p)
    (ha : a.allKeyValuePairs = full.take (2 * keyValueSize - 1))
    (h : fillKeys fuel n args a = .ok (.done keyValueNone a')) :
    (keyValueNone = false ∧ n ≤ (given args).length ∧
      a'.allKeyValuePairs = (full ++ concatenated ((given args).take n)).take (2 * keyValueSize - 1)) ∨
    (keyValueNone = true ∧ (given args).length < n) := by
  induction n generalizing args a full with
  | zero =>
    cases h
    refine .inl ⟨rfl, Nat.zero_le _, ?_⟩
    rw [ha, List.take_zero]
    exact congrArg _ (List.append_nil full).symm
  | succ n ih =>
    match args with
    | [] => cases h
    | none :: args =>
      cases h
      exact .inr ⟨rfl, Nat.succ_pos n⟩
    | some tmp :: args =>
      have hfits := (hpairs tmp (given_some tmp args ▸ List.mem_cons_self)).fits
      rw [fillKeys, storedPair, if_pos (Nat.lt_of_succ_lt hfits)] at h
      cases hp : populateStr fuel a.evtMsg tmp a.buffer with
      | error fault => simp [hp, bind, Except.bind] at h
      | ok r =>
        simp only [hp, bind, Except.bind, if_pos hfits] at h
        split at h
        · cases h
        · have hall : (a.allKeyValuePairs ++ (tmp ++ [','])).take (2 * keyValueSize - 1) =
              (full ++ (tmp ++ [','])).take (2 * keyValueSize - 1) := by
            rw [ha, take_append_take]
          rcases ih (fun p hp => hpairs p (given_some tmp args ▸ List.mem_cons_of_mem _ hp)) hall h with ⟨hnone, hle, hsent⟩ | ⟨hnone, hlt⟩
          · refine .inl ⟨hnone, Nat.succ_le_succ hle, ?_⟩
            rw [hsent, given_some, List.take_succ_cons, concatenated_cons, List.append_assoc]
          · exact .inr ⟨hnone, Nat.succ_lt_succ hlt⟩

/-- What a call for an event that is loaded sends. -/
theorem logSlot_sent {sent : Sent} (h : logSlot answer fuel e args buffer = .ok o) (hsent : o.sent = some sent) :
    ∃ keyValueNone a level, fillKeys fuel e.numOfKeys.toNat args ⟨evtMsgOf e, [], [], buffer⟩ =
        .ok (.done keyValueNone a) ∧ severityLevel e.severity = some level ∧
      sent = .event (messageOf e a.evtMsg) level e.eventId e.category
        (if keyValueNone then none else some a.allKeyValuePairs) := by
  unfold logSlot at h
  cases hf : fillKeys fuel e.numOfKeys.toNat args ⟨evtMsgOf e, [], [], buffer⟩ with
  | error fault => simp [hf, bind, Except.bind] at h
  | ok filled =>
    cases filled with
    | refused buffer =>
      simp only [hf, bind, Except.bind, pure, Except.pure, Except.ok.injEq] at h
      simp [← h] at hsent
    | done keyValueNone a =>
      cases hl : severityLevel e.severity with
      | none =>
        simp only [hf, hl, bind, Except.bind, pure, Except.pure, Except.ok.injEq] at h
        simp [← h] at hsent
      | some level =>
        simp only [hf, hl, bind, Except.bind, pure, Except.pure, Except.ok.injEq] at h
        rw [← h] at hsent
        exact ⟨keyValueNone, a, level, rfl, rfl, (Option.some.inj hsent).symm⟩

end

/-! ### The fields that are received -/

/-- The fields that a formatting function makes of a call: the message comes first, and behind the fields of the
    library come the pairs. -/
structure Received (F : Formatter) (sent : Sent) (message pairs : Text) : Prop where
  fields : ∃ texts, F.texts sent.arguments = some texts ∧ texts.head? = some message ∧ (texts.drop 5).flatten = pairs

section
variable {F : Formatter} {message category : Text} {level : Nat} {id : Int} {pairs : Option Text}

/-- A message without conversions leaves the arguments to the fields that they are meant for. -/
theorem texts_event (hmessage : '%' ∉ message) :
    F.texts (Sent.event message level id category pairs).arguments =
      (F.texts (pairs.toList.map Arg.str ++ [.null])).map
        ([message, priorityField level, messageOpsEvtMatch, eventIdField id, categoryField category] ++ ·) := by
  rw [arguments_event, F.texts_plain hmessage, behind, texts_priority, texts_messageId, texts_eventId, texts_category]
  simp only [Option.map_map]
  rfl

theorem received_iff (hmessage : '%' ∉ message) (kv : Text) :
    Received F (.event message level id category pairs) message kv ↔
      ∃ tail, F.texts (pairs.toList.map Arg.str ++ [.null]) = some tail ∧ tail.flatten = kv := by
  constructor
  · rintro ⟨texts, htexts, -, hkv⟩
    rw [texts_event hmessage] at htexts
    obtain ⟨tail, htail, rfl⟩ := Option.map_eq_some_iff.mp htexts
    exact ⟨tail, htail, hkv⟩
  · rintro ⟨tail, htail, hkv⟩
    refine ⟨[message, priorityField level, messageOpsEvtMatch, eventIdField id, categoryField category] ++ tail, ?_, rfl,
      hkv⟩
    rw [texts_event hmessage, htail, Option.map_some]

/-- Whatever the message says, its conversions would print other texts than themselves. -/
theorem not_mem_of_received {kv : Text} (h : Received Printf.basic (.event message level id category pairs) message kv) :
    '%' ∉ message := by
  obtain ⟨texts, htexts, hhead, -⟩ := h
  rw [arguments_event] at htexts
  obtain ⟨text, rest, tail, hformat, -, rfl⟩ := Printf.basic.texts_str_some htexts
  obtain rfl : text = message := Option.some.inj hhead
  have hpriority : "PRIORITY=%d".toList = 'P' :: "RIORITY=%d".toList := by simp
  rw [behind, hpriority] at hformat
  have hp : 'P' ≠ '%' := by decide
  exact not_mem_of_formatFrom_self hp hformat

theorem texts_pairs_basic {text : Text} {tail : List Text} (h : Printf.basic.texts [.str text, .null] = some tail) :
    ('%' ∉ text ∧ tail.flatten = text) ∨ tail.flatten.length < text.length := by
  obtain ⟨out, rest, tail, hformat, htail, rfl⟩ := Printf.basic.texts_str_some h
  have hnil : tail.flatten = [] := by
    rcases List.suffix_cons_iff.mp (Printf.basic.leaves hformat) with rfl | hrest
    · cases htail
      rfl
    · obtain rfl := List.suffix_nil.mp hrest
      cases htail
  rw [List.flatten_cons, hnil, List.append_nil]
  exact formatFrom_null hformat

end

theorem not_mem_severity {severity : Text} {level : Nat} (h : severityLevel severity = some level) :
    '%' ∉ severity := by
  have hsev : ∀ name ∈ sev, '%' ∉ name := by decide +kernel
  have hany : sev.any (· == severity) = true := List.findIdx?_isSome.symm.trans (Option.isSome_of_eq_some h)
  obtain ⟨name, hname, heq⟩ := List.any_eq_true.mp hany
  exact beq_iff_eq.mp heq ▸ hsev name hname

theorem percent_mem_messageOf_iff {e : Event} {level : Nat} (hlevel : severityLevel e.severity = some level)
    (description : Text) : '%' ∈ messageOf e description ↔ '%' ∈ description := by
  have hid : '%' ∉ Text.decimal e.eventId := Text.notMem_decimal (by decide) (by decide) _
  have hfront : '%' ∉ "MESSAGE=ops-evt|".toList := by simp
  have hbar : '%' ∉ ['|'] := by decide
  have hseverity := not_mem_severity hlevel
  unfold messageOf
  rw [List.mem_append]
  exact or_iff_right (List.not_mem_append (List.not_mem_append (List.not_mem_append
    (List.not_mem_append hfront hid) hbar) hseverity) hbar)

/-! ### What arrives -/

theorem concatenated_take_le (n : Nat) (pairs : List Text) :
    (concatenated (pairs.take n)).length ≤ (concatenated pairs).length := by
  have happend := concatenated_append (pairs.take n) (pairs.drop n)
  rw [List.take_append_drop] at happend
  rw [happend, List.length_append]
  exact Nat.le_add_right _ _

/-- Each pair counts, if only for its comma. -/
theorem length_le_of_concatenated_take {n : Nat} {pairs : List Text}
    (h : (concatenated pairs).length ≤ (concatenated (pairs.take n)).length) : pairs.length ≤ n := by
  have happend := concatenated_append (pairs.take n) (pairs.drop n)
  rw [List.take_append_drop] at happend
  rw [happend, List.length_append] at h
  have hnil : concatenated (pairs.drop n) = [] := List.eq_nil_of_length_eq_zero (by omega)
  exact List.drop_eq_nil_iff.mp (concatenated_eq_nil_iff.mp hnil)

/-- The pairs can be handed over: each has no conversions and is passed for a key, and the array has room. -/
structure Handed (keys : Nat) (pairs : List Text) : Prop where
  plain : '%' ∉ concatenated pairs
  room : (concatenated pairs).length ≤ 2 * keyValueSize - 1
  count : pairs.length = keys ∨ pairs = []

section
variable {answer : Sent → Int} {fuel n level : Nat} {args : List (Option Text)} {full category message : Text}
  {id : Int} {a : Arrays} {keyValueNone : Bool}

theorem received_of_handed {F : Formatter} (hmessage : '%' ∉ message) (h : Handed n (given args))
    (hfill : (keyValueNone = false ∧ n ≤ (given args).length ∧
        a.allKeyValuePairs = (concatenated ((given args).take n)).take (2 * keyValueSize - 1)) ∨
      (keyValueNone = true ∧ (given args).length < n)) :
    Received F (.event message level id category (if keyValueNone then none else some a.allKeyValuePairs)) message
      (concatenated (given args)) := by
  refine (received_iff hmessage _).mpr ?_
  rcases hfill with ⟨rfl, hle, hall⟩ | ⟨rfl, hlt⟩
  · have hwhole : a.allKeyValuePairs = concatenated (given args) := by
      rcases h.count with hcount | hnil
      · rw [hall, ← hcount, List.take_length, List.take_of_length_le h.room]
      · rw [hall, hnil, List.take_nil]
        rfl
    refine ⟨[concatenated (given args)], ?_, List.flatten_singleton⟩
    change F.texts [.str a.allKeyValuePairs, .null] = _
    rw [hwhole, F.texts_plain h.plain]
    rfl
  · rcases h.count with hcount | hnil
    · exact absurd hlt (by omega)
    · rw [hnil]
      exact ⟨[], rfl, rfl⟩

theorem handed_of_received (hmessage : '%' ∉ message)
    (h : Received Printf.basic (.event message level id category
      (if keyValueNone then none else some a.allKeyValuePairs)) message (concatenated (given args)))
    (hfill : (keyValueNone = false ∧ n ≤ (given args).length ∧
        a.allKeyValuePairs = (concatenated ((given args).take n)).take (2 * keyValueSize - 1)) ∨
      (keyValueNone = true ∧ (given args).length < n)) : Handed n (given args) := by
  obtain ⟨tail, htail, hkv⟩ := (received_iff hmessage _).mp h
  rcases hfill with ⟨rfl, hle, hall⟩ | ⟨rfl, hlt⟩
  · have hshort : a.allKeyValuePairs.length ≤ (concatenated ((given args).take n)).length :=
      hall ▸ List.length_take_le' _ _
    have hmost := concatenated_take_le n (given args)
    rcases texts_pairs_basic htail with ⟨hplain, hflat⟩ | hlt
    · rw [hkv] at hflat
      have hcount := length_le_of_concatenated_take (hflat ▸ hshort)
      refine ⟨hflat ▸ hplain, ?_, .inl (Nat.le_antisymm hcount hle)⟩
      rw [hflat, hall]
      exact List.length_take_le _ _
    · rw [hkv] at hlt
      omega
  · obtain rfl : [] = tail := Option.some.inj htail
    have hnil := concatenated_eq_nil_iff.mp hkv.symm
    rw [hnil]
    exact ⟨nofun, Nat.zero_le _, .inr rfl⟩

end

/-- What lets a call arrive as it is: its pairs are expanded, and neither the description nor the pairs have a
    conversion or are cut off. -/
structure Plain (e : Event) (args : List (Option Text)) (pairs : List (Text × Text)) (buffer : Text) : Prop where
  expands : Expands e pairs buffer
  percent : '%' ∉ expanded e pairs
  handed : Handed e.numOfKeys.toNat (given args)

/-- Whichever formatting function reads them, the message is that of the expanded description, and the pairs arrive as
    they are; and where the pairs are expanded, only then. -/
theorem verbatim_of_plain {answer : Sent → Int} {fuel i : Nat} {table : Table} {evName buffer : Text}
    {args : List (Option Text)} {pairs : List (Text × Text)} {o : Outcome} {sent : Sent}
    (hlookup : lookup evName (some table) = some i) (hargs : args.takeWhile Option.isSome = encoded pairs)
    (hlog : logEvent answer fuel (some table) evName args buffer = .ok o) (hsent : o.sent = some sent) :
    (Plain (table i) args pairs buffer →
      ∀ F : Formatter, Received F sent (messageOf (table i) (expanded (table i) pairs)) (concatenated (given args))) ∧
    (Expands (table i) pairs buffer →
      (∀ F : Formatter, Received F sent (messageOf (table i) (expanded (table i) pairs)) (concatenated (given args))) →
        Plain (table i) args pairs buffer) := by
  have hslot : logSlot answer fuel (table i) args buffer = .ok o := by
    unfold logEvent at hlog
    rwa [hlookup] at hlog
  obtain ⟨keyValueNone, a, level, hfill, hlevel, rfl⟩ := logSlot_sent hslot hsent
  have hstate := fillKeys_pairs (fun p hp => accepted_encoded (hargs ▸ mem_given hp))
    (List.take_nil.symm : [] = ([] : Text).take (2 * keyValueSize - 1)) hfill
  have hexpanded : Expands (table i) pairs buffer → a.evtMsg = expanded (table i) pairs := by
    rintro ⟨hshort, hpairs⟩
    have hmsg : evtMsgOf (table i) = (table i).eventDescription := if_pos hshort
    rw [hmsg] at hfill
    exact fillKeys_expands hargs hpairs hfill
  have hpercent := not_congr (percent_mem_messageOf_iff hlevel (expanded (table i) pairs))
  constructor
  · rintro ⟨hexpands, hmessage, hhanded⟩ F
    rw [hexpanded hexpands]
    exact received_of_handed (hpercent.mpr hmessage) hhanded hstate
  · intro hexpands hall
    rw [hexpanded hexpands] at hall
    have hmessage := not_mem_of_received (hall Printf.basic)
    exact ⟨hexpands, hpercent.mp hmessage, handed_of_received hmessage (hall Printf.basic) hstate⟩

/-! ### A percentage -/

def fanSpeed : Event := ⟨"FAN".toList, 1001, "FAN_SPEED".toList, "LOG_INFO".toList, 1, "speed {s}".toList⟩

/-- A table whose first slot is the event. -/
def fanTable : Table := fun _ => fanSpeed

/-- What a call with one pair for the event sends. -/
def fanSent (value : Text) : Sent :=
  .event (messageOf fanSpeed ("speed ".toList ++ value)) 6 1001 "FAN".toList (some ("s=".toList ++ value ++ [',']))

theorem lookup_fan : lookup "FAN_SPEED".toList (some fanTable) = some 0 := by decide +kernel

theorem logEvent_fan (value : Text) (h : value = "50".toList ∨ value = "50%".toList) :
    logEvent (fun _ => 0) 3 (some fanTable) "FAN_SPEED".toList [some ("s=".toList ++ value)] [] =
      .ok ⟨0, some (fanSent value), "speed ".toList ++ value⟩ := by
  rcases h with rfl | rfl
  · decide +kernel
  · decide +kernel

theorem expands_fan : Expands fanSpeed [("s".toList, "50".toList)] [] :=
  ⟨by decide, .replaced (by decide) (by decide) (by decide) (by decide), trivial⟩

/-- A speed without a unit arrives. -/
theorem fan_verbatim :
    Received Printf.basic (fanSent "50".toList) (messageOf fanSpeed (expanded fanSpeed [("s".toList, "50".toList)]))
      (concatenated (given [some ("s=".toList ++ "50".toList)])) := by
  have hargs : [some ("s=".toList ++ "50".toList)].takeWhile Option.isSome = encoded [("s".toList, "50".toList)] := by
    decide
  exact (verbatim_of_plain lookup_fan hargs (logEvent_fan _ (.inl rfl)) rfl).1
    ⟨expands_fan, by decide, by decide, by decide, .inl (by decide)⟩ Printf.basic

/-- The same speed as a percentage does not: the percent sign begins a conversion. -/
theorem fan_percentage_garbled :
    keyValueString "s".toList "50%".toList = some ("s=".toList ++ "50%".toList) ∧
    logEvent (fun _ => 0) 3 (some fanTable) "FAN_SPEED".toList [some ("s=".toList ++ "50%".toList)] [] =
      .ok ⟨0, some (fanSent "50%".toList), "speed ".toList ++ "50%".toList⟩ ∧
    expanded fanSpeed [("s".toList, "50%".toList)] = "speed 50%".toList ∧
    ¬ ∀ F : Formatter, Received F (fanSent "50%".toList)
      (messageOf fanSpeed (expanded fanSpeed [("s".toList, "50%".toList)]))
      (concatenated (given [some ("s=".toList ++ "50%".toList)])) := by
  refine ⟨by decide, logEvent_fan _ (.inr rfl), by decide, fun hall => ?_⟩
  obtain ⟨texts, htexts, -⟩ := hall Printf.basic
  have hnone : Printf.basic.texts (fanSent "50%".toList).arguments = none := by decide +kernel
  exact Option.some_ne_none texts (htexts.symm.trans hnone)

end EventLog
end OpsSupportability
