import OpsSupportability.Theorems.EventDecode
import OpsSupportability.Theorems.EventSearch

/-! Two calls of `log_event` that differ in what was logged before. The static buffer carries an earlier
    text into a later event when the key of the first pair does not occur in the template. The later call then
    differs unless what follows refuses it, whatever text it finds. -/

namespace OpsSupportability
namespace EventLog

open Fuel Rewriting

/-- What the static buffer may hold after the calls of a history, with any arguments and any answers of
    the journal. -/
inductive Buffered (evTable : Option Table) : Text → Prop where
  | start : Buffered evTable []
  | call {b : Text} {o : Outcome} (journal : Sent → Int) (fuel : Nat) (evName : Text) (args : List (Option Text)) :
      Buffered evTable b → logEvent journal fuel evTable evName args b = .ok o → Buffered evTable o.buffer

/-- A call that finds this buffer returns the value, and sends what is said. -/
def Answers (journal : Sent → Int) (evTable : Option Table) (evName : Text) (args : List (Option Text)) (buffer : Text)
    (ret : Int) (sent : Option Sent) : Prop :=
  ∃ fuel o, logEvent journal fuel evTable evName args buffer = .ok o ∧ o.ret = ret ∧ o.sent = sent

/-- After any two histories a call returns the same value and sends the same, or returns after neither. -/
def NoLeak (evTable : Option Table) (evName : Text) (args : List (Option Text)) : Prop :=
  ∀ b₁ b₂, Buffered evTable b₁ → Buffered evTable b₂ → ∀ journal ret sent,
    Answers journal evTable evName args b₁ ret sent → Answers journal evTable evName args b₂ ret sent

/-- `populate_str` refuses the pair in every text: it has no size that fits, or only one token. -/
def RefusedPair (pair : Text) : Prop :=
  pair.length = 0 ∨ keyValueSize ≤ pair.length ∨ (Text.tokens '=' pair).length = 1

/-- The pair and its comma fit, and its value neither lengthens a text nor is the placeholder. -/
def HarmlessPair (pair : Text) : Prop :=
  pair.length + 1 < keyValueSize ∧ ∃ key token tokens, Text.tokens '=' pair = key :: token :: tokens ∧
    token.length ≤ (Template.braced key).length ∧ token ≠ Template.braced key

/-- The remaining pairs come to an end in every text, and the call is refused. `previous` is what an argument too long to
    be copied leaves in its place. -/
def Quiet (refused : Prop) : Nat → Text → List (Option Text) → Prop
  | 0, _, _ => refused
  | _ + 1, _, [] => False
  | _ + 1, _, none :: _ => refused
  | n + 1, previous, some tmp :: args =>
    RefusedPair (storedPair tmp previous) ∨
      HarmlessPair (storedPair tmp previous) ∧ Quiet refused n (storedPair tmp previous ++ [',']) args

/-- The placeholders of the pairs that are accepted. -/
def placeholders : Nat → Text → List (Option Text) → List Text
  | n + 1, previous, some tmp :: args =>
    (acceptedKey (storedPair tmp previous)).toList ++ placeholders n (storedPair tmp previous ++ [',']) args
  | _, _, _ => []

/-- Behind the first pair no placeholder contains that of an earlier pair. -/
def Separate (n : Nat) : List (Option Text) → Prop
  | some tmp :: rest => (placeholders (n - 1) (tmp ++ [',']) rest).Pairwise fun keyName later => ¬ keyName <:+: later
  | _ => True

instance (n : Nat) : ∀ args, Decidable (Separate n args)
  | some _ :: _ => inferInstanceAs (Decidable (List.Pairwise _ _))
  | none :: _ => isTrue trivial
  | [] => isTrue trivial

/-- The key of the first pair does not occur in the template, and the call is not refused for what follows. -/
inductive Leaks (e : Event) : List (Option Text) → Prop where
  | first {tmp keyName : Text} {rest : List (Option Text)} : 0 < e.numOfKeys → acceptedKey tmp = some keyName →
      ¬ keyName <:+: evtMsgOf e →
      ¬ (tmp.length + 1 < keyValueSize ∧
        Quiet (severityLevel e.severity = none) (e.numOfKeys.toNat - 1) (tmp ++ [',']) rest) →
      Leaks e (some tmp :: rest)

section
variable {journal : Sent → Int} {fuel fuel₁ fuel₂ n : Nat} {e : Event} {args rest : List (Option Text)}
  {b b₁ b₂ tmp keyName pair s : Text} {o o₁ o₂ : Outcome} {a a' : Arrays} {evTable : Option Table} {table : Table}
  {evName : Text} {refused : Prop}

/-! ### Pairs -/

theorem acceptedKey_braced (h : acceptedKey pair = some keyName) :
    0 < pair.length ∧ pair.length < keyValueSize ∧ ∃ key token tokens, Text.tokens '=' pair = key :: token :: tokens ∧
      key ≠ [] ∧ '=' ∉ key ∧ makeKeyFormat key = some keyName ∧ keyName = Template.braced key := by
  obtain ⟨hpos, hlt, key, token, tokens, htokens, hformat⟩ := acceptedKey_some h
  have hmem : key ∈ Text.tokens '=' pair := htokens ▸ List.mem_cons_self
  have hne : key ≠ [] := by simpa using (List.mem_filter.mp hmem).2
  have htwo := Text.length_two_tokens htokens
  have hlen : key.length ≤ 126 := by
    unfold keyValueSize at hlt
    omega
  refine ⟨hpos, hlt, key, token, tokens, htokens, hne, (Text.mem_tokens hmem).1, hformat, ?_⟩
  exact Option.some.inj (hformat.symm.trans (makeKeyFormat_braced hne hlen))

/-- A pair is refused, has nothing but delimiters, or is accepted. -/
theorem pair_cases (pair : Text) :
    RefusedPair pair ∨ (0 < pair.length ∧ pair.length < keyValueSize ∧ Text.tokens '=' pair = []) ∨
      ∃ keyName, acceptedKey pair = some keyName := by
  by_cases hpos : 0 < pair.length
  · by_cases hlt : pair.length < keyValueSize
    · match htokens : Text.tokens '=' pair with
      | [] => exact .inr (.inl ⟨hpos, hlt, rfl⟩)
      | [key] => exact .inl (.inr (.inr (by rw [htokens]; rfl)))
      | key :: token :: tokens =>
        have hmem : key ∈ Text.tokens '=' pair := htokens ▸ List.mem_cons_self
        have hne : key ≠ [] := by simpa using (List.mem_filter.mp hmem).2
        have htwo := Text.length_two_tokens htokens
        have hlen : key.length ≤ 126 := by
          unfold keyValueSize at hlt
          omega
        have hsize : 0 < pair.length ∧ pair.length < keyValueSize := ⟨hpos, hlt⟩
        refine .inr (.inr ⟨Template.braced key, ?_⟩)
        simp only [acceptedKey, hsize, and_self, if_true, htokens]
        exact makeKeyFormat_braced hne hlen
    · exact .inl (.inr (.inl (Nat.le_of_not_lt hlt)))
  · exact .inl (.inl (Nat.eq_zero_of_not_pos hpos))

theorem populateStr_refused (h : RefusedPair pair) : populateStr fuel s pair b = .ok (-1, s, b) := by
  unfold populateStr
  split
  · next hsize =>
    rcases h with h | h | h
    · exact absurd hsize.1 (by omega)
    · exact absurd hsize.2 (by omega)
    · split
      · next htokens => simp [htokens] at h
      · rfl
      · next key tokens hne htokens =>
        rw [htokens, List.length_cons] at h
        exact absurd (List.length_eq_zero_iff.mp (Nat.succ.inj h)) hne
  · rfl

theorem populateStr_null (hpos : 0 < pair.length) (hlt : pair.length < keyValueSize) (h : Text.tokens '=' pair = []) :
    populateStr fuel s pair b = .error .nullString := by
  unfold populateStr
  rw [if_pos ⟨hpos, hlt⟩, h]

/-- A harmless pair returns from every text that fits, and leaves one that fits. -/
theorem populateStr_harmless (h : HarmlessPair pair) (hs : Short s) (b : Text) :
    ∃ fuel r, populateStr fuel s pair b = .ok r ∧ (¬ r.1 < 0 → Short r.2.1) := by
  obtain ⟨hlt, key, token, tokens, htokens, hlen, hne⟩ := h
  have htwo := Text.length_two_tokens htokens
  have hmem : key ∈ Text.tokens '=' pair := htokens ▸ List.mem_cons_self
  have hkey : key ≠ [] := by simpa using (List.mem_filter.mp hmem).2
  have hformat : makeKeyFormat key = some (Template.braced key) := by
    unfold keyValueSize at hlt
    exact makeKeyFormat_braced hkey (by omega)
  obtain ⟨fuel, r, hloop⟩ := replaceLoop_shorter hlen hne hs b
  refine ⟨fuel, _, populateStr_first (by omega) (by omega) hformat htokens hloop, fun hret => ?_⟩
  split at hret
  · next hresult =>
    rw [if_pos hresult]
    exact hresult.2
  · exact absurd (show (-1 : Int) < 0 by decide) hret

/-! ### What a call answers -/

/-- What the loop leaves, but for the buffer; `none` if a pair is refused. -/
def Filled.answer : Filled → Option (Bool × Text × Text)
  | .refused _ => none
  | .done keyValueNone a => some (keyValueNone, a.evtMsg, a.allKeyValuePairs)

def Filled.buffer : Filled → Text
  | .refused buffer => buffer
  | .done _ a => a.buffer

/-- The call is refused: by a pair, or by what refuses it at the end. -/
def Filled.Refused (refused : Prop) : Filled → Prop
  | .refused _ => True
  | .done _ _ => refused

/-- The value returned and what is sent, from what the loop leaves. -/
def reply (journal : Sent → Int) (e : Event) : Option (Bool × Text × Text) → Int × Option Sent
  | none => (-1, none)
  | some (keyValueNone, evtMsg, all) =>
    match severityLevel e.severity with
    | none => (-1, none)
    | some level =>
      let sent := .event (messageOf e evtMsg) level e.eventId e.category (if keyValueNone then none else some all)
      (journal sent, some sent)

theorem logSlot_eq : logSlot journal fuel e args b =
    (fillKeys fuel e.numOfKeys.toNat args ⟨evtMsgOf e, [], [], b⟩).map fun filled =>
      ⟨(reply journal e filled.answer).1, (reply journal e filled.answer).2, filled.buffer⟩ := by
  unfold logSlot
  cases fillKeys fuel e.numOfKeys.toNat args ⟨evtMsgOf e, [], [], b⟩ with
  | error fault => rfl
  | ok filled =>
    cases filled with
    | refused buffer => rfl
    | done keyValueNone a =>
      simp only [bind, Except.bind, Except.map, Filled.answer, reply]
      cases severityLevel e.severity <;> rfl

theorem answers_iff {i : Nat} {ret : Int} {sent : Option Sent} (hl : lookup evName (some table) = some i) :
    Answers journal (some table) evName args b ret sent ↔
      ∃ fuel filled, fillKeys fuel (table i).numOfKeys.toNat args ⟨evtMsgOf (table i), [], [], b⟩ = .ok filled ∧
        reply journal (table i) filled.answer = (ret, sent) := by
  simp only [Answers, logEvent, hl, logSlot_eq]
  constructor
  · rintro ⟨fuel, o, h, rfl, rfl⟩
    cases hf : fillKeys fuel (table i).numOfKeys.toNat args ⟨evtMsgOf (table i), [], [], b⟩ with
    | error fault =>
      rw [hf] at h
      cases h
    | ok filled =>
      rw [hf] at h
      exact ⟨fuel, filled, hf, by rw [← Except.ok.inj h]⟩
  · rintro ⟨fuel, filled, hf, hreply⟩
    refine ⟨fuel, _, by rw [hf]; rfl, ?_, ?_⟩
    · exact congrArg Prod.fst hreply
    · exact congrArg Prod.snd hreply

theorem Filled.Refused.reply_eq {filled : Filled} (h : filled.Refused (severityLevel e.severity = none)) :
    reply journal e filled.answer = (-1, none) := by
  cases filled with
  | refused buffer => rfl
  | done keyValueNone a =>
    have hsev : severityLevel e.severity = none := h
    simp only [Filled.answer, reply, hsev]

/-- A call that is not refused sends something. -/
theorem reply_of_not_refused {filled : Filled} (h : ¬ filled.Refused (severityLevel e.severity = none)) :
    reply journal e filled.answer ≠ (-1, none) := by
  cases filled with
  | refused buffer => exact absurd trivial h
  | done keyValueNone a =>
    obtain ⟨level, hsev⟩ := Option.ne_none_iff_exists'.mp (show severityLevel e.severity ≠ none from h)
    simp only [Filled.answer, reply, hsev]
    exact fun heq => nomatch congrArg Prod.snd heq

/-! ### The loop over the keys -/

/-- The next pair, accepted and not occurring in the text. -/
theorem fillKeys_absent (hk : acceptedKey (storedPair tmp a.keyValuePair) = some keyName) (h : ¬ keyName <:+: a.evtMsg) :
    fillKeys (fuel + 1) (n + 1) (some tmp :: args) a =
      if 0 < a.buffer.length ∧ a.buffer.length < maxLogStr then
        if (storedPair tmp a.keyValuePair).length + 1 < keyValueSize then
          fillKeys (fuel + 1) n args ⟨a.buffer, storedPair tmp a.keyValuePair ++ [','],
            (a.allKeyValuePairs ++ (storedPair tmp a.keyValuePair ++ [','])).take (2 * keyValueSize - 1), a.buffer⟩
        else .error .overflow
      else .ok (.refused a.buffer) := by
  rw [fillKeys, populateStr_absent hk h]
  split
  · simp [bind, Except.bind, throw, throwThe, MonadExceptOf.throw]
  · simp [bind, Except.bind, pure, Except.pure]

/-- By induction on the keys, with enough fuel for each of the pairs. -/
theorem fillKeys_quiet (h : Quiet refused n a.keyValuePair args) (hs : Short a.evtMsg) :
    ∃ fuel filled, fillKeys fuel n args a = .ok filled ∧ filled.Refused refused := by
  induction n generalizing args a with
  | zero => exact ⟨0, .done false a, rfl, h⟩
  | succ n ih =>
    match args with
    | [] => exact h.elim
    | none :: args => exact ⟨0, .done true a, rfl, h⟩
    | some tmp :: args =>
      rcases h with hrefused | ⟨harmless, hrest⟩
      · exact ⟨0, .refused a.buffer, by rw [fillKeys, populateStr_refused hrefused]; rfl, trivial⟩
      · obtain ⟨fuel₁, r, hr, hshort⟩ := populateStr_harmless harmless hs a.buffer
        by_cases hret : r.1 < 0
        · exact ⟨fuel₁, .refused r.2.2, by rw [fillKeys, hr]; simp [bind, Except.bind, hret, pure, Except.pure], trivial⟩
        · let all := (a.allKeyValuePairs ++ (storedPair tmp a.keyValuePair ++ [','])).take (2 * keyValueSize - 1)
          obtain ⟨fuel₂, filled, hf, href⟩ := ih (a := ⟨r.2.1, storedPair tmp a.keyValuePair ++ [','], all, r.2.2⟩) hrest
            (hshort hret)
          have hr' := (populateStr_below (Nat.le_max_left fuel₁ fuel₂)).ok hr
          have hf' := (fillKeys_below (Nat.le_max_right fuel₁ fuel₂)).ok hf
          refine ⟨max fuel₁ fuel₂, filled, ?_, href⟩
          rw [fillKeys, hr']
          simp only [bind, Except.bind, hret, if_false, if_pos harmless.1]
          exact hf'

/-! ### A call that does not leak -/

/-- An accepted pair is short enough to be copied. -/
theorem storedPair_first (hk : acceptedKey tmp = some keyName) (previous : Text) : storedPair tmp previous = tmp :=
  if_pos (acceptedKey_some hk).2.1

/-- The first pair: an argument that is too long leaves nothing there. -/
theorem acceptedKey_first (hk : acceptedKey (storedPair tmp []) = some keyName) : acceptedKey tmp = some keyName := by
  unfold storedPair at hk
  split at hk
  · exact hk
  · cases hk

/-- The loop does the same with both buffers, or is refused in the end with any. -/
theorem fillKeys_of_not_leaks (b₁ b₂ : Text) (hno : ¬ Leaks e args) :
    (∀ fuel, (fillKeys fuel e.numOfKeys.toNat args ⟨evtMsgOf e, [], [], b₁⟩).map Filled.answer =
      (fillKeys fuel e.numOfKeys.toNat args ⟨evtMsgOf e, [], [], b₂⟩).map Filled.answer) ∨
    ∀ b, ∃ fuel filled, fillKeys fuel e.numOfKeys.toNat args ⟨evtMsgOf e, [], [], b⟩ = .ok filled ∧
      filled.Refused (severityLevel e.severity = none) := by
  cases hn : e.numOfKeys.toNat with
  | zero => exact .inl fun _ => rfl
  | succ n =>
    match args with
    | [] => exact .inl fun _ => rfl
    | none :: args => exact .inl fun _ => rfl
    | some tmp :: args =>
      rcases pair_cases (storedPair tmp []) with hrefused | ⟨hpos, hlt, hnull⟩ | ⟨keyName, hk⟩
      · refine .inl fun fuel => ?_
        rw [fillKeys, fillKeys, populateStr_refused hrefused, populateStr_refused hrefused]
        rfl
      · refine .inl fun fuel => ?_
        rw [fillKeys, fillKeys, populateStr_null hpos hlt hnull, populateStr_null hpos hlt hnull]
      · by_cases hocc : keyName <:+: evtMsgOf e
        · refine .inl fun fuel => ?_
          rw [fillKeys, fillKeys, populateStr_fresh hk hocc]
        · right
          have hkey := acceptedKey_first hk
          have hstored := storedPair_first hkey []
          have hquiet : tmp.length + 1 < keyValueSize ∧
              Quiet (severityLevel e.severity = none) n (tmp ++ [',']) args := by
            by_contra hloud
            refine hno (.first (by omega) hkey hocc ?_)
            rwa [hn, Nat.add_sub_cancel]
          intro b
          by_cases hb : 0 < b.length ∧ b.length < maxLogStr
          · obtain ⟨fuel, filled, hf, href⟩ := fillKeys_quiet
              (a := ⟨b, tmp ++ [','], ([] ++ (tmp ++ [','])).take (2 * keyValueSize - 1), b⟩) hquiet.2 hb.2
            refine ⟨fuel + 1, filled, ?_, href⟩
            rw [fillKeys_absent (a := ⟨evtMsgOf e, [], [], b⟩) hk hocc, if_pos hb, hstored, if_pos hquiet.1]
            exact (fillKeys_below (Nat.le_succ fuel)).ok hf
          · refine ⟨1, .refused b, ?_, trivial⟩
            rw [fillKeys_absent (a := ⟨evtMsgOf e, [], [], b⟩) hk hocc, if_neg hb]

/-- Whatever the table holds: where the event that is looked up does not leak, no history is seen. -/
theorem noLeak_of_not_leaks
    (h : ∀ table i, evTable = some table → lookup evName evTable = some i → ¬ Leaks (table i) args) :
    NoLeak evTable evName args := by
  intro b₁ b₂ _ _ journal ret sent hans
  cases evTable with
  | none =>
    obtain ⟨fuel, o, ho, rfl, rfl⟩ := hans
    rw [← Except.ok.inj ho]
    exact ⟨0, ⟨-1, some (.unknown evName), b₂⟩, rfl, rfl, rfl⟩
  | some table =>
    cases hl : lookup evName (some table) with
    | none =>
      obtain ⟨fuel, o, ho, rfl, rfl⟩ := hans
      simp only [logEvent, hl] at ho
      rw [← Except.ok.inj ho]
      exact ⟨0, ⟨-1, some (.unknown evName), b₂⟩, by simp only [logEvent, hl], rfl, rfl⟩
    | some i =>
      rw [answers_iff hl] at hans ⊢
      obtain ⟨fuel, filled, hf, hreply⟩ := hans
      rcases fillKeys_of_not_leaks b₁ b₂ (h table i rfl hl) with hsame | hquiet
      · have hmap := hsame fuel
        rw [hf] at hmap
        cases hf₂ : fillKeys fuel (table i).numOfKeys.toNat args ⟨evtMsgOf (table i), [], [], b₂⟩ with
        | error fault =>
          rw [hf₂] at hmap
          cases hmap
        | ok filled₂ =>
          rw [hf₂] at hmap
          exact ⟨fuel, filled₂, hf₂, Except.ok.inj hmap ▸ hreply⟩
      · obtain ⟨fuel₁, filled₁, hf₁, href₁⟩ := hquiet b₁
        obtain ⟨fuel₂, filled₂, hf₂, href₂⟩ := hquiet b₂
        obtain rfl := ok_unique (fun hle => fillKeys_below hle) hf hf₁
        exact ⟨fuel₂, filled₂, hf₂, href₂.reply_eq.trans (href₁.reply_eq.symm.trans hreply)⟩

/-! ### A text that is not quiet -/

/-- Texts that show a call that is not quiet: one without braces, and for a pair the longest one that begins with its
    placeholder. -/
inductive Probe : Text → Prop where
  | plain : Probe (List.replicate 3 'x')
  | placeholder {key : Text} : key ≠ [] → 2 * key.length + 4 < keyValueSize →
      Probe (Template.braced key ++ List.replicate (maxLogStr - 1 - (Template.braced key).length) 'x')

theorem Probe.length (h : Probe s) : 0 < s.length ∧ s.length < maxLogStr := by
  cases h with
  | plain => decide
  | placeholder hkey hlen =>
    simp only [Template.length_braced, keyValueSize, maxLogStr, List.length_append, List.length_replicate] at *
    omega

/-- A placeholder does not reach into what follows. -/
theorem absent_padded {key : Text} (h : ¬ Template.braced key <:+: s) (m : Nat) :
    ¬ Template.braced key <:+: s ++ List.replicate m 'x' := by
  have hbrace : '\x7d' ∉ List.replicate m 'x' := fun hmem => by
    have := List.eq_of_mem_replicate hmem
    cases this
  exact fun hpart => h (Text.infix_of_append hbrace (show '\x7b' :: key ++ ['\x7d'] <:+: _ from hpart))

theorem absent_plain (key : Text) (m : Nat) : ¬ Template.braced key <:+: List.replicate m 'x' :=
  absent_padded (s := []) (by simp [Template.braced]) m

/-- A value that is longer than the placeholder, or the placeholder, does not return from the longest text. -/
theorem replaceLoop_padded {key token : Text} (hlt : (Template.braced key).length < maxLogStr)
    (h : ¬ (token.length ≤ (Template.braced key).length ∧ token ≠ Template.braced key)) (r : Text × Text) :
    replaceLoop (Template.braced key) token fuel
      (Template.braced key ++ List.replicate (maxLogStr - 1 - (Template.braced key).length) 'x') b ≠ .ok r := by
  have hocc : Template.braced key <:+:
      Template.braced key ++ List.replicate (maxLogStr - 1 - (Template.braced key).length) 'x' :=
    (List.prefix_append _ _).isInfix
  have hlen : (Template.braced key ++ List.replicate (maxLogStr - 1 - (Template.braced key).length) 'x').length =
      maxLogStr - 1 := by
    rw [List.length_append, List.length_replicate]
    omega
  intro hloop
  by_cases hsame : token = Template.braced key
  · subst hsame
    rw [replaceLoop_identity hocc (by rw [Short, hlen]; decide)] at hloop
    cases hloop
  · have hlong : (Template.braced key).length < token.length := by
      by_contra hle
      exact h ⟨Nat.le_of_not_lt hle, hsame⟩
    obtain ⟨t, hstep⟩ := step_iff.mpr hocc
    have hshort := short_of_ok hloop hstep
    have hlength := hstep.length
    rw [hlen] at hlength
    unfold Short at hshort
    omega

/-- A call that is not quiet is not refused in one of the texts, in which the placeholders of earlier pairs do not
    occur. By induction on the keys. -/
theorem probe_of_not_quiet (h : ¬ Quiet refused n s args)
    (sep : (placeholders n s args).Pairwise fun keyName later => ¬ keyName <:+: later) :
    ∃ text, Probe text ∧
      (∀ key, (∀ later ∈ placeholders n s args, ¬ Template.braced key <:+: later) → ¬ Template.braced key <:+: text) ∧
      ∀ a fuel filled, a.keyValuePair = s → a.evtMsg = text → a.buffer = text →
        fillKeys fuel n args a = .ok filled → ¬ filled.Refused refused := by
  have hplain : ∀ key, ¬ Template.braced key <:+: List.replicate 3 'x' := fun key => absent_plain key 3
  induction n generalizing args s with
  | zero =>
    refine ⟨_, .plain, fun key _ => hplain key, fun a fuel filled _ _ _ hf => ?_⟩
    rw [← Except.ok.inj hf]
    exact h
  | succ n ih =>
    match args with
    | [] => exact ⟨_, .plain, fun key _ => hplain key, fun a fuel filled _ _ _ hf => nomatch hf⟩
    | none :: args =>
      refine ⟨_, .plain, fun key _ => hplain key, fun a fuel filled _ _ _ hf => ?_⟩
      rw [← Except.ok.inj hf]
      exact h
    | some tmp :: args =>
      rcases pair_cases (storedPair tmp s) with hrefused | ⟨hpos, hlt, hnull⟩ | ⟨keyName, hk⟩
      · exact absurd (.inl hrefused) h
      · refine ⟨_, .plain, fun key _ => hplain key, fun a fuel filled hs _ _ hf => ?_⟩
        rw [fillKeys, hs, populateStr_null hpos hlt hnull] at hf
        cases hf
      · obtain ⟨hpos, hlt, key, token, tokens, htokens, hkey, heq, hformat, rfl⟩ := acceptedKey_braced hk
        by_cases hfits : (storedPair tmp s).length + 1 < keyValueSize
        · by_cases hharmless : token.length ≤ (Template.braced key).length ∧ token ≠ Template.braced key
          · -- the text of what follows, in which this placeholder does not occur
            have hrest : ¬ Quiet refused n (storedPair tmp s ++ [',']) args := fun hrest =>
              h (.inr ⟨⟨hfits, key, token, tokens, htokens, hharmless⟩, hrest⟩)
            rw [placeholders, hk, Option.toList_some, List.singleton_append, List.pairwise_cons] at sep
            obtain ⟨text, hprobe, habsent, hloud⟩ := ih hrest sep.2
            refine ⟨text, hprobe, fun key' hkey' => habsent key' fun later hlater => hkey' later ?_, ?_⟩
            · exact List.mem_append_right _ hlater
            · intro a fuel filled hs hmsg hbuffer hf
              have hmore := (fillKeys_below (Nat.le_succ fuel)).ok hf
              subst hs
              rw [fillKeys_absent hk (hmsg ▸ habsent key sep.1), hbuffer, if_pos hprobe.length, if_pos hfits] at hmore
              exact hloud _ _ _ rfl rfl rfl hmore
          · -- the text that begins with this placeholder
            have htwo := Text.length_two_tokens htokens
            have hlong : (Template.braced key).length ≤ token.length := by
              by_contra hle
              exact hharmless ⟨by omega, fun heq => hle (heq ▸ Nat.le_refl _)⟩
            have hbraced := Template.length_braced key
            have hroom : 2 * key.length + 4 < keyValueSize := by omega
            refine ⟨_, .placeholder hkey hroom, fun key' hkey' => absent_padded (hkey' _ ?_) _, ?_⟩
            · rw [placeholders, hk]
              exact List.mem_append_left _ (List.mem_singleton_self _)
            · intro a fuel filled hs hmsg hbuffer hf
              have hbound : (Template.braced key).length < maxLogStr := by
                unfold keyValueSize maxLogStr at *
                omega
              have hsize : 0 < (storedPair tmp s).length ∧ (storedPair tmp s).length < keyValueSize := ⟨hpos, hlt⟩
              rw [fillKeys, hs, hmsg, populateStr, if_pos hsize, htokens] at hf
              simp only [replaceTokens, replaceStr, hformat] at hf
              cases hr : replaceLoop (Template.braced key) token fuel
                (Template.braced key ++ List.replicate (maxLogStr - 1 - (Template.braced key).length) 'x') a.buffer with
              | error fault =>
                rw [hr] at hf
                cases hf
              | ok r => exact absurd hr (replaceLoop_padded hbound hharmless r)
        · refine ⟨_, .plain, fun key _ => hplain key, fun a fuel filled hs hmsg hbuffer hf => ?_⟩
          have hmore := (fillKeys_below (Nat.le_succ fuel)).ok hf
          subst hs
          rw [fillKeys_absent hk (hmsg ▸ hplain key), hbuffer, if_pos (by decide), if_neg hfits] at hmore
          cases hmore

/-- With an empty buffer a call that leaks is refused; with one of the texts it is not. -/
theorem Leaks.probe (h : Leaks e args) (sep : Separate e.numOfKeys.toNat args) :
    (∃ filled, fillKeys 1 e.numOfKeys.toNat args ⟨evtMsgOf e, [], [], []⟩ = .ok filled ∧
        filled.Refused (severityLevel e.severity = none)) ∧
      ∃ text, Probe text ∧ ∀ fuel filled, fillKeys fuel e.numOfKeys.toNat args ⟨evtMsgOf e, [], [], text⟩ = .ok filled →
        ¬ filled.Refused (severityLevel e.severity = none) := by
  obtain ⟨hkeys, hk, habsent, hloud⟩ := h
  rename_i tmp keyName rest
  obtain ⟨n, hn⟩ : ∃ n, e.numOfKeys.toNat = n + 1 := ⟨e.numOfKeys.toNat - 1, by omega⟩
  have hstored := storedPair_first hk []
  have hk' : acceptedKey (storedPair tmp []) = some keyName := hstored.symm ▸ hk
  have hstep : ∀ fuel b, fillKeys (fuel + 1) (n + 1) (some tmp :: rest) ⟨evtMsgOf e, [], [], b⟩ = _ := fun fuel b =>
    fillKeys_absent hk' habsent
  rw [hn] at hloud sep ⊢
  refine ⟨⟨_, hstep 0 [], trivial⟩, ?_⟩
  by_cases hfits : tmp.length + 1 < keyValueSize
  · obtain ⟨text, hprobe, -, hrest⟩ := probe_of_not_quiet (fun hquiet => hloud ⟨hfits, hquiet⟩) sep
    refine ⟨text, hprobe, fun fuel filled hf => ?_⟩
    have hmore := (fillKeys_below (Nat.le_succ fuel)).ok hf
    rw [hstep, if_pos hprobe.length, hstored, if_pos hfits] at hmore
    exact hrest _ _ _ rfl rfl rfl hmore
  · refine ⟨_, .plain, fun fuel filled hf => ?_⟩
    have hmore := (fillKeys_below (Nat.le_succ fuel)).ok hf
    rw [hstep, if_pos Probe.plain.length, hstored, if_neg hfits] at hmore
    cases hmore

/-! ### A history that fills the buffer -/

def letters : List Char := ['a', 'b', 'c', 'd', 'e']

/-- A letter of which no text is a given one. -/
theorem exists_letter (avoided : List ((Char → Text) × Text)) (hinj : ∀ ft ∈ avoided, Function.Injective ft.1)
    {from_ : List Char} (hnodup : from_.Nodup) (hlen : avoided.length < from_.length) :
    ∃ c ∈ from_, ∀ ft ∈ avoided, ft.1 c ≠ ft.2 := by
  induction avoided generalizing from_ with
  | nil =>
    obtain ⟨c, hc⟩ := List.exists_mem_of_length_pos hlen
    exact ⟨c, hc, nofun⟩
  | cons ft avoided ih =>
    obtain ⟨hft, hrest⟩ := List.forall_mem_cons.mp hinj
    rw [List.length_cons] at hlen
    by_cases hex : ∃ c ∈ from_, ft.1 c = ft.2
    · obtain ⟨c, hc, heq⟩ := hex
      obtain ⟨c', hc', havoids⟩ := ih hrest (hnodup.erase c) (by rw [List.length_erase_of_mem hc]; omega)
      obtain ⟨hne, hmem⟩ := hnodup.mem_erase_iff.mp hc'
      exact ⟨c', hmem, List.forall_mem_cons.mpr ⟨fun heq' => hne (hft (heq'.trans heq.symm)), havoids⟩⟩
    · obtain ⟨c, hc, havoids⟩ := ih hrest hnodup (by omega)
      exact ⟨c, hc, List.forall_mem_cons.mpr ⟨fun heq => hex ⟨c, hc, heq⟩, havoids⟩⟩

/-- A definition beside `d`. -/
def filler (d : Definition) (name template : Text) : Definition := { d with name, description := none, template }

/-- The template in which a pair fills in the texts. -/
def fillerTemplate (pre : Text) (length m : Nat) (c : Char) : Text :=
  pre ++ Template.braced (List.replicate length c) ++ List.replicate m 'x'

/-- The pair whose value is as long as its placeholder. -/
def fillerPair (length : Nat) (c : Char) : Text := List.replicate length c ++ '=' :: List.replicate (length + 2) 'x'

variable {d f : Definition} {c : Char} {slot : Event} {pre name template text : Text} {length m : Nat}

theorem braced_injective : Function.Injective Template.braced := fun _ _ h =>
  List.append_cancel_right (List.cons.inj h).2

theorem replicate_injective (h : 0 < length) : Function.Injective (List.replicate length : Char → Text) := fun _ _ heq =>
  (List.replicate_inj.mp heq).2.resolve_left (Nat.ne_of_gt h)

/-- Each of the texts is one that a pair fills in. -/
theorem Probe.shape (h : Probe text) : ∃ pre length m, 0 < length ∧ 2 * length + 4 < keyValueSize ∧
    text = pre ++ List.replicate (length + 2) 'x' ++ List.replicate m 'x' ∧
    (pre = [] ∨ ∃ key, pre = Template.braced key ∧ key.length = length) := by
  cases h with
  | plain => exact ⟨[], 1, 0, by decide, by decide, rfl, .inl rfl⟩
  | placeholder hkey hlen =>
    rename_i key
    refine ⟨Template.braced key, key.length, maxLogStr - 1 - 2 * (key.length + 2), List.length_pos_iff.mpr hkey, hlen, ?_,
      .inr ⟨key, rfl, rfl⟩⟩
    rw [List.append_assoc, List.replicate_append_replicate, Template.length_braced]
    unfold keyValueSize at hlen
    unfold maxLogStr
    congr 2
    omega

/-- The pair fills the template. -/
theorem populateStr_filler (hc : c ≠ '=' ∧ c ≠ '\x7d') (hpos : 0 < length) (hlen : 2 * length + 4 < keyValueSize)
    (hpre : pre = [] ∨ ∃ key, pre = Template.braced key ∧ key.length = length)
    (hne : Template.braced (List.replicate length c) ≠ pre)
    (hshort : Short (pre ++ List.replicate (length + 2) 'x' ++ List.replicate m 'x')) :
    populateStr 2 (fillerTemplate pre length m c) (fillerPair length c) [] =
      .ok (0, pre ++ List.replicate (length + 2) 'x' ++ List.replicate m 'x',
        pre ++ List.replicate (length + 2) 'x' ++ List.replicate m 'x') := by
  have hkey : List.replicate length c ≠ [] := by simpa using Nat.ne_of_gt hpos
  have heq : '=' ∉ List.replicate length c := fun hmem => hc.1 (List.eq_of_mem_replicate hmem).symm
  have habsent : ¬ Template.braced (List.replicate length c) <:+: pre := by
    rcases hpre with rfl | ⟨key, rfl, hkeyLen⟩
    · simp [Template.braced]
    · intro hpart
      refine hne (hpart.eq_of_length ?_)
      rw [Template.length_braced, Template.length_braced, List.length_replicate, hkeyLen]
  have hleft : ¬ Template.braced (List.replicate length c) <:+:
      pre ++ (Template.braced (List.replicate length c)).dropLast := by
    have hdrop : (Template.braced (List.replicate length c)).dropLast = '\x7b' :: List.replicate length c :=
      List.dropLast_concat
    have hclose : '\x7d' ∉ '\x7b' :: List.replicate length c := by
      rintro (_ | ⟨_, hmem⟩)
      exact hc.2 (List.eq_of_mem_replicate hmem).symm
    rw [hdrop]
    exact fun hpart => habsent (Text.infix_of_append hclose
      (show '\x7b' :: List.replicate length c ++ ['\x7d'] <:+: _ from hpart))
  have hstep : Step (Template.braced (List.replicate length c)) (List.replicate (length + 2) 'x')
      (fillerTemplate pre length m c) (pre ++ List.replicate (length + 2) 'x' ++ List.replicate m 'x') :=
    .at (Text.cutFirst_append (Template.braced_ne_nil _) hleft _)
  have hdone : ¬ Template.braced (List.replicate length c) <:+:
      pre ++ List.replicate (length + 2) 'x' ++ List.replicate m 'x' := by
    rw [List.append_assoc, List.replicate_append_replicate]
    exact absent_padded habsent _
  have hloop : replaceLoop (Template.braced (List.replicate length c)) (List.replicate (length + 2) 'x') 2
      (fillerTemplate pre length m c) [] = .ok (pre ++ List.replicate (length + 2) 'x' ++ List.replicate m 'x',
        pre ++ List.replicate (length + 2) 'x' ++ List.replicate m 'x') := by
    rw [replaceLoop_step hstep hshort, replaceLoop_done hdone]
  have htokens : Text.tokens '=' (fillerPair length c) =
      List.replicate length c :: List.replicate (length + 2) 'x' :: [] := by
    have hvalue : '=' ∉ List.replicate (length + 2) 'x' := fun hmem => by cases List.eq_of_mem_replicate hmem
    rw [fillerPair, tokens_encoded hkey heq, Text.tokens, List.splitOn_eq_singleton hvalue]
    rfl
  have hsize : (fillerPair length c).length = 2 * length + 3 := by
    simp only [fillerPair, List.length_append, List.length_cons, List.length_replicate]
    omega
  have hkeyLen : (List.replicate length c).length ≤ 126 := by
    rw [List.length_replicate]
    unfold keyValueSize at hlen
    omega
  have hformat := makeKeyFormat_braced hkey hkeyLen
  rw [populateStr_first (by omega) (by omega) hformat htokens hloop, if_pos]
  exact ⟨by simp, hshort⟩

/-! ### The table of two definitions -/

theorem not_keyword {v : Text} (h : '\x7b' ∈ v) : v ∉ keywords := fun hmem =>
  (show ∀ k ∈ keywords, '\x7b' ∉ k by decide) v hmem h

theorem filler_wellFormed (wf : d.WellFormed) (hname : name = Template.braced [c])
    (hopen : '\x7b' ∈ template) (hlt : template.length < maxLogStr) : (filler d name template).WellFormed := by
  have hne : name ≠ eventNameDelimiterStr := by
    rw [hname]
    exact fun heq => nomatch (List.cons.inj heq).1
  refine ⟨by simp [filler, hname, Template.braced], by simp [filler, hname, Template.braced, maxEventNameSize], hne,
    wf.severity_lt, List.length_pos_of_mem hopen, hlt, fun v hv => ?_⟩
  by_cases hv' : v = name ∨ v = template
  · refine not_keyword ?_
    rcases hv' with rfl | rfl
    · rw [hname]
      exact List.mem_cons_self
    · exact hopen
  · refine wf.values v ?_
    obtain ⟨hname', htemplate'⟩ := not_or.mp hv'
    simp only [Definition.values, filler, List.mem_append, List.mem_cons, List.not_mem_nil, or_false, hname', false_or,
      htemplate', Option.toList_none, List.append_nil] at hv ⊢
    exact Or.inl (Or.inl (Or.inr hv))

theorem filler_apart (h : d.category ∉ d.otherScalars) (hname : name ≠ d.category) (htemplate : template ≠ d.category) :
    d.category ∉ (filler d name template).otherScalars := by
  have apart := d.apart h
  simp [Definition.otherScalars, filler, Definition.descriptionScalars, hname.symm, htemplate.symm, apart.eventName.symm,
    apart.eventCategory.symm, apart.eventID.symm, apart.id.symm, apart.severityKey.symm, apart.severity.symm,
    apart.keysKey.symm, apart.keys.symm, apart.templateKey.symm]

theorem loadedTable_pair (wf : d.WellFormed) (h : d.category ∉ d.otherScalars) (wf' : f.WellFormed)
    (h' : d.category ∉ f.otherScalars) (hcategory : f.category = d.category) :
    LoadedTable (filled (fun _ => slot) [f, d]) := by
  let file := fileOf [] [f, d]
  have layout : Layout file [] [f, d] := layout_fileOf (by simp) (fun x hx => by
    rcases List.mem_pair.mp hx with rfl | rfl
    · exact wf'
    · exact wf) (by simp [maxEventTableSize])
  have hdistinct : distinctDefined [f, d] [some d.category] = [d.category] := by
    have hdef : Defines [f, d] d.category := ⟨d, by simp, rfl⟩
    exact Firsts.firsts_eq_self (List.nodup_singleton _) fun a ha => List.mem_singleton.mp ha ▸ hdef
  have hloaded : loadedBy [f, d] [some d.category] = [f, d] := by
    rw [loadedBy, hdistinct]
    simp [definitionsOf, hcategory]
  have ok : Env.Ok ⟨some file, true, some fun _ => slot⟩ file fun _ => slot := ⟨rfl, rfl, rfl⟩
  obtain ⟨s, hrun, hs⟩ := reached_init.sequence [some d.category] ok layout le_rfl
    (by rw [List.nil_append, hdistinct]; exact Nat.succ_le_succ (Nat.zero_le 98)) fun category hcat x hx => by
      obtain rfl := Option.some.inj (List.mem_singleton.mp hcat)
      rcases List.mem_pair.mp hx with rfl | rfl
      · exact h'
      · exact h
  refine ⟨_, _, _, _, s, hrun, ?_⟩
  rw [hs.evTable, List.nil_append, hloaded]
  rfl

theorem lookup_first : lookup f.name (some (filled (fun _ => slot) [f, d])) = some 0 := by
  have hstop : Stops f.name (filled (fun _ => slot) [f, d]) 0 := Or.inl rfl
  rw [(lookup_stops hstop (fun j hj => absurd hj (Nat.not_lt_zero j)) (by decide)).1, if_neg (by decide)]

variable (slot) in
theorem lookup_second (hname : f.name ≠ d.name) (htemplate : f.template ≠ eventNameDelimiterStr) :
    lookup d.name (some (filled (fun _ => slot) [f, d])) = some 1 := by
  have hstop : Stops d.name (filled (fun _ => slot) [f, d]) 1 := Or.inl rfl
  have hlt : ∀ j < 1, ¬ Stops d.name (filled (fun _ => slot) [f, d]) j := fun j hj hs => by
    obtain rfl := Nat.lt_one_iff.mp hj
    rcases hs with hs | hs
    · exact hname hs.symm
    · exact htemplate hs.symm
  rw [(lookup_stops hstop hlt (by decide)).1, if_neg (by decide)]

/-- Logging the filler event with its pair leaves the text in the buffer. -/
theorem buffered_of_populate (hkeys : 0 < (Text.tokens ',' d.keys).length) (hcopied : pair.length + 1 < keyValueSize)
    (hlt : template.length < maxLogStr) (hpopulate : populateStr 2 template pair [] = .ok (0, text, text)) :
    Buffered (some (filled (fun _ => slot) [filler d name template, d])) text := by
  obtain ⟨n, hn⟩ := Nat.exists_eq_add_of_lt hkeys
  have hnum : ((filler d name template).entry slot).numOfKeys.toNat = n + 1 := by
    simpa [Definition.entry, filler] using hn
  have hstored : storedPair pair [] = pair := if_pos (by omega)
  have hfill : ∃ k a, fillKeys 2 (n + 1) [some pair, none] ⟨template, [], [], []⟩ = .ok (.done k a) ∧ a.buffer = text := by
    let a : Arrays := ⟨text, pair ++ [','], ([] ++ (pair ++ [','])).take (2 * keyValueSize - 1), text⟩
    cases n with
    | zero => exact ⟨false, a, by simp [fillKeys, hstored, hpopulate, hcopied, bind, Except.bind, a], rfl⟩
    | succ n => exact ⟨true, a, by simp [fillKeys, hstored, hpopulate, hcopied, bind, Except.bind, a], rfl⟩
  obtain ⟨k, a, hfill, hbuffer⟩ := hfill
  have hmsg : evtMsgOf ((filler d name template).entry slot) = template := if_pos hlt
  have hcall : ∃ o, logEvent (fun _ => 0) 2 (some (filled (fun _ => slot) [filler d name template, d]))
      (filler d name template).name [some pair, none] [] = .ok o ∧ o.buffer = text := by
    simp only [logEvent, lookup_first]
    rw [filled_lt (Nat.zero_lt_succ _), logSlot_eq]
    simp only [List.getElem_cons_zero, hnum, hmsg, hfill]
    exact ⟨_, rfl, hbuffer⟩
  obtain ⟨o, hcall, ho⟩ := hcall
  exact ho ▸ Buffered.call _ _ _ _ Buffered.start hcall

/-- Some loaded table has the definition, and an event that leaves the text in the buffer. -/
theorem exists_buffered (slot : Event) (h : Probe text) (wf : d.WellFormed) (apart : d.category ∉ d.otherScalars)
    (hkeys : 0 < (Text.tokens ',' d.keys).length) :
    ∃ table, LoadedTable table ∧ lookup d.name (some table) = some 1 ∧ table 1 = d.entry slot ∧ Buffered (some table) text := by
  have hshort := h.length.2
  obtain ⟨pre, length, m, hpos, hlen, rfl, hpre⟩ := h.shape
  have hone : Function.Injective fun c : Char => Template.braced [c] := fun c c' heq =>
    List.singleton_inj.mp (braced_injective heq)
  have hmany : Function.Injective fun c : Char => Template.braced (List.replicate length c) :=
    braced_injective.comp (replicate_injective hpos)
  have htemplate : Function.Injective (fillerTemplate pre length m) := fun c c' heq =>
    hmany (List.append_cancel_left (List.append_cancel_right heq))
  obtain ⟨c, hc, havoids⟩ := exists_letter [(fun c => Template.braced [c], d.name),
    (fun c => Template.braced [c], d.category), (fillerTemplate pre length m, d.category),
    (fun c => Template.braced (List.replicate length c), pre)] (by simp [hone, hmany, htemplate])
    (show letters.Nodup by decide) (Nat.lt_succ_self 4)
  obtain ⟨hname, hcategory, hcategory', hne⟩ := by simpa using havoids
  have hopen : '\x7b' ∈ fillerTemplate pre length m c := by simp [fillerTemplate, Template.braced]
  have hlt : (fillerTemplate pre length m c).length < maxLogStr := by
    simp only [fillerTemplate, List.length_append, Template.length_braced, List.length_replicate] at hshort ⊢
    omega
  have hletter : c ≠ '=' ∧ c ≠ '\x7d' := (show ∀ c ∈ letters, c ≠ '=' ∧ c ≠ '\x7d' by decide) c hc
  have hpair : (fillerPair length c).length + 1 < keyValueSize := by
    simp only [fillerPair, List.length_append, List.length_cons, List.length_replicate]
    omega
  have hdelimiter : fillerTemplate pre length m c ≠ eventNameDelimiterStr := fun heq =>
    (show '\x7b' ∉ eventNameDelimiterStr by decide) (heq ▸ hopen)
  exact ⟨_, loadedTable_pair wf apart (filler_wellFormed wf rfl hopen hlt) (filler_apart apart hcategory hcategory') rfl,
    lookup_second slot hname hdelimiter, rfl,
    buffered_of_populate hkeys hpair hlt (populateStr_filler hletter hpos hlen hpre hne hshort)⟩

/-- Where the event that is looked up does not leak, no history is seen; and every definition that leaks
    does so in some loaded table, as long as no placeholder of its call contains that of an earlier pair. -/
theorem noLeak_iff (evTable : Option Table) (evName : Text) (args : List (Option Text)) :
    ((∀ table i, evTable = some table → lookup evName evTable = some i → ¬ Leaks (table i) args) →
      NoLeak evTable evName args) ∧
    ∀ (d : Definition) (slot : Event), d.WellFormed → d.category ∉ d.otherScalars →
      Separate (d.entry slot).numOfKeys.toNat args →
      ((∀ table i, LoadedTable table → lookup d.name (some table) = some i → table i = d.entry slot →
        NoLeak (some table) d.name args) ↔ ¬ Leaks (d.entry slot) args) := by
  refine ⟨noLeak_of_not_leaks, fun d slot wf apart sep => ⟨fun hall hleaks => ?_, fun hno => ?_⟩⟩
  · have hkeys : 0 < (Text.tokens ',' d.keys).length := by
      obtain ⟨hkeys, -⟩ := hleaks
      simpa [Definition.entry] using hkeys
    obtain ⟨⟨filled, hempty, hrefused⟩, text, hprobe, hloud⟩ := hleaks.probe sep
    obtain ⟨table, hloaded, hl, hentry, hbuffered⟩ := exists_buffered slot hprobe wf apart hkeys
    have hanswer : Answers (fun _ => 0) (some table) d.name args [] (-1) none :=
      (answers_iff hl).mpr ⟨1, filled, hentry ▸ hempty, hentry ▸ hrefused.reply_eq⟩
    have hsame := hall table 1 hloaded hl hentry [] text .start hbuffered _ _ _ hanswer
    obtain ⟨fuel, filled', hf, hreply⟩ := (answers_iff hl).mp hsame
    rw [hentry] at hf hreply
    exact reply_of_not_refused (hloud fuel filled' hf) hreply
  · intro table i _ hl hi
    refine noLeak_of_not_leaks fun table' i' ht hl' => ?_
    obtain rfl := Option.some.inj ht
    obtain rfl := Option.some.inj (hl.symm.trans hl')
    rwa [hi]

end

/-! ### Two shipped definitions -/

def ospfRoute : Definition where
  name := "OSPFv2_ROUTE".toList
  category := "OSPFv2".toList
  id := "11001".toList
  severity := "LOG_INFO".toList
  keys := "event, prefix, route".toList
  description := some "Logs OSPFv2 route add and delete.".toList
  template := "\x7bevent\x7d with \x7bdestination\x7d \x7bnexthops\x7d".toList

def ospfRouterId : Definition where
  name := "OSPFv2_ROUTER_ID".toList
  category := "OSPFv2".toList
  id := "11003".toList
  severity := "LOG_INFO".toList
  keys := "old, new".toList
  description := some "Logs the changes in the router-id.".toList
  template := "Router-id  updated from \x7bold\x7d to \x7bnew\x7d".toList

theorem ospfRoute_wellFormed : ospfRoute.WellFormed :=
  ⟨by decide, by decide, by decide, by decide, by decide, by decide, by decide⟩

theorem ospfRouterId_wellFormed : ospfRouterId.WellFormed :=
  ⟨by decide, by decide, by decide, by decide, by decide, by decide, by decide⟩

def ospfTable : Table := filled usedMemory [ospfRoute, ospfRouterId]

theorem ospfTable_loaded : LoadedTable ospfTable := by
  have layout : Layout (fileOf [] [ospfRoute, ospfRouterId]) [] [ospfRoute, ospfRouterId] :=
    layout_fileOf (by decide) (fun x hx => by
      rcases List.mem_pair.mp hx with rfl | rfl
      · exact ospfRoute_wellFormed
      · exact ospfRouterId_wellFormed) (by decide)
  obtain ⟨s, hrun, hs⟩ := reached_init.sequence [some "OSPFv2".toList] (envOf_ok _) layout le_rfl (by decide)
    fun category hcat => by
      obtain rfl := Option.some.inj (List.mem_singleton.mp hcat)
      decide
  refine ⟨_, _, _, _, s, hrun, ?_⟩
  rw [hs.evTable, if_neg (by decide)]
  exact congrArg (fun ds => some (filled usedMemory ds)) (by decide)

/-- The declared keys of OSPFv2_ROUTE, `prefix` first: the template has no such key. -/
def routeArgs : List (Option Text) :=
  [some "prefix=10.0.0.0/8".toList, some "event=add".toList, some "route=10.0.0.1".toList]

/-- The same pairs, with one first whose key the template has. -/
def eventFirstArgs : List (Option Text) :=
  [some "event=add".toList, some "prefix=10.0.0.0/8".toList, some "route=10.0.0.1".toList]

def routerIdText : Text := "Router-id  updated from 10.0.0.1 to 10.0.0.2".toList

theorem routerIdText_buffered : Buffered (some ospfTable) routerIdText := by
  have hcall : logEvent (fun _ => 0) 2 (some ospfTable) ospfRouterId.name
      [some "old=10.0.0.1".toList, some "new=10.0.0.2".toList] [] =
      .ok ⟨0, some (.event ("MESSAGE=ops-evt|11003|LOG_INFO|".toList ++ routerIdText) 6 11003 "OSPFv2".toList
        (some "old=10.0.0.1,new=10.0.0.2,".toList)), routerIdText⟩ := by decide +kernel
  exact Buffered.call _ _ _ _ Buffered.start hcall

/-- With a key first that the template has, nothing of an earlier event is seen. -/
theorem noLeak_iff_ospfRoute :
    ∀ table i, LoadedTable table → lookup ospfRoute.name (some table) = some i →
      table i = ospfRoute.entry (usedMemory 0) → NoLeak (some table) ospfRoute.name eventFirstArgs := by
  have hsep : Separate (ospfRoute.entry (usedMemory 0)).numOfKeys.toNat eventFirstArgs := by
    decide
  refine ((noLeak_iff (some ospfTable) ospfRoute.name _).2 ospfRoute (usedMemory 0) ospfRoute_wellFormed (by decide) hsep).mpr ?_
  rintro ⟨-, hk, habsent, -⟩
  obtain rfl := Option.some.inj (show some "\x7bevent\x7d".toList = _ from hk)
  exact habsent (by decide)

/-- The route event after no other event is refused; after a change of the router id it is logged with
    the text of that change. -/
theorem ospfRoute_shows_routerId :
    LoadedTable ospfTable ∧ Buffered (some ospfTable) routerIdText ∧
      logEvent (fun _ => 0) 2 (some ospfTable) ospfRoute.name routeArgs [] = .ok ⟨-1, none, []⟩ ∧
      (∃ pairs, logEvent (fun _ => 0) 2 (some ospfTable) ospfRoute.name routeArgs routerIdText =
        .ok ⟨0, some (.event ("MESSAGE=ops-evt|11001|LOG_INFO|".toList ++ routerIdText) 6 11001 "OSPFv2".toList pairs),
          routerIdText⟩) ∧
      ¬ NoLeak (some ospfTable) ospfRoute.name routeArgs := by
  have hfirst : logEvent (fun _ => 0) 2 (some ospfTable) ospfRoute.name routeArgs [] = .ok ⟨-1, none, []⟩ := by
    decide +kernel
  have hsecond : logEvent (fun _ => 0) 2 (some ospfTable) ospfRoute.name routeArgs routerIdText =
      .ok ⟨0, some (.event ("MESSAGE=ops-evt|11001|LOG_INFO|".toList ++ routerIdText) 6 11001 "OSPFv2".toList
        (some "prefix=10.0.0.0/8,event=add,route=10.0.0.1,".toList)), routerIdText⟩ := by
    decide +kernel
  refine ⟨ospfTable_loaded, routerIdText_buffered, hfirst, ⟨_, hsecond⟩, fun hno => ?_⟩
  obtain ⟨fuel, o, ho, hret, -⟩ :=
    hno [] routerIdText Buffered.start routerIdText_buffered (fun _ => 0) (-1) none ⟨2, _, hfirst, rfl, rfl⟩
  rw [ok_unique (fun hle => logEvent_below hle) ho hsecond] at hret
  exact absurd hret (by decide)

end EventLog
end OpsSupportability
