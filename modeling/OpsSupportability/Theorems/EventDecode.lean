import OpsSupportability.Lib.Template
import OpsSupportability.Theorems.EventTerminate
import OpsSupportability.Theorems.EventExpand

/-! Decoding what `key_value_string` encodes: `populate_str` takes the text apart at every `=`, so it puts
    the value into the template when the value has no `=`, and only then. -/

namespace OpsSupportability
namespace EventLog

open Template Rewriting Fuel

section
variable {key value value' template pair buffer : Text} {tokens : List Text} {fuel : Nat}

/-! ### One value -/

theorem replaceLoop_unique {fuel' : Nat} {keyName rep str : Text} {r r' : Text × Text}
    (h : replaceLoop keyName rep fuel str buffer = .ok r) (h' : replaceLoop keyName rep fuel' str buffer = .ok r') :
    r = r' :=
  ok_unique (fun hle => replaceLoop_below hle) h h'

/-! ### The pair and its tokens -/

/-- An accepted value is not cut off. -/
theorem keyValueString_some (h : keyValueString key value = some pair) :
    pair = key ++ '=' :: value ∧ 0 < value.length ∧ key.length + value.length ≤ 125 := by
  rw [keyValueString_eq] at h
  split at h
  next hfits => exact ⟨(Option.some.inj h).symm, hfits.2⟩
  next => cases h

theorem tokens_encoded (hkey : key ≠ []) (heq : '=' ∉ key) (value : Text) :
    Text.tokens '=' (key ++ '=' :: value) = key :: Text.tokens '=' value := by
  rw [Text.tokens, List.splitOn_append_cons_self_of_not_mem heq]
  simp [Text.tokens, hkey]

theorem makeKeyFormat_braced (hkey : key ≠ []) (hlen : key.length ≤ 126) : makeKeyFormat key = some (Template.braced key) := by
  obtain ⟨c, rest, rfl⟩ := List.exists_cons_of_ne_nil hkey
  have hsize : ¬ keyValueSize - 2 < (c :: rest).length := by
    simp only [keyValueSize]
    omega
  rw [makeKeyFormat, if_neg hsize]
  simp [Template.braced]

/-- The tokens behind the first value find no hole left. -/
theorem replaceTokens_first {keyName : Text} {r : Text × Text} (hformat : makeKeyFormat key = some keyName)
    (hloop : replaceLoop keyName value fuel template buffer = .ok r) :
    replaceTokens fuel key (value :: tokens) template buffer = .ok (some r) := by
  cases fuel with
  | zero => cases hloop
  | succ fuel =>
    rw [replaceTokens, replaceStr, hformat]
    simp only [hloop, Except.map, bind, Except.bind]
    exact replaceTokens_absent hformat (replaceLoop_ok hloop).1

/-! ### Decoding -/

/-- `populate_str` returns 0 and leaves this text. -/
def Decodes (template pair expected buffer : Text) : Prop :=
  ∃ fuel buffer', populateStr fuel template pair buffer = .ok (0, expected, buffer')

theorem replaceAll_absent (hk : BraceFree key) (hv : BraceFree value) (unnested : Unnested key template) :
    ¬ Template.braced key <:+: Text.replaceAll (Template.braced key) value template := by
  have hpat := braced_ne_nil key
  induction template using Text.cutFirst_induction hpat with
  | none s hcut =>
    rw [Text.replaceAll_none value hcut]
    exact Text.cutFirst_none.mp hcut
  | some s pre post hcut ih =>
    have hs := Text.cutFirst_some hcut
    rw [Text.replaceAll_some value hpat hcut]
    have hpost : Unnested key post := Unnested.of_append (a := pre ++ Template.braced key) (hs ▸ unnested)
    have hvalue : ¬ Template.braced key <:+: value := absent_of_free hv.1
    have hpre := absent_append hk (unnested pre post hs) (Text.cutFirst_first hpat hcut) hvalue
    exact absent_append hk ((unnested pre post hs).append (closed_of_free hv.1)) hpre (ih hpost)

/-- No occurrence has a part of a value in it, also where other braces stand around the holes. -/
theorem onePass_of_free (hk : BraceFree key) (hv : BraceFree value) (unnested : Unnested key template) :
    OnePass (Template.braced key) value template := by
  rintro s' ⟨rest, rfl⟩
  exact replaceAll_absent hk hv fun pre post heq => unnested pre (post ++ rest) (by rw [heq, List.append_assoc])

/-- The loop from the template on. -/
theorem replaceLoop_template (hk : BraceFree key) (hv : BraceFree value) (unnested : Unnested key template)
    (hocc : Template.braced key <:+: template) (hfirst : template.length + value.length < maxLogStr + (Template.braced key).length)
    (hlast : (Text.replaceAll (Template.braced key) value template).length < maxLogStr) (buffer : Text) :
    ∃ fuel, replaceLoop (Template.braced key) value fuel template buffer =
      .ok (Text.replaceAll (Template.braced key) value template, Text.replaceAll (Template.braced key) value template) := by
  have hkey := braced_ne_nil key
  obtain ⟨fuel, hloop⟩ := replaceLoop_onePass hkey (onePass_of_free hk hv unnested).apart (fun _ => by simpa using hfirst)
    hlast buffer
  rw [if_pos hocc] at hloop
  exact ⟨fuel, hloop⟩

/-- The expansion with the first token of the value; the other tokens change nothing. -/
theorem populateStr_first {keyName : Text} {r : Text × Text} (hpos : 0 < pair.length) (hlen : pair.length < keyValueSize)
    (hformat : makeKeyFormat key = some keyName) (htokens : Text.tokens '=' pair = key :: value' :: tokens)
    (hloop : replaceLoop keyName value' fuel template buffer = .ok r) :
    populateStr fuel template pair buffer =
      .ok (if 0 < r.2.length ∧ r.2.length < maxLogStr then (0, r.2, r.2) else (-1, r.1, r.2)) := by
  simp only [populateStr, hpos, hlen, and_self, if_true, htokens]
  rw [replaceTokens_first hformat hloop]
  simp only [bind, Except.bind, pure, Except.pure]
  split <;> rfl

/-- A result comes from a loop that ended inside its arrays. -/
theorem replaceLoop_of_populateStr (hformat : makeKeyFormat key = some (Template.braced key))
    (htokens : Text.tokens '=' pair = key :: value' :: tokens) {ret : Int} {s b : Text}
    (h : populateStr fuel template pair buffer = .ok (ret, s, b)) (hret : ¬ ret < 0) :
    ∃ r, replaceLoop (Template.braced key) value' fuel template buffer = .ok r := by
  unfold populateStr at h
  split at h
  · simp only [htokens, replaceTokens, replaceStr, hformat] at h
    cases hloop : replaceLoop (Template.braced key) value' fuel template buffer with
    | error fault =>
      rw [hloop] at h
      cases h
    | ok r => exact ⟨r, rfl⟩
  · obtain ⟨rfl, -⟩ := Prod.mk.inj (Except.ok.inj h)
    exact absurd (by decide) hret

theorem populateStr_decodes_iff (hkey : key ≠ []) (heq : '=' ∉ key) (hk : BraceFree key) (hv : BraceFree value)
    (hpair : keyValueString key value = some pair) (hocc : Template.braced key <:+: template) (unnested : Unnested key template)
    (hshort : (Text.replaceAll (Template.braced key) value template).length < maxLogStr) (buffer : Text) :
    Decodes template pair (Text.replaceAll (Template.braced key) value template) buffer ↔
      '=' ∉ value ∧ template.length + value.length < maxLogStr + (Template.braced key).length := by
  obtain ⟨rfl, hpos, hlen⟩ := keyValueString_some hpair
  have hformat : makeKeyFormat key = some (Template.braced key) := makeKeyFormat_braced hkey (by omega)
  have hpairPos : 0 < (key ++ '=' :: value).length := by simp
  have hpairLt : (key ++ '=' :: value).length < keyValueSize := by
    simp only [List.length_append, List.length_cons, keyValueSize]
    omega
  have htokens := tokens_encoded hkey heq value
  obtain ⟨n, hn, hlength⟩ := Text.length_replaceAll (braced_ne_nil key) template
  have hholes := hn.mpr hocc
  constructor
  · rintro ⟨fuel, buffer', hpopulate⟩
    cases hvalue : Text.tokens '=' value with
    | nil =>
      rw [hvalue] at htokens
      simp [populateStr, htokens] at hpopulate
    | cons value' tokens =>
      rw [hvalue] at htokens
      have hmem : value' ∈ Text.tokens '=' value := hvalue ▸ List.mem_cons_self
      obtain ⟨-, hpart⟩ := Text.mem_tokens hmem
      have hv' : BraceFree value' := ⟨fun h => hv.1 (hpart.subset h), fun h => hv.2 (hpart.subset h)⟩
      obtain ⟨r, hloop⟩ := replaceLoop_of_populateStr hformat htokens hpopulate (by decide)
      obtain ⟨t, hstep⟩ : ∃ t, Step (Template.braced key) value' template t := step_iff.mpr hocc
      have hfirst : template.length + value'.length < maxLogStr + (Template.braced key).length := by
        have hshort' := short_of_ok hloop hstep
        have := hstep.length
        rw [Short] at hshort'
        omega
      have hle := Nat.mul_le_mul_left n hpart.length_le
      have hlast : (Text.replaceAll (Template.braced key) value' template).length < maxLogStr := by
        have := hlength value
        have := hlength value'
        omega
      obtain ⟨fuel', hloop'⟩ := replaceLoop_template hk hv' unnested hocc hfirst hlast buffer
      rw [replaceLoop_unique hloop hloop'] at hloop
      rw [populateStr_first hpairPos hpairLt hformat htokens hloop] at hpopulate
      have htext : Text.replaceAll (Template.braced key) value' template = Text.replaceAll (Template.braced key) value template := by
        split at hpopulate
        · exact (Prod.mk.inj (Prod.mk.inj (Except.ok.inj hpopulate)).2).1
        · cases hpopulate
      have hsame : value.length = value'.length := by
        have h := hlength value
        have h' := hlength value'
        rw [htext] at h'
        exact Nat.eq_of_mul_eq_mul_left hholes (by omega)
      refine ⟨fun hmemEq => ?_, hsame ▸ hfirst⟩
      have := Text.length_lt_of_mem_tokens hmemEq hmem
      omega
  · rintro ⟨hvalueEq, hfirst⟩
    have hvalue : Text.tokens '=' value = [value] := by
      rw [Text.tokens, List.splitOn_eq_singleton hvalueEq]
      simp [List.length_pos_iff.mp hpos]
    rw [hvalue] at htokens
    obtain ⟨fuel, hloop⟩ := replaceLoop_template hk hv unnested hocc hfirst hshort buffer
    refine ⟨fuel, Text.replaceAll (Template.braced key) value template, ?_⟩
    have hresult : 0 < (Text.replaceAll (Template.braced key) value template).length := by
      have hleast := hlength []
      have hthis := hlength value
      have := Nat.mul_pos hholes hpos
      simp only [List.length_nil, Nat.mul_zero, Nat.add_zero] at hleast
      omega
    rw [populateStr_first hpairPos hpairLt hformat htokens hloop, if_pos ⟨hresult, hshort⟩]

end

def speedTemplate : Text := "Speed of \x7bport\x7d set to \x7bspeed\x7d".toList

theorem speedTemplate_wellBraced : WellBraced speedTemplate := by
  decide

theorem populateStr_decodes_iff_speed :
    Decodes speedTemplate "speed=10 Gb".toList
      (Text.replaceAll (Template.braced "speed".toList) "10 Gb".toList speedTemplate) [] :=
  (populateStr_decodes_iff (show "speed".toList ≠ [] by decide) (by decide) (by decide)
    (show BraceFree "10 Gb".toList by decide) (by decide) (by decide) (speedTemplate_wellBraced.unnested _) (by decide)
    []).mpr ⟨by decide, by decide⟩

/-- The value ends at its `=`. -/
theorem value_not_decoded :
    keyValueString "speed".toList "10=Gb".toList = some "speed=10=Gb".toList ∧
      Template.braced "speed".toList <:+: speedTemplate ∧ Unnested "speed".toList speedTemplate ∧
      ¬ Decodes speedTemplate "speed=10=Gb".toList
        (Text.replaceAll (Template.braced "speed".toList) "10=Gb".toList speedTemplate) [] := by
  refine ⟨by decide, by decide, speedTemplate_wellBraced.unnested _, ?_⟩
  rintro ⟨fuel, buffer', h⟩
  have hcut : populateStr 2 speedTemplate "speed=10=Gb".toList [] =
    .ok (0, "Speed of \x7bport\x7d set to 10".toList, "Speed of \x7bport\x7d set to 10".toList) := by decide
  have hsame := ok_unique (fun hle => populateStr_below hle) h hcut
  have htext := (Prod.mk.inj (Prod.mk.inj hsame).2).1
  have hne : Text.replaceAll (Template.braced "speed".toList) "10=Gb".toList speedTemplate ≠
    "Speed of \x7bport\x7d set to 10".toList := by decide
  exact hne htext

end EventLog
end OpsSupportability
