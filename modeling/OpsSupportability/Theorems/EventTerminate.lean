import OpsSupportability.EventLog
import OpsSupportability.Lib.Rewriting

/-! When the loop of `replace_str` returns. It looks for the placeholder again in the text that it has just made, and
    runs inside two arrays of 480 characters. A value no longer than the placeholder lets it return, but for the
    placeholder itself; a longer one as long as no occurrence that is found has a part of a value in it. -/

namespace OpsSupportability
namespace EventLog

open Rewriting

/-- The array bound of the loop. -/
def Short (s : Text) : Prop := s.length < maxLogStr

instance (s : Text) : Decidable (Short s) := inferInstanceAs (Decidable (s.length < maxLogStr))

/-- What lets the loop return: there is nothing to replace; the value is no longer than the placeholder, but is not the
    placeholder; or one pass over the text does it. The texts that are made first and last fit. -/
inductive Settles (keyName rep s : Text) : Prop
  | absent : ¬ keyName <:+: s → Settles keyName rep s
  | shorter : rep.length ≤ keyName.length → rep ≠ keyName → s.length + rep.length < maxLogStr + keyName.length →
      Settles keyName rep s
  | once : keyName.length < rep.length → OnePass keyName rep s → Short (Text.replaceAll keyName rep s) →
      Settles keyName rep s

/-- A longer value does not contain the placeholder, and completes one together with the text around it. -/
structure Rebuilds (keyName rep s : Text) : Prop where
  longer : keyName.length < rep.length
  absent : ¬ keyName <:+: rep
  rebuilt : ¬ OnePass keyName rep s

section
variable {keyName key rep str str' s t done rest buffer buffer' : Text} {fuel : Nat} {r : Text × Text}

/-! ### The loop as a run of steps -/

theorem replaceLoop_step (h : Step keyName rep s t) (ht : Short t) :
    replaceLoop keyName rep (fuel + 1) s buffer = replaceLoop keyName rep fuel t t := by
  obtain ⟨hcut⟩ := h
  rw [replaceLoop, hcut]
  exact if_pos ht

theorem replaceLoop_overflow (h : Step keyName rep s t) (ht : ¬ Short t) :
    replaceLoop keyName rep (fuel + 1) s buffer = .error .overflow := by
  obtain ⟨hcut⟩ := h
  rw [replaceLoop, hcut]
  exact if_neg ht

theorem replaceLoop_done (h : ¬ keyName <:+: s) : replaceLoop keyName rep (fuel + 1) s buffer = .ok (s, buffer) := by
  rw [replaceLoop, Text.cutFirst_none.mpr h]

theorem replaceLoop_identity (hocc : keyName <:+: s) (hs : Short s) (fuel : Nat) (buffer : Text) :
    replaceLoop keyName keyName fuel s buffer = .error .running := by
  induction fuel generalizing buffer with
  | zero => rfl
  | succ fuel ih =>
    obtain ⟨t, hstep⟩ := step_iff.mpr hocc
    obtain rfl := hstep.eq_of_same
    rw [replaceLoop_step hstep hs]
    exact ih t

/-- A loop that returns has not left its arrays. -/
theorem short_of_ok (h : replaceLoop keyName rep fuel s buffer = .ok r) (hstep : Step keyName rep s t) : Short t := by
  cases fuel with
  | zero => cases h
  | succ fuel =>
    by_contra ht
    rw [replaceLoop_overflow hstep ht] at h
    cases h

/-- What is returned has no placeholder, and is short if the text was; the buffer holds it unless there was nothing to
    replace. -/
theorem replaceLoop_ok (h : replaceLoop keyName rep fuel s buffer = .ok r) :
    ¬ keyName <:+: r.1 ∧ (Short s → Short r.1) ∧ (r = (s, buffer) ∨ r.2 = r.1) := by
  induction fuel generalizing s buffer with
  | zero => cases h
  | succ fuel ih =>
    by_cases hocc : keyName <:+: s
    · obtain ⟨t, hstep⟩ := step_iff.mpr hocc
      have ht := short_of_ok h hstep
      rw [replaceLoop_step hstep ht] at h
      obtain ⟨habsent, hshort, hbuffer⟩ := ih h
      refine ⟨habsent, fun _ => hshort ht, .inr ?_⟩
      rcases hbuffer with rfl | hbuffer
      · rfl
      · exact hbuffer
    · rw [replaceLoop_done hocc] at h
      obtain rfl := Except.ok.inj h
      exact ⟨hocc, id, .inl rfl⟩

/-! ### Values no longer than the placeholder -/

theorem Step.short (h : Step keyName rep s t) (hlen : rep.length ≤ keyName.length) (hs : Short s) : Short t := by
  have hlength := h.length
  unfold Short at hs ⊢
  omega

/-- By induction on the measure of the rule. -/
theorem replaceLoop_shorter (hlen : rep.length ≤ keyName.length) (hne : rep ≠ keyName) (hs : Short s) (buffer : Text) :
    ∃ fuel r, replaceLoop keyName rep fuel s buffer = .ok r := by
  obtain ⟨μ, hμ⟩ := exists_measure maxLogStr hne
  induction hm : μ s using Nat.strong_induction_on generalizing s buffer with
  | _ m ih =>
    by_cases hocc : keyName <:+: s
    · obtain ⟨t, hstep⟩ := step_iff.mpr hocc
      have ht := Step.short hstep hlen hs
      obtain ⟨fuel, r, hloop⟩ := ih (μ t) (hm ▸ hμ s t hstep hs ht) ht t rfl
      exact ⟨fuel + 1, r, by rwa [replaceLoop_step hstep ht]⟩
    · exact ⟨1, _, replaceLoop_done hocc⟩

/-! ### One pass -/

/-- Where no occurrence has a part of a value in it, the loop replaces the occurrences one after the other. By induction
    on the text behind the first of them. -/
theorem replaceLoop_onePass (hkey : keyName ≠ [])
    (apart : ∀ s', s' <+: rest → ¬ keyName <:+: done ++ Text.replaceAll keyName rep s')
    (hfirst : keyName <:+: rest → done.length + rest.length + rep.length < maxLogStr + keyName.length)
    (hlast : Short (done ++ Text.replaceAll keyName rep rest)) (buffer : Text) :
    ∃ fuel, replaceLoop keyName rep fuel (done ++ rest) buffer =
      .ok (done ++ Text.replaceAll keyName rep rest,
        if keyName <:+: rest then done ++ Text.replaceAll keyName rep rest else buffer) := by
  induction rest using Text.cutFirst_induction hkey generalizing done buffer with
  | none rest hcut =>
    have habsent := apart rest List.prefix_rfl
    rw [Text.replaceAll_none rep hcut] at habsent ⊢
    rw [if_neg (Text.cutFirst_none.mp hcut)]
    exact ⟨1, replaceLoop_done habsent⟩
  | some rest pre post hcut ih =>
    have hrest := Text.cutFirst_some hcut
    have hocc : keyName <:+: rest := ⟨pre, post, hrest.symm⟩
    have hall := Text.replaceAll_some rep hkey hcut
    obtain ⟨hcut', apart'⟩ := cutFirst_of_apart hkey apart hcut
    have hlast' : Short (done ++ pre ++ rep ++ Text.replaceAll keyName rep post) := by
      rw [hall] at hlast
      simpa [Short] using hlast
    have hlength := hfirst hocc
    rw [hrest] at hlength
    simp only [List.length_append] at hlength
    have hshort : Short (done ++ pre ++ rep ++ post) := by
      simp only [Short, List.length_append]
      omega
    have hfirst' : keyName <:+: post →
        (done ++ pre ++ rep).length + post.length + rep.length < maxLogStr + keyName.length := fun hmore => by
      -- a value longer than the placeholder is bounded by the final text, a shorter one by the text before
      obtain ⟨n, hn, hsum⟩ := Text.length_replaceAll hkey post
      have hpos := hn.mpr hmore
      have := hsum rep
      simp only [Short, List.length_append] at hlast' ⊢
      rcases Nat.le_total rep.length keyName.length with hle | hle
      · omega
      · obtain ⟨m, rfl⟩ : ∃ m, n = m + 1 := ⟨n - 1, by omega⟩
        have := Nat.mul_le_mul_left m hle
        simp only [Nat.succ_mul] at *
        omega
    obtain ⟨fuel, hloop⟩ := ih apart' hfirst' hlast' (done ++ pre ++ rep ++ post)
    refine ⟨fuel + 1, ?_⟩
    rw [replaceLoop_step (.at hcut') hshort, hloop, if_pos hocc, hall]
    split
    · simp
    · next habsent => simp [Text.replaceAll_none rep (Text.cutFirst_none.mpr habsent)]

/-- A value that lengthens the text: the final text is the longest. -/
theorem replaceLoop_once (hkey : keyName ≠ []) (hlen : keyName.length < rep.length) (once : OnePass keyName rep s)
    (hocc : keyName <:+: s) (hlast : Short (Text.replaceAll keyName rep s)) (buffer : Text) :
    ∃ fuel, replaceLoop keyName rep fuel s buffer =
      .ok (Text.replaceAll keyName rep s, Text.replaceAll keyName rep s) := by
  have hfirst : keyName <:+: s → ([] : Text).length + s.length + rep.length < maxLogStr + keyName.length := fun _ => by
    obtain ⟨n, hn, hsum⟩ := Text.length_replaceAll hkey s
    obtain ⟨m, rfl⟩ : ∃ m, n = m + 1 := ⟨n - 1, by have := hn.mpr hocc; omega⟩
    have := hsum rep
    have := Nat.mul_le_mul_left m hlen.le
    simp only [Nat.succ_mul, Short, List.length_nil] at *
    omega
  obtain ⟨fuel, hloop⟩ := replaceLoop_onePass hkey once.apart hfirst hlast buffer
  rw [if_pos hocc] at hloop
  exact ⟨fuel, hloop⟩

/-- A loop that makes one pass returns what the pass leaves. -/
theorem eq_of_onePass (hkey : keyName ≠ [])
    (apart : ∀ s', s' <+: rest → ¬ keyName <:+: done ++ Text.replaceAll keyName rep s')
    (h : replaceLoop keyName rep fuel (done ++ rest) buffer = .ok r) : r.1 = done ++ Text.replaceAll keyName rep rest := by
  induction rest using Text.cutFirst_induction hkey generalizing done buffer fuel with
  | none rest hcut =>
    have habsent := apart rest List.prefix_rfl
    rw [Text.replaceAll_none rep hcut] at habsent ⊢
    cases fuel with
    | zero => cases h
    | succ fuel =>
      rw [replaceLoop_done habsent] at h
      rw [← Except.ok.inj h]
  | some rest pre post hcut ih =>
    obtain ⟨hcut', apart'⟩ := cutFirst_of_apart hkey apart hcut
    have hstep : Step keyName rep (done ++ rest) (done ++ pre ++ rep ++ post) := .at hcut'
    cases fuel with
    | zero => cases h
    | succ fuel =>
      rw [replaceLoop_step hstep (short_of_ok h hstep)] at h
      rw [ih apart' h, Text.replaceAll_some rep hkey hcut]
      simp only [List.append_assoc]

/-! ### Returning -/

theorem replaceLoop_returns (hkey : keyName ≠ []) (h : Settles keyName rep s) (buffer : Text) :
    ∃ fuel r, replaceLoop keyName rep fuel s buffer = .ok r := by
  by_cases hocc : keyName <:+: s
  · obtain ⟨t, hstep⟩ : ∃ t, Step keyName rep s t := step_iff.mpr hocc
    rcases h with habsent | ⟨hlen, hne, hfirst⟩ | ⟨hlen, once, hlast⟩
    · exact absurd hocc habsent
    · have ht : Short t := by
        have := hstep.length
        unfold Short
        omega
      obtain ⟨fuel, r, hloop⟩ := replaceLoop_shorter hlen hne ht t
      exact ⟨fuel + 1, r, by rwa [replaceLoop_step hstep ht]⟩
    · obtain ⟨fuel, hloop⟩ := replaceLoop_once hkey hlen once hocc hlast buffer
      exact ⟨fuel, _, hloop⟩
  · exact ⟨1, _, replaceLoop_done hocc⟩

/-- A value that contains the placeholder never lets the loop return. -/
theorem not_returns_of_contains (hrep : keyName <:+: rep) (hocc : keyName <:+: s) :
    replaceLoop keyName rep fuel s buffer ≠ .ok r := by
  induction fuel generalizing s buffer with
  | zero => simp [replaceLoop]
  | succ fuel ih =>
    obtain ⟨t, hstep⟩ := step_iff.mpr hocc
    by_cases ht : Short t
    · rw [replaceLoop_step hstep ht]
      exact ih (hstep.occurs hrep)
    · rw [replaceLoop_overflow hstep ht]
      simp

/-- Outside the condition only a value that completes a placeholder lets the loop return. -/
theorem settles_or_rebuilds (hkey : keyName ≠ []) (h : replaceLoop keyName rep fuel s buffer = .ok r) :
    Settles keyName rep s ∨ Rebuilds keyName rep s := by
  by_cases hocc : keyName <:+: s
  · obtain ⟨t, hstep⟩ := step_iff.mpr hocc
    have ht := short_of_ok h hstep
    rcases Nat.lt_or_ge keyName.length rep.length with hlen | hlen
    · have hrep : ¬ keyName <:+: rep := fun hrep => not_returns_of_contains hrep hocc h
      by_cases once : OnePass keyName rep s
      · left
        refine .once hlen once ?_
        have hresult : r.1 = Text.replaceAll keyName rep s := eq_of_onePass hkey once.apart h
        cases fuel with
        | zero => cases h
        | succ fuel =>
          rw [replaceLoop_step hstep ht] at h
          exact hresult ▸ (replaceLoop_ok h).2.1 ht
      · exact .inr ⟨hlen, hrep, once⟩
    · left
      refine .shorter hlen ?_ ?_
      · rintro rfl
        rw [hstep.eq_of_same] at ht
        rw [replaceLoop_identity hocc ht] at h
        cases h
      · have := hstep.length
        unfold Short at ht
        omega
  · exact .inl (.absent hocc)

/-! ### `replace_str` -/

theorem makeKeyFormat_ne_nil (h : makeKeyFormat key = some keyName) : keyName ≠ [] := by
  unfold makeKeyFormat at h
  split at h
  · cases h
  · obtain rfl := Option.some.inj h
    exact List.cons_ne_nil _ _

theorem replaceStr_some (h : makeKeyFormat key = some keyName) :
    (∃ fuel r, replaceStr fuel str key rep buffer = .ok r) ↔ ∃ fuel r, replaceLoop keyName rep fuel str buffer = .ok r := by
  have hok : ∀ x : Except Fault (Text × Text), (∃ r, x.map some = .ok r) ↔ ∃ r, x = .ok r := fun x => by
    cases x <;> simp [Except.map]
  simp only [replaceStr, h, hok]

/-- The loop returns where it settles. Where it does not settle it never returns, unless the value completes a
    placeholder with the text around it. -/
theorem replaceStr_returns (str key rep buffer : Text) :
    ((∀ keyName, makeKeyFormat key = some keyName → Settles keyName rep str) →
      ∃ fuel r, replaceStr fuel str key rep buffer = .ok r) ∧
    ((∃ fuel r, replaceStr fuel str key rep buffer = .ok r) →
      ∀ keyName, makeKeyFormat key = some keyName → Settles keyName rep str ∨ Rebuilds keyName rep str) := by
  cases hkey : makeKeyFormat key with
  | none => exact ⟨fun _ => ⟨0, none, by rw [replaceStr, hkey]⟩, fun _ _ => nofun⟩
  | some keyName =>
    rw [replaceStr_some hkey]
    have hne := makeKeyFormat_ne_nil hkey
    constructor
    · intro h
      exact replaceLoop_returns hne (h keyName rfl) buffer
    · rintro ⟨fuel, r, h⟩ _ heq
      exact Option.some.inj heq ▸ settles_or_rebuilds hne h

end

/-- A value with braces in it that are not those of the key. -/
theorem replaceStr_returns_braces :
    ∃ fuel r, replaceStr fuel "port \x7bport\x7d up".toList "port".toList "\x7beth0\x7d, \x7beth1\x7d".toList [] = .ok r :=
  (replaceStr_returns _ _ _ _).1 fun keyName hkey => by
    obtain rfl : "\x7bport\x7d".toList = keyName := Option.some.inj hkey
    exact .once (by decide) (by decide) (by decide)

/-- A value that completes a placeholder: with one the loop returns, with the other the text grows until it leaves the
    arrays. -/
example : Rebuilds "\x7ba\x7d".toList "a\x7d--".toList "\x7b\x7ba\x7d".toList ∧
    replaceLoop "\x7ba\x7d".toList "a\x7d--".toList 3 "\x7b\x7ba\x7d".toList [] =
      .ok ("a\x7d----".toList, "a\x7d----".toList) :=
  ⟨⟨by decide, by decide, by decide⟩, by decide⟩

example : Rebuilds "\x7ba\x7d".toList "a\x7da\x7d\x7b\x7b".toList "\x7b\x7ba\x7d".toList ∧
    replaceLoop "\x7ba\x7d".toList "a\x7da\x7d\x7b\x7b".toList 200 "\x7b\x7ba\x7d".toList [] = .error .overflow :=
  ⟨⟨by decide, by decide, by decide⟩, by decide +kernel⟩

/-- The value that `key_value_string` makes of a key and its own placeholder. -/
theorem replaceStr_runs_forever :
    keyValueString "k".toList "\x7bk\x7d".toList = some "k=\x7bk\x7d".toList ∧
      Text.tokens '=' "k=\x7bk\x7d".toList = ["k".toList, "\x7bk\x7d".toList] ∧
      ∀ fuel, replaceStr fuel "on \x7bk\x7d".toList "k".toList "\x7bk\x7d".toList [] = .error .running := by
  refine ⟨by decide, by decide, fun fuel => ?_⟩
  have hkey : makeKeyFormat "k".toList = some "\x7bk\x7d".toList := by decide
  have hocc : "\x7bk\x7d".toList <:+: "on \x7bk\x7d".toList := by decide
  have hshort : Short "on \x7bk\x7d".toList := by decide
  rw [replaceStr, hkey]
  simp only [replaceLoop_identity hocc hshort]
  rfl

end EventLog
end OpsSupportability
