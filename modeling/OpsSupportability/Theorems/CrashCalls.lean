import OpsSupportability.Theorems.CrashProcessing

/-! Calls of `process_coredumps` step by step, between the core files that come and go, and with a daemon that may die
    in them. What a call has reported is known to the next one only when `processed_files` has been written again. -/

namespace OpsSupportability
namespace CrashProcessing

open PyRepr (Plain)

variable {s t : State} {n : Text} {names left : List Text} {call : Call} {found : Bool}

/-! ### A call that nothing comes between -/

/-- The call goes on in this state up to its end in the other. -/
inductive Completes : State → Call → State → Prop where
  | returns {s t : State} {call : Call} : s.resume call = (t, none) → Completes s call t
  | goes {s t u : State} {call next : Call} : s.resume call = (u, some next) → Completes u next t → Completes s call t

theorem completes_loop (names left : List Text) (found : Bool) {s : State} {new : List Text}
    (hnew : new = (left.map corePath).filter fun file => !coreExisting (s.processedFiles.getD []) file) :
    Completes s (.loop names left found)
      (if found = false ∧ new = [] then s
      else
        { s with
          processedFiles := some (PyRepr.reprList (names.map corePath))
          listed := names
          reported := s.reported ++ new }) := by
  induction left generalizing s found new with
  | nil =>
    obtain rfl : new = [] := hnew
    cases found with
    | false =>
      rw [if_pos ⟨rfl, rfl⟩]
      exact .returns rfl
    | true =>
      rw [if_neg fun h => Bool.noConfusion h.1, List.append_nil]
      exact .goes rfl (.returns rfl)
  | cons name left ih =>
    rw [List.map_cons, List.filter_cons] at hnew
    cases hexisting : coreExisting (s.processedFiles.getD []) (corePath name) with
    | true =>
      rw [hexisting] at hnew
      exact .goes (by rw [State.resume, if_pos hexisting]) (ih found hnew)
    | false =>
      rw [hexisting, Bool.not_false, if_pos rfl] at hnew
      subst hnew
      rw [if_neg fun h => List.cons_ne_nil _ _ h.2]
      have hrest := ih true (s := { s with reported := s.reported ++ [corePath name] }) rfl
      rw [if_neg fun h => Bool.noConfusion h.1, List.append_assoc, List.singleton_append] at hrest
      exact .goes (by rw [State.resume, hexisting, if_neg Bool.false_ne_true]) hrest

/-- The steps of a call are `process_coredumps`. -/
theorem completes_process (s : State) (names : List Text) :
    Completes s.called (.loop names names false) (s.process names) := by
  obtain ⟨new, hnew⟩ : ∃ new, new = (names.map corePath).filter fun file =>
    !coreExisting (s.processedFiles.getD []) file := ⟨_, rfl⟩
  have hsteps := completes_loop names names false (s := s.called) hnew
  rw [State.process, processCoredumps]
  dsimp only
  rw [← hnew]
  cases new with
  | nil =>
    rw [if_pos ⟨rfl, rfl⟩] at hsteps
    rwa [List.append_nil]
  | cons file new => rwa [if_neg fun h => List.cons_ne_nil _ _ h.2] at hsteps

/-! ### What a call knows -/

/-- The names that need no report any more. -/
def State.Known (s : State) (n : Text) : Option Call → Prop
  | none => n ∈ s.listed
  | some (.loop names left _) => n ∈ names ∧ n ∉ left ∨ n ∈ s.listed
  | some (.rewrite names) => n ∈ names

/-- The call has reported nothing. -/
def Call.quiet : Call → Bool
  | .loop _ _ newCoreDumpFound => !newCoreDumpFound
  | .rewrite _ => false

/-- Names that `glob` has answered. -/
structure Globbed (s : State) (names : List Text) : Prop where
  nodup : names.Nodup
  arrived : ∀ n ∈ names, n ∈ s.arrived
  closed : ∀ m ∈ names, ∀ n ∈ s.folder, n <+: m → n ∈ names

structure Looping (s : State) (names left : List Text) (found : Bool) : Prop extends Globbed s names where
  suffix : left <:+ names
  kept : ∀ n ∈ s.listed, n ∈ s.folder → n ∈ names
  recognized : ∀ m ∈ s.listed, ∀ n ∈ names, n <+: m → n ∈ s.listed
  passed : found = false → ∀ n ∈ names, n ∈ left ∨ n ∈ s.listed
  found : found = true → names ≠ []

def State.Sound (s : State) : Option Call → Prop
  | none => True
  | some (.loop names left found) => Looping s names left found
  | some (.rewrite names) => Globbed s names ∧ s.listed = [] ∧ names ≠ []

/-- Files with plain names, none of which starts an earlier one: what is known has been reported, and of the files that
    are there no others, unless `once` is given up. -/
structure Calling (once : Prop) (s : State) (call : Option Call) : Prop extends Tracked s where
  plain : ∀ n ∈ s.arrived, ∀ c ∈ n, Plain c
  closed : ∀ m ∈ s.listed, ∀ n ∈ s.folder, n <+: m → n ∈ s.listed
  sound : s.Sound call
  known : ∀ n, s.Known n call → corePath n ∈ s.reported
  exact : once → ∀ n ∈ s.folder, s.reported.count (corePath n) ≤ 1 ∧ (corePath n ∈ s.reported → s.Known n call)

namespace Globbed

theorem arrive (h : Globbed s names) (hapart : ∀ m ∈ s.arrived, ¬ n <+: m) :
    Globbed { s with folder := n :: s.folder, arrived := n :: s.arrived } names where
  nodup := h.nodup
  arrived := fun m hm => List.mem_cons_of_mem _ (h.arrived m hm)
  closed := fun m hm k hk hstarts => by
    rcases List.mem_cons.mp hk with rfl | hk
    · exact absurd hstarts (hapart m (h.arrived m hm))
    · exact h.closed m hm k hk hstarts

theorem remove (h : Globbed s names) (n : Text) : Globbed { s with folder := s.folder.erase n } names :=
  { h with closed := fun m hm k hk => h.closed m hm k (List.mem_of_mem_erase hk) }

end Globbed

namespace Calling
variable {once : Prop} {current : Option Call}

theorem init : Calling once State.init none where
  toTracked := .init
  plain := nofun
  closed := nofun
  sound := trivial
  known := nofun
  exact := nofun

theorem arrive (h : Calling once s current) (hn : CoreName n) (hnew : n ∉ s.arrived) (hplain : ∀ c ∈ n, Plain c)
    (hapart : ∀ m ∈ s.arrived, ¬ n <+: m) :
    Calling once { s with folder := n :: s.folder, arrived := n :: s.arrived } current where
  toTracked := h.toTracked.arrive hn hnew
  plain := fun m hm => by
    rcases List.mem_cons.mp hm with rfl | hm
    · exact hplain
    · exact h.plain m hm
  closed := fun m hm k hk hstarts => by
    rcases List.mem_cons.mp hk with rfl | hk
    · exact absurd hstarts (hapart m (h.listed m hm))
    · exact h.closed m hm k hk hstarts
  sound := by
    have hsound := h.sound
    match current with
    | none => trivial
    | some (.loop names left found) =>
      refine { hsound with toGlobbed := hsound.toGlobbed.arrive hapart, kept := fun m hm hfolder => ?_ }
      rcases List.mem_cons.mp hfolder with rfl | hfolder
      · exact absurd (h.listed m hm) hnew
      · exact hsound.kept m hm hfolder
    | some (.rewrite names) => exact ⟨hsound.1.arrive hapart, hsound.2⟩
  known := fun m => by
    match current with
    | none | some (.loop ..) | some (.rewrite _) => exact h.known m
  exact := fun honce m hm => by
    rcases List.mem_cons.mp hm with rfl | hm
    · have hcount := h.count_new hnew
      exact ⟨hcount ▸ Nat.zero_le 1, fun hmem => absurd hmem (List.count_eq_zero.mp hcount)⟩
    · match current with
      | none | some (.loop ..) | some (.rewrite _) => exact h.exact honce m hm

theorem remove (h : Calling once s current) (n : Text) : Calling once { s with folder := s.folder.erase n } current where
  toTracked := h.toTracked.remove n
  plain := h.plain
  closed := fun m hm k hk => h.closed m hm k (List.mem_of_mem_erase hk)
  sound := by
    have hsound := h.sound
    match current with
    | none => trivial
    | some (.loop names left found) =>
      exact
        { hsound with
          toGlobbed := hsound.toGlobbed.remove n
          kept := fun m hm hfolder => hsound.kept m hm (List.mem_of_mem_erase hfolder) }
    | some (.rewrite names) => exact ⟨hsound.1.remove n, hsound.2⟩
  known := fun m => by
    match current with
    | none | some (.loop ..) | some (.rewrite _) => exact h.known m
  exact := fun honce m hm => by
    have hcount := h.exact honce m (List.mem_of_mem_erase hm)
    match current with
    | none | some (.loop ..) | some (.rewrite _) => exact hcount

/-- The call begins. -/
theorem begins (h : Calling once s none) (hperm : names.Perm s.folder) :
    Calling once s.called (some (.loop names names false)) where
  toTracked := { h.toTracked with text := h.text }
  plain := h.plain
  closed := h.closed
  sound :=
    { nodup := hperm.nodup_iff.mpr h.nodup
      arrived := fun m hm => h.folder m (hperm.subset hm)
      closed := fun _ _ _ hfolder _ => hperm.symm.subset hfolder
      suffix := List.suffix_rfl
      kept := fun _ _ hn => hperm.symm.subset hn
      recognized := fun m hm n hn => h.closed m hm n (hperm.subset hn)
      passed := fun _ _ => Or.inl
      found := nofun }
  known := fun n hn => h.known n (hn.resolve_left fun hpassed => hpassed.2 hpassed.1)
  exact := fun honce n hn => (h.exact honce n hn).imp_right fun hknown hmem => Or.inr (hknown hmem)

/-- A name that was there when `glob` was called is found in `processed_files` when it is listed. -/
theorem coreExisting_iff (h : Calling once s current) (hn : n ∈ s.arrived)
    (hclosed : ∀ m ∈ s.listed, n <+: m → n ∈ s.listed) :
    coreExisting (s.processedFiles.getD []) (corePath n) = true ↔ n ∈ s.listed := by
  rw [h.coreExisting_eq hn, begins_iff_of_plain (h.plain n hn) fun m hm => h.plain m (h.listed m hm)]
  constructor
  · rintro ⟨m, hm, hstarts⟩
    exact hclosed m hm hstarts
  · exact fun hmem => ⟨n, hmem, List.prefix_rfl⟩

/-- The loop passes over a file that is listed. -/
theorem passes (h : Calling once s (some (.loop names (n :: left) found))) (hlisted : n ∈ s.listed) :
    Calling once s (some (.loop names left found)) where
  toTracked := h.toTracked
  plain := h.plain
  closed := h.closed
  sound :=
    { h.sound with
      suffix := (List.suffix_cons n left).trans h.sound.suffix
      passed := fun hfound m hm => by
        rcases h.sound.passed hfound m hm with hleft | hmem
        · rcases List.mem_cons.mp hleft with rfl | hleft
          · exact Or.inr hlisted
          · exact Or.inl hleft
        · exact Or.inr hmem }
  known := fun m hm => by
    by_cases hmn : m ∈ s.listed
    · exact h.known m (Or.inr hmn)
    · obtain ⟨hname, hleft⟩ := hm.resolve_right hmn
      refine h.known m (Or.inl ⟨hname, fun hmem => ?_⟩)
      rcases List.mem_cons.mp hmem with rfl | hmem
      · exact hmn hlisted
      · exact hleft hmem
  exact := fun honce m hm => (h.exact honce m hm).imp_right fun hknown hmem => by
    rcases hknown hmem with ⟨hname, hleft⟩ | hmn
    · exact Or.inl ⟨hname, fun hmem => hleft (List.mem_cons_of_mem _ hmem)⟩
    · exact Or.inr hmn

/-- The loop reports a file that is not listed. -/
theorem reports (h : Calling once s (some (.loop names (n :: left) found))) (hlisted : n ∉ s.listed) :
    Calling once { s with reported := s.reported ++ [corePath n] } (some (.loop names left true)) := by
  have hname : n ∈ names := h.sound.suffix.subset List.mem_cons_self
  have hleft : n ∉ left := (List.nodup_cons.mp (h.sound.nodup.sublist h.sound.suffix.sublist)).1
  have hreported {m : Text} (hm : corePath m ∈ s.reported ++ [corePath n]) : corePath m ∈ s.reported ∨ m = n := by
    rcases List.mem_append.mp hm with hbefore | hnew
    · exact Or.inl hbefore
    · exact Or.inr (corePath_injective (List.mem_singleton.mp hnew))
  exact
    { nodup := h.nodup
      folder := h.folder
      core := h.core
      listed := h.listed
      reported := fun m hm => by
        rcases hreported hm with hbefore | rfl
        · exact h.reported m hbefore
        · exact h.sound.arrived m hname
      text := h.text
      plain := h.plain
      closed := h.closed
      sound :=
        { h.sound with
          suffix := (List.suffix_cons n left).trans h.sound.suffix
          passed := nofun
          found := fun _ => List.ne_nil_of_mem hname }
      known := fun m hm => by
        by_cases hmn : m = n
        · exact hmn ▸ List.mem_append_right _ (List.mem_singleton_self _)
        · refine List.mem_append_left _ (h.known m (hm.imp_left fun hpassed => ⟨hpassed.1, fun hmem => ?_⟩))
          exact (List.mem_cons.mp hmem).elim hmn hpassed.2
      exact := fun honce m hm => by
        obtain ⟨hcount, hknown⟩ := h.exact honce m hm
        by_cases hmn : m = n
        · subst hmn
          have hnone : corePath m ∉ s.reported := fun hmem =>
            (hknown hmem).elim (fun hpassed => hpassed.2 List.mem_cons_self) hlisted
          refine ⟨?_, fun _ => Or.inl ⟨hname, hleft⟩⟩
          dsimp only
          rw [List.count_append, List.count_eq_zero.mpr hnone, List.count_singleton_self]
        · have hother : corePath m ∉ [corePath n] := fun hmem =>
            hmn (corePath_injective (List.mem_singleton.mp hmem))
          refine ⟨?_, fun hmem => ?_⟩
          · dsimp only
            rwa [List.count_append, List.count_eq_zero.mpr hother]
          · refine (hknown ((hreported hmem).resolve_right hmn)).imp_left fun hpassed => ⟨hpassed.1, fun hmem => ?_⟩
            exact hpassed.2 (List.mem_cons_of_mem _ hmem) }

/-- The loop has found nothing new. -/
theorem returns (h : Calling once s (some (.loop names [] false))) :
    Calling once s none ∧ ∀ n ∈ names, n ∈ s.listed := by
  have hlisted : ∀ n ∈ names, n ∈ s.listed := fun n hn => (h.sound.passed rfl n hn).resolve_left List.not_mem_nil
  refine ⟨?_, hlisted⟩
  exact
    { toTracked := h.toTracked
      plain := h.plain
      closed := h.closed
      sound := trivial
      known := fun n hn => h.known n (Or.inr hn)
      exact := fun honce n hn => (h.exact honce n hn).imp_right fun hknown hmem =>
        (hknown hmem).elim (fun hpassed => hlisted n hpassed.1) id }

/-- `processed_files` is opened for writing. -/
theorem truncates (h : Calling once s (some (.loop names [] true))) :
    Calling once { s with processedFiles := some [], listed := [] } (some (.rewrite names)) where
  nodup := h.nodup
  folder := h.folder
  core := h.core
  listed := nofun
  reported := h.reported
  text := rfl
  plain := h.plain
  closed := nofun
  sound := ⟨{ h.sound with }, rfl, h.sound.found rfl⟩
  known := fun n hn => h.known n (Or.inl ⟨hn, List.not_mem_nil⟩)
  exact := fun honce n hn => (h.exact honce n hn).imp_right fun hknown hmem =>
    (hknown hmem).elim And.left fun hlisted => h.sound.kept n hlisted hn

theorem writes (h : Calling once s (some (.rewrite names))) :
    Calling once { s with processedFiles := some (PyRepr.reprList (names.map corePath)), listed := names } none where
  nodup := h.nodup
  folder := h.folder
  core := h.core
  listed := h.sound.1.arrived
  reported := h.reported
  text := by rw [written, if_neg h.sound.2.2, Option.getD_some]
  plain := h.plain
  closed := h.sound.1.closed
  sound := trivial
  known := h.known
  exact := h.exact

/-- What a step of the call preserves; when it returns, the names that `glob` has answered are listed. -/
theorem resume (h : Calling once s (some call)) : Calling once (s.resume call).1 (s.resume call).2 ∧
    ((s.resume call).2 = none → ∀ n ∈ call.names, n ∈ (s.resume call).1.listed) := by
  match call with
  | .loop names (n :: left) found =>
    have hname : n ∈ names := h.sound.suffix.subset List.mem_cons_self
    have hexisting := h.coreExisting_iff (h.sound.arrived n hname) fun m hm => h.sound.recognized m hm n hname
    rw [State.resume]
    split
    · next hfound => exact ⟨h.passes (hexisting.mp hfound), nofun⟩
    · next hfound => exact ⟨h.reports (mt hexisting.mpr hfound), nofun⟩
  | .loop names [] true => exact ⟨h.truncates, nofun⟩
  | .loop names [] false => exact ⟨h.returns.1, fun _ => h.returns.2⟩
  | .rewrite names => exact ⟨h.writes, fun _ _ hn => hn⟩

/-- The daemon dies in the call. -/
theorem dies (h : Calling once s current) (hquiet : once → ∀ c, current = some c → c.quiet = true) : Calling once s none where
  toTracked := h.toTracked
  plain := h.plain
  closed := h.closed
  sound := trivial
  known := fun n hn => by
    match current with
    | none => exact h.known n hn
    | some (.loop names left found) => exact h.known n (Or.inr hn)
    | some (.rewrite names) =>
      rw [State.Known, h.sound.2.1] at hn
      cases hn
  exact := fun honce n hn => by
    obtain ⟨hcount, hknown⟩ := h.exact honce n hn
    refine ⟨hcount, fun hmem => ?_⟩
    match current with
    | none => exact hknown hmem
    | some (.loop names left found) =>
      have hfound : found = false := Bool.not_eq_true' _ ▸ hquiet honce _ rfl
      rcases hknown hmem with ⟨hname, hleft⟩ | hlisted
      · exact (h.sound.passed hfound n hname).resolve_left hleft
      · exact hlisted
    | some (.rewrite names) => cases hquiet honce _ rfl

end Calling

/-! ### The other parts of the state -/

theorem resume_folder (s : State) (call : Call) : (s.resume call).1.folder = s.folder := by
  match call with
  | .loop names (n :: left) found =>
    rw [State.resume]
    split <;> rfl
  | .loop _ [] true | .loop _ [] false | .rewrite _ => rfl

theorem resume_names {next : Call} (h : (s.resume call).2 = some next) : next.names = call.names := by
  match call with
  | .loop names (n :: left) found =>
    rw [State.resume] at h
    split at h <;> cases h <;> rfl
  | .loop _ [] true =>
    cases h
    rfl
  | .loop _ [] false | .rewrite _ => cases h

end CrashProcessing
end OpsSupportability
