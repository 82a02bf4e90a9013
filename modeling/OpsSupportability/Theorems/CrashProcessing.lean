import Mathlib.Data.List.Count
import Mathlib.Data.List.Nodup
import OpsSupportability.CrashProcessing
import OpsSupportability.Lib.Runs

/-! Crash reports over whole runs. A path is searched in the printed form of the list of processed files: it is
    found when the printed name of a listed file starts with its name. A file is reported exactly once when this
    happens for the listed files and for no others. -/

namespace OpsSupportability
namespace CrashProcessing

open PyRepr (Plain)

/-! ### Names in the printed list -/

/-- The printed form of a name, and what stands behind it up to the next path. -/
def printed (name : Text) : List Text → Text
  | [] => PyRepr.escaped name ++ [PyRepr.quoteOf name, ']']
  | next :: _ => PyRepr.escaped name ++ [PyRepr.quoteOf name, ',', ' ', PyRepr.quoteOf next]

/-- The printed form of a listed name starts with the given one. -/
def begins (name : Text) : List Text → Bool
  | [] => false
  | listed :: rest => name.isPrefixOf (printed listed rest) || begins name rest

section
variable {n s : Text} {l : List Text}

theorem plain_coreFolder : ∀ c ∈ coreFolder, Plain c := by decide

theorem corePath_injective : Function.Injective corePath := fun _ _ h => List.append_cancel_left h

theorem quoteOf_corePath (n : Text) : PyRepr.quoteOf (corePath n) = PyRepr.quoteOf n :=
  PyRepr.quoteOf_append plain_coreFolder n

theorem escaped_corePath (n : Text) : PyRepr.escaped (corePath n) = coreFolder ++ PyRepr.escaped n :=
  PyRepr.escaped_append plain_coreFolder n

theorem slash_ne_quoteOf (n : Text) : '/' ≠ PyRepr.quoteOf n :=
  Plain.ne_quoteOf (by decide) n

theorem plain_core : ∀ c ∈ "core".toList, Plain c := by decide

theorem CoreName.escaped_ne (h : CoreName n) (x y : Text) : PyRepr.escaped n ++ x ≠ 'v' :: y := by
  obtain ⟨t, rfl⟩ := h.1
  rw [PyRepr.escaped_append plain_core, List.append_assoc]
  intro heq
  have hhead : 'c' = 'v' := (List.cons.inj heq).1
  cases hhead

theorem CoreName.slash_notMem_escaped (h : CoreName n) : '/' ∉ PyRepr.escaped n :=
  PyRepr.notMem_escaped (by decide) (by decide) h.2.1

/-- A path is found in a folder's path at its start, or behind it. -/
theorem corePath_infix_append {x : Text} (hx : ∀ y, x ≠ 'v' :: y) :
    corePath n <:+: coreFolder ++ x ↔ n <+: x ∨ corePath n <:+: x := by
  have hlater {p : Text} : '/' :: 'v' :: p <:+: "var/lib/systemd/coredump/".toList ++ x ↔ '/' :: 'v' :: p <:+: x := by
    have hhead : ¬ 'v' :: p <+: x := by
      rintro ⟨y, hy⟩
      exact hx _ hy.symm
    rw [Text.toList_eq (show "var/lib/systemd/coredump/" = String.ofList ['v', 'a', 'r', '/', 'l', 'i', 'b', '/', 's',
      'y', 's', 't', 'e', 'm', 'd', '/', 'c', 'o', 'r', 'e', 'd', 'u', 'm', 'p', '/'] from rfl)]
    simp only [List.cons_append, List.nil_append, List.infix_cons_iff, List.cons_prefix_cons, Char.reduceEq, false_and,
      and_false, false_or, hhead]
  have hfirst : corePath n <+: coreFolder ++ x ↔ n <+: x := List.prefix_append_right_inj coreFolder
  rw [← hfirst]
  exact List.infix_cons_iff.trans (or_congr_right hlater)

/-- The search in a printed path: its name, and what is printed behind it. -/
theorem infix_repr_append (hs : CoreName s) (x : Text) :
    corePath n <:+: PyRepr.repr (corePath s) ++ x ↔
      n <+: PyRepr.escaped s ++ PyRepr.quoteOf s :: x ∨ corePath n <:+: x := by
  have hquote : '/' ∉ [PyRepr.quoteOf s] := mt List.mem_singleton.mp (slash_ne_quoteOf s)
  have hname : '/' ∉ PyRepr.escaped s ++ [PyRepr.quoteOf s] :=
    fun hmem => (List.mem_append.mp hmem).elim hs.slash_notMem_escaped hquote
  have hbehind : corePath n <:+: (PyRepr.escaped s ++ [PyRepr.quoteOf s]) ++ x ↔ corePath n <:+: x :=
    PyRepr.cons_infix_append hname
  rw [List.append_cons, ← hbehind, ← corePath_infix_append (by rw [List.append_assoc]; exact hs.escaped_ne _)]
  refine Iff.trans (iff_of_eq (congrArg _ ?_)) (PyRepr.cons_infix_append hquote)
  rw [PyRepr.repr, quoteOf_corePath, escaped_corePath]
  simp only [List.cons_append, List.nil_append, List.append_assoc]

theorem rest_corePath (t : Text) (l : List Text) :
    ∃ x, PyRepr.rest (corePath t :: l) = PyRepr.quoteOf t :: '/' :: x := by
  have hrepr : PyRepr.repr (corePath t) = PyRepr.quoteOf t :: '/' ::
      ("var/lib/systemd/coredump/".toList ++ PyRepr.escaped t ++ [PyRepr.quoteOf t]) := by
    rw [PyRepr.repr, quoteOf_corePath, escaped_corePath]
    rfl
  obtain ⟨x, hx⟩ := PyRepr.rest_cons (corePath t) l
  rw [hx, hrepr, List.cons_append, List.cons_append]
  exact ⟨_, rfl⟩

/-- The search in the printed list. -/
theorem infix_rest_iff (hn : CoreName n) (hl : ∀ s ∈ l, CoreName s) :
    corePath n <:+: PyRepr.rest (l.map corePath) ↔ begins n l = true := by
  have hnone (u : Text) (hu : '/' ∉ u) : ¬ corePath n <:+: u := fun hin => hu (hin.subset List.mem_cons_self)
  induction l with
  | nil => exact iff_of_false (hnone _ (by decide)) nofun
  | cons s l ih =>
    have hs : CoreName s := hl s List.mem_cons_self
    have ih := ih fun t ht => hl t (List.mem_cons_of_mem _ ht)
    rw [begins, Bool.or_eq_true, List.isPrefixOf_iff_prefix]
    cases l with
    | nil =>
      refine (infix_repr_append hs _).trans (or_congr Iff.rfl (Iff.trans ?_ ih))
      exact iff_of_false (hnone _ (by decide)) (hnone _ (by decide))
    | cons t l =>
      refine (infix_repr_append hs _).trans (or_congr ?_ (Iff.trans ?_ ih))
      · obtain ⟨x, hx⟩ := rest_corePath t (l.map corePath)
        have hsep : PyRepr.escaped s ++ PyRepr.quoteOf s :: ',' :: ' ' :: PyRepr.quoteOf t :: '/' :: x =
            printed s (t :: l) ++ '/' :: x := (List.append_assoc _ [_, _, _, _] _).symm
        rw [hx, hsep]
        exact PyRepr.prefix_append_cons hn.2.1
      · have hcomma : '/' ∉ [',', ' '] := by decide
        exact PyRepr.cons_infix_append hcomma

/-- A plain name is printed as it is. -/
theorem begins_iff_of_plain (hn : ∀ c ∈ n, Plain c) (hl : ∀ s ∈ l, ∀ c ∈ s, Plain c) :
    begins n l = true ↔ ∃ s ∈ l, n <+: s := by
  have hquote (s : Text) : PyRepr.quoteOf s ∉ n := fun hmem => (hn _ hmem).ne_quoteOf s rfl
  have hprinted (s : Text) (hs : ∀ c ∈ s, Plain c) (l : List Text) : n <+: printed s l ↔ n <+: s := by
    cases l <;> rw [printed, PyRepr.escaped_of_plain hs] <;> exact PyRepr.prefix_append_cons (hquote s)
  induction l with
  | nil => exact iff_of_false nofun nofun
  | cons s l ih =>
    rw [begins, Bool.or_eq_true, List.isPrefixOf_iff_prefix, hprinted s (hl s List.mem_cons_self), List.exists_mem_cons_iff]
    exact or_congr Iff.rfl (ih fun t ht => hl t (List.mem_cons_of_mem _ ht))

/-- The backslash of a name is printed twice. -/
example : begins "core.a\\x2db".toList ["core.a\\x2db".toList] = false := by decide

/-- The text of `processed_files` for the names for which it was written last. -/
def written (l : List Text) : Text := if l = [] then [] else PyRepr.reprList (l.map corePath)

theorem coreExisting_written (hn : CoreName n) (hl : ∀ s ∈ l, CoreName s) :
    coreExisting (written l) (corePath n) = begins n l := by
  cases l with
  | nil => rfl
  | cons s l =>
    have hline : Fgets.lines (PyRepr.reprList ((s :: l).map corePath)) = [PyRepr.reprList ((s :: l).map corePath)] :=
      Fgets.lines_of_notMem (by rw [PyRepr.reprList_eq]; exact List.cons_ne_nil _ _) (PyRepr.newline_notMem_reprList _)
    have hbracket : '/' ∉ ['['] := by decide
    rw [written, if_neg (List.cons_ne_nil _ _), coreExisting, hline, List.any_cons, List.any_nil, Bool.or_false,
      PyRepr.reprList_eq, Bool.eq_iff_iff, decide_eq_true_iff]
    exact (PyRepr.cons_infix_append hbracket).trans (infix_rest_iff hn hl)

end

/-! ### Runs -/

/-- Each core file in the folder has been reported once. -/
def ReportedOnce (s : State) : Prop := ∀ n ∈ s.folder, s.reported.count (corePath n) = 1

/-- When the folder is looked through, the names that start the printed form of a listed name are those of the
    listed files. -/
def Recognized (s : State) (a : Action) : Prop :=
  a.globbed.isSome → ∀ n ∈ s.folder, begins n s.listed = true ↔ n ∈ s.listed

instance (s : State) (a : Action) : Decidable (Recognized s a) := inferInstanceAs (Decidable (_ → _))

instance (s : State) : Decidable (ReportedOnce s) := List.decidableBAll _ _

structure Tracked (s : State) : Prop where
  nodup : s.folder.Nodup
  folder : ∀ n ∈ s.folder, n ∈ s.arrived
  core : ∀ n ∈ s.arrived, CoreName n
  listed : ∀ n ∈ s.listed, n ∈ s.arrived
  reported : ∀ n, corePath n ∈ s.reported → n ∈ s.arrived
  text : s.processedFiles.getD [] = written s.listed

namespace Tracked
variable {s : State} {n : Text}

theorem init : Tracked State.init where
  nodup := List.nodup_nil
  folder := nofun
  core := nofun
  listed := nofun
  reported := nofun
  text := rfl

theorem arrive (h : Tracked s) (hn : CoreName n) (hnew : n ∉ s.arrived) :
    Tracked { s with folder := n :: s.folder, arrived := n :: s.arrived } where
  nodup := List.nodup_cons.mpr ⟨fun hmem => hnew (h.folder n hmem), h.nodup⟩
  folder := fun m hm => by
    rcases List.mem_cons.mp hm with rfl | hm
    · exact List.mem_cons_self
    · exact List.mem_cons_of_mem _ (h.folder m hm)
  core := fun m hm => by
    rcases List.mem_cons.mp hm with rfl | hm
    · exact hn
    · exact h.core m hm
  listed := fun m hm => List.mem_cons_of_mem _ (h.listed m hm)
  reported := fun m hm => List.mem_cons_of_mem _ (h.reported m hm)
  text := h.text

theorem remove (h : Tracked s) (n : Text) : Tracked { s with folder := s.folder.erase n } :=
  { h with
    nodup := h.nodup.erase n
    folder := fun m hm => h.folder m (List.mem_of_mem_erase hm) }

/-- A file that has not been there has not been reported. -/
theorem count_new (h : Tracked s) (hnew : n ∉ s.arrived) : s.reported.count (corePath n) = 0 :=
  List.count_eq_zero.mpr fun hmem => hnew (h.reported n hmem)

theorem coreExisting_eq (h : Tracked s) (hn : n ∈ s.arrived) :
    coreExisting (s.processedFiles.getD []) (corePath n) = begins n s.listed := by
  rw [h.text]
  exact coreExisting_written (h.core n hn) fun m hm => h.core m (h.listed m hm)

end Tracked

structure Inv (s : State) : Prop extends Tracked s where
  /-- The files that are listed have been reported, and of those that are there no others. -/
  count : ∀ n ∈ s.folder, s.reported.count (corePath n) = if n ∈ s.listed then 1 else 0

namespace Inv
variable {s t : State} {n : Text} {names : List Text}

theorem init : Inv State.init := ⟨.init, nofun⟩

theorem arrive (h : Inv s) (hn : CoreName n) (hnew : n ∉ s.arrived) :
    Inv { s with folder := n :: s.folder, arrived := n :: s.arrived } where
  toTracked := h.toTracked.arrive hn hnew
  count := fun m hm => by
    rcases List.mem_cons.mp hm with rfl | hm
    · rw [if_neg fun hmem => hnew (h.listed m hmem)]
      exact h.count_new hnew
    · exact h.count m hm

theorem remove (h : Inv s) (n : Text) : Inv { s with folder := s.folder.erase n } where
  toTracked := h.toTracked.remove n
  count := fun m hm => h.count m (List.mem_of_mem_erase hm)

/-- The names of the files that are reported. -/
theorem new (h : Inv s) (hperm : names.Perm s.folder) :
    (processCoredumps s.processedFiles (names.map corePath)).1 =
      (names.filter fun n => !begins n s.listed).map corePath := by
  rw [processCoredumps]
  dsimp only
  rw [List.filter_map]
  exact congrArg (List.map corePath) (List.filter_congr fun n hn =>
    congrArg (!·) (h.coreExisting_eq (h.folder n (hperm.subset hn))))

/-- How often a file has been reported after the folder was looked through. -/
theorem count_process (h : Inv s) (hperm : names.Perm s.folder) (hn : n ∈ s.folder) :
    (s.process names).reported.count (corePath n) =
      (if n ∈ s.listed then 1 else 0) + if begins n s.listed = true then 0 else 1 := by
  have hcount : names.count n = 1 := List.count_eq_one_of_mem (hperm.nodup_iff.mpr h.nodup) (hperm.symm.subset hn)
  have hnew : ((names.filter fun n => !begins n s.listed).map corePath).count (corePath n) =
      if begins n s.listed = true then 0 else 1 := by
    rw [List.count_map_of_injective _ _ corePath_injective]
    split
    · next hbegins =>
      refine List.count_eq_zero.mpr fun hmem => ?_
      rw [List.mem_filter, hbegins] at hmem
      exact Bool.noConfusion hmem.2
    · next hbegins => rw [List.count_filter (by simpa using hbegins), hcount]
  rw [State.process]
  dsimp only
  rw [List.count_append, h.new hperm, h.count n hn, hnew]

/-- Nothing is new and the text stays, or it is written for the files that are there. -/
theorem process_cases (h : Inv s) (hperm : names.Perm s.folder) :
    ((∀ n ∈ s.folder, begins n s.listed = true) ∧ (s.process names).listed = s.listed ∧
        (s.process names).processedFiles = some (written s.listed)) ∨
      (s.process names).listed = names ∧ (s.process names).processedFiles = some (written names) := by
  have hnew := h.new hperm
  have htext : (processCoredumps s.processedFiles (names.map corePath)).2 =
      if (processCoredumps s.processedFiles (names.map corePath)).1.isEmpty then written s.listed
      else PyRepr.reprList (names.map corePath) := by
    rw [← h.text]
    rfl
  cases hfilter : names.filter fun n => !begins n s.listed with
  | nil =>
    rw [hfilter] at hnew
    refine Or.inl ⟨fun n hn => ?_, ?_, ?_⟩
    · simpa using List.filter_eq_nil_iff.mp hfilter n (hperm.symm.subset hn)
    · simp only [State.process, hnew, List.map_nil, List.isEmpty_nil, if_true]
    · simp only [State.process, htext, hnew, List.map_nil, List.isEmpty_nil, if_true]
  | cons n l =>
    rw [hfilter] at hnew
    have hne : names ≠ [] := by
      rintro rfl
      cases hfilter
    refine Or.inr ⟨?_, ?_⟩
    · simp only [State.process, hnew, List.map_cons, List.isEmpty_cons, Bool.false_eq_true, if_false]
    · simp only [State.process, htext, hnew, List.map_cons, List.isEmpty_cons, Bool.false_eq_true, if_false, written, hne]

theorem process (h : Inv s) (hperm : names.Perm s.folder)
    (hrecognized : ∀ n ∈ s.folder, begins n s.listed = true ↔ n ∈ s.listed) : Inv (s.process names) := by
  have hlisted : ∀ n ∈ s.folder, n ∈ (s.process names).listed := by
    intro n hn
    rcases h.process_cases hperm with ⟨hfound, hl, -⟩ | ⟨hl, -⟩ <;> rw [hl]
    · exact (hrecognized n hn).mp (hfound n hn)
    · exact hperm.symm.subset hn
  refine { h with listed := ?_, reported := fun n hn => ?_, text := ?_, count := fun n hn => ?_ }
  · rcases h.process_cases hperm with ⟨-, hl, -⟩ | ⟨hl, -⟩ <;> rw [hl]
    · exact h.listed
    · exact fun n hn => h.folder n (hperm.subset hn)
  · rcases List.mem_append.mp hn with hbefore | hnew
    · exact h.reported n hbefore
    · have hnew : corePath n ∈ (processCoredumps s.processedFiles (names.map corePath)).1 := hnew
      rw [h.new hperm, List.mem_map_of_injective corePath_injective] at hnew
      exact h.folder n (hperm.subset (List.mem_filter.mp hnew).1)
  · rcases h.process_cases hperm with ⟨-, hl, ht⟩ | ⟨hl, ht⟩ <;> rw [hl, ht, Option.getD_some]
  · rw [h.count_process hperm hn, if_pos (hlisted n hn)]
    by_cases hmem : n ∈ s.listed
    · rw [if_pos hmem, if_pos ((hrecognized n hn).mpr hmem)]
    · rw [if_neg hmem, if_neg (mt (hrecognized n hn).mp hmem)]

/-- After the folder was looked through, each file in it has been reported once just when it was looked through as
    it should be. -/
theorem reportedOnce_process (h : Inv s) (hperm : names.Perm s.folder) :
    ReportedOnce (s.process names) ↔ ∀ n ∈ s.folder, begins n s.listed = true ↔ n ∈ s.listed := by
  refine forall₂_congr fun n hn => ?_
  rw [h.count_process hperm hn]
  by_cases hmem : n ∈ s.listed <;> by_cases hbegins : begins n s.listed = true <;> simp [hmem, hbegins]

end Inv

section
variable {s t : State} {a : Action} {names : List Text}

theorem step_process (hperm : names.Perm s.folder) : step s (.process names) = some (s.process names) := by
  rw [step, if_pos hperm]

theorem step_globbed (hglobbed : a.globbed = some names) (hstep : step s a = some t) :
    names.Perm s.folder ∧ t = s.process names := by
  cases a with
  | arrive n => cases hglobbed
  | remove n => cases hglobbed
  | restart l | process l =>
    obtain rfl : l = names := Option.some.inj hglobbed
    rw [step] at hstep
    split at hstep
    · next hperm => exact ⟨hperm, (Option.some.inj hstep).symm⟩
    · cases hstep

theorem Inv.next (h : Inv s) (hrecognized : Recognized s a) (hstep : step s a = some t) : Inv t := by
  cases hglobbed : a.globbed with
  | some names =>
    obtain ⟨hperm, rfl⟩ := step_globbed hglobbed hstep
    exact h.process hperm (hrecognized (by rw [hglobbed]; rfl))
  | none =>
    cases a with
    | restart names | process names => cases hglobbed
    | arrive n =>
      rw [step] at hstep
      split at hstep
      · next hnew =>
        cases hstep
        exact h.arrive hnew.1 hnew.2
      · cases hstep
    | remove n =>
      rw [step] at hstep
      split at hstep
      · cases hstep
        exact h.remove n
      · cases hstep

theorem Inv.of_reached (h : Runs.Reached step Recognized State.init s) : Inv s :=
  h.invariant Inv.init fun _ _ _ hinv hrecognized hstep => hinv.next hrecognized hstep

/-- In a run that has been recognized so far, each core file has been reported once after the folder was looked
    through just when this step was recognized as well. -/
theorem reportedOnce_iff_recognized (h : Runs.Reached step Recognized State.init s)
    (hglobbed : a.globbed = some names) (hstep : step s a = some t) : ReportedOnce t ↔ Recognized s a := by
  obtain ⟨hperm, rfl⟩ := step_globbed hglobbed hstep
  rw [Recognized, hglobbed, (Inv.of_reached h).reportedOnce_process hperm]
  exact ⟨fun hall _ => hall, fun hall => hall rfl⟩

end

def twoCores : List Action :=
  [.arrive "core.a".toList, .process ["core.a".toList], .arrive "core.b".toList]

def twoCoresEnd : State where
  folder := ["core.b".toList, "core.a".toList]
  processedFiles := some "['/var/lib/systemd/coredump/core.a']".toList
  arrived := ["core.b".toList, "core.a".toList]
  listed := ["core.a".toList]
  reported := ["/var/lib/systemd/coredump/core.a".toList]

theorem run_twoCores : Runs.run step Recognized State.init twoCores = some twoCoresEnd := by decide +kernel

theorem twoCores_reportedOnce :
    ReportedOnce (twoCoresEnd.process twoCoresEnd.folder) ↔ Recognized twoCoresEnd (.process twoCoresEnd.folder) :=
  reportedOnce_iff_recognized (Runs.reached_of_run run_twoCores) rfl (step_process (List.Perm.refl _))

/-! ### The name of a processed file starts with that of a new one -/

def prefixCores : List Action :=
  [.arrive "core.a.1".toList, .process ["core.a.1".toList], .arrive "core.a".toList]

def prefixCoresEnd : State where
  folder := ["core.a".toList, "core.a.1".toList]
  processedFiles := some "['/var/lib/systemd/coredump/core.a.1']".toList
  arrived := ["core.a".toList, "core.a.1".toList]
  listed := ["core.a.1".toList]
  reported := ["/var/lib/systemd/coredump/core.a.1".toList]

theorem run_prefixCores : Runs.run step (fun _ _ => True) State.init prefixCores = some prefixCoresEnd := by
  decide +kernel

theorem not_reportedOnce_prefixCores : ¬ ReportedOnce (prefixCoresEnd.process prefixCoresEnd.folder) := by
  decide +kernel

/-- The new file is taken for a processed one and never reported. -/
theorem prefix_unreported : ¬ ∀ s a names t, Runs.Reached step (fun _ _ => True) State.init s →
    a.globbed = some names → step s a = some t → ReportedOnce t := fun h =>
  not_reportedOnce_prefixCores
    (h _ (.process prefixCoresEnd.folder) _ _ (Runs.reached_of_run run_prefixCores) rfl (step_process (List.Perm.refl _)))

end CrashProcessing
end OpsSupportability
