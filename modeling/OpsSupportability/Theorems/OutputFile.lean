import OpsSupportability.Lib.Paths
import OpsSupportability.OutputFile

/-! Where the stored output goes: the path that is opened is that of the name in the directory, which is a file of the
    directory if and only if the name, walked from the directory, comes back to it. -/

namespace OpsSupportability
namespace OutputFile

section
variable {fname file path : Text} {feature : Option Text} {force : Bool} {name : Text}

/-! ### The path that is opened -/

theorem storeOutput_opened (env : Env) (filename : Text) (feature : Option Text) (force : Bool) :
    (storeOutput env filename feature force).opened = some (filename, force) := by
  unfold storeOutput
  split
  · rfl
  · rfl
  · split <;> rfl

theorem cliShowTechFile_opened (env : Env) (fname : Text) (feature : Option Text) (force : Bool) :
    (cliShowTechFile env (some fname) feature force).opened =
      if fname.length > charbuf - 11 then none else some (filenameOf fname, force) := by
  unfold cliShowTechFile
  dsimp only
  by_cases hlen : fname.length > charbuf - 11
  · rw [if_pos hlen, if_pos hlen]
  · rw [if_neg hlen, if_neg hlen]
    split
    · rfl
    · exact storeOutput_opened env _ feature force

theorem diagDumpOpened_eq_some {env : DiagDump.Env} :
    diagDumpOpened env name (some file) = some path ↔
      env.signals = true ∧ (∃ features f, env.featureMapping = some features ∧ features.find? (·.name == name) = some f) ∧
        Regex.accepts DiagDump.diagFileNameRegex file = true ∧ env.directory = true ∧ filePathOf file = path := by
  unfold diagDumpOpened
  cases env.signals with
  | false => simp
  | true =>
    cases env.featureMapping with
    | none => simp
    | some features =>
      cases hfind : features.find? (·.name == name) with
      | none => simp [hfind]
      | some f =>
        cases haccepts : Regex.accepts DiagDump.diagFileNameRegex file <;> cases env.directory <;>
          simp [hfind, haccepts]

theorem openPath_of_opened {env : DiagDump.Env} (haccepts : Regex.accepts DiagDump.diagFileNameRegex file = true)
    (hdirectory : env.directory = true) :
    DiagDump.openPath env file =
      match env.openError (filePathOf file) with
      | none => .ok (filePathOf file)
      | some reason => .error ("failed to open file error:".toList ++ reason ++ " file:".toList ++ filePathOf file) := by
  rw [DiagDump.openPath, haccepts, hdirectory]
  rfl

/-- The command does what its call of `open` lets it do. -/
theorem vtyshDiagDumpShow_opened {env : DiagDump.Env} (h : diagDumpOpened env name (some file) = some path) :
    ∃ f, DiagDump.vtyshDiagDumpShow env name (some file) =
      match env.openError path with
      | none => DiagDump.dumpFeature env f name (some path)
      | some reason =>
        ⟨.warning, DiagDump.printed ("failed to open file error:".toList ++ reason ++ " file:".toList ++ path)⟩ := by
  obtain ⟨hsignals, ⟨features, f, hfeatures, hfind⟩, haccepts, hdirectory, rfl⟩ := diagDumpOpened_eq_some.mp h
  refine ⟨f, ?_⟩
  rw [DiagDump.vtyshDiagDumpShow, hsignals, hfeatures]
  dsimp only
  rw [hfind]
  dsimp only
  rw [openPath_of_opened haccepts hdirectory]
  cases env.openError (filePathOf file) <;> rfl

theorem openPath_of_not {env : DiagDump.Env}
    (h : Regex.accepts DiagDump.diagFileNameRegex file = true → env.directory = false) :
    ∃ text, ∀ openError, DiagDump.openPath { env with openError } file = .error text := by
  cases haccepts : Regex.accepts DiagDump.diagFileNameRegex file with
  | false =>
    refine ⟨"Failed to validate destination file name:".toList ++ file, fun openError => ?_⟩
    rw [DiagDump.openPath, haccepts]
    rfl
  | true =>
    refine ⟨"failed to check or create dir:".toList ++ DiagDump.diagDumpDir, fun openError => ?_⟩
    rw [DiagDump.openPath, haccepts, h haccepts]
    rfl

/-- Without a call of `open` the command does not depend on it. -/
theorem vtyshDiagDumpShow_unopened {env : DiagDump.Env} (h : diagDumpOpened env name (some file) = none)
    (openError : Text → Option Text) :
    DiagDump.vtyshDiagDumpShow { env with openError } name (some file) =
      DiagDump.vtyshDiagDumpShow env name (some file) := by
  have hnot : ∀ path, diagDumpOpened env name (some file) ≠ some path := by
    rw [h]
    exact nofun
  unfold DiagDump.vtyshDiagDumpShow
  dsimp only
  cases hsignals : env.signals with
  | false => rfl
  | true =>
    cases hfeatures : env.featureMapping with
    | none => rfl
    | some features =>
      dsimp only
      cases hfind : features.find? (·.name == name) with
      | none => rfl
      | some f =>
        have hclosed : Regex.accepts DiagDump.diagFileNameRegex file = true → env.directory = false := by
          intro haccepts
          rw [← Bool.not_eq_true]
          intro hdirectory
          exact hnot _ (diagDumpOpened_eq_some.mpr ⟨hsignals, ⟨features, f, hfeatures, hfind⟩, haccepts, hdirectory, rfl⟩)
        obtain ⟨text, herror⟩ := openPath_of_not hclosed
        rw [← hsignals, ← hfeatures]
        dsimp only
        rw [herror openError, show DiagDump.openPath env file = _ from herror env.openError]

/-! ### Directories -/

/-- The name is refused before `open` is called. -/
def Command.Refuses (c : Command) (file : Text) : Prop :=
  match c with
  | .showTech _ _ => charbuf - 11 < file.length
  | .diagDump _ => Regex.accepts DiagDump.diagFileNameRegex file = false

instance (c : Command) (file : Text) : Decidable (c.Refuses file) :=
  match c with
  | .showTech _ _ => inferInstanceAs (Decidable (_ < _))
  | .diagDump _ => inferInstanceAs (Decidable (_ = _))

/-- The part of the name that is in the path. -/
def Command.part (c : Command) (file : Text) : Text :=
  match c with
  | .showTech _ _ => file
  | .diagDump _ => file.take 241

theorem filePathOf_eq (file : Text) : filePathOf file = DiagDump.diagDumpDir ++ '/' :: file.take 241 := by
  have hdir : DiagDump.diagDumpDir.length = 13 := by decide
  rw [filePathOf, List.take_append, hdir, List.take_of_length_le (by omega)]
  rfl

/-- With a mapping that has the feature, and without errors. -/
def readyFor (feature : Text) : DiagDump.Env where
  signals := true
  featureMapping := some [⟨feature, []⟩]
  directory := true
  openError _ := none
  time := []
  connect _ := false
  transport _ := false
  server _ := .python none
  unixctl := .basic

theorem opens_iff (c : Command) (file path : Text) :
    c.Opens file path ↔ ¬ c.Refuses file ∧ path = c.directory ++ '/' :: c.part file := by
  cases c with
  | showTech feature force =>
    have hname : filenameOf file = "/tmp".toList ++ '/' :: file := rfl
    constructor
    · rintro ⟨env, henv⟩
      rw [cliShowTechFile_opened] at henv
      split at henv
      · cases henv
      · next hlen => exact ⟨hlen, by rw [← (Prod.mk.inj (Option.some.inj henv)).1, hname]; rfl⟩
    · rintro ⟨hlen, rfl⟩
      refine ⟨⟨fun _ _ => none, fun _ => [], fun _ => none, true⟩, ?_⟩
      rw [cliShowTechFile_opened, if_neg (show ¬ file.length > charbuf - 11 from hlen), hname]
      rfl
  | diagDump feature =>
    constructor
    · rintro ⟨env, henv⟩
      obtain ⟨-, -, haccepts, -, rfl⟩ := diagDumpOpened_eq_some.mp henv
      refine ⟨fun hrefused => ?_, filePathOf_eq file⟩
      exact absurd (haccepts.symm.trans hrefused) (by decide)
    · rintro ⟨haccepts, rfl⟩
      refine ⟨readyFor feature, diagDumpOpened_eq_some.mpr ⟨rfl, ⟨_, ⟨feature, []⟩, rfl, ?_⟩, ?_, rfl, filePathOf_eq file⟩⟩
      · exact List.find?_cons_of_pos (by simp)
      · exact Bool.eq_true_of_not_eq_false haccepts

/-- `open` is called for files that are directly inside the directory only. -/
def Confined (c : Command) (file : Text) : Prop := ∀ path, c.Opens file path → Paths.Inside c.directory path

theorem confined_iff_inside {c : Command} :
    Confined c file ↔ c.Refuses file ∨ Paths.Inside c.directory (c.directory ++ '/' :: c.part file) := by
  by_cases hrefuses : c.Refuses file
  · exact iff_of_true (fun path hopens => absurd hrefuses ((opens_iff c file path).mp hopens).1) (.inl hrefuses)
  · rw [or_iff_right hrefuses]
    constructor
    · intro h
      exact h _ ((opens_iff c file _).mpr ⟨hrefuses, rfl⟩)
    · intro h path hopens
      obtain ⟨-, rfl⟩ := (opens_iff c file path).mp hopens
      exact h

/-- The file is in the directory if and only if its name is refused, or leads from the directory back to it and to one
    more name. -/
theorem confined_iff (c : Command) (file : Text) :
    Confined c file ↔
      c.Refuses file ∨ (Paths.normal (Paths.components (c.part file))).Below (Paths.resolve c.directory) := by
  rw [confined_iff_inside, Paths.inside_iff]

example : (Paths.normal (Paths.components "a/../../tmp//x".toList)).Below (Paths.resolve "/tmp".toList) := by decide

/-- A name without a slash is refused, or is a file of the directory unless it is one of the three that are no names. -/
theorem confined_iff_of_noSlash {c : Command} (hslash : '/' ∉ file) :
    Confined c file ↔ c.Refuses file ∨ ¬ Paths.Stays (c.part file) ∧ c.part file ≠ ['.', '.'] := by
  have hpart : '/' ∉ c.part file := by
    cases c with
    | showTech _ _ => exact hslash
    | diagDump _ => exact fun hmem => hslash (List.mem_of_mem_take hmem)
  rw [confined_iff_inside, Paths.inside_iff, Paths.below_singleton hpart]

/-- The expression leaves two names of one line that are no files. -/
theorem diagDump_confined_iff (hline : '\n' ∉ file) (feature : Text) :
    Confined (.diagDump feature) file ↔ file ≠ ['.'] ∧ file ≠ ['.', '.'] := by
  cases haccepts : Regex.accepts DiagDump.diagFileNameRegex file with
  | false =>
    have hone : Regex.accepts DiagDump.diagFileNameRegex ['.'] = true :=
      (Regex.accepts_interval (by decide) (by decide)).mpr (by decide)
    have htwo : Regex.accepts DiagDump.diagFileNameRegex ['.', '.'] = true :=
      (Regex.accepts_interval (by decide) (by decide)).mpr (by decide)
    refine iff_of_true (confined_iff_inside.mpr (.inl haccepts)) ⟨?_, ?_⟩
    · rintro rfl
      exact absurd (haccepts.symm.trans hone) (by decide)
    · rintro rfl
      exact absurd (haccepts.symm.trans htwo) (by decide)
  | true =>
    obtain ⟨⟨hpos, hlen⟩, hchars⟩ := (Regex.accepts_interval (by decide) hline).mp haccepts
    have hslash : '/' ∉ file := fun hmem => absurd (hchars _ hmem) (by decide)
    have hpart : (Command.diagDump feature).part file = file := List.take_of_length_le (show file.length ≤ 241 by omega)
    have hrefuses : ¬ (Command.diagDump feature).Refuses file := fun h => absurd (haccepts.symm.trans h) (by decide)
    rw [confined_iff_of_noSlash hslash, or_iff_right hrefuses, hpart, Paths.Stays, not_or, and_assoc,
      and_iff_right (List.length_pos_iff.mp hpos)]

/-- Names that lead out of the directories: up from `/tmp`, and the parent of the other one itself. -/
theorem outside :
    ¬ Confined (.showTech none false) "../etc/x".toList ∧ ¬ Confined (.diagDump "lldp".toList) "..".toList := by
  constructor
  · rw [confined_iff_inside, Paths.inside_iff]
    decide
  · rw [diagDump_confined_iff (by decide)]
    decide

end

end OutputFile
end OpsSupportability
