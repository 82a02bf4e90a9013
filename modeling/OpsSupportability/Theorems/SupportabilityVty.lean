import Mathlib.Algebra.Order.BigOperators.Group.List
import Mathlib.Algebra.Order.Group.Nat
import OpsSupportability.SupportabilityVty

/-! The commands that are built at the start of vtysh against what they should offer: the opening, each
    alternative in order with a bar behind it, the closing, and a help line for each alternative. -/

namespace OpsSupportability
namespace SupportabilityVty

open ShowEvents (strncat strncpy maxCmdSize)
open FeatureMapping (Feature)

/-! ### What a command should be -/

/-- The fixed parts of a command and of its help text, and the room for the help text. -/
structure Offer where
  opening : Text
  closing : Text
  helpOpening : Text
  helpClosing : Text
  helpSize : Nat

def Offer.cmd (o : Offer) (names : List Text) : Text :=
  o.opening ++ names.flatMap (· ++ ['|']) ++ o.closing

def Offer.help (o : Offer) (lines : List Text) : Text :=
  o.helpOpening ++ lines.flatMap (· ++ ['\n']) ++ o.helpClosing

/-- The command and its help text can be represented. -/
def Offer.Fits (o : Offer) (names lines : List Text) : Prop :=
  (o.cmd names).length < maxCmdSize ∧ (o.help lines).length < o.helpSize

instance (o : Offer) (names lines : List Text) : Decidable (o.Fits names lines) :=
  inferInstanceAs (Decidable (_ ∧ _))

/-- The element for some alternatives: the whole command, or none if there is nothing to offer or no room. -/
def Offer.element (o : Offer) (names lines : List Text) : Option (Text × Text) :=
  if names ≠ [] ∧ o.Fits names lines then some (o.cmd names, o.help lines) else none

theorem strncat_take (size : Nat) (s t : Text) : strncat size (s.take (size - 1)) t = (s ++ t).take (size - 1) := by
  rw [strncat, Nat.sub_right_comm, Text.take_append_take]

/-- What is cut off at the end of the buffers is right only if nothing is cut off. -/
theorem clipped_eq_element_iff (o : Offer) {names lines : List Text} (hnames : names ≠ []) :
    some ((o.cmd names).take (maxCmdSize - 1), (o.help lines).take (o.helpSize - 1)) = o.element names lines ↔
      o.Fits names lines := by
  rw [Offer.element]
  constructor
  · intro h
    split at h
    · next hand => exact hand.2
    · cases h
  · intro hfits
    have hcmd : (o.cmd names).length ≤ maxCmdSize - 1 := Nat.le_pred_of_lt hfits.1
    have hhelp : (o.help lines).length ≤ o.helpSize - 1 := Nat.le_pred_of_lt hfits.2
    rw [if_pos ⟨hnames, hfits⟩, List.take_of_length_le hcmd, List.take_of_length_le hhelp]

/-! ### Buffers -/

/-- The buffers hold the beginning of two texts. -/
def Buffers.Holds (b : Buffers) (cmd help : Text) : Prop :=
  b = ⟨cmd.take (maxCmdSize - 1), help.take (maxFeatureHelpSize - 1)⟩

theorem Buffers.Holds.alternative {b : Buffers} {cmd help : Text} (h : b.Holds cmd help) (name desc : Text) :
    (b.alternative name desc).Holds (cmd ++ (name ++ ['|'])) (help ++ (desc ++ ['\n'])) := by
  subst h
  rw [Holds, Buffers.alternative]
  dsimp only
  rw [strncat_take, strncat_take, strncat_take, strncat_take, List.append_assoc, List.append_assoc]

/-- A command and a help text, each with its terminator inside its allocation. -/
def Inside (helpSize : Nat) (cmd help : Text) : Prop := cmd.length < maxCmdSize ∧ help.length < helpSize

theorem inside_take {helpSize : Nat} (hpos : 0 < helpSize) (cmd help : Text) :
    Inside helpSize (cmd.take (maxCmdSize - 1)) (help.take (helpSize - 1)) :=
  ⟨Nat.lt_of_le_of_lt (List.length_take_le _ _) (by decide),
    Nat.lt_of_le_of_lt (List.length_take_le _ _) (Nat.pred_lt_of_lt hpos)⟩

theorem Buffers.Holds.inside {b : Buffers} {cmd help : Text} (h : b.Holds cmd help) :
    Inside maxFeatureHelpSize b.cmd b.help := by
  subst h
  exact inside_take (by decide) cmd help

/-- An element that has been cut off at the ends of its buffers is inside of them. -/
theorem inside_of_element {helpSize : Nat} (hpos : 0 < helpSize) {p : Prop} [Decidable p] {cmd help : Text}
    {e : Text × Text}
    (h : (if p then none else some (cmd.take (maxCmdSize - 1), help.take (helpSize - 1))) = some e) :
    Inside helpSize e.1 e.2 := by
  split at h
  · cases h
  · obtain rfl := Option.some.inj h
    exact inside_take hpos cmd help

/-! ### `diag-dump` -/

def diagOffer : Offer where
  opening := diagDumpOpening
  closing := diagDumpClosing
  helpOpening := diagDumpStr
  helpClosing := diagDumpFeature ++ diagDumpFeatureBasic ++ diagDumpFeatureFile
  helpSize := maxFeatureHelpSize

def flaggedNames (featureHead : List Feature) : List Text := (featureHead.filter (·.diagFlag)).map (·.name)
def flaggedDescs (featureHead : List Feature) : List Text :=
  (featureHead.filter (·.diagFlag)).map fun f => f.desc.getD []

theorem diagLoop_holds {featureHead : List Feature} (hdesc : ∀ f ∈ featureHead, f.diagFlag = true → f.desc ≠ none)
    {b : Buffers} {cmd help : Text} (h : b.Holds cmd help) (install : Bool) :
    ∃ b', diagLoop featureHead b install = some (b', install || !(flaggedNames featureHead).isEmpty) ∧
      b'.Holds (cmd ++ (flaggedNames featureHead).flatMap (· ++ ['|']))
        (help ++ (flaggedDescs featureHead).flatMap (· ++ ['\n'])) := by
  induction featureHead generalizing b cmd help install with
  | nil =>
    refine ⟨b, ?_, ?_⟩
    · rw [diagLoop]
      simp [flaggedNames]
    · simpa [flaggedNames, flaggedDescs] using h
  | cons f fs ih =>
    have hrest := fun g hg => hdesc g (List.mem_cons_of_mem f hg)
    rw [diagLoop]
    cases hflag : f.diagFlag with
    | false =>
      have hnames : flaggedNames (f :: fs) = flaggedNames fs := by simp [flaggedNames, hflag]
      have hdescs : flaggedDescs (f :: fs) = flaggedDescs fs := by simp [flaggedDescs, hflag]
      rw [hnames, hdescs]
      exact ih hrest h install
    | true =>
      obtain ⟨desc, hd⟩ := Option.ne_none_iff_exists'.mp (hdesc f List.mem_cons_self hflag)
      have hnames : flaggedNames (f :: fs) = f.name :: flaggedNames fs := by simp [flaggedNames, hflag]
      have hdescs : flaggedDescs (f :: fs) = desc :: flaggedDescs fs := by simp [flaggedDescs, hflag, hd]
      obtain ⟨b', hloop, hb'⟩ := ih hrest (h.alternative f.name desc) true
      rw [hd, hnames, hdescs]
      refine ⟨b', ?_, ?_⟩
      · simpa using hloop
      · rw [List.flatMap_cons, List.flatMap_cons, ← List.append_assoc cmd, ← List.append_assoc help]
        exact hb'

theorem installDiagDump_eq {featureHead : List Feature} (hdesc : ∀ f ∈ featureHead, f.diagFlag = true → f.desc ≠ none) :
    installDiagDump featureHead = some ⟨0,
      if flaggedNames featureHead = [] then none
      else some ((diagOffer.cmd (flaggedNames featureHead)).take (maxCmdSize - 1),
        (diagOffer.help (flaggedDescs featureHead)).take (diagOffer.helpSize - 1))⟩ := by
  obtain ⟨b, hloop, hb⟩ := diagLoop_holds hdesc
    (rfl : Buffers.Holds ⟨strncpy maxCmdSize diagDumpOpening, strncpy maxFeatureHelpSize diagDumpStr⟩ _ _) false
  subst hb
  rw [installDiagDump, hloop]
  dsimp only [Option.map_some]
  rw [strncat_take, strncat_take, strncat_take, strncat_take]
  cases hnames : flaggedNames featureHead with
  | nil => rfl
  | cons name names =>
    have hhelp : diagOffer.help (flaggedDescs featureHead) =
        diagDumpStr ++ (flaggedDescs featureHead).flatMap (· ++ ['\n']) ++ diagDumpFeature ++ diagDumpFeatureBasic ++
          diagDumpFeatureFile := by
      simp only [Offer.help, diagOffer, List.append_assoc]
    rw [hhelp]
    rfl

/-- The command is right just when it fits. -/
theorem installDiagDump_iff {featureHead : List Feature} (hdesc : ∀ f ∈ featureHead, f.desc ≠ none) :
    installDiagDump featureHead =
        some ⟨0, diagOffer.element (flaggedNames featureHead) (flaggedDescs featureHead)⟩ ↔
      flaggedNames featureHead = [] ∨ diagOffer.Fits (flaggedNames featureHead) (flaggedDescs featureHead) := by
  rw [installDiagDump_eq fun f hf _ => hdesc f hf]
  by_cases hnames : flaggedNames featureHead = []
  · rw [if_pos hnames, Offer.element, if_neg fun h => h.1 hnames]
    exact iff_of_true rfl (.inl hnames)
  · rw [if_neg hnames, Option.some.injEq, Installation.mk.injEq, and_iff_right rfl,
      clipped_eq_element_iff diagOffer hnames]
    exact (or_iff_right hnames).symm

/-! ### `show tech` -/

def showTechOffer (doc : Text) : Offer where
  opening := showTechOpening
  closing := showTechClosing
  helpOpening := doc
  helpClosing := showTechFileStr ++ showTechFilenameStr
  helpSize := maxFeatureHelpSize

/-- Each scalar behind a `feature_name`, with the scalar in front of that `feature_name`. -/
def offered (prev : Text) : Option Text → List Text → List (Text × Text)
  | _, [] => []
  | desc?, key :: keys =>
    (desc?.map fun desc => (key, desc)).toList ++ offered key (if key = featureNameKey then some prev else none) keys

def showTechLoop (s : TechLoop) (scalars : List Text) : TechLoop := scalars.foldl TechLoop.scalar s

def TechLoop.init (doc : Text) : TechLoop :=
  ⟨⟨strncpy maxCmdSize showTechOpening, strncpy maxFeatureHelpSize doc⟩, false, false, [], []⟩

/-- The description that waits for the name. -/
def TechLoop.desc? (s : TechLoop) : Option Text := if s.found then some s.desc else none

def clip (desc : Text) : Text := strncpy maxHelpSize desc

/-- One scalar: the name that a description waits for, and the description that waits afterwards. -/
theorem TechLoop.scalar_eq (s : TechLoop) (key : Text) :
    (s.scalar key).buffers = (match s.desc? with
      | some desc => s.buffers.alternative key desc
      | none => s.buffers) ∧
    (s.scalar key).desc? = (if key = featureNameKey then some s.prev else none) ∧
    (s.scalar key).install = (s.install || s.desc?.isSome) ∧ (s.scalar key).prev = clip key := by
  unfold TechLoop.scalar TechLoop.desc?
  rcases s with ⟨buffers, found, install, prev, desc⟩
  cases found <;> by_cases hkey : key = featureNameKey <;> simp [hkey, clip]

theorem showTechLoop_holds (scalars : List Text) {s : TechLoop} {cmd help prev : Text} {desc? : Option Text}
    (h : s.buffers.Holds cmd help) (hprev : s.prev = clip prev) (hdesc : s.desc? = desc?.map clip) :
    (showTechLoop s scalars).buffers.Holds
        (cmd ++ ((offered prev desc? scalars).map (·.1)).flatMap (· ++ ['|']))
        (help ++ ((offered prev desc? scalars).map fun a => clip a.2).flatMap (· ++ ['\n'])) ∧
      (showTechLoop s scalars).install = (s.install || !(offered prev desc? scalars).isEmpty) := by
  induction scalars generalizing s cmd help prev desc? with
  | nil =>
    refine ⟨?_, ?_⟩
    · simpa [offered, showTechLoop] using h
    · simp [offered, showTechLoop]
  | cons key scalars ih =>
    obtain ⟨hbuffers, hnext, hinstall, hkey⟩ := s.scalar_eq key
    have hwaits : (s.scalar key).desc? = (if key = featureNameKey then some prev else none).map clip := by
      rw [hnext, hprev]
      split <;> rfl
    rw [hdesc] at hbuffers hinstall
    rw [offered]
    cases desc? with
    | none =>
      have hnow : (s.scalar key).buffers.Holds cmd help := by
        rw [hbuffers]
        exact h
      obtain ⟨hrest, hoffer⟩ := ih hnow hkey hwaits
      refine ⟨hrest, hoffer.trans ?_⟩
      rw [hinstall]
      simp
    | some desc =>
      have hnow : (s.scalar key).buffers.Holds (cmd ++ (key ++ ['|'])) (help ++ (clip desc ++ ['\n'])) := by
        rw [hbuffers]
        exact h.alternative key (clip desc)
      obtain ⟨hrest, hoffer⟩ := ih hnow hkey hwaits
      refine ⟨?_, hoffer.trans ?_⟩
      · rw [List.append_assoc cmd (key ++ ['|']), List.append_assoc help (clip desc ++ ['\n'])] at hrest
        exact hrest
      · rw [hinstall]
        simp

theorem installShowTech_eq (doc : Text) (scalars : List Text) :
    (installShowTech doc (some scalars)).element =
      if offered [] none scalars = [] then none
      else some (((showTechOffer doc).cmd ((offered [] none scalars).map (·.1))).take (maxCmdSize - 1),
        ((showTechOffer doc).help ((offered [] none scalars).map fun a => clip a.2)).take
          ((showTechOffer doc).helpSize - 1)) := by
  obtain ⟨hbuffers, hinstall⟩ := @showTechLoop_holds scalars (TechLoop.init doc) showTechOpening doc [] none rfl rfl rfl
  have hinit : scalars.foldl TechLoop.scalar
      ⟨⟨strncpy maxCmdSize showTechOpening, strncpy maxFeatureHelpSize doc⟩, false, false, [], []⟩ =
        showTechLoop (TechLoop.init doc) scalars := rfl
  rw [installShowTech]
  rw [hinit, hinstall, hbuffers]
  rw [strncat_take, strncat_take, strncat_take]
  cases hoffered : offered [] none scalars with
  | nil => rfl
  | cons a l =>
    have hhelp : (showTechOffer doc).help ((a :: l).map fun a => clip a.2) =
        doc ++ ((a :: l).map fun a => clip a.2).flatMap (· ++ ['\n']) ++ showTechFileStr ++ showTechFilenameStr := by
      simp only [Offer.help, showTechOffer, List.append_assoc]
    rw [hhelp]
    rfl

/-- Lines that are shortened are the same text only if none is. -/
theorem map_clip_eq_of_help_eq {o : Offer} {lines : List Text} {n : Nat}
    (h : (o.help (lines.map clip)).take n = o.help lines) : ∀ line ∈ lines, line.length < maxHelpSize := by
  have hle : (o.help lines).length ≤ (o.help (lines.map clip)).length := h ▸ List.length_take_le' _ _
  have hlines : (lines.map (·.length + 1)).sum ≤ (lines.map fun line => (clip line).length + 1).sum := by
    rw [Offer.help, Offer.help] at hle
    simpa [List.length_flatMap, Function.comp_def] using hle
  clear h hle
  induction lines with
  | nil => exact fun line hline => absurd hline List.not_mem_nil
  | cons line lines ih =>
    have hclip (t : Text) : (clip t).length ≤ t.length := List.length_take_le' _ _
    have hrest : (lines.map fun line => (clip line).length + 1).sum ≤ (lines.map (·.length + 1)).sum :=
      List.sum_le_sum fun t _ => Nat.succ_le_succ (hclip t)
    rw [List.map_cons, List.map_cons, List.sum_cons, List.sum_cons] at hlines
    have hline := hclip line
    refine List.forall_mem_cons.mpr ⟨?_, ih (by omega)⟩
    have hfull : (clip line).length = line.length := by omega
    rw [← hfull]
    exact Nat.lt_of_le_of_lt (List.length_take_le _ _) (by decide)

theorem map_clip_eq_self {lines : List Text} (h : ∀ line ∈ lines, line.length < maxHelpSize) :
    lines.map clip = lines :=
  (List.map_congr_left fun line hline => List.take_of_length_le (Nat.le_pred_of_lt (h line hline))).trans
    (List.map_id lines)

/-- The command is right just when it fits and no description has been shortened. -/
theorem installShowTech_iff (doc : Text) (scalars : List Text) :
    (installShowTech doc (some scalars)).element =
        (showTechOffer doc).element ((offered [] none scalars).map (·.1)) ((offered [] none scalars).map (·.2)) ↔
      offered [] none scalars = [] ∨
        (showTechOffer doc).Fits ((offered [] none scalars).map (·.1)) ((offered [] none scalars).map (·.2)) ∧
          ∀ a ∈ offered [] none scalars, a.2.length < maxHelpSize := by
  rw [installShowTech_eq]
  generalize offered [] none scalars = alternatives
  by_cases hnil : alternatives = []
  · subst hnil
    exact iff_of_true rfl (.inl rfl)
  have hnames : alternatives.map (·.1) ≠ [] := fun h => hnil (List.map_eq_nil_iff.mp h)
  have hclipped : alternatives.map (fun a => clip a.2) = (alternatives.map (·.2)).map clip :=
    (List.map_map ..).symm
  rw [if_neg hnil, hclipped, or_iff_right hnil]
  constructor
  · intro h
    have hshort : ∀ line ∈ alternatives.map (·.2), line.length < maxHelpSize := by
      rw [Offer.element] at h
      split at h
      · exact map_clip_eq_of_help_eq (Prod.mk.inj (Option.some.inj h)).2
      · cases h
    rw [map_clip_eq_self hshort] at h
    exact ⟨(clipped_eq_element_iff _ hnames).mp h, List.forall_mem_map.mp hshort⟩
  · rintro ⟨hfits, hshort⟩
    rw [map_clip_eq_self (List.forall_mem_map.mpr hshort)]
    exact (clipped_eq_element_iff _ hnames).mpr hfits

/-! ### `show events` -/

open ShowEvents (Install Installed installShowEvnts strnlwr showEventsCmd maxEvHelpSize)
open EventLog (eventCategory eventDefinitions)

def eventsOffer (doc : Text) : Offer where
  opening := showEventsCmd
  closing := ")\x7d".toList
  helpOpening := doc
  helpClosing := []
  helpSize := maxEvHelpSize

def word (isName : Bool) (key : Text) : Text := if isName then strnlwr key else key

/-- The scalars up to the definitions, each with whether it stands behind `event_category`. -/
def scanned : Bool → List Text → List (Bool × Text)
  | _, [] => []
  | isName, key :: keys =>
    (isName, key) ::
      if word isName key = eventDefinitions then [] else scanned (word isName key == eventCategory) keys

def Defines (l : List (Bool × Text)) : Prop := ∃ a ∈ l, word a.1 a.2 = eventDefinitions

instance (l : List (Bool × Text)) : Decidable (Defines l) := inferInstanceAs (Decidable (∃ a ∈ l, _))

/-- The categories, each with the second scalar behind it. -/
def categories : List (Bool × Text) → List (Text × Option Text)
  | [] => []
  | (isName, key) :: l =>
    (if isName then [(strnlwr key, l[1]?.map (·.2))] else []) ++ categories l

def names (l : List (Bool × Text)) : List Text := (categories l).map (·.1)

def helpLines (l : List (Bool × Text)) : List Text := (categories l).filterMap (·.2)

/-- The help lines that categories before the scalars still wait for. -/
def pending (foundDes des : Bool) (l : List (Bool × Text)) : List Text :=
  (if foundDes then (l[0]?.map (·.2)).toList else []) ++ (if des then (l[1]?.map (·.2)).toList else [])

theorem pending_cons (foundDes des isName : Bool) (key : Text) (l : List (Bool × Text)) :
    pending foundDes des ((isName, key) :: l) ++ helpLines ((isName, key) :: l) =
      (if foundDes then [key] else []) ++ (pending des isName l ++ helpLines l) := by
  have hhelp : helpLines ((isName, key) :: l) =
      (if isName then (l[1]?.map (·.2)).toList else []) ++ helpLines l := by
    rw [helpLines, categories, List.filterMap_append]
    cases isName with
    | false => rfl
    | true =>
      cases hl : l[1]? with
      | none => rfl
      | some a => rfl
  rw [hhelp, pending, pending, List.append_assoc, List.append_assoc]
  rfl

theorem names_cons (isName : Bool) (key : Text) (l : List (Bool × Text)) :
    names ((isName, key) :: l) = (if isName then [strnlwr key] else []) ++ names l := by
  rw [names, categories, List.map_append]
  cases isName with
  | false => rfl
  | true => rfl

/-- The loop body before the comparisons with the keys. -/
theorem addCategory_skip_helpLine (key : Text) (s : Install) :
    ∃ alternatives, ((s.helpLine key).skip.addCategory key) = {
      cmd := if s.found then strncat maxCmdSize (strncat maxCmdSize s.cmd (strnlwr key)) ['|'] else s.cmd
      help := if s.foundDes then strncat maxEvHelpSize (strncat maxEvHelpSize s.help key) ['\n'] else s.help
      found := false
      des := s.found
      foundDes := s.des
      install := s.install || s.found
      alternatives := alternatives } := by
  rcases s with ⟨cmd, help, found, des, foundDes, install, alternatives⟩
  cases found <;> cases des <;> cases foundDes <;> cases install <;> exact ⟨_, rfl⟩

theorem scalar_eq (key : Text) (s : Install) :
    s.scalar key = ({ (s.helpLine key).skip.addCategory key with found := word s.found key == eventCategory },
      decide (word s.found key = eventDefinitions)) := by
  have hfound : ((s.helpLine key).skip.addCategory key).found = false := by
    obtain ⟨alternatives, heq⟩ := addCategory_skip_helpLine key s
    rw [heq]
  unfold Install.scalar word
  generalize (s.helpLine key).skip.addCategory key = t at hfound
  generalize (if s.found then strnlwr key else key) = w
  obtain ⟨cmd, help, found, des, foundDes, install, alternatives⟩ := t
  obtain rfl : found = false := hfound
  by_cases hdef : w = eventDefinitions
  · have hne : (w == eventCategory) = false := by
      subst hdef
      decide +kernel
    rw [hne, if_pos hdef, decide_eq_true hdef]
  · rw [if_neg hdef, decide_eq_false hdef]
    by_cases hcat : w = eventCategory
    · rw [if_pos hcat, beq_iff_eq.mpr hcat]
    · rw [if_neg hcat, beq_eq_false_iff_ne.mpr hcat]

/-- What one scalar does to the text of the command, and to the help text. -/
theorem scalar_buffers (key : Text) (s : Install) :
    (s.scalar key).1.cmd = (if s.found then strncat maxCmdSize (strncat maxCmdSize s.cmd (strnlwr key)) ['|']
      else s.cmd) ∧
    (s.scalar key).1.help = (if s.foundDes then
      strncat maxEvHelpSize (strncat maxEvHelpSize s.help key) ['\n'] else s.help) ∧
    (s.scalar key).1.install = (s.install || s.found) := by
  obtain ⟨alternatives, heq⟩ := addCategory_skip_helpLine key s
  rw [scalar_eq, heq]
  exact ⟨rfl, rfl, rfl⟩

/-- The scalar behind a name is skipped, the second one is its help line. -/
theorem scalar_flags (key : Text) (s : Install) :
    (s.scalar key).1.found = (word s.found key == eventCategory) ∧ (s.scalar key).1.des = s.found ∧
      (s.scalar key).1.foundDes = s.des ∧ (s.scalar key).2 = decide (word s.found key = eventDefinitions) := by
  obtain ⟨alternatives, heq⟩ := addCategory_skip_helpLine key s
  rw [scalar_eq, heq]
  exact ⟨rfl, rfl, rfl, rfl⟩

/-- The texts of the command and of its help hold the beginnings of two texts. -/
structure InstallHolds (s : Install) (cmd help : Text) : Prop where
  cmd : s.cmd = cmd.take (maxCmdSize - 1)
  help : s.help = help.take (maxEvHelpSize - 1)

theorem InstallHolds.scalar {s : Install} {cmd help : Text} (h : InstallHolds s cmd help) (key : Text) :
    InstallHolds (s.scalar key).1 (cmd ++ (if s.found then [strnlwr key] else []).flatMap (· ++ ['|']))
      (help ++ (if s.foundDes then [key] else []).flatMap (· ++ ['\n'])) := by
  obtain ⟨hcmd, hhelp, -⟩ := scalar_buffers key s
  refine ⟨?_, ?_⟩
  · rw [hcmd, h.cmd]
    cases s.found with
    | false => simp only [Bool.false_eq_true, if_false, List.flatMap_nil, List.append_nil]
    | true => simp only [if_true, strncat_take, List.flatMap_singleton, List.append_assoc]
  · rw [hhelp, h.help]
    cases s.foundDes with
    | false => simp only [Bool.false_eq_true, if_false, List.flatMap_nil, List.append_nil]
    | true => simp only [if_true, strncat_take, List.flatMap_singleton, List.append_assoc]

theorem scanned_cons (isName : Bool) (key : Text) (keys : List Text) :
    scanned isName (key :: keys) = (isName, key) :: if word isName key = eventDefinitions then []
      else scanned (word isName key == eventCategory) keys := rfl

theorem scalars_holds (keys : List Text) {s : Install} {cmd help : Text} (h : InstallHolds s cmd help) :
    InstallHolds (Install.scalars keys s).1
        (cmd ++ (names (scanned s.found keys)).flatMap (· ++ ['|']))
        (help ++ (pending s.foundDes s.des (scanned s.found keys) ++ helpLines (scanned s.found keys)).flatMap
          (· ++ ['\n'])) ∧
      (Install.scalars keys s).1.install = (s.install || !(names (scanned s.found keys)).isEmpty) ∧
      ((Install.scalars keys s).2 = true ↔ Defines (scanned s.found keys)) := by
  induction keys generalizing s cmd help with
  | nil =>
    have hpending : pending s.foundDes s.des [] = [] := by
      unfold pending
      cases s.foundDes <;> cases s.des <;> rfl
    rw [Install.scalars, scanned, hpending]
    refine ⟨by simpa [names, helpLines, categories] using h, by simp [names, categories], by simp [Defines]⟩
  | cons key keys ih =>
    have hnow := h.scalar key
    obtain ⟨-, -, hinstall⟩ := scalar_buffers key s
    obtain ⟨hfound, hdes, hfoundDes, hexit⟩ := scalar_flags key s
    rw [Install.scalars, scanned_cons, pending_cons, names_cons]
    generalize s.scalar key = next at hnow hinstall hfound hdes hfoundDes hexit
    obtain ⟨s', exit⟩ := next
    dsimp only at hnow hinstall hfound hdes hfoundDes hexit ⊢
    by_cases hdef : word s.found key = eventDefinitions
    · have hpending : pending s.des s.found [] = [] := by
        unfold pending
        cases s.des <;> cases s.found <;> rfl
      have hnone : names [] = [] ∧ helpLines [] = [] := ⟨rfl, rfl⟩
      obtain rfl : exit = true := by rw [hexit, decide_eq_true hdef]
      rw [if_pos hdef, hpending, hnone.1, hnone.2, List.append_nil, List.append_nil, List.append_nil]
      refine ⟨hnow, ?_, iff_of_true rfl ⟨_, List.mem_cons_self, hdef⟩⟩
      rw [hinstall]
      cases s.found <;> simp
    · obtain rfl : exit = false := by rw [hexit, decide_eq_false hdef]
      obtain ⟨hbuffers, hmore, hreached⟩ := ih hnow
      rw [hfound, hdes, hfoundDes] at hbuffers
      rw [hfound] at hmore hreached
      rw [if_neg hdef]
      refine ⟨?_, ?_, ?_⟩
      · rw [List.flatMap_append, List.flatMap_append, ← List.append_assoc, ← List.append_assoc]
        exact hbuffers
      · rw [hmore, hinstall]
        cases s.found <;> simp
      · rw [hreached]
        refine ⟨fun ⟨a, ha, hword⟩ => ⟨a, List.mem_cons_of_mem _ ha, hword⟩, fun ⟨a, ha, hword⟩ => ?_⟩
        rcases List.mem_cons.mp ha with rfl | ha
        · exact absurd hword hdef
        · exact ⟨a, ha, hword⟩

/-- Each category with a help line, up to the definitions. -/
def Ready (l : List (Bool × Text)) : Prop := Defines l ∧ ∀ c ∈ categories l, c.2 ≠ none

instance (l : List (Bool × Text)) : Decidable (Ready l) := inferInstanceAs (Decidable (_ ∧ _))

def eventsElement (doc : Text) (l : List (Bool × Text)) : Option (Text × Text) :=
  if Ready l then (eventsOffer doc).element (names l) (helpLines l) else none

theorem installHolds_init (doc : Text) : InstallHolds (Install.init doc) showEventsCmd doc := by
  refine ⟨?_, ?_⟩
  · rw [Install.init, strncpy]
  · rw [Install.init, strncpy, strncpy]

theorem installShowEvnts_eq (doc : Text) (scalars : List Text) :
    (installShowEvnts doc scalars).element =
      if names (scanned false scalars) = [] ∨ ¬ Defines (scanned false scalars) then none
      else some (((eventsOffer doc).cmd (names (scanned false scalars))).take (maxCmdSize - 1),
        ((eventsOffer doc).help (helpLines (scanned false scalars))).take ((eventsOffer doc).helpSize - 1)) := by
  have h := scalars_holds scalars (installHolds_init doc)
  have hstart : (Install.init doc).found = false ∧ (Install.init doc).des = false ∧
      (Install.init doc).foundDes = false ∧ (Install.init doc).install = false := ⟨rfl, rfl, rfl, rfl⟩
  rw [hstart.1, hstart.2.1, hstart.2.2.1, hstart.2.2.2] at h
  rw [installShowEvnts]
  generalize Install.scalars scalars (Install.init doc) = result at h
  obtain ⟨s, exit⟩ := result
  obtain ⟨hbuffers, hinstall, hexit⟩ := h
  dsimp only at hbuffers hinstall hexit ⊢
  cases hnames : names (scanned false scalars) with
  | nil =>
    have hnot : ¬ s.install = true := by simp [hinstall, hnames]
    rw [if_pos hnot, if_pos (Or.inl rfl)]
  | cons name rest =>
    have hsome : ¬ ¬ s.install = true := by simp [hinstall, hnames]
    rw [if_neg hsome]
    by_cases hdef : Defines (scanned false scalars)
    · rw [if_pos (hexit.mpr hdef), if_neg (by simp [hdef]), hbuffers.cmd, hbuffers.help, strncat_take, hnames]
      have hpending (l : List (Bool × Text)) : pending false false l = [] := rfl
      have hhelp : (eventsOffer doc).help (helpLines (scanned false scalars)) =
          doc ++ (helpLines (scanned false scalars)).flatMap (· ++ ['\n']) := List.append_nil _
      rw [hpending, hhelp, Offer.cmd]
      simp only [eventsOffer, List.nil_append]
    · rw [if_neg fun h => hdef (hexit.mp h), if_pos (Or.inr hdef)]

/-- The command is right just when it fits and each category has a help line before the definitions. -/
theorem installShowEvnts_iff (doc : Text) (scalars : List Text) :
    (installShowEvnts doc scalars).element = eventsElement doc (scanned false scalars) ↔
      names (scanned false scalars) = [] ∨ ¬ Defines (scanned false scalars) ∨
        Ready (scanned false scalars) ∧
          (eventsOffer doc).Fits (names (scanned false scalars)) (helpLines (scanned false scalars)) := by
  rw [installShowEvnts_eq, eventsElement]
  generalize scanned false scalars = l
  by_cases hnames : names l = []
  · have hnone : (eventsOffer doc).element (names l) (helpLines l) = none := if_neg fun h => h.1 hnames
    rw [if_pos (.inl hnames), hnone, ite_self]
    exact iff_of_true rfl (.inl hnames)
  rw [@or_iff_right (names l = []) (_ ∨ _) hnames]
  by_cases hdef : Defines l
  · rw [if_neg (not_or.mpr ⟨hnames, not_not.mpr hdef⟩), @or_iff_right (¬ Defines l) (_ ∧ _) (not_not.mpr hdef)]
    by_cases hready : Ready l
    · rw [if_pos hready, clipped_eq_element_iff _ hnames, and_iff_right hready]
    · rw [if_neg hready]
      exact iff_of_false (fun h => Option.some_ne_none _ h) fun h => hready h.1
  · rw [if_pos (.inr hdef), if_neg fun h => hdef h.1]
    exact iff_of_true rfl (.inl hdef)

/-! ### The three commands -/

/-- The installed commands are the whole ones, each with a help line for each alternative, or none. -/
structure Whole (featureHead : List Feature) (techDoc eventsDoc : Text) (techScalars eventsScalars : List Text) :
    Prop where
  diagDump : installDiagDump featureHead =
    some ⟨0, diagOffer.element (flaggedNames featureHead) (flaggedDescs featureHead)⟩
  showTech : (installShowTech techDoc (some techScalars)).element = (showTechOffer techDoc).element
    ((offered [] none techScalars).map (·.1)) ((offered [] none techScalars).map (·.2))
  showEvents : (installShowEvnts eventsDoc eventsScalars).element =
    eventsElement eventsDoc (scanned false eventsScalars)

/-- What is to be offered can be: it fits, the help lines of `show tech` have at most 255 characters, and there is a
    help line behind each category before the definitions. -/
structure Representable (featureHead : List Feature) (techDoc eventsDoc : Text)
    (techScalars eventsScalars : List Text) : Prop where
  diagDump : flaggedNames featureHead = [] ∨ diagOffer.Fits (flaggedNames featureHead) (flaggedDescs featureHead)
  showTech : offered [] none techScalars = [] ∨
    (showTechOffer techDoc).Fits ((offered [] none techScalars).map (·.1)) ((offered [] none techScalars).map (·.2)) ∧
      ∀ a ∈ offered [] none techScalars, a.2.length < maxHelpSize
  showEvents : names (scanned false eventsScalars) = [] ∨ ¬ Defines (scanned false eventsScalars) ∨
    Ready (scanned false eventsScalars) ∧
      (eventsOffer eventsDoc).Fits (names (scanned false eventsScalars)) (helpLines (scanned false eventsScalars))

/-- The strings are inside their allocations when the loops end, and as they are installed. -/
structure AllInside (featureHead : List Feature) (techDoc eventsDoc : Text) (techScalars eventsScalars : List Text) :
    Prop where
  diagLoop : ∀ b install, diagLoop featureHead
    ⟨strncpy maxCmdSize diagDumpOpening, strncpy maxFeatureHelpSize diagDumpStr⟩ false = some (b, install) →
      Inside maxFeatureHelpSize b.cmd b.help
  diagDump : ∀ r e, installDiagDump featureHead = some ⟨r, some e⟩ → Inside maxFeatureHelpSize e.1 e.2
  techLoop : Inside maxFeatureHelpSize (showTechLoop (TechLoop.init techDoc) techScalars).buffers.cmd
    (showTechLoop (TechLoop.init techDoc) techScalars).buffers.help
  showTech : ∀ e, (installShowTech techDoc (some techScalars)).element = some e → Inside maxFeatureHelpSize e.1 e.2
  eventsLoop : Inside maxEvHelpSize (Install.scalars eventsScalars (Install.init eventsDoc)).1.cmd
    (Install.scalars eventsScalars (Install.init eventsDoc)).1.help
  showEvents : ∀ e, (installShowEvnts eventsDoc eventsScalars).element = some e → Inside maxEvHelpSize e.1 e.2

theorem allInside {featureHead : List Feature} (hdesc : ∀ f ∈ featureHead, f.desc ≠ none) (techDoc eventsDoc : Text)
    (techScalars eventsScalars : List Text) :
    AllInside featureHead techDoc eventsDoc techScalars eventsScalars where
  diagLoop b install h := by
    obtain ⟨b', hloop, hb⟩ := diagLoop_holds (fun f hf _ => hdesc f hf)
      (rfl : Buffers.Holds ⟨strncpy maxCmdSize diagDumpOpening, strncpy maxFeatureHelpSize diagDumpStr⟩ _ _) false
    obtain rfl : b' = b := (Prod.mk.inj (Option.some.inj (hloop.symm.trans h))).1
    exact hb.inside
  diagDump r e h := by
    rw [installDiagDump_eq fun f hf _ => hdesc f hf] at h
    exact inside_of_element (by decide) (Installation.mk.inj (Option.some.inj h)).2
  techLoop :=
    (@showTechLoop_holds techScalars (TechLoop.init techDoc) showTechOpening techDoc [] none rfl rfl rfl).1.inside
  showTech e h := by
    rw [installShowTech_eq] at h
    exact inside_of_element (by decide) h
  eventsLoop := by
    have h := (scalars_holds eventsScalars (installHolds_init eventsDoc)).1
    rw [h.cmd, h.help]
    exact inside_take (by decide) _ _
  showEvents e h := by
    rw [installShowEvnts_eq] at h
    exact inside_of_element (by decide) h

/-- The commands are whole just when they can be represented; nothing is ever written beyond an allocation. -/
theorem whole_iff_representable {featureHead : List Feature} (hdesc : ∀ f ∈ featureHead, f.desc ≠ none)
    (techDoc eventsDoc : Text) (techScalars eventsScalars : List Text) :
    (Whole featureHead techDoc eventsDoc techScalars eventsScalars ↔
      Representable featureHead techDoc eventsDoc techScalars eventsScalars) ∧
    AllInside featureHead techDoc eventsDoc techScalars eventsScalars := by
  have hdiag := installDiagDump_iff hdesc
  have htech := installShowTech_iff techDoc techScalars
  have hevents := installShowEvnts_iff eventsDoc eventsScalars
  refine ⟨⟨fun h => ⟨?_, ?_, ?_⟩, fun h => ⟨?_, ?_, ?_⟩⟩, allInside hdesc _ _ _ _⟩
  · exact hdiag.mp h.diagDump
  · exact htech.mp h.showTech
  · exact hevents.mp h.showEvents
  · exact hdiag.mpr h.diagDump
  · exact htech.mpr h.showTech
  · exact hevents.mpr h.showEvents

def fanFeature : Feature := ⟨"fan".toList, some "Fan".toList, [], true⟩

def fanScalars : List Text :=
  ["feature".toList, "feature_desc".toList, "Fan".toList, "feature_name".toList, "fan".toList]

def fanCategories : List Text :=
  ["event_category".toList, "FAN".toList, "description".toList, "Fan".toList, "event_definitions".toList]

set_option maxRecDepth 10000 in
theorem eventsOpening_short (doc : Text) : (eventsOffer doc).opening.length < 300 := by
  have hlen {l : Text} (h : showEventsCmd = l) (hl : l.length < 300) : (eventsOffer doc).opening.length < 300 := by
    dsimp only [eventsOffer]
    rwa [h]
  exact hlen (Text.toList_eq rfl) (by decide)

theorem fan_whole : Whole [fanFeature] [] [] fanScalars fanCategories := by
  have hdesc : ∀ f ∈ [fanFeature], f.desc ≠ none := fun f hf => by
    obtain rfl := List.mem_singleton.mp hf
    exact Option.some_ne_none _
  have hscanned : scanned false fanCategories = [(false, "event_category".toList), (true, "FAN".toList),
      (false, "description".toList), (false, "Fan".toList), (false, "event_definitions".toList)] := by decide +kernel
  have hready : Ready (scanned false fanCategories) := by
    rw [hscanned]
    decide +kernel
  have hnames : names (scanned false fanCategories) = ["fan".toList] := by
    rw [hscanned]
    decide +kernel
  have hlines : helpLines (scanned false fanCategories) = ["Fan".toList] := by
    rw [hscanned]
    decide +kernel
  refine (whole_iff_representable hdesc [] [] fanScalars fanCategories).1.mpr
    ⟨.inr ?_, .inr ?_, .inr (.inr ⟨hready, ?_⟩)⟩
  · decide +kernel
  · decide +kernel
  · rw [hnames, hlines]
    have hrest : (["fan".toList].flatMap (· ++ ['|'])).length = 4 ∧ (eventsOffer []).closing.length = 2 := by
      decide +kernel
    have hcmd : ((eventsOffer []).cmd ["fan".toList]).length = (eventsOffer []).opening.length + 4 + 2 := by
      rw [Offer.cmd, List.length_append, List.length_append, hrest.1, hrest.2]
    have hshort := Nat.add_lt_add_right (Nat.add_lt_add_right (eventsOpening_short []) 4) 2
    exact ⟨hcmd ▸ Nat.lt_trans hshort (by decide), by decide +kernel⟩

/-- The names of 170 features are more than the command can hold. -/
def crowded : List Feature := List.replicate 170 ⟨List.replicate 29 'a', some [], [], true⟩

theorem crowded_unclosed : (∀ f ∈ crowded, f.desc ≠ none) ∧ ∃ cmd help,
    installDiagDump crowded = some ⟨0, some (cmd, help)⟩ ∧ ')' ∉ cmd ∧
      some (cmd, help) ≠ diagOffer.element (flaggedNames crowded) (flaggedDescs crowded) := by
  have hdesc : ∀ f ∈ crowded, f.desc ≠ none := fun f hf => by
    rw [List.eq_of_mem_replicate hf]
    exact Option.some_ne_none _
  have hnames : flaggedNames crowded = List.replicate 170 (List.replicate 29 'a') := by
    rw [flaggedNames, crowded, List.filter_replicate, if_pos rfl, List.map_replicate]
  have hlen : ((flaggedNames crowded).flatMap (· ++ ['|'])).length = 170 * 30 := by
    rw [hnames, List.length_flatMap, List.map_replicate, List.sum_replicate_nat, List.length_append,
      List.length_replicate, List.length_singleton]
  have hcut : (diagOffer.cmd (flaggedNames crowded)).take (maxCmdSize - 1) =
      (diagDumpOpening ++ (flaggedNames crowded).flatMap (· ++ ['|'])).take (maxCmdSize - 1) := by
    rw [Offer.cmd]
    refine List.take_append_of_le_length ?_
    have hcat : (diagOffer.opening ++ (flaggedNames crowded).flatMap (· ++ ['|'])).length = 11 + 170 * 30 := by
      rw [List.length_append, hlen]
      rfl
    rw [hcat]
    decide
  have hopen : ')' ∉ (diagOffer.cmd (flaggedNames crowded)).take (maxCmdSize - 1) := by
    rw [hcut]
    intro h
    rcases List.mem_append.mp (List.mem_of_mem_take h) with h | h
    · exact absurd h (by decide)
    · obtain ⟨name, hname, hin⟩ := List.mem_flatMap.mp h
      rw [hnames] at hname
      obtain rfl := List.eq_of_mem_replicate hname
      exact absurd hin (by decide)
  have hne : flaggedNames crowded ≠ [] := by
    rw [hnames]
    exact List.cons_ne_nil _ _
  refine ⟨hdesc, _, (diagOffer.help (flaggedDescs crowded)).take (diagOffer.helpSize - 1),
    (installDiagDump_eq fun f hf _ => hdesc f hf).trans ?_, hopen, ?_⟩
  · exact congrArg (fun e => some (Installation.mk 0 e)) (if_neg hne)
  · intro h
    rw [clipped_eq_element_iff diagOffer hne] at h
    have hle : 170 * 30 ≤ (diagOffer.cmd (flaggedNames crowded)).length :=
      hlen ▸ (List.infix_append diagOffer.opening _ diagOffer.closing).length_le
    exact absurd (Nat.lt_of_le_of_lt hle h.1) (by decide)

end SupportabilityVty
end OpsSupportability
