import Mathlib.Data.List.Basic
import Mathlib.Data.List.TakeWhile
import OpsSupportability.Lib.Runs
import OpsSupportability.Theorems.ShowTechConfig

/-! The configuration of a document: its features, and the sub-features, commands, tables and columns of each, against
    what the parser returns; and which documents it rejects. -/

namespace OpsSupportability
namespace ShowTechConfig

open Chains
open FeatureMapping (Document)
open Sections
open ShowTech (CliCmd OvsTable SubFeature Feature)

/-! ### The configuration of a document -/

def featureMark (i : Item) : Option Unit := if i = .feature then some () else none
def subFeatureMark (i : Item) : Option Unit := if i = .subFeature then some () else none
def tableMark (i : Item) : Option Unit := if i = .table then some () else none

/-- The value, if it is read in the state. -/
def valueOf (key : Key) : Item → Option Text
  | .value state v => if state = key then some v else none
  | _ => none

def values (key : Key) (l : List Item) : List Text := l.filterMap (valueOf key)

/-- A table, a flag or a command makes a dummy where there is no sub-feature. -/
def opens : Item → Bool
  | .table => true
  | .value .supportShowtechAll _ => true
  | .value .supportShowtechFeature _ => true
  | .value .cliCmds _ => true
  | _ => false

def tableOf (l : List Item) : OvsTable := ⟨(values .tableName l).getLast?, values .colnames l⟩

def subFeatureOf (isDummy : Bool) (l : List Item) : SubFeature where
  name := (values .subFeatureName l).getLast?
  desc := (values .subFeatureDesc l).getLast?
  noStaSupport := ((values .supportShowtechAll l).getLast?.map fun v => !isYes v).getD false
  supportStb := ((values .supportShowtechFeature l).getLast?.map isYes).getD false
  isDummy := isDummy
  cliCmds := (values .cliCmds l).map fun v => ⟨v, false⟩
  ovsTables := (sections tableMark l).2.map fun s => tableOf s.2

/-- What stands before the first sub-feature belongs to a dummy, from the first item on that needs one. -/
def dummyOf (l : List Item) : List SubFeature :=
  match l.dropWhile fun i => !opens i with
  | [] => []
  | l => [subFeatureOf true l]

def subFeaturesOf (l : List Item) : List SubFeature :=
  dummyOf (sections subFeatureMark l).1 ++ (sections subFeatureMark l).2.map fun s => subFeatureOf false s.2

def featureOf (l : List Item) : Feature where
  name := (values .featureName l).getLast?
  desc := (values .featureDesc l).getLast?
  subFeatures := subFeaturesOf l

def configuration (l : List Item) : List Feature := (sections featureMark l).2.map fun s => featureOf s.2

/-! ### Rejections -/

/-- There has been a sub-feature or a dummy since the last feature. -/
def subFeatureOpen (before : List Item) : Bool :=
  (before.reverse.takeWhile (· ≠ .feature)).any fun i => i = .subFeature || opens i

/-- There has been a table since the last feature or sub-feature. -/
def tableOpen (before : List Item) : Bool :=
  (before.reverse.takeWhile fun i => i ≠ .feature && i ≠ .subFeature).any (· = .table)

/-- The item is rejected behind those before it. -/
def Rejects (before : List Item) : Item → Prop
  | .feature => False
  | .subFeature => .feature ∉ before
  | .table => .feature ∉ before
  | .value state v =>
    match state with
    | .featureName => .feature ∉ before
    | .featureDesc => .feature ∉ before
    | .subFeatureName => subFeatureOpen before = false
    | .subFeatureDesc => subFeatureOpen before = false
    | .tableName => tableOpen before = false
    | .colnames => tableOpen before = false
    | .cliCmds => isShowTech v = true
    | _ => False

def Rejected (l : List Item) : Prop := ∃ before i after, l = before ++ i :: after ∧ Rejects before i

section
variable {before : List Item} {i : Item}

theorem subFeatureOpen_concat : subFeatureOpen (before ++ [i]) =
    if i = .feature then false else (i = .subFeature || opens i) || subFeatureOpen before := by
  rw [subFeatureOpen, List.reverse_concat, List.takeWhile_cons]
  by_cases hi : i = .feature
  · simp [hi]
  · simp [hi, subFeatureOpen]

theorem tableOpen_concat : tableOpen (before ++ [i]) =
    if i = .feature ∨ i = .subFeature then false else i = .table || tableOpen before := by
  rw [tableOpen, List.reverse_concat, List.takeWhile_cons]
  by_cases hf : i = .feature
  · simp [hf]
  · by_cases hs : i = .subFeature
    · simp [hs]
    · simp [hf, hs, tableOpen]

/-- A table is in a sub-feature or a dummy. -/
theorem subFeatureOpen_of_tableOpen (h : tableOpen before = true) : subFeatureOpen before = true := by
  induction before using List.reverseRecOn with
  | nil => cases h
  | append_singleton before i ih =>
    rw [tableOpen_concat] at h
    rw [subFeatureOpen_concat]
    split at h
    · cases h
    · next hi =>
      rw [if_neg fun hf => hi (.inl hf)]
      rcases (Bool.or_eq_true _ _).mp h with h | h
      · obtain rfl := of_decide_eq_true h
        rfl
      · rw [ih h, Bool.or_true]

end

/-! ### What an item changes -/

def extendTable (t : OvsTable) : Item → OvsTable
  | .value .tableName v => { t with tablename := some v }
  | .value .colnames v => { t with columns := t.columns ++ [v] }
  | _ => t

def extendTables (tables : List OvsTable) : Item → List OvsTable
  | .table => tables ++ [⟨none, []⟩]
  | i => tables.modifyLast fun t => extendTable t i

def extendSubfeature (s : SubFeature) : Item → SubFeature
  | .value .subFeatureName v => { s with name := some v }
  | .value .subFeatureDesc v => { s with desc := some v }
  | .value .supportShowtechAll v => { s with noStaSupport := !isYes v }
  | .value .supportShowtechFeature v => { s with supportStb := isYes v }
  | .value .cliCmds v => onClicmds (· ++ [⟨v, false⟩]) s
  | i => onTables (fun tables => extendTables tables i) s

def orDummy (subFeatures : List SubFeature) : List SubFeature :=
  if subFeatures = [] then [emptySubfeature true] else subFeatures

def extendSubfeatures (subFeatures : List SubFeature) (i : Item) : List SubFeature :=
  if i = .subFeature then subFeatures ++ [emptySubfeature false]
  else (if opens i then orDummy subFeatures else subFeatures).modifyLast fun s => extendSubfeature s i

def extendFeature (f : Feature) : Item → Feature
  | .value .featureName v => { f with name := some v }
  | .value .featureDesc v => { f with desc := some v }
  | i => onSubfeatures (fun subFeatures => extendSubfeatures subFeatures i) f

def extendFeatures (features : List Feature) (i : Item) : List Feature :=
  if i = .feature then features ++ [⟨none, none, []⟩] else features.modifyLast fun f => extendFeature f i

/-- The configuration behind some items, none of which has been rejected. -/
structure Behind (before : List Item) (c : Config) : Prop where
  features : c.features = before.foldl extendFeatures []
  inFeature : c.features = [] ↔ .feature ∉ before
  inSubfeature : c.inSubfeature = subFeatureOpen before
  inTable : c.inTable = tableOpen before
  /-- The current sub-feature is in the current feature, if there is one. -/
  current : ∀ f ∈ c.features.getLast?, f.subFeatures = [] ↔ c.inSubfeature = false

theorem Behind.nil : Behind [] ⟨[], false, false⟩ where
  features := rfl
  inFeature := iff_of_true rfl List.not_mem_nil
  inSubfeature := rfl
  inTable := rfl
  current := nofun

section
variable {before : List Item} {c c' : Config} {i : Item}

theorem Behind.rejects (h : Behind before c) (i : Item) : c.item i = none ↔ Rejects before i := by
  have hguard {c' : Config} : (if c.features = [] then none else some c') = none ↔ Item.feature ∉ before := by
    rw [← h.inFeature]
    split <;> simp [*]
  have hsub {c' : Config} : (if c.inSubfeature then some c' else none) = none ↔ subFeatureOpen before = false := by
    rw [← h.inSubfeature]
    split <;> simp [*]
  have htable {c' : Config} : (if c.inTable then some c' else none) = none ↔ tableOpen before = false := by
    rw [← h.inTable]
    split <;> simp [*]
  cases i with
  | feature => exact iff_of_false nofun id
  | subFeature => exact hguard
  | table => exact hguard
  | value state v =>
    cases state with
    | featureName => exact hguard
    | featureDesc => exact hguard
    | subFeatureName => exact hsub
    | subFeatureDesc => exact hsub
    | tableName => exact htable
    | colnames => exact htable
    | cliCmds =>
      have hpattern {c' : Config} : (if isShowTech v then none else some c') = none ↔ isShowTech v = true := by
        split <;> simp [*]
      exact hpattern
    | _ => exact iff_of_false nofun id

/-- The sub-feature or dummy of the current feature, if there is one. -/
theorem Behind.features_orDummy (h : Behind before c) (g : SubFeature → SubFeature) :
    (c.subfeatureOrDummy.setSubfeature g).features =
      c.features.modifyLast (onSubfeatures fun subFeatures => (orDummy subFeatures).modifyLast g) := by
  rcases c.features.eq_nil_or_concat with hnil | ⟨fs, f, hfs⟩
  · rw [Config.subfeatureOrDummy, Config.setSubfeature]
    cases c.inSubfeature with
    | true =>
      rw [if_pos rfl, hnil]
      rfl
    | false =>
      rw [if_neg Bool.false_ne_true, Config.linkSubfeature, hnil]
      rfl
  · rw [List.concat_eq_append] at hfs
    have hcurrent : f.subFeatures = [] ↔ c.inSubfeature = false := h.current f (by rw [hfs, List.getLast?_concat]; rfl)
    rw [Config.subfeatureOrDummy, Config.setSubfeature]
    cases hin : c.inSubfeature with
    | true =>
      have hsome : f.subFeatures ≠ [] := fun hnil => Bool.noConfusion ((hcurrent.mp hnil).symm.trans hin)
      simp only [if_true, hfs, List.modifyLast_concat, onSubfeatures, orDummy, if_neg hsome]
    | false =>
      simp only [Bool.false_eq_true, if_false, Config.linkSubfeature, hfs, List.modifyLast_concat, onSubfeatures,
        orDummy, hcurrent.mpr hin, List.nil_append, if_true]

/-- An item that adds no feature. -/
theorem Behind.last (h : Behind before c) (hi : i ≠ .feature)
    (hfeatures : c'.features = c.features.modifyLast fun f => extendFeature f i)
    (hsub : c'.inSubfeature = subFeatureOpen (before ++ [i])) (htable : c'.inTable = tableOpen (before ++ [i]))
    (hcurrent : ∀ f, (f.subFeatures = [] ↔ c.inSubfeature = false) →
      ((extendFeature f i).subFeatures = [] ↔ c'.inSubfeature = false)) :
    Behind (before ++ [i]) c' where
  features := by
    rw [hfeatures, List.foldl_append, ← h.features, List.foldl_cons, List.foldl_nil, extendFeatures, if_neg hi]
  inFeature := by
    rw [hfeatures, modifyLast_eq_nil_iff, h.inFeature, List.mem_append, List.mem_singleton, or_iff_left hi.symm]
  inSubfeature := hsub
  inTable := htable
  current f hf := by
    rcases c.features.eq_nil_or_concat with hnil | ⟨fs, f', hfs⟩
    · rw [hfeatures, hnil] at hf
      cases hf
    · rw [List.concat_eq_append] at hfs
      rw [hfeatures, hfs, List.modifyLast_concat, List.getLast?_concat] at hf
      obtain rfl := Option.some.inj hf
      exact hcurrent f' (h.current f' (by rw [hfs, List.getLast?_concat]; rfl))

/-- A value that has no part in opening sub-features and tables. -/
theorem Behind.value (h : Behind before c) {state : Key} {v : Text} (hopens : opens (.value state v) = false)
    (hfeatures : c'.features = c.features.modifyLast fun f => extendFeature f (.value state v))
    (hsub : c'.inSubfeature = c.inSubfeature) (htable : c'.inTable = c.inTable) :
    Behind (before ++ [.value state v]) c' := by
  refine h.last nofun hfeatures ?_ ?_ fun f hf => ?_
  · rw [subFeatureOpen_concat, if_neg nofun, hopens, hsub, h.inSubfeature]
    rfl
  · rw [tableOpen_concat, if_neg (by simp), htable, h.inTable]
    rfl
  · rw [hsub, ← hf]
    cases state with
    | featureName => exact Iff.rfl
    | featureDesc => exact Iff.rfl
    | supportShowtechAll => cases hopens
    | supportShowtechFeature => cases hopens
    | cliCmds => cases hopens
    | _ => exact modifyLast_eq_nil_iff

theorem extend_none (f : Feature) : onSubfeatures (·.modifyLast (onTables (·.modifyLast fun t => t))) f = f := by
  have htables : onTables (·.modifyLast fun t => t) = fun s => s := funext fun s => by rw [onTables, modifyLast_id]
  rw [htables, onSubfeatures, modifyLast_id]

/-- A value in a state that reads none. -/
theorem Behind.unread (h : Behind before c) {state : Key} {v : Text} (hopens : opens (.value state v) = false)
    (hextend : (fun f => extendFeature f (.value state v)) =
      onSubfeatures (·.modifyLast (onTables (·.modifyLast fun t => t)))) : Behind (before ++ [.value state v]) c := by
  refine h.value hopens ?_ rfl rfl
  rw [hextend, funext extend_none, modifyLast_id]

theorem orDummy_ne_nil (subFeatures : List SubFeature) : orDummy subFeatures ≠ [] := by
  unfold orDummy
  split
  · exact List.cons_ne_nil _ _
  · assumption

/-- A flag or a command. -/
theorem Behind.opening (h : Behind before c) {state : Key} {v : Text} {g : SubFeature → SubFeature}
    (hopens : opens (.value state v) = true) (hg : ∀ s, g s = extendSubfeature s (.value state v))
    (hextend : ∀ f, extendFeature f (.value state v) =
      onSubfeatures (fun subFeatures => extendSubfeatures subFeatures (.value state v)) f) :
    Behind (before ++ [.value state v]) (c.subfeatureOrDummy.setSubfeature g) := by
  have hsubs (subFeatures : List SubFeature) : extendSubfeatures subFeatures (.value state v) =
      (orDummy subFeatures).modifyLast fun s => extendSubfeature s (.value state v) := by
    rw [extendSubfeatures, if_neg (by rintro ⟨⟩), if_pos hopens]
  have hopen : (c.subfeatureOrDummy.setSubfeature g).inSubfeature = true := by
    rw [Config.subfeatureOrDummy]
    cases hin : c.inSubfeature with
    | true => exact hin
    | false => rfl
  refine h.last (by rintro ⟨⟩) ?_ ?_ ?_ fun f _ => ?_
  · rw [h.features_orDummy, funext hg]
    simp only [hextend, hsubs]
  · rw [hopen, subFeatureOpen_concat, if_neg (by rintro ⟨⟩), hopens, Bool.or_true, Bool.true_or]
  · rw [tableOpen_concat, if_neg (by simp), Config.subfeatureOrDummy, ← h.inTable]
    cases hin : c.inSubfeature with
    | true => rfl
    | false =>
      have htable : c.inTable = false := by
        rw [h.inTable]
        rw [h.inSubfeature] at hin
        by_contra hopenTable
        rw [subFeatureOpen_of_tableOpen (Bool.eq_true_of_not_eq_false hopenTable)] at hin
        cases hin
      rw [htable]
      rfl
  · rw [hextend, hopen]
    refine iff_of_false (fun hnil => ?_) (by rintro ⟨⟩)
    rw [onSubfeatures, hsubs] at hnil
    exact orDummy_ne_nil _ (modifyLast_eq_nil_iff.mp hnil)

theorem Behind.next (h : Behind before c) (hi : c.item i = some c') : Behind (before ++ [i]) c' := by
  have hguard {nothing : Prop} [Decidable nothing] {c'' : Config}
      (hif : (if nothing then none else some c'') = some c') : c'' = c' := by
    split at hif
    · cases hif
    · exact Option.some.inj hif
  have hflag {flag : Bool} {c'' : Config} (hif : (if flag then some c'' else none) = some c') : c'' = c' := by
    split at hif
    · exact Option.some.inj hif
    · cases hif
  cases i with
  | feature =>
    obtain rfl := Option.some.inj hi
    exact {
      features := by rw [Config.addFeature, List.foldl_append, ← h.features]; rfl
      inFeature := iff_of_false (List.append_ne_nil_of_right_ne_nil _ (List.cons_ne_nil _ _))
        fun hnot => hnot (List.mem_append_right _ List.mem_cons_self)
      inSubfeature := by rw [subFeatureOpen_concat, if_pos rfl]; rfl
      inTable := by rw [tableOpen_concat, if_pos (.inl rfl)]; rfl
      current := fun f hf => by
        rw [Config.addFeature, List.getLast?_concat] at hf
        obtain rfl := Option.some.inj hf
        exact iff_of_true rfl rfl }
  | subFeature =>
    obtain rfl := hguard hi
    refine h.last (by rintro ⟨⟩) rfl ?_ ?_ fun f _ => ?_
    · rw [subFeatureOpen_concat, if_neg (by rintro ⟨⟩)]
      rfl
    · rw [tableOpen_concat, if_pos (.inr rfl)]
      rfl
    · exact iff_of_false (List.append_ne_nil_of_right_ne_nil _ (List.cons_ne_nil _ _)) (by rintro ⟨⟩)
  | table =>
    obtain rfl := hguard hi
    have hopen : c.subfeatureOrDummy.inSubfeature = true := by
      rw [Config.subfeatureOrDummy]
      cases hin : c.inSubfeature with
      | true => exact hin
      | false => rfl
    refine h.last (by rintro ⟨⟩) ?_ ?_ ?_ fun f _ => ?_
    · exact h.features_orDummy (onTables (· ++ [⟨none, []⟩]))
    · rw [subFeatureOpen_concat, if_neg (by rintro ⟨⟩)]
      exact hopen
    · rw [tableOpen_concat, if_neg (by simp)]
      rfl
    · refine iff_of_false (fun hnil => ?_) fun hclosed => Bool.noConfusion (hopen.symm.trans hclosed)
      exact orDummy_ne_nil _ (modifyLast_eq_nil_iff.mp hnil)
  | value state v =>
    cases state with
    | featureName =>
      obtain rfl := hguard hi
      exact h.value rfl rfl rfl rfl
    | featureDesc =>
      obtain rfl := hguard hi
      exact h.value rfl rfl rfl rfl
    | subFeatureName =>
      obtain rfl := hflag hi
      exact h.value rfl rfl rfl rfl
    | subFeatureDesc =>
      obtain rfl := hflag hi
      exact h.value rfl rfl rfl rfl
    | tableName =>
      obtain rfl := hflag hi
      exact h.value rfl rfl rfl rfl
    | colnames =>
      obtain rfl := hflag hi
      exact h.value rfl rfl rfl rfl
    | supportShowtechAll =>
      obtain rfl := Option.some.inj hi
      exact h.opening rfl (fun s => rfl) fun f => rfl
    | supportShowtechFeature =>
      obtain rfl := Option.some.inj hi
      exact h.opening rfl (fun s => rfl) fun f => rfl
    | cliCmds =>
      obtain rfl := hguard hi
      exact h.opening rfl (fun s => rfl) fun f => rfl
    | _ =>
      obtain rfl := Option.some.inj hi
      exact h.unread rfl rfl

/-- A list of items is rejected at one of them, or all that comes before has been read. -/
theorem foldlM_item (l : List Item) :
    (l.foldlM Config.item ⟨[], false, false⟩ = none ↔ Rejected l) ∧
      ∀ c, l.foldlM Config.item ⟨[], false, false⟩ = some c → Behind l c :=
  Runs.foldlM_history (fun _ _ i h => h.rejects i) (fun _ _ _ _ h hi => h.next hi) l Behind.nil

end

/-! ### What the items make -/

theorem extendTable_tablename (t : OvsTable) (i : Item) :
    (extendTable t i).tablename = ((valueOf .tableName i).map some).getD t.tablename := by
  cases i with
  | value state v => cases state <;> rfl
  | _ => rfl

theorem extendTable_columns (t : OvsTable) (i : Item) :
    (extendTable t i).columns = t.columns ++ (valueOf .colnames i).toList := by
  cases i with
  | value state v =>
    cases state with
    | colnames => rfl
    | _ => exact (List.append_nil _).symm
  | _ => exact (List.append_nil _).symm

theorem getD_map_some {α : Type*} (o : Option α) : (o.map some).getD none = o := by
  cases o <;> rfl

theorem foldl_extendTable (l : List Item) : l.foldl extendTable ⟨none, []⟩ = tableOf l := by
  have hname := map_field_foldl extendTable_tablename l ⟨none, []⟩
  have hcols := append_foldl extendTable_columns l ⟨none, []⟩
  rw [getD_map_some] at hname
  calc l.foldl extendTable ⟨none, []⟩
      = ⟨(l.foldl extendTable ⟨none, []⟩).tablename, (l.foldl extendTable ⟨none, []⟩).columns⟩ := rfl
    _ = tableOf l := by rw [hname, hcols]; rfl

theorem foldl_extendTables (l : List Item) :
    l.foldl extendTables [] = (sections tableMark l).2.map fun s => tableOf s.2 := by
  have hmark : ∀ tables i (b : Unit), tableMark i = some b →
      extendTables tables i = tables ++ [(⟨none, []⟩ : OvsTable)] := fun tables i b h => by
    rw [tableMark] at h
    split at h
    · next hi =>
      subst hi
      rfl
    · cases h
  have hother : ∀ tables i, tableMark i = none → extendTables tables i = tables.modifyLast fun t => extendTable t i :=
    fun tables i h => by
      cases i with
      | table => cases h
      | _ => rfl
  refine (foldl_eq_sections hmark hother l []).trans ?_
  exact List.map_congr_left fun s _ => foldl_extendTable s.2

section
variable (s : SubFeature) (i : Item)

theorem extendSubfeature_name :
    (extendSubfeature s i).name = ((valueOf .subFeatureName i).map some).getD s.name := by
  cases i with
  | value state v => cases state <;> rfl
  | _ => rfl

theorem extendSubfeature_desc :
    (extendSubfeature s i).desc = ((valueOf .subFeatureDesc i).map some).getD s.desc := by
  cases i with
  | value state v => cases state <;> rfl
  | _ => rfl

theorem extendSubfeature_noStaSupport : (extendSubfeature s i).noStaSupport =
    ((valueOf .supportShowtechAll i).map fun v => !isYes v).getD s.noStaSupport := by
  cases i with
  | value state v => cases state <;> rfl
  | _ => rfl

theorem extendSubfeature_supportStb : (extendSubfeature s i).supportStb =
    ((valueOf .supportShowtechFeature i).map isYes).getD s.supportStb := by
  cases i with
  | value state v => cases state <;> rfl
  | _ => rfl

theorem extendSubfeature_isDummy : (extendSubfeature s i).isDummy = s.isDummy := by
  cases i with
  | value state v => cases state <;> rfl
  | _ => rfl

def commandOf (i : Item) : Option CliCmd := (valueOf .cliCmds i).map fun v => ⟨v, false⟩

theorem extendSubfeature_cliCmds : (extendSubfeature s i).cliCmds = s.cliCmds ++ (commandOf i).toList := by
  cases i with
  | value state v =>
    cases state with
    | cliCmds => rfl
    | _ => exact (List.append_nil _).symm
  | _ => exact (List.append_nil _).symm

theorem extendSubfeature_ovsTables : (extendSubfeature s i).ovsTables = extendTables s.ovsTables i := by
  cases i with
  | value state v =>
    cases state with
    | subFeatureName => exact (modifyLast_id _).symm
    | subFeatureDesc => exact (modifyLast_id _).symm
    | supportShowtechAll => exact (modifyLast_id _).symm
    | supportShowtechFeature => exact (modifyLast_id _).symm
    | cliCmds => exact (modifyLast_id _).symm
    | _ => rfl
  | _ => rfl

end

theorem foldl_extendSubfeature (isDummy : Bool) (l : List Item) :
    l.foldl extendSubfeature (emptySubfeature isDummy) = subFeatureOf isDummy l := by
  have hname := map_field_foldl extendSubfeature_name l (emptySubfeature isDummy)
  have hdesc := map_field_foldl extendSubfeature_desc l (emptySubfeature isDummy)
  have hall := map_field_foldl extendSubfeature_noStaSupport l (emptySubfeature isDummy)
  have hfeature := map_field_foldl extendSubfeature_supportStb l (emptySubfeature isDummy)
  have hcmds := append_foldl extendSubfeature_cliCmds l (emptySubfeature isDummy)
  have htables : l.foldl extendTables (emptySubfeature isDummy).ovsTables =
      (l.foldl extendSubfeature (emptySubfeature isDummy)).ovsTables :=
    List.foldl_hom SubFeature.ovsTables fun s i => (extendSubfeature_ovsTables s i).symm
  have hdummy : (l.foldl extendSubfeature (emptySubfeature isDummy)).isDummy = isDummy :=
    List.foldlRecOn l extendSubfeature (motive := fun s => s.isDummy = isDummy) rfl fun s hs i _ =>
      (extendSubfeature_isDummy s i).trans hs
  have hcommands : l.filterMap commandOf = (values .cliCmds l).map fun v => ⟨v, false⟩ := by
    rw [values, List.map_filterMap]
    rfl
  have heta : ∀ s : SubFeature,
      s = ⟨s.name, s.desc, s.noStaSupport, s.supportStb, s.isDummy, s.cliCmds, s.ovsTables⟩ := fun _ => rfl
  rw [heta (l.foldl extendSubfeature _), hname, hdesc, hall, hfeature, hdummy, hcmds, ← htables, hcommands]
  simp only [emptySubfeature, getD_map_some, List.nil_append, foldl_extendTables]
  rfl

/-- Behind a first sub-feature there is always one to extend. -/
theorem foldl_extendSubfeatures_of_ne_nil {subFeatures : List SubFeature} (hne : subFeatures ≠ []) (l : List Item) :
    l.foldl extendSubfeatures subFeatures =
      (subFeatures.modifyLast fun s => (sections subFeatureMark l).1.foldl extendSubfeature s) ++
        (sections subFeatureMark l).2.map fun s => subFeatureOf false s.2 := by
  induction l generalizing subFeatures with
  | nil => exact ((List.append_nil _).trans (modifyLast_id subFeatures)).symm
  | cons i l ih =>
    rw [List.foldl_cons]
    by_cases hi : i = .subFeature
    · have hmark : subFeatureMark i = some () := if_pos hi
      have hfirst : ((sections subFeatureMark (i :: l)).1.foldl extendSubfeature) = fun s => s := by
        rw [sections_cons_of_some hmark]
        rfl
      rw [hfirst, modifyLast_id, sections_cons_of_some hmark, extendSubfeatures, if_pos hi,
        ih (List.append_ne_nil_of_right_ne_nil _ (List.cons_ne_nil _ _)), List.modifyLast_concat, List.map_cons,
        foldl_extendSubfeature, List.append_assoc, List.singleton_append]
    · have hmark : subFeatureMark i = none := if_neg hi
      have hdummy : (if opens i then orDummy subFeatures else subFeatures) = subFeatures := by
        rw [orDummy, if_neg hne, ite_self]
      rw [extendSubfeatures, if_neg hi, hdummy, ih fun hnil => hne (modifyLast_eq_nil_iff.mp hnil),
        modifyLast_modifyLast, sections_cons_of_none hmark]
      rfl

theorem foldl_extendSubfeatures (l : List Item) : l.foldl extendSubfeatures [] = subFeaturesOf l := by
  induction l with
  | nil => rfl
  | cons i l ih =>
    rw [List.foldl_cons, subFeaturesOf]
    by_cases hi : i = .subFeature
    · have hmark : subFeatureMark i = some () := if_pos hi
      rw [sections_cons_of_some hmark, extendSubfeatures, if_pos hi, List.nil_append,
        foldl_extendSubfeatures_of_ne_nil (List.cons_ne_nil _ _)]
      have hlast (f : SubFeature → SubFeature) :
          [emptySubfeature false].modifyLast f = [f (emptySubfeature false)] := rfl
      rw [hlast, foldl_extendSubfeature]
      rfl
    · have hmark : subFeatureMark i = none := if_neg hi
      rw [sections_cons_of_none hmark, extendSubfeatures, if_neg hi]
      cases hopens : opens i with
      | false =>
        have hnone (f : SubFeature → SubFeature) : ([] : List SubFeature).modifyLast f = [] := rfl
        rw [if_neg Bool.false_ne_true, hnone, ih, subFeaturesOf, dummyOf, dummyOf, List.dropWhile_cons, hopens]
        rfl
      | true =>
        have hlast (f : SubFeature → SubFeature) : (orDummy []).modifyLast f = [f (emptySubfeature true)] := rfl
        rw [if_pos rfl, hlast, foldl_extendSubfeatures_of_ne_nil (List.cons_ne_nil _ _), dummyOf, List.dropWhile_cons,
          hopens]
        have hdummy : (sections subFeatureMark l).1.foldl extendSubfeature (extendSubfeature (emptySubfeature true) i) =
            subFeatureOf true (i :: (sections subFeatureMark l).1) := foldl_extendSubfeature true (i :: _)
        exact congrArg (fun s => [s] ++ _) hdummy

section
variable (f : Feature) (i : Item)

theorem extendFeature_name : (extendFeature f i).name = ((valueOf .featureName i).map some).getD f.name := by
  cases i with
  | value state v => cases state <;> rfl
  | _ => rfl

theorem extendFeature_desc : (extendFeature f i).desc = ((valueOf .featureDesc i).map some).getD f.desc := by
  cases i with
  | value state v => cases state <;> rfl
  | _ => rfl

theorem extendFeature_subFeatures : (extendFeature f i).subFeatures = extendSubfeatures f.subFeatures i := by
  cases i with
  | value state v =>
    cases state with
    | featureName => exact (congrArg Feature.subFeatures (extend_none f)).symm
    | featureDesc => exact (congrArg Feature.subFeatures (extend_none f)).symm
    | _ => rfl
  | _ => rfl

end

theorem foldl_extendFeature (l : List Item) : l.foldl extendFeature ⟨none, none, []⟩ = featureOf l := by
  have hname := map_field_foldl extendFeature_name l ⟨none, none, []⟩
  have hdesc := map_field_foldl extendFeature_desc l ⟨none, none, []⟩
  have hsubs : l.foldl extendSubfeatures (Feature.mk none none []).subFeatures =
      (l.foldl extendFeature ⟨none, none, []⟩).subFeatures :=
    List.foldl_hom Feature.subFeatures fun f i => (extendFeature_subFeatures f i).symm
  have heta : ∀ f : Feature, f = ⟨f.name, f.desc, f.subFeatures⟩ := fun _ => rfl
  rw [heta (l.foldl extendFeature _), hname, hdesc, ← hsubs, getD_map_some, getD_map_some, foldl_extendSubfeatures]
  rfl

theorem foldl_extendFeatures (l : List Item) : l.foldl extendFeatures [] = configuration l := by
  have hmark : ∀ features i (b : Unit), featureMark i = some b →
      extendFeatures features i = features ++ [(⟨none, none, []⟩ : Feature)] := fun features i b h => by
    rw [featureMark] at h
    split at h
    · next hi => rw [extendFeatures, if_pos hi]
    · cases h
  have hother : ∀ features i, featureMark i = none →
      extendFeatures features i = features.modifyLast fun f => extendFeature f i := fun features i h => by
    rw [featureMark] at h
    split at h
    · cases h
    · next hi => rw [extendFeatures, if_neg hi]
  refine (foldl_eq_sections hmark hother l []).trans ?_
  exact List.map_congr_left fun s _ => foldl_extendFeature s.2

/-! ### Nothing is lost -/

theorem flatMap_modifyLast {α β : Type*} {f : α → α} {g : α → List β} {d : List β} {l : List α}
    (hlast : ∀ a ∈ l.getLast?, g (f a) = g a ++ d) (hnil : l = [] → d = []) :
    (l.modifyLast f).flatMap g = l.flatMap g ++ d := by
  rcases l.eq_nil_or_concat with rfl | ⟨l, a, rfl⟩
  · rw [hnil rfl]
    rfl
  · rw [List.concat_eq_append, List.getLast?_concat] at hlast
    rw [List.concat_eq_append, List.modifyLast_concat, List.flatMap_append, List.flatMap_append, List.flatMap_singleton,
      List.flatMap_singleton, hlast a rfl, List.append_assoc]

/-- The current feature has a current sub-feature with a current table. -/
def HasTable (features : List Feature) : Prop :=
  ∃ f ∈ features.getLast?, ∃ s ∈ f.subFeatures.getLast?, s.ovsTables ≠ []

/-- Something that the items put into the sub-features; an item may need a table for that. -/
structure Tally {β : Type*} (g : SubFeature → List β) (d : Item → List β) (needsTable : Item → Prop) : Prop where
  empty : ∀ isDummy, g (emptySubfeature isDummy) = []
  extend : ∀ s i, (needsTable i → s.ovsTables ≠ []) → g (extendSubfeature s i) = g s ++ d i
  reads : ∀ i, d i ≠ [] → opens i = true ∨ needsTable i
  value : ∀ i, needsTable i → ∃ state v, i = .value state v

section
variable {β : Type*} {g : SubFeature → List β} {d : Item → List β} {needsTable : Item → Prop} {i : Item}

theorem Tally.nothing (h : Tally g d needsTable) (hopens : opens i = false) (hvalue : ∀ state v, i ≠ .value state v) :
    d i = [] := by
  by_contra hsome
  rcases h.reads i hsome with hi | hi
  · exact Bool.noConfusion (hopens.symm.trans hi)
  · obtain ⟨state, v, rfl⟩ := h.value i hi
    exact hvalue state v rfl

theorem Tally.extendSubfeatures (h : Tally g d needsTable) {subFeatures : List SubFeature}
    (hneeds : needsTable i → ∃ s ∈ subFeatures.getLast?, s.ovsTables ≠ []) :
    (extendSubfeatures subFeatures i).flatMap g = subFeatures.flatMap g ++ d i := by
  rw [ShowTechConfig.extendSubfeatures]
  split
  · next hi =>
    subst hi
    rw [h.nothing rfl fun _ _ => Item.noConfusion, List.flatMap_append, List.flatMap_singleton, h.empty]
  · have hsame : (if opens i then orDummy subFeatures else subFeatures).flatMap g = subFeatures.flatMap g := by
      split
      · rw [orDummy]
        split
        · next hnil => rw [hnil, List.flatMap_singleton, h.empty, List.flatMap_nil]
        · rfl
      · rfl
    rw [← hsame]
    refine flatMap_modifyLast (fun s hs => h.extend s i fun hi => ?_) fun hnil => ?_
    · obtain ⟨s', hs', htables⟩ := hneeds hi
      have hne : subFeatures ≠ [] := fun hnil => by
        rw [hnil] at hs'
        cases hs'
      rw [orDummy, if_neg hne, ite_self] at hs
      obtain rfl : s' = s := Option.some.inj (hs'.symm.trans hs)
      exact htables
    · by_contra hsome
      rcases h.reads i hsome with hi | hi
      · rw [if_pos hi] at hnil
        exact orDummy_ne_nil _ hnil
      · obtain ⟨s', hs', -⟩ := hneeds hi
        split at hnil
        · exact orDummy_ne_nil _ hnil
        · rw [hnil] at hs'
          cases hs'

theorem Tally.extendFeatures (h : Tally g d needsTable) {features : List Feature}
    (hneeds : needsTable i → HasTable features) (hnil : features = [] → d i = []) :
    (extendFeatures features i).flatMap (·.subFeatures.flatMap g) =
      features.flatMap (·.subFeatures.flatMap g) ++ d i := by
  rw [ShowTechConfig.extendFeatures]
  split
  · next hi =>
    subst hi
    rw [h.nothing rfl fun _ _ => Item.noConfusion, List.flatMap_append, List.flatMap_singleton]
    rfl
  · refine flatMap_modifyLast (fun f hf => ?_) hnil
    rw [extendFeature_subFeatures]
    refine h.extendSubfeatures fun hi => ?_
    obtain ⟨f', hf', hs⟩ := hneeds hi
    obtain rfl : f' = f := Option.some.inj (hf'.symm.trans hf)
    exact hs

end

/-- What stands behind the first feature, with it. -/
def fromFeature (l : List Item) : List Item := l.dropWhile (· ≠ .feature)

theorem fromFeature_concat_of_notMem {l : List Item} (h : .feature ∉ l) (i : Item) :
    fromFeature (l ++ [i]) = fromFeature [i] := by
  rw [fromFeature, List.dropWhile_append, List.dropWhile_eq_nil_iff.mpr fun a ha => by
    simpa using fun he : a = .feature => h (he ▸ ha)]
  rfl

theorem fromFeature_concat_of_mem {l : List Item} (h : .feature ∈ l) (i : Item) :
    fromFeature (l ++ [i]) = fromFeature l ++ [i] := by
  have hne : l.dropWhile (· ≠ .feature) ≠ [] := fun hnil => by
    simpa using List.dropWhile_eq_nil_iff.mp hnil _ h
  rw [fromFeature, List.dropWhile_append]
  cases hdrop : l.dropWhile (· ≠ .feature) with
  | nil => exact absurd hdrop hne
  | cons a rest => rw [fromFeature, hdrop]; rfl

/-! #### The current table -/

theorem getLast?_modifyLast {α : Type*} (f : α → α) (l : List α) : (l.modifyLast f).getLast? = l.getLast?.map f := by
  rcases l.eq_nil_or_concat with rfl | ⟨l, a, rfl⟩
  · rfl
  · rw [List.concat_eq_append, List.modifyLast_concat, List.getLast?_concat, List.getLast?_concat, Option.map_some]

theorem extendTables_ne_nil {tables : List OvsTable} {i : Item} (h : tables ≠ [] ∨ i = .table) :
    extendTables tables i ≠ [] := by
  by_cases hi : i = .table
  · subst hi
    exact List.append_ne_nil_of_right_ne_nil _ (List.cons_ne_nil _ _)
  · have hother : extendTables tables i = tables.modifyLast fun t => extendTable t i := by
      cases i with
      | table => exact absurd rfl hi
      | _ => rfl
    rw [hother]
    exact fun hnil => h.resolve_right hi (modifyLast_eq_nil_iff.mp hnil)

/-- A table is there behind a table, and stays until the next sub-feature or feature. -/
theorem hasTable_extendFeatures {features : List Feature} {i : Item} (hfeature : i ≠ .feature)
    (hsub : i ≠ .subFeature) (h : HasTable features ∨ i = .table ∧ features ≠ []) :
    HasTable (extendFeatures features i) := by
  have hlast : ∃ f ∈ features.getLast?, ∃ s ∈ (if opens i then orDummy f.subFeatures else f.subFeatures).getLast?,
      s.ovsTables ≠ [] ∨ i = .table := by
    rcases h with ⟨f, hf, s, hs, htables⟩ | ⟨hi, hne⟩
    · have hsome : f.subFeatures ≠ [] := fun hnil => by
        rw [hnil] at hs
        cases hs
      refine ⟨f, hf, s, ?_, .inl htables⟩
      rw [orDummy, if_neg hsome, ite_self]
      exact hs
    · obtain ⟨f, hf⟩ := Option.ne_none_iff_exists'.mp fun hnone => hne (List.getLast?_eq_none_iff.mp hnone)
      obtain ⟨s, hs⟩ := Option.ne_none_iff_exists'.mp fun hnone =>
        orDummy_ne_nil f.subFeatures (List.getLast?_eq_none_iff.mp hnone)
      refine ⟨f, hf, s, ?_, .inr hi⟩
      rw [hi]
      exact hs
  obtain ⟨f, hf, s, hs, htables⟩ := hlast
  refine ⟨extendFeature f i, ?_, extendSubfeature s i, ?_, ?_⟩
  · rw [extendFeatures, if_neg hfeature, getLast?_modifyLast, hf]
    rfl
  · rw [extendFeature_subFeatures, extendSubfeatures, if_neg hsub, getLast?_modifyLast, hs]
    rfl
  · rw [extendSubfeature_ovsTables]
    exact extendTables_ne_nil htables

/-! #### Runs -/

section
variable {β : Type*} {g : SubFeature → List β} {d : Item → List β} {needsTable : Item → Prop}

/-- What has been put into the sub-features, from the first feature on. -/
structure Accounted (g : SubFeature → List β) (d : Item → List β) (before : List Item) (c : Config) : Prop where
  behind : Behind before c
  hasTable : c.inTable = true → HasTable c.features
  all : c.features.flatMap (·.subFeatures.flatMap g) = (fromFeature before).flatMap d

theorem Behind.features_next {before : List Item} {c c' : Config} {i : Item} (h : Behind before c)
    (h' : Behind (before ++ [i]) c') : c'.features = ShowTechConfig.extendFeatures c.features i := by
  rw [h'.features, List.foldl_append, ← h.features]
  rfl

theorem Accounted.next (htally : Tally g d needsTable)
    (hneeds : ∀ before i, needsTable i → ¬ Rejects before i → tableOpen before = true) {before : List Item}
    {c c' : Config} {i : Item} (h : Accounted g d before c) (hi : c.item i = some c') :
    Accounted g d (before ++ [i]) c' := by
  have hbehind := h.behind.next hi
  have hfeatures := h.behind.features_next hbehind
  have haccepted : ¬ Rejects before i := fun hrejects => by
    rw [(h.behind.rejects i).mpr hrejects] at hi
    cases hi
  refine ⟨hbehind, fun htable => ?_, ?_⟩
  · rw [hbehind.inTable, tableOpen_concat] at htable
    split at htable
    · cases htable
    · next hmark =>
      rw [hfeatures]
      refine hasTable_extendFeatures (fun hf => hmark (.inl hf)) (fun hs => hmark (.inr hs)) ?_
      rcases (Bool.or_eq_true _ _).mp htable with htable | htable
      · have hi := of_decide_eq_true htable
        refine .inr ⟨hi, fun hnil => haccepted ?_⟩
        rw [hi]
        exact h.behind.inFeature.mp hnil
      · exact .inl (h.hasTable (h.behind.inTable.trans htable))
  · rw [hfeatures]
    by_cases hnil : c.features = []
    · rw [fromFeature_concat_of_notMem (h.behind.inFeature.mp hnil), hnil]
      by_cases hmark : i = .feature
      · subst hmark
        have hnone := htally.nothing (i := .feature) rfl fun _ _ => Item.noConfusion
        exact (List.flatMap_singleton d Item.feature ▸ hnone).symm
      · have hdrop : fromFeature [i] = [] := by
          rw [fromFeature, List.dropWhile_cons, if_pos (by simpa using hmark)]
          rfl
        rw [hdrop, ShowTechConfig.extendFeatures, if_neg hmark]
        rfl
    · have hmem : .feature ∈ before := by
        by_contra hnot
        exact hnil (h.behind.inFeature.mpr hnot)
      rw [fromFeature_concat_of_mem hmem, List.flatMap_append, List.flatMap_singleton, ← h.all]
      refine htally.extendFeatures (fun hi => h.hasTable ?_) fun hempty => absurd hempty hnil
      rw [h.behind.inTable]
      exact hneeds before i hi haccepted

theorem Tally.foldlM (htally : Tally g d needsTable)
    (hneeds : ∀ before i, needsTable i → ¬ Rejects before i → tableOpen before = true) {l : List Item} {c : Config}
    (hrun : l.foldlM Config.item ⟨[], false, false⟩ = some c) :
    c.features.flatMap (·.subFeatures.flatMap g) = (fromFeature l).flatMap d := by
  have hinit : Accounted g d [] ⟨[], false, false⟩ := ⟨.nil, nofun, rfl⟩
  exact ((Runs.foldlM_history (fun _ _ i h => h.behind.rejects i) (fun _ _ _ _ h hi => h.next htally hneeds hi) l
    hinit).2 c hrun).all

end

theorem tally_commands : Tally (fun s => s.cliCmds.map (·.command)) (fun i => (valueOf .cliCmds i).toList)
    fun _ => False where
  empty _ := rfl
  extend s i _ := by
    rw [extendSubfeature_cliCmds, List.map_append, commandOf]
    cases valueOf .cliCmds i <;> rfl
  reads i h := by
    cases i with
    | value state v =>
      cases state with
      | cliCmds => exact .inl rfl
      | _ => exact absurd rfl h
    | _ => exact absurd rfl h
  value _ h := h.elim

theorem tally_tables : Tally (fun s => s.ovsTables.map fun _ => ()) (fun i => (tableMark i).toList)
    fun _ => False where
  empty _ := rfl
  extend s i _ := by
    rw [extendSubfeature_ovsTables]
    have hmap (f : OvsTable → OvsTable) (tables : List OvsTable) :
        (tables.modifyLast f).map (fun _ => ()) = tables.map fun _ => () := by
      rcases tables.eq_nil_or_concat with rfl | ⟨tables, t, rfl⟩
      · rfl
      · rw [List.concat_eq_append, List.modifyLast_concat, List.map_append, List.map_append]
        rfl
    cases i with
    | table => exact List.map_append
    | _ => exact (hmap _ _).trans (List.append_nil _).symm
  reads i h := by
    cases i with
    | table => exact .inl rfl
    | _ => exact absurd rfl h
  value _ h := h.elim

theorem tally_columns : Tally (fun s => s.ovsTables.flatMap (·.columns)) (fun i => (valueOf .colnames i).toList)
    fun i => ∃ v, i = .value .colnames v where
  empty _ := rfl
  extend s i htable := by
    rw [extendSubfeature_ovsTables]
    cases i with
    | table => rw [extendTables, List.flatMap_append]; rfl
    | value state v =>
      refine flatMap_modifyLast (fun t _ => extendTable_columns t _) fun hnil => ?_
      by_cases hstate : state = .colnames
      · subst hstate
        exact absurd hnil (htable ⟨v, rfl⟩)
      · rw [valueOf, if_neg hstate]
        rfl
    | feature => exact flatMap_modifyLast (fun t _ => extendTable_columns t _) fun _ => rfl
    | subFeature => exact flatMap_modifyLast (fun t _ => extendTable_columns t _) fun _ => rfl
  reads i h := by
    cases i with
    | value state v =>
      cases state with
      | colnames => exact .inr ⟨v, rfl⟩
      | _ => exact absurd rfl h
    | _ => exact absurd rfl h
  value _ h := by
    obtain ⟨v, rfl⟩ := h
    exact ⟨_, v, rfl⟩

/-! ### Documents -/

theorem length_filterMap_mark (key : Item) (l : List Item) :
    (l.filterMap fun i => if i = key then some () else none).length = l.count key := by
  rw [List.length_filterMap_eq_countP, List.count]
  refine List.countP_congr fun i _ => ?_
  by_cases hi : i = key
  · simp [hi]
  · simp [hi]

theorem length_sections (key : Item) (l : List Item) :
    (sections (fun i => if i = key then some () else none) l).2.length = l.count key := by
  rw [← length_filterMap_mark, ← map_sections, List.length_map]

/-- A dummy or none, and behind it a node for each sub-feature. -/
def Shape (l : List Item) (subFeatures : List SubFeature) : Prop :=
  ∃ dummy real : List (List Item), subFeatures = dummy.map (subFeatureOf true) ++ real.map (subFeatureOf false) ∧
    dummy.length ≤ 1 ∧ real.length = l.count .subFeature

theorem subFeaturesOf_shape (l : List Item) : Shape l (subFeaturesOf l) := by
  have hreal : ((sections subFeatureMark l).2.map (·.2)).length = l.count .subFeature := by
    rw [List.length_map]
    exact length_sections .subFeature l
  have hmap : ((sections subFeatureMark l).2.map fun s => subFeatureOf false s.2) =
      ((sections subFeatureMark l).2.map (·.2)).map (subFeatureOf false) := by
    rw [List.map_map]
    rfl
  rw [subFeaturesOf, dummyOf, hmap]
  split
  · exact ⟨[], _, rfl, Nat.zero_le 1, hreal⟩
  · exact ⟨[(sections subFeatureMark l).1.dropWhile fun i => !opens i], _, rfl, Nat.le_refl 1, hreal⟩

/-- The features are those of the document, and nothing that belongs to a sub-feature is lost. -/
structure Complete (l : List Item) (features : List Feature) : Prop where
  /-- Each feature is made of what stands between it and the next one, and so is each sub-feature and table. -/
  same : features = configuration l
  count : features.length = l.count .feature
  subFeatures : ∀ s ∈ (sections featureMark l).2, Shape s.2 (featureOf s.2).subFeatures
  commands : features.flatMap (·.subFeatures.flatMap fun s => s.cliCmds.map (·.command)) =
    values .cliCmds (fromFeature l)
  tables : (features.flatMap (·.subFeatures.flatMap (·.ovsTables.map fun _ => ()))).length =
    (fromFeature l).count .table
  columns : features.flatMap (·.subFeatures.flatMap (·.ovsTables.flatMap (·.columns))) =
    values .colnames (fromFeature l)

theorem complete_of_run {l : List Item} {c : Config} (hrun : l.foldlM Config.item ⟨[], false, false⟩ = some c) :
    Complete l c.features := by
  have hfeatures : c.features = configuration l := ((foldlM_item l).2 c hrun).features.trans (foldl_extendFeatures l)
  have hneeds : ∀ before i, (∃ v, i = Item.value .colnames v) → ¬ Rejects before i → tableOpen before = true := by
    rintro before i ⟨v, rfl⟩ haccepted
    exact Bool.eq_true_of_not_eq_false haccepted
  refine ⟨hfeatures, ?_, fun s _ => subFeaturesOf_shape s.2, ?_, ?_, ?_⟩
  · rw [hfeatures, configuration, List.length_map]
    exact length_sections .feature l
  · rw [tally_commands.foldlM (fun _ _ h => h.elim) hrun, values, List.filterMap_eq_flatMap_toList]
  · rw [tally_tables.foldlM (fun _ _ h => h.elim) hrun, ← List.filterMap_eq_flatMap_toList]
    exact length_filterMap_mark .table (fromFeature l)
  · rw [tally_columns.foldlM hneeds hrun, values, List.filterMap_eq_flatMap_toList]

/-- A parser error, a rejection, or no feature: nothing is returned, nor left. -/
def Refused (doc : Document) : Prop :=
  doc.parserError = true ∨ Rejected (items .feature doc.scalars) ∨ .feature ∉ items .feature doc.scalars

theorem parse_of_rejected {doc : Document} (h : doc.parserError = true ∨ Rejected (items .feature doc.scalars)) :
    parseShowtechConfig (some doc) = .empty := by
  have hsim := foldlM_scalar doc.scalars (p := ⟨.feature, .empty⟩) Sim.empty
  rw [parseShowtechConfig]
  rcases h with h | h
  · split
    · rfl
    · rw [if_pos h]
  · rw [(foldlM_item _).1.mpr h] at hsim
    cases hrun : doc.scalars.foldlM Parser.scalar ⟨.feature, .empty⟩ with
    | none => rfl
    | some p =>
      rw [hrun] at hsim
      cases hsim

theorem parse_of_accepted {doc : Document} (herror : doc.parserError = false)
    (h : ¬ Rejected (items .feature doc.scalars)) : ∃ c,
      (items .feature doc.scalars).foldlM Config.item ⟨[], false, false⟩ = some c ∧
        Sim (parseShowtechConfig (some doc)) c := by
  have hsim := foldlM_scalar doc.scalars (p := ⟨.feature, .empty⟩) Sim.empty
  obtain ⟨c, hc⟩ := Option.ne_none_iff_exists'.mp fun hnone => h ((foldlM_item _).1.mp hnone)
  rw [hc] at hsim
  rw [parseShowtechConfig]
  cases hrun : doc.scalars.foldlM Parser.scalar ⟨.feature, .empty⟩ with
  | none =>
    rw [hrun] at hsim
    cases hsim
  | some p =>
    rw [hrun] at hsim
    cases hsim with
    | some hsim =>
      refine ⟨c, hc, ?_⟩
      dsimp only
      rw [herror]
      exact hsim

/-- The parser returns all of the document, or nothing. -/
theorem parse_complete (doc : Document) :
    (Refused doc → (parseShowtechConfig (some doc)).featureHead = none ∧
      (parseShowtechConfig (some doc)).config = []) ∧
    (¬ Refused doc → (parseShowtechConfig (some doc)).featureHead ≠ none ∧
      Complete (items .feature doc.scalars) (parseShowtechConfig (some doc)).config) := by
  by_cases hrejected : doc.parserError = true ∨ Rejected (items .feature doc.scalars)
  · rw [parse_of_rejected hrejected]
    exact ⟨fun _ => ⟨rfl, rfl⟩, fun h => absurd (hrejected.imp_right .inl) h⟩
  obtain ⟨herror, haccepted⟩ := not_or.mp hrejected
  obtain ⟨c, hrun, hsim⟩ := parse_of_accepted (Bool.eq_false_of_not_eq_true herror) haccepted
  have hbehind := (foldlM_item _).2 c hrun
  have hhead : (parseShowtechConfig (some doc)).featureHead = none ↔ c.features = [] := by
    rw [hsim.head, Option.map_eq_none_iff]
    exact hsim.inFeature
  rw [hsim.config]
  refine ⟨fun h => ?_, fun h => ⟨fun hnil => ?_, complete_of_run hrun⟩⟩
  · rcases h with h | h | h
    · exact absurd h herror
    · exact absurd h haccepted
    · exact ⟨hhead.mpr (hbehind.inFeature.mpr h), hbehind.inFeature.mpr h⟩
  · exact h (.inr (.inr (hbehind.inFeature.mp (hhead.mp hnil))))

/-- A document without an error that is read to its end. -/
theorem accepted_of_run {doc : Document} (herror : doc.parserError = false)
    (hrun : ((items .feature doc.scalars).foldlM Config.item ⟨[], false, false⟩).isSome = true)
    (hfeature : .feature ∈ items .feature doc.scalars) : ¬ Refused doc := by
  rintro (h | h | h)
  · exact Bool.noConfusion (herror.symm.trans h)
  · rw [(foldlM_item _).1.mpr h] at hrun
    cases hrun
  · exact h hfeature

def fanDocument : Document :=
  ⟨["feature".toList, "feature_desc".toList, "Fan".toList, "feature_name".toList, "fan".toList, "cli_cmds".toList,
    "show fan".toList], false⟩

theorem fanDocument_accepted : ¬ Refused fanDocument := accepted_of_run rfl (by decide +kernel) (by decide +kernel)

theorem fanDocument_config : (parseShowtechConfig (some fanDocument)).config =
    configuration (items .feature fanDocument.scalars) ∧
      (parseShowtechConfig (some { fanDocument with parserError := true })).featureHead = none :=
  ⟨((parse_complete fanDocument).2 fanDocument_accepted).2.same, ((parse_complete _).1 (.inl rfl)).1⟩

end ShowTechConfig
end OpsSupportability
