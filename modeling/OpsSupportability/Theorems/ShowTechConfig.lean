import OpsSupportability.Lib.Sections
import OpsSupportability.ShowTechConfig

/-! The configuration of `show tech`. The lists that the parser links with its cursors are those of a parser that
    appends to the last list of its kind; that parser returns the features, sub-features, commands, tables and columns
    of the document, or nothing. -/

namespace OpsSupportability
namespace ShowTechConfig

open Chains
open FeatureMapping (Document)
open ShowTech (CliCmd OvsTable SubFeature Feature)

/-! ### Appending to the last list -/

/-- The configuration so far, and whether a sub-feature and a table are open. -/
structure Config where
  features : List Feature
  inSubfeature : Bool
  inTable : Bool

def onSubfeatures (g : List SubFeature → List SubFeature) (f : Feature) : Feature :=
  { f with subFeatures := g f.subFeatures }

def onClicmds (g : List CliCmd → List CliCmd) (s : SubFeature) : SubFeature := { s with cliCmds := g s.cliCmds }

def onTables (g : List OvsTable → List OvsTable) (s : SubFeature) : SubFeature := { s with ovsTables := g s.ovsTables }

def onColumns (g : List Text → List Text) (t : OvsTable) : OvsTable := { t with columns := g t.columns }

def Config.setSubfeature (g : SubFeature → SubFeature) (c : Config) : Config :=
  { c with features := c.features.modifyLast (onSubfeatures (·.modifyLast g)) }

def emptySubfeature (isDummy : Bool) : SubFeature := ⟨none, none, false, false, isDummy, [], []⟩

def Config.addFeature (c : Config) : Config := ⟨c.features ++ [⟨none, none, []⟩], false, false⟩

def Config.linkSubfeature (isDummy : Bool) (c : Config) : Config :=
  ⟨c.features.modifyLast (onSubfeatures (· ++ [emptySubfeature isDummy])), true, false⟩

def Config.subfeatureOrDummy (c : Config) : Config := if c.inSubfeature then c else c.linkSubfeature true

/-! ### The cursors -/

/-- Each cursor is at the end of the list that the cursor above it owns; the lists are those of the configuration. -/
structure Sim (p : Lists) (c : Config) : Prop where
  feature : AtEnd p.features p.currFeature
  subFeature : AtEnd p.subFeatures p.currSubfeature
  cliCmd : AtEnd p.cliCmds p.currClicmd
  table : AtEnd p.tables p.currTable
  col : AtEnd p.columns p.currCol
  head : Owns p.currFeature p.featureHead
  subFeatures : Tends p.features p.currFeature (·.pSubfeature) p.subFeatures p.currSubfeature
  cliCmds : Tends p.subFeatures p.currSubfeature (·.pClicmds) p.cliCmds p.currClicmd
  tables : Tends p.subFeatures p.currSubfeature (·.pOvstable) p.tables p.currTable
  columns : Tends p.tables p.currTable (·.pColmname) p.columns p.currCol
  config : p.config = c.features
  inFeature : p.currFeature = none ↔ c.features = []
  inSubfeature : p.currSubfeature.isSome = c.inSubfeature
  inTable : p.currTable.isSome = c.inTable

section
variable {p p' : Lists} {c : Config}

/-- A change among the sub-features, as it is seen among the features. -/
theorem Sim.effect_feature (h : Sim p c) {g : List SubFeature → List SubFeature} {f : FeatureNode → FeatureNode}
    (e : Effect p.subFeatures p'.subFeatures p.currSubfeature p'.currSubfeature p.subFeature p'.subFeature g)
    (hf : ∀ n ∈ current p.features p.currFeature,
      f n = { n with pSubfeature := n.pSubfeature <|> p'.currSubfeature }) :
    Effect p.features (alter f p.features p.currFeature) p.currFeature p.currFeature p.feature p'.feature
      (·.modifyLast (onSubfeatures g)) := by
  refine .alter h.feature (fun n hn => ?_) fun n hn => ?_
  · exact congrArg (Feature.mk n.name n.desc) (e.closed (h.subFeatures.others n hn)).2
  · rw [hf n hn]
    exact congrArg (Feature.mk n.name n.desc) (e.own (h.subFeatures.current n hn)).2

/-- A change among the tables, as it is seen among the sub-features. -/
theorem Sim.effect_tables (h : Sim p c) {g : List OvsTable → List OvsTable} {f : SubfeatureNode → SubfeatureNode}
    (e : Effect p.tables p'.tables p.currTable p'.currTable p.table p'.table g) (hcli : p'.cliCmds = p.cliCmds)
    (hf : ∀ n ∈ current p.subFeatures p.currSubfeature, f n = { n with pOvstable := n.pOvstable <|> p'.currTable }) :
    Effect p.subFeatures (alter f p.subFeatures p.currSubfeature) p.currSubfeature p.currSubfeature p.subFeature
      p'.subFeature (·.modifyLast (onTables g)) := by
  refine .alter h.subFeature (fun n hn => ?_) fun n hn => ?_
  · rw [Lists.subFeature, Lists.subFeature, hcli, (e.closed (h.tables.others n hn)).2]
  · rw [hf n hn, Lists.subFeature, Lists.subFeature, hcli, onTables]
    dsimp only
    rw [(e.own (h.tables.current n hn)).2]

theorem Sim.effect_clicmds (h : Sim p c) {g : List CliCmd → List CliCmd} {f : SubfeatureNode → SubfeatureNode}
    (e : Effect p.cliCmds p'.cliCmds p.currClicmd p'.currClicmd id id g) (htables : p'.tables = p.tables)
    (hcolumns : p'.columns = p.columns)
    (hf : ∀ n ∈ current p.subFeatures p.currSubfeature, f n = { n with pClicmds := n.pClicmds <|> p'.currClicmd }) :
    Effect p.subFeatures (alter f p.subFeatures p.currSubfeature) p.currSubfeature p.currSubfeature p.subFeature
      p'.subFeature (·.modifyLast (onClicmds g)) := by
  have hread : p'.table = p.table := funext fun t => by rw [Lists.table, Lists.table, hcolumns]
  refine .alter h.subFeature (fun n hn => ?_) fun n hn => ?_
  · have hcmds := (e.closed (h.cliCmds.others n hn)).2
    rw [List.map_id, List.map_id] at hcmds
    rw [Lists.subFeature, Lists.subFeature, htables, hread, hcmds]
  · have hcmds := (e.own (h.cliCmds.current n hn)).2
    rw [List.map_id, List.map_id] at hcmds
    rw [hf n hn, Lists.subFeature, Lists.subFeature, htables, hread, onClicmds]
    dsimp only
    rw [hcmds]

theorem Sim.effect_columns (h : Sim p c) {g : List Text → List Text} {f : OvstableNode → OvstableNode}
    (e : Effect p.columns p'.columns p.currCol p'.currCol id id g)
    (hf : ∀ n ∈ current p.tables p.currTable, f n = { n with pColmname := n.pColmname <|> p'.currCol }) :
    Effect p.tables (alter f p.tables p.currTable) p.currTable p.currTable p.table p'.table
      (·.modifyLast (onColumns g)) := by
  refine .alter h.table (fun n hn => ?_) fun n hn => ?_
  · have hcols := (e.closed (h.columns.others n hn)).2
    rw [List.map_id, List.map_id] at hcols
    rw [Lists.table, Lists.table, hcols]
  · have hcols := (e.own (h.columns.current n hn)).2
    rw [List.map_id, List.map_id] at hcols
    rw [hf n hn, Lists.table, Lists.table, onColumns]
    dsimp only
    rw [hcols]

/-- A change of the last feature, as it is seen in the configuration. -/
theorem Sim.config_of_effect (h : Sim p c) (p' : Lists) {g : List Feature → List Feature}
    (e : Effect p.features p'.features p.currFeature p.currFeature p.feature p'.feature g)
    (hhead : p'.featureHead = p.featureHead) : p'.config = g c.features := by
  have hread := (e.own h.head).2
  rw [h.head.orElse] at hread
  rw [Lists.config, hhead, hread, ← h.config]
  rfl

/-- A change of the last sub-feature, as it is seen in the configuration. -/
theorem Sim.config_of_subFeature (h : Sim p c) (p' : Lists) {g : List SubFeature → List SubFeature}
    (e : Effect p.subFeatures p'.subFeatures p.currSubfeature p'.currSubfeature p.subFeature p'.subFeature g)
    (hcurr : p'.currSubfeature = p.currSubfeature) (hfeatures : p'.features = p.features)
    (hhead : p'.featureHead = p.featureHead) : p'.config = c.features.modifyLast (onSubfeatures g) := by
  have hf : ∀ n ∈ current p.features p.currFeature,
      n = { n with pSubfeature := n.pSubfeature <|> p'.currSubfeature } := fun n hn => by
    rw [hcurr, (h.subFeatures.current n hn).orElse]
  refine h.config_of_effect p' ?_ hhead
  rw [hfeatures]
  exact (alter_id h.feature).subst
    (motive := fun s => Effect p.features s p.currFeature p.currFeature p.feature p'.feature _) (h.effect_feature e hf)

theorem modifyLast_eq_nil_iff {α : Type*} {f : α → α} {l : List α} : l.modifyLast f = [] ↔ l = [] := by
  rcases l.eq_nil_or_concat with rfl | ⟨l, a, rfl⟩
  · rfl
  · rw [List.concat_eq_append, List.modifyLast_concat]
    exact iff_of_false (List.append_ne_nil_of_right_ne_nil _ (List.cons_ne_nil _ _))
      (List.append_ne_nil_of_right_ne_nil _ (List.cons_ne_nil _ _))

theorem Sim.empty : Sim .empty ⟨[], false, false⟩ where
  feature := .null _
  subFeature := .null _
  cliCmd := .null _
  table := .null _
  col := .null _
  head := rfl
  subFeatures := ⟨nofun, nofun⟩
  cliCmds := ⟨nofun, nofun⟩
  tables := ⟨nofun, nofun⟩
  columns := ⟨nofun, nofun⟩
  config := rfl
  inFeature := iff_of_true rfl rfl
  inSubfeature := rfl
  inTable := rfl

/-! ### The steps -/

theorem Sim.addFeature (h : Sim p c) : Sim p.addFeature c.addFeature := by
  have e : Effect p.features p.addFeature.features p.currFeature p.addFeature.currFeature p.feature
      p.addFeature.feature (· ++ [⟨none, none, []⟩]) := .add h.feature (fun n _ => rfl) _
  exact {
    feature := h.feature.add _
    subFeature := .null _
    cliCmd := .null _
    table := .null _
    col := .null _
    head := (e.own h.head).1
    subFeatures := h.subFeatures.add h.feature h.subFeature rfl
    cliCmds := h.cliCmds.reset h.subFeature h.cliCmd
    tables := h.tables.reset h.subFeature h.table
    columns := h.columns.reset h.table h.col
    config := by
      rw [Config.addFeature, ← h.config]
      exact (e.own h.head).2
    inFeature := iff_of_false nofun (List.append_ne_nil_of_right_ne_nil _ (List.cons_ne_nil _ _))
    inSubfeature := rfl
    inTable := rfl }

theorem Sim.linkSubfeature (h : Sim p c) (isDummy : Bool) :
    Sim (p.linkSubfeature isDummy) (c.linkSubfeature isDummy) := by
  have e : Effect p.subFeatures (p.linkSubfeature isDummy).subFeatures p.currSubfeature
      (p.linkSubfeature isDummy).currSubfeature p.subFeature (p.linkSubfeature isDummy).subFeature
      (· ++ [emptySubfeature isDummy]) := .add h.subFeature (fun n _ => rfl) _
  exact {
    feature := h.feature.alter _
    subFeature := h.subFeature.add _
    cliCmd := .null _
    table := .null _
    col := .null _
    head := h.head
    subFeatures := h.subFeatures.adopt h.feature e fun n => rfl
    cliCmds := h.cliCmds.add h.subFeature h.cliCmd rfl
    tables := h.tables.add h.subFeature h.table rfl
    columns := h.columns.reset h.table h.col
    config := h.config_of_effect (p.linkSubfeature isDummy) (h.effect_feature e fun n _ => rfl) rfl
    inFeature := h.inFeature.trans modifyLast_eq_nil_iff.symm
    inSubfeature := rfl
    inTable := rfl }

theorem Sim.subfeatureOrDummy (h : Sim p c) : Sim p.subfeatureOrDummy c.subfeatureOrDummy := by
  rw [Lists.subfeatureOrDummy, Config.subfeatureOrDummy, ← h.inSubfeature]
  cases hcurr : p.currSubfeature with
  | none => exact h.linkSubfeature true
  | some a => exact h

/-- A table behind the current one, of the current sub-feature. -/
def Lists.pushTable (p : Lists) : Lists :=
  let (tables, a) := add p.tables p.currTable ⟨none, none⟩
  { p with
    tables := tables
    subFeatures := alter (fun s => { s with pOvstable := s.pOvstable <|> some a }) p.subFeatures p.currSubfeature
    currTable := some a
    currCol := none }

def Config.pushTable (c : Config) : Config :=
  { c.setSubfeature (onTables (· ++ [⟨none, []⟩])) with inTable := true }

theorem addTable_eq (p : Lists) :
    p.addTable = if p.currFeature = none then none else some p.subfeatureOrDummy.pushTable := by
  have hreset : { p with currCol := none }.subfeatureOrDummy = { p.subfeatureOrDummy with currCol := none } := by
    unfold Lists.subfeatureOrDummy
    split <;> rfl
  rw [Lists.addTable, hreset]
  rfl

theorem Sim.pushTable (h : Sim p c) : Sim p.pushTable c.pushTable := by
  have e : Effect p.tables p.pushTable.tables p.currTable p.pushTable.currTable p.table p.pushTable.table
      (· ++ [⟨none, []⟩]) := .add h.table (fun n _ => rfl) _
  have eSub : Effect p.subFeatures p.pushTable.subFeatures p.currSubfeature p.currSubfeature p.subFeature
      p.pushTable.subFeature (·.modifyLast (onTables (· ++ [⟨none, []⟩]))) :=
    h.effect_tables e rfl fun n _ => rfl
  exact {
    feature := h.feature
    subFeature := h.subFeature.alter _
    cliCmd := h.cliCmd
    table := h.table.add _
    col := .null _
    head := h.head
    subFeatures := h.subFeatures.of_effect eSub
    cliCmds := h.cliCmds.alter h.subFeature fun n => rfl
    tables := h.tables.adopt h.subFeature e fun n => rfl
    columns := h.columns.add h.table h.col rfl
    config := h.config_of_subFeature p.pushTable eSub rfl rfl rfl
    inFeature := h.inFeature.trans modifyLast_eq_nil_iff.symm
    inSubfeature := h.inSubfeature
    inTable := rfl }

/-- A command behind the current one, of the current sub-feature. -/
def Lists.pushClicmd (command : Text) (p : Lists) : Lists :=
  let (cliCmds, a) := add p.cliCmds p.currClicmd ⟨command, false⟩
  { p with
    cliCmds := cliCmds
    subFeatures := alter (fun s => { s with pClicmds := s.pClicmds <|> some a }) p.subFeatures p.currSubfeature
    currClicmd := some a }

theorem Sim.pushClicmd (h : Sim p c) (command : Text) :
    Sim (p.pushClicmd command) (c.setSubfeature (onClicmds (· ++ [⟨command, false⟩]))) := by
  have e : Effect p.cliCmds (p.pushClicmd command).cliCmds p.currClicmd (p.pushClicmd command).currClicmd id id
      (· ++ [⟨command, false⟩]) := .add h.cliCmd (fun n _ => rfl) _
  have eSub : Effect p.subFeatures (p.pushClicmd command).subFeatures p.currSubfeature p.currSubfeature p.subFeature
      (p.pushClicmd command).subFeature (·.modifyLast (onClicmds (· ++ [⟨command, false⟩]))) :=
    h.effect_clicmds e rfl rfl fun n _ => rfl
  exact {
    feature := h.feature
    subFeature := h.subFeature.alter _
    cliCmd := h.cliCmd.add _
    table := h.table
    col := h.col
    head := h.head
    subFeatures := h.subFeatures.of_effect eSub
    cliCmds := h.cliCmds.adopt h.subFeature e fun n => rfl
    tables := h.tables.alter h.subFeature fun n => rfl
    columns := h.columns
    config := h.config_of_subFeature (p.pushClicmd command) eSub rfl rfl rfl
    inFeature := h.inFeature.trans modifyLast_eq_nil_iff.symm
    inSubfeature := h.inSubfeature
    inTable := h.inTable }

/-- A column behind the current one, of the current table. -/
def Lists.pushColumn (name : Text) (p : Lists) : Lists :=
  let (columns, a) := add p.columns p.currCol name
  { p with
    columns := columns
    tables := alter (fun t => { t with pColmname := t.pColmname <|> some a }) p.tables p.currTable
    currCol := some a }

/-- A change among the tables that leaves their cursor alone. -/
theorem Sim.effect_subFeature (h : Sim p c) (p' : Lists) {g : List OvsTable → List OvsTable}
    (e : Effect p.tables p'.tables p.currTable p'.currTable p.table p'.table g) (hcurr : p'.currTable = p.currTable)
    (hcli : p'.cliCmds = p.cliCmds) :
    Effect p.subFeatures p.subFeatures p.currSubfeature p.currSubfeature p.subFeature p'.subFeature
      (·.modifyLast (onTables g)) := by
  have hf : ∀ n ∈ current p.subFeatures p.currSubfeature,
      n = { n with pOvstable := n.pOvstable <|> p'.currTable } := fun n hn => by
    rw [hcurr, (h.tables.current n hn).orElse]
  exact (alter_id h.subFeature).subst
    (motive := fun s => Effect p.subFeatures s p.currSubfeature p.currSubfeature p.subFeature p'.subFeature _)
    (h.effect_tables e hcli hf)

theorem Sim.pushColumn (h : Sim p c) (name : Text) :
    Sim (p.pushColumn name) (c.setSubfeature (onTables (·.modifyLast (onColumns (· ++ [name]))))) := by
  have e : Effect p.columns (p.pushColumn name).columns p.currCol (p.pushColumn name).currCol id id
      (· ++ [name]) := .add h.col (fun n _ => rfl) _
  have eTable : Effect p.tables (p.pushColumn name).tables p.currTable p.currTable p.table
      (p.pushColumn name).table (·.modifyLast (onColumns (· ++ [name]))) := h.effect_columns e fun n _ => rfl
  have eSub := h.effect_subFeature (p.pushColumn name) eTable rfl rfl
  exact {
    feature := h.feature
    subFeature := h.subFeature
    cliCmd := h.cliCmd
    table := h.table.alter _
    col := h.col.add _
    head := h.head
    subFeatures := h.subFeatures.of_effect eSub
    cliCmds := h.cliCmds
    tables := h.tables.of_effect eTable
    columns := h.columns.adopt h.table e fun n => rfl
    config := h.config_of_subFeature (p.pushColumn name) eSub rfl rfl rfl
    inFeature := h.inFeature.trans modifyLast_eq_nil_iff.symm
    inSubfeature := h.inSubfeature
    inTable := h.inTable }

theorem Sim.setFeature (h : Sim p c) {f : FeatureNode → FeatureNode} {g : Feature → Feature}
    (hptr : ∀ n, (f n).pSubfeature = n.pSubfeature) (hfg : ∀ n, p.feature (f n) = g (p.feature n)) :
    Sim { p with features := alter f p.features p.currFeature } { c with features := c.features.modifyLast g } where
  feature := h.feature.alter f
  subFeature := h.subFeature
  cliCmd := h.cliCmd
  table := h.table
  col := h.col
  head := h.head
  subFeatures := h.subFeatures.alter h.feature hptr
  cliCmds := h.cliCmds
  tables := h.tables
  columns := h.columns
  config := h.config_of_effect { p with features := alter f p.features p.currFeature }
    (.alter h.feature (fun _ _ => rfl) fun n _ => hfg n) rfl
  inFeature := h.inFeature.trans modifyLast_eq_nil_iff.symm
  inSubfeature := h.inSubfeature
  inTable := h.inTable

theorem Sim.setSubfeature (h : Sim p c) {f : SubfeatureNode → SubfeatureNode} {g : SubFeature → SubFeature}
    (hptr : ∀ n, (f n).pClicmds = n.pClicmds ∧ (f n).pOvstable = n.pOvstable)
    (hfg : ∀ n, p.subFeature (f n) = g (p.subFeature n)) : Sim (p.setSubfeature f) (c.setSubfeature g) := by
  have e : Effect p.subFeatures (p.setSubfeature f).subFeatures p.currSubfeature p.currSubfeature p.subFeature
      (p.setSubfeature f).subFeature (·.modifyLast g) := .alter h.subFeature (fun n _ => rfl) fun n _ => hfg n
  exact {
    feature := h.feature
    subFeature := h.subFeature.alter f
    cliCmd := h.cliCmd
    table := h.table
    col := h.col
    head := h.head
    subFeatures := h.subFeatures.of_effect e
    cliCmds := h.cliCmds.alter h.subFeature fun n => (hptr n).1
    tables := h.tables.alter h.subFeature fun n => (hptr n).2
    columns := h.columns
    config := h.config_of_subFeature (p.setSubfeature f) e rfl rfl rfl
    inFeature := h.inFeature.trans modifyLast_eq_nil_iff.symm
    inSubfeature := h.inSubfeature
    inTable := h.inTable }

theorem Sim.setTable (h : Sim p c) {f : OvstableNode → OvstableNode} {g : OvsTable → OvsTable}
    (hptr : ∀ n, (f n).pColmname = n.pColmname) (hfg : ∀ n, p.table (f n) = g (p.table n)) :
    Sim { p with tables := alter f p.tables p.currTable } (c.setSubfeature (onTables (·.modifyLast g))) := by
  have e : Effect p.tables (alter f p.tables p.currTable) p.currTable p.currTable p.table
      (Lists.table { p with tables := alter f p.tables p.currTable }) (·.modifyLast g) :=
    .alter h.table (fun n _ => rfl) fun n _ => hfg n
  have eSub := h.effect_subFeature { p with tables := alter f p.tables p.currTable } e rfl rfl
  exact {
    feature := h.feature
    subFeature := h.subFeature
    cliCmd := h.cliCmd
    table := h.table.alter f
    col := h.col
    head := h.head
    subFeatures := h.subFeatures.of_effect eSub
    cliCmds := h.cliCmds
    tables := h.tables.of_effect e
    columns := h.columns.alter h.table hptr
    config := h.config_of_subFeature _ eSub rfl rfl rfl
    inFeature := h.inFeature.trans modifyLast_eq_nil_iff.symm
    inSubfeature := h.inSubfeature
    inTable := h.inTable }

/-! ### Values -/

def Config.setFeature (g : Feature → Feature) (c : Config) : Option Config :=
  if c.features = [] then none else some { c with features := c.features.modifyLast g }

def Config.addTable (c : Config) : Option Config :=
  if c.features = [] then none else some c.subfeatureOrDummy.pushTable

def Config.addSubfeature (c : Config) : Option Config :=
  if c.features = [] then none else some (c.linkSubfeature false)

def Config.nameSubfeature (g : SubFeature → SubFeature) (c : Config) : Option Config :=
  if c.inSubfeature then some (c.setSubfeature g) else none

def Config.setTable (g : OvsTable → OvsTable) (c : Config) : Option Config :=
  if c.inTable then some (c.setSubfeature (onTables (·.modifyLast g))) else none

def Config.addValue (v : Text) (c : Config) : Key → Option Config
  | .featureName => c.setFeature fun f => { f with name := some v }
  | .featureDesc => c.setFeature fun f => { f with desc := some v }
  | .subFeatureName => c.nameSubfeature fun s => { s with name := some v }
  | .subFeatureDesc => c.nameSubfeature fun s => { s with desc := some v }
  | .supportShowtechAll => some (c.subfeatureOrDummy.setSubfeature fun s => { s with noStaSupport := !isYes v })
  | .supportShowtechFeature => some (c.subfeatureOrDummy.setSubfeature fun s => { s with supportStb := isYes v })
  | .cliCmds =>
    if isShowTech v then none else some (c.subfeatureOrDummy.setSubfeature (onClicmds (· ++ [⟨v, false⟩])))
  | .tableName => c.setTable fun t => { t with tablename := some v }
  | .colnames => c.setTable (onColumns (· ++ [v]))
  | .feature => some c
  | .subFeature => some c
  | .ovsdb => some c
  | .table => some c
  | .value => some c

/-- The cursor is null just where the configuration says so, and then both reject. -/
theorem rel_guard {p' : Lists} {c' : Config} {null nothing : Prop} [Decidable null] [Decidable nothing]
    (hiff : null ↔ nothing) (h : Sim p' c') :
    Option.Rel Sim (if null then none else some p') (if nothing then none else some c') := by
  by_cases hnull : null
  · rw [if_pos hnull, if_pos (hiff.mp hnull)]
    exact .none
  · rw [if_neg hnull, if_neg fun hnothing => hnull (hiff.mpr hnothing)]
    exact .some h

theorem rel_flag {p' : Lists} {c' : Config} {a : Option Addr} {flag : Bool} (hflag : a.isSome = flag) (h : Sim p' c') :
    Option.Rel Sim (if a = none then none else some p') (if flag then some c' else none) := by
  subst hflag
  cases a with
  | none => exact .none
  | some a => exact .some h

theorem Sim.addValue (h : Sim p c) (v : Text) (state : Key) :
    Option.Rel Sim (p.addValue v state) (c.addValue v state) := by
  cases state with
  | featureName => exact rel_guard h.inFeature (h.setFeature (fun n => rfl) fun n => rfl)
  | featureDesc => exact rel_guard h.inFeature (h.setFeature (fun n => rfl) fun n => rfl)
  | subFeatureName => exact rel_flag h.inSubfeature (h.setSubfeature (fun n => ⟨rfl, rfl⟩) fun n => rfl)
  | subFeatureDesc => exact rel_flag h.inSubfeature (h.setSubfeature (fun n => ⟨rfl, rfl⟩) fun n => rfl)
  | supportShowtechAll =>
    exact .some (h.subfeatureOrDummy.setSubfeature (fun n => ⟨rfl, rfl⟩) fun n => rfl)
  | supportShowtechFeature =>
    exact .some (h.subfeatureOrDummy.setSubfeature (fun n => ⟨rfl, rfl⟩) fun n => rfl)
  | cliCmds => exact rel_guard Iff.rfl (h.subfeatureOrDummy.pushClicmd v)
  | tableName => exact rel_flag h.inTable (h.setTable (fun n => rfl) fun n => rfl)
  | colnames => exact rel_flag h.inTable (h.pushColumn v)
  | feature => exact .some h
  | subFeature => exact .some h
  | ovsdb => exact .some h
  | table => exact .some h
  | value => exact .some h

end

/-! ### The document as a list of items -/

/-- A scalar that begins a list of the configuration, or a value with the state in which it is read. -/
inductive Item where
  | feature
  | subFeature
  | table
  | value (state : Key) (v : Text)
  deriving DecidableEq, Repr

def items : Key → List Text → List Item
  | _, [] => []
  | state, data :: scalars =>
    match getValueType data with
    | .value => .value state data :: items state scalars
    | .feature => .feature :: items .feature scalars
    | .subFeature => .subFeature :: items .subFeature scalars
    | .table => .table :: items .table scalars
    | key => items key scalars

def Config.item (c : Config) : Item → Option Config
  | .feature => some c.addFeature
  | .subFeature => c.addSubfeature
  | .table => c.addTable
  | .value state v => c.addValue v state

/-- The parser goes on behind a step if the configuration does. -/
theorem rel_scalar {x : Option Lists} {y : Option Config} (h : Option.Rel Sim x y) (state : Key)
    {f : Parser → Option Parser} {g : Config → Option Config}
    (hfg : ∀ lists c, Sim lists c → Option.Rel (fun p c => Sim p.lists c) (f ⟨state, lists⟩) (g c)) :
    Option.Rel (fun p c => Sim p.lists c) ((x.map fun lists => ⟨state, lists⟩) >>= f) (y >>= g) := by
  cases h with
  | none => exact .none
  | some hsim => exact hfg _ _ hsim

/-- The scalars and their items lead to the same lists, or both to a rejection. -/
theorem foldlM_scalar (scalars : List Text) {p : Parser} {c : Config} (h : Sim p.lists c) :
    Option.Rel (fun p c => Sim p.lists c) (scalars.foldlM Parser.scalar p)
      ((items p.currentState scalars).foldlM Config.item c) := by
  induction scalars generalizing p c with
  | nil => exact .some h
  | cons data scalars ih =>
    rw [List.foldlM_cons, items, Parser.scalar]
    cases getValueType data with
    | value =>
      exact rel_scalar (h.addValue data p.currentState) p.currentState fun lists c hnext => ih (p := ⟨_, lists⟩) hnext
    | feature => exact ih (p := ⟨.feature, p.lists.addFeature⟩) h.addFeature
    | subFeature =>
      have hstep : Option.Rel Sim p.lists.addSubfeature c.addSubfeature :=
        rel_guard h.inFeature (h.linkSubfeature false)
      exact rel_scalar hstep .subFeature fun lists c hnext => ih (p := ⟨_, lists⟩) hnext
    | table =>
      have hstep : Option.Rel Sim p.lists.addTable c.addTable := by
        rw [addTable_eq]
        exact rel_guard h.inFeature h.subfeatureOrDummy.pushTable
      exact rel_scalar hstep .table fun lists c hnext => ih (p := ⟨_, lists⟩) hnext
    | _ => exact ih (p := { p with currentState := _ }) h

end ShowTechConfig
end OpsSupportability
