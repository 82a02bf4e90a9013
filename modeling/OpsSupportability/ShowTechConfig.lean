import OpsSupportability.FeatureMapping
import OpsSupportability.Lib.Chains
import OpsSupportability.ShowTech

/-! The configuration of `show tech`: `parse_showtech_config` on the scalars of the YAML file, with its linked lists
    and its cursors, and `get_showtech_config`. Allocation succeeds; what is logged is left out. -/

namespace OpsSupportability
namespace ShowTechConfig

open Chains (Addr Store add alter follow)
open FeatureMapping (Document)
open ShowTech (CliCmd OvsTable SubFeature Feature)

inductive Key where
  | feature
  | featureName
  | featureDesc
  | subFeature
  | subFeatureName
  | subFeatureDesc
  | supportShowtechAll
  | supportShowtechFeature
  | cliCmds
  | ovsdb
  | table
  | tableName
  | colnames
  | value
  deriving DecidableEq, Repr

def keystr : Key → Text
  | .feature => "feature".toList
  | .featureName => "feature_name".toList
  | .featureDesc => "feature_desc".toList
  | .subFeature => "sub_feature".toList
  | .subFeatureName => "sub_feature_name".toList
  | .subFeatureDesc => "sub_feature_desc".toList
  | .supportShowtechAll => "support_showtech_all".toList
  | .supportShowtechFeature => "support_showtech_feature".toList
  | .cliCmds => "cli_cmds".toList
  | .ovsdb => "ovsdb".toList
  | .table => "table".toList
  | .tableName => "table_name".toList
  | .colnames => "col_names".toList
  | .value => "values".toList

def keywords : List Key :=
  [.feature, .featureName, .featureDesc, .subFeature, .subFeatureName, .subFeatureDesc, .supportShowtechAll,
    .supportShowtechFeature, .cliCmds, .ovsdb, .table, .tableName, .colnames]

def getValueType (data : Text) : Key := (keywords.find? fun k => keystr k == data).getD .value

/-! ### `SHOWTECH_CMD_PATTERN` -/

/-- `\s*show\s+tech` at the beginning of a text. -/
def showTechHere (s : Text) : Bool :=
  let s := s.dropWhile Text.isSpace
  let rest := s.drop 4
  "show".toList.isPrefixOf s && rest.head?.any Text.isSpace &&
    "tech".toList.isPrefixOf (rest.dropWhile Text.isSpace)

def behindNewlines : Text → List Text
  | [] => []
  | c :: s => if c = '\n' then s :: behindNewlines s else behindNewlines s

/-- `regexec` of `showtechregx`, where `^` is the beginning of any line. -/
def isShowTech (command : Text) : Bool := (command :: behindNewlines command).any showTechHere

/-! ### The lists -/

structure FeatureNode where
  name : Option Text
  desc : Option Text
  pSubfeature : Option Addr
  deriving DecidableEq, Repr

structure SubfeatureNode where
  name : Option Text
  desc : Option Text
  noStaSupport : Bool
  supportStb : Bool
  isDummy : Bool
  pClicmds : Option Addr
  pOvstable : Option Addr
  deriving DecidableEq, Repr

structure OvstableNode where
  tablename : Option Text
  pColmname : Option Addr
  deriving DecidableEq, Repr

/-- What `calloc` makes, with the flag of `set_subfeature_as_dummy`. -/
def newSubfeature (isDummy : Bool) : SubfeatureNode := ⟨none, none, false, false, isDummy, none, none⟩

/-- The lists, the head of the features, and the cursors. -/
structure Lists where
  features : Store FeatureNode
  subFeatures : Store SubfeatureNode
  cliCmds : Store CliCmd
  tables : Store OvstableNode
  columns : Store Text
  featureHead : Option Addr
  currFeature : Option Addr
  currSubfeature : Option Addr
  currClicmd : Option Addr
  currTable : Option Addr
  currCol : Option Addr
  deriving DecidableEq, Repr

def Lists.empty : Lists := ⟨[], [], [], [], [], none, none, none, none, none, none⟩

def Lists.addFeature (p : Lists) : Lists :=
  let (features, a) := add p.features p.currFeature ⟨none, none, none⟩
  { p with
    features := features
    featureHead := p.featureHead <|> some a
    currFeature := some a
    currSubfeature := none
    currClicmd := none
    currTable := none
    currCol := none }

/-- A sub-feature behind the current one; it begins the list of the current feature, if there is one and it has none. -/
def Lists.linkSubfeature (isDummy : Bool) (p : Lists) : Lists :=
  let (subFeatures, a) := add p.subFeatures p.currSubfeature (newSubfeature isDummy)
  { p with
    subFeatures := subFeatures
    features := alter (fun f => { f with pSubfeature := f.pSubfeature <|> some a }) p.features p.currFeature
    currSubfeature := some a
    currClicmd := none
    currTable := none
    currCol := none }

def Lists.addSubfeature (p : Lists) : Option Lists :=
  if p.currFeature = none then none else some (p.linkSubfeature false)

/-- Without a current sub-feature a dummy is added. -/
def Lists.subfeatureOrDummy (p : Lists) : Lists := if p.currSubfeature = none then p.linkSubfeature true else p

def Lists.addTable (p : Lists) : Option Lists :=
  if p.currFeature = none then none
  else
    let p := { p with currCol := none }.subfeatureOrDummy
    let (tables, a) := add p.tables p.currTable ⟨none, none⟩
    some { p with
      tables := tables
      subFeatures := alter (fun s => { s with pOvstable := s.pOvstable <|> some a }) p.subFeatures p.currSubfeature
      currTable := some a }

def Lists.addClicmd (command : Text) (p : Lists) : Option Lists :=
  let p := p.subfeatureOrDummy
  if isShowTech command then none
  else
    let (cliCmds, a) := add p.cliCmds p.currClicmd ⟨command, false⟩
    some { p with
      cliCmds := cliCmds
      subFeatures := alter (fun s => { s with pClicmds := s.pClicmds <|> some a }) p.subFeatures p.currSubfeature
      currClicmd := some a }

def Lists.addColumn (name : Text) (p : Lists) : Option Lists :=
  if p.currTable = none then none
  else
    let (columns, a) := add p.columns p.currCol name
    some { p with
      columns := columns
      tables := alter (fun t => { t with pColmname := t.pColmname <|> some a }) p.tables p.currTable
      currCol := some a }

def Lists.setFeature (f : FeatureNode → FeatureNode) (p : Lists) : Option Lists :=
  if p.currFeature = none then none else some { p with features := alter f p.features p.currFeature }

def Lists.setSubfeature (f : SubfeatureNode → SubfeatureNode) (p : Lists) : Lists :=
  { p with subFeatures := alter f p.subFeatures p.currSubfeature }

def Lists.nameSubfeature (f : SubfeatureNode → SubfeatureNode) (p : Lists) : Option Lists :=
  if p.currSubfeature = none then none else some (p.setSubfeature f)

def Lists.setTable (f : OvstableNode → OvstableNode) (p : Lists) : Option Lists :=
  if p.currTable = none then none else some { p with tables := alter f p.tables p.currTable }

def isYes (v : Text) : Bool := v == "yes".toList || v == "true".toList

/-- A value in a state; none is a rejection. -/
def Lists.addValue (v : Text) (p : Lists) : Key → Option Lists
  | .featureName => p.setFeature fun f => { f with name := some v }
  | .featureDesc => p.setFeature fun f => { f with desc := some v }
  | .subFeatureName => p.nameSubfeature fun s => { s with name := some v }
  | .subFeatureDesc => p.nameSubfeature fun s => { s with desc := some v }
  | .supportShowtechAll => some (p.subfeatureOrDummy.setSubfeature fun s => { s with noStaSupport := !isYes v })
  | .supportShowtechFeature => some (p.subfeatureOrDummy.setSubfeature fun s => { s with supportStb := isYes v })
  | .cliCmds => p.addClicmd v
  | .tableName => p.setTable fun t => { t with tablename := some v }
  | .colnames => p.addColumn v
  | .feature => some p
  | .subFeature => some p
  | .ovsdb => some p
  | .table => some p
  | .value => some p

/-! ### The parser -/

structure Parser where
  currentState : Key
  lists : Lists
  deriving DecidableEq, Repr

/-- One scalar; none is a rejection. -/
def Parser.scalar (p : Parser) (data : Text) : Option Parser :=
  match getValueType data with
  | .value => (p.lists.addValue data p.currentState).map fun lists => { p with lists := lists }
  | .feature => some ⟨.feature, p.lists.addFeature⟩
  | .subFeature => p.lists.addSubfeature.map fun lists => ⟨.subFeature, lists⟩
  | .table => p.lists.addTable.map fun lists => ⟨.table, lists⟩
  | key => some { p with currentState := key }

/-- What is left under `feature_head`; a rejection or a parser error frees it. No document is no file. -/
def parseShowtechConfig (file : Option Document) : Lists :=
  match file with
  | none => .empty
  | some doc =>
    match doc.scalars.foldlM Parser.scalar ⟨.feature, .empty⟩ with
    | none => .empty
    | some p => if doc.parserError then .empty else p.lists

/-- `get_showtech_config` with what it finds; the pattern compiles. -/
def getShowtechConfig (file : Option Document) (p : Lists) : Lists :=
  if p.featureHead = none then parseShowtechConfig file else p

/-! ### Reading the lists -/

def Lists.table (p : Lists) (t : OvstableNode) : OvsTable := ⟨t.tablename, follow p.columns t.pColmname⟩

def Lists.subFeature (p : Lists) (s : SubfeatureNode) : SubFeature where
  name := s.name
  desc := s.desc
  noStaSupport := s.noStaSupport
  supportStb := s.supportStb
  isDummy := s.isDummy
  cliCmds := follow p.cliCmds s.pClicmds
  ovsTables := (follow p.tables s.pOvstable).map p.table

def Lists.feature (p : Lists) (f : FeatureNode) : Feature :=
  ⟨f.name, f.desc, (follow p.subFeatures f.pSubfeature).map p.subFeature⟩

/-- The list under `feature_head`, as it is read from there. -/
def Lists.config (p : Lists) : List Feature := (follow p.features p.featureHead).map p.feature

end ShowTechConfig
end OpsSupportability
