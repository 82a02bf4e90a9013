import OpsSupportability.DiagDump
import OpsSupportability.Lib.Sections

/-! The mapping of features to daemons: `parse_feature_mapping_yaml` and the cache `feature_head` of
    `get_feature_mapping`, and the list of the features for `diag-dump`. Of the YAML file the parser sees the
    scalars, each up to its first NUL. -/

namespace OpsSupportability
namespace FeatureMapping

open DiagDump (Daemon)

/-! ### The file -/

/-- What the YAML parser delivers: the scalars in order, and then the end of the stream or an error. -/
structure Document where
  scalars : List Text
  parserError : Bool
  deriving DecidableEq, Repr

inductive Key where
  | value
  | featureName
  | featureDesc
  | daemon
  | daemonName
  | diagdumpFlag
  deriving DecidableEq, Repr

def keystrFeat : Key → Text
  | .value => "values".toList
  | .featureName => "feature_name".toList
  | .featureDesc => "feature_desc".toList
  | .daemon => "daemon".toList
  | .daemonName => "name".toList
  | .diagdumpFlag => "diag_dump".toList

def keywords : List Key := [.featureName, .featureDesc, .daemon, .daemonName, .diagdumpFlag]

def featureMappingCheckKey (data : Text) : Key := (keywords.find? fun k => keystrFeat k == data).getD .value

/-! ### The mapping -/

structure Feature where
  name : Text
  desc : Option Text
  daemons : List Daemon
  diagFlag : Bool
  deriving DecidableEq, Repr

def featureSize : Nat := 30
def featureDescSize : Nat := 100
def diagDumpFeatureFlag : Text := "y".toList

def addFeature (features : List Feature) (name : Text) : List Feature :=
  features ++ [⟨name.take featureSize, none, [], false⟩]

def addFeatureDesc (f : Feature) (desc : Text) : Feature := { f with desc := some (desc.take featureDescSize) }

def addDaemon (f : Feature) (daemon : Text) : Feature :=
  { f with daemons := f.daemons ++ [⟨daemon.take featureSize, false⟩] }

/-- A value in state `DIAGDUMP_FLAG`: the flag of the current daemon, and of the current feature. -/
def setDiagFlag (f : Feature) (data : Text) : Feature :=
  let diagFlag := data == diagDumpFeatureFlag
  { f with diagFlag := diagFlag, daemons := f.daemons.modifyLast fun d => { d with diagFlag := diagFlag } }

/-- The current feature is the last one, and its last daemon the current one. Daemons before the first feature
    belong to none. -/
def addValue (currentState : Key) (features : List Feature) (data : Text) : List Feature :=
  match currentState with
  | .featureName => addFeature features data
  | .featureDesc => features.modifyLast fun f => addFeatureDesc f data
  | .daemonName => features.modifyLast fun f => addDaemon f data
  | .diagdumpFlag => features.modifyLast fun f => setDiagFlag f data
  | .value => features
  | .daemon => features

structure Loader where
  currentState : Key
  features : List Feature
  deriving DecidableEq, Repr

def Loader.scalar (l : Loader) (data : Text) : Loader :=
  match featureMappingCheckKey data with
  | .value => { l with features := addValue l.currentState l.features data }
  | key => { l with currentState := key }

/-- The status, and the list under `feature_head`; no list is there before. No document is no file. -/
def parseFeatureMappingYaml (file : Option Document) : Nat × List Feature :=
  match file with
  | none => (1, [])
  | some doc => (if doc.parserError then 1 else 0, (doc.scalars.foldl Loader.scalar ⟨.value, []⟩).features)

/-- `get_feature_mapping` with the list that it finds, and the list that it returns and leaves: none is `NULL`. -/
def getFeatureMapping (file : Option Document) (featureHead : List Feature) : List Feature :=
  match featureHead with
  | [] => (parseFeatureMappingYaml file).2
  | _ :: _ => featureHead

/-! ### `diag-dump list` -/

def listLine (f : Feature) : Text × Option Text := (f.name.take 40, f.desc.map (·.take 100))

/-- The lines of `vtysh_diag_list_features`. -/
def vtyshDiagListFeatures (featureHead : List Feature) : List (Text × Option Text) :=
  (featureHead.filter (·.diagFlag)).map listLine

/-- The feature as `diag-dump` finds it. -/
def Feature.target (f : Feature) : DiagDump.Feature := ⟨f.name, f.daemons⟩

end FeatureMapping
end OpsSupportability
