import OpsSupportability.FeatureMapping
import OpsSupportability.Theorems.DiagDump

/-! The mapping that is loaded, the flag of a feature against the flags of its daemons, and what a document
    with an error leaves behind. -/

namespace OpsSupportability
namespace FeatureMapping

open DiagDump (Daemon)
open Sections

/-! ### The mapping of a document -/

def keyOf (data : Text) : Option Key := keywords.find? fun k => keystrFeat k == data

theorem keyOf_ne_value {data : Text} : keyOf data ≠ some .value := fun h => by
  have hmem : Key.value ∈ keywords := List.mem_of_find?_eq_some h
  exact absurd hmem (by decide)

/-- The values of a document, each with the state in which it is read. -/
def values (scalars : List Text) : List (Key × Text) := entries keyOf .value scalars

def nameOf : Key × Text → Option Text
  | (.featureName, v) => some v
  | _ => none

def descOf : Key × Text → Option Text
  | (.featureDesc, v) => some (v.take featureDescSize)
  | _ => none

def daemonOf : Key × Text → Option Text
  | (.daemonName, v) => some v
  | _ => none

def flagOf : Key × Text → Option Bool
  | (.diagdumpFlag, v) => some (v == diagDumpFeatureFlag)
  | _ => none

def flags (l : List (Key × Text)) : List Bool := l.filterMap flagOf

def lastFlag (l : List (Key × Text)) : Bool := (flags l).getLast?.getD false

/-- A daemon, from its name and the values up to the next daemon of the feature. -/
def daemonMapping (s : Text × List (Key × Text)) : Daemon := ⟨s.1.take featureSize, lastFlag s.2⟩

/-- A feature, from its name and the values up to the next feature. -/
def featureMapping (s : Text × List (Key × Text)) : Feature where
  name := s.1.take featureSize
  desc := (s.2.filterMap descOf).getLast?
  daemons := (sections daemonOf s.2).2.map daemonMapping
  diagFlag := lastFlag s.2

/-- The features of a document, each with its values. -/
def featureSections (scalars : List Text) : List (Text × List (Key × Text)) := (sections nameOf (values scalars)).2

def mapping (scalars : List Text) : List Feature := (featureSections scalars).map featureMapping

/-! ### What is loaded -/

theorem scalar_of_value {data : Text} (h : keyOf data = none) (l : Loader) :
    l.scalar data = { l with features := addValue l.currentState l.features data } := by
  have hkey : featureMappingCheckKey data = .value := congrArg (·.getD Key.value) h
  rw [Loader.scalar, hkey]

theorem scalar_of_key {data : Text} {key : Key} (h : keyOf data = some key) (l : Loader) :
    l.scalar data = { l with currentState := key } := by
  have hkey : featureMappingCheckKey data = key := congrArg (·.getD Key.value) h
  rw [Loader.scalar, hkey]
  cases key with
  | value => exact absurd h keyOf_ne_value
  | _ => rfl

theorem foldl_scalar (scalars : List Text) (l : Loader) :
    (scalars.foldl Loader.scalar l).features =
      (entries keyOf l.currentState scalars).foldl (fun features e => addValue e.1 features e.2) l.features := by
  induction scalars generalizing l with
  | nil => rfl
  | cons data scalars ih =>
    rw [List.foldl_cons, ih, entries]
    cases h : keyOf data with
    | none => rw [scalar_of_value h, List.foldl_cons]
    | some key => rw [scalar_of_key h]

/-- What a value changes of the feature that it belongs to. -/
def extend (f : Feature) : Key × Text → Feature
  | (.featureDesc, v) => addFeatureDesc f v
  | (.daemonName, v) => addDaemon f v
  | (.diagdumpFlag, v) => setDiagFlag f v
  | _ => f

theorem addValue_of_name {features : List Feature} {e : Key × Text} {name : Text} (h : nameOf e = some name) :
    addValue e.1 features e.2 = features ++ [⟨name.take featureSize, none, [], false⟩] := by
  obtain ⟨key, v⟩ := e
  cases key with
  | featureName =>
    cases h
    rfl
  | _ => cases h

theorem addValue_of_not_name {features : List Feature} {e : Key × Text} (h : nameOf e = none) :
    addValue e.1 features e.2 = features.modifyLast fun f => extend f e := by
  obtain ⟨key, v⟩ := e
  cases key with
  | featureName => cases h
  | value => exact (modifyLast_id features).symm
  | daemon => exact (modifyLast_id features).symm
  | _ => rfl

/-! ### One feature -/

theorem extend_name (f : Feature) (e : Key × Text) : (extend f e).name = f.name := by
  obtain ⟨key, v⟩ := e
  cases key <;> rfl

theorem extend_desc (f : Feature) (e : Key × Text) : (extend f e).desc = ((descOf e).map some).getD f.desc := by
  obtain ⟨key, v⟩ := e
  cases key <;> rfl

theorem extend_diagFlag (f : Feature) (e : Key × Text) : (extend f e).diagFlag = (flagOf e).getD f.diagFlag := by
  obtain ⟨key, v⟩ := e
  cases key <;> rfl

def setFlag (d : Daemon) (e : Key × Text) : Daemon := { d with diagFlag := (flagOf e).getD d.diagFlag }

/-- What a value changes of the daemons of a feature. -/
def extendDaemons (daemons : List Daemon) (e : Key × Text) : List Daemon :=
  match daemonOf e with
  | some name => daemons ++ [⟨name.take featureSize, false⟩]
  | none => daemons.modifyLast fun d => setFlag d e

theorem extend_daemons (f : Feature) (e : Key × Text) : (extend f e).daemons = extendDaemons f.daemons e := by
  obtain ⟨key, v⟩ := e
  cases key with
  | daemonName => rfl
  | diagdumpFlag => rfl
  | _ => exact (modifyLast_id f.daemons).symm

theorem foldl_setFlag (l : List (Key × Text)) (d : Daemon) :
    l.foldl setFlag d = { d with diagFlag := (flags l).getLast?.getD d.diagFlag } := by
  have hname : (l.foldl setFlag d).name = d.name := by
    induction l generalizing d with
    | nil => rfl
    | cons e l ih => exact ih (setFlag d e)
  have hflag := field_foldl (fun d e => (rfl : (setFlag d e).diagFlag = (flagOf e).getD d.diagFlag)) l d
  calc l.foldl setFlag d = ⟨(l.foldl setFlag d).name, (l.foldl setFlag d).diagFlag⟩ := rfl
    _ = _ := by rw [hname, hflag, flags]

theorem foldl_extendDaemons (l : List (Key × Text)) :
    l.foldl extendDaemons [] = (sections daemonOf l).2.map daemonMapping := by
  have hmark : ∀ daemons e name, daemonOf e = some name →
      extendDaemons daemons e = daemons ++ [(⟨name.take featureSize, false⟩ : Daemon)] := fun daemons e name h => by
    rw [extendDaemons, h]
  have hother : ∀ daemons e, daemonOf e = none → extendDaemons daemons e = daemons.modifyLast fun d => setFlag d e :=
    fun daemons e h => by rw [extendDaemons, h]
  refine (foldl_eq_sections hmark hother l []).trans ?_
  exact List.map_congr_left fun s _ => foldl_setFlag s.2 _

section
variable (l : List (Key × Text)) (f : Feature)

theorem foldl_extend_name : (l.foldl extend f).name = f.name := by
  induction l generalizing f with
  | nil => rfl
  | cons e l ih => rw [List.foldl_cons, ih, extend_name]

theorem foldl_extend_desc : (l.foldl extend f).desc = ((l.filterMap descOf).getLast?.map some).getD f.desc :=
  map_field_foldl extend_desc l f

theorem foldl_extend_diagFlag : (l.foldl extend f).diagFlag = (flags l).getLast?.getD f.diagFlag :=
  field_foldl extend_diagFlag l f

theorem foldl_extend_daemons : (l.foldl extend f).daemons = l.foldl extendDaemons f.daemons :=
  (List.foldl_hom Feature.daemons fun f e => (extend_daemons f e).symm).symm

end

theorem foldl_extend (name : Text) (l : List (Key × Text)) :
    l.foldl extend ⟨name.take featureSize, none, [], false⟩ = featureMapping (name, l) := by
  have heta : ∀ f : Feature, f = ⟨f.name, f.desc, f.daemons, f.diagFlag⟩ := fun _ => rfl
  rw [heta (l.foldl extend _), foldl_extend_name, foldl_extend_desc, foldl_extend_daemons, foldl_extend_diagFlag,
    foldl_extendDaemons, featureMapping, lastFlag]
  cases (l.filterMap descOf).getLast? <;> rfl

/-- The parser builds the mapping of what it has read. -/
theorem parse_eq_mapping (scalars : List Text) (parserError : Bool) :
    (parseFeatureMappingYaml (some ⟨scalars, parserError⟩)).2 = mapping scalars := by
  have hmark : ∀ (features : List Feature) (e : Key × Text) (name : Text), nameOf e = some name →
      addValue e.1 features e.2 = features ++ [⟨name.take featureSize, none, [], false⟩] :=
    fun _ _ _ h => addValue_of_name h
  refine (foldl_scalar scalars ⟨.value, []⟩).trans
    ((foldl_eq_sections hmark (fun _ _ h => addValue_of_not_name h) (values scalars) []).trans ?_)
  exact List.map_congr_left fun s _ => foldl_extend s.1 s.2

/-! ### The last flag, and any flag -/

/-- The flags before the first daemon of a feature, and those of each daemon: what comes last tells whether some
    daemon is switched on. -/
structure Settled (early : List Bool) (daemons : List (List Bool)) : Prop where
  early : early.getLast? = some true → ∃ g ∈ daemons, g ≠ []
  later : ∀ pre g post, daemons = pre ++ g :: post → g.getLast? = some true → post.flatten.getLast? ≠ some false

section
variable {early : List Bool} {daemons : List (List Bool)}

end

/-! ### The flag of a feature -/

/-- The flags of each daemon of a feature. -/
def daemonFlags (l : List (Key × Text)) : List (List Bool) := (sections daemonOf l).2.map fun s => flags s.2

/-- The calls of `get_feature_mapping` one after the other, each with the file that it finds. -/
def afterCalls (featureHead : List Feature) (files : List (Option Document)) : List Feature :=
  files.foldl (fun featureHead file => getFeatureMapping file featureHead) featureHead

def brokenFile (scalars : List Text) : Option Document := some ⟨scalars, true⟩

/-- While the file is broken, in one way or another, each call returns nothing; and once it has been repaired,
    a call returns all that is in it. -/
structure AllOrNothing (broken : List (List Text)) : Prop where
  fails : ∀ calls, calls <+: broken → afterCalls [] (calls.map brokenFile) = []
  recovers : ∀ scalars,
    getFeatureMapping (some ⟨scalars, false⟩) (afterCalls [] (broken.map brokenFile)) = mapping scalars

/-- The error comes before the name of any feature. -/
def Nameless (scalars : List Text) : Prop := ∀ e ∈ values scalars, e.1 ≠ .featureName

theorem mapping_eq_nil_iff (scalars : List Text) : mapping scalars = [] ↔ Nameless scalars := by
  rw [mapping, List.map_eq_nil_iff, featureSections, sections_eq_nil_iff]
  refine forall₂_congr fun e _ => ?_
  obtain ⟨key, v⟩ := e
  cases key <;> simp [nameOf]

theorem getFeatureMapping_nil (scalars : List Text) (parserError : Bool) :
    getFeatureMapping (some ⟨scalars, parserError⟩) [] = mapping scalars := parse_eq_mapping scalars parserError

theorem afterCalls_eq_nil {broken : List (List Text)} (h : ∀ scalars ∈ broken, Nameless scalars) :
    afterCalls [] (broken.map brokenFile) = [] := by
  induction broken with
  | nil => rfl
  | cons scalars broken ih =>
    have hnil : getFeatureMapping (brokenFile scalars) [] = [] := by
      rw [brokenFile, getFeatureMapping_nil, mapping_eq_nil_iff]
      exact h scalars List.mem_cons_self
    rw [List.map_cons, afterCalls, List.foldl_cons, hnil]
    exact ih fun scalars' hmem => h scalars' (List.mem_cons_of_mem _ hmem)

theorem allOrNothing_iff (broken : List (List Text)) :
    AllOrNothing broken ↔ ∀ scalars ∈ broken, Nameless scalars := by
  constructor
  · intro h scalars hmem
    obtain ⟨pre, post, rfl⟩ := List.append_of_mem hmem
    have hbefore := h.fails pre (List.prefix_append _ _)
    have hafter := h.fails (pre ++ [scalars]) ⟨post, by rw [List.append_assoc, List.singleton_append]⟩
    rw [List.map_append, afterCalls, List.foldl_append] at hafter
    rw [afterCalls] at hbefore
    rw [hbefore] at hafter
    exact (mapping_eq_nil_iff scalars).mp ((getFeatureMapping_nil scalars true).symm.trans hafter)
  · intro h
    refine ⟨fun calls hcalls => ?_, fun scalars => ?_⟩
    · exact afterCalls_eq_nil fun scalars hmem => h scalars (hcalls.subset hmem)
    · rw [afterCalls_eq_nil h, getFeatureMapping_nil]

/-- The file is cut off in the second feature. -/
def cutOffScalars : List Text :=
  ["feature_name".toList, "lldp".toList, "feature_desc".toList, "Link Layer Discovery".toList, "daemon".toList,
    "name".toList, "ops-lldpd".toList, "diag_dump".toList, "y".toList, "feature_name".toList]

theorem cutOff_cached : ¬ AllOrNothing [cutOffScalars] := by
  intro h
  exact absurd (h.fails [cutOffScalars] List.prefix_rfl) (by decide)

end FeatureMapping
end OpsSupportability
