import OpsSupportability.FeatureMapping
import OpsSupportability.ShowEvents

/-! The commands of vtysh that are built at its start: `install_diag_dump` from the feature mapping, and
    `install_show_tech` from the scalars of the YAML file; for `install_show_evnts` see the show commands of the
    events. Allocation succeeds, and `install_element` gets the string and the help text of an element. -/

namespace OpsSupportability
namespace SupportabilityVty

open ShowEvents (strncat strncpy maxCmdSize)

def maxFeatures : Nat := 100
def maxHelpSize : Nat := 256
def maxFeatureHelpSize : Nat := maxFeatures * maxHelpSize

/-- The arrays `cmd` and `help`. -/
structure Buffers where
  cmd : Text
  help : Text
  deriving DecidableEq, Repr

/-- An alternative and its help line. -/
def Buffers.alternative (b : Buffers) (name desc : Text) : Buffers where
  cmd := strncat maxCmdSize (strncat maxCmdSize b.cmd name) ['|']
  help := strncat maxFeatureHelpSize (strncat maxFeatureHelpSize b.help desc) ['\n']

/-- What an installer returns, and the element that it installs. -/
structure Installation where
  ret : Nat
  element : Option (Text × Text)
  deriving DecidableEq, Repr

/-! ### `diag-dump` -/

def diagDumpStr : Text := "Display diagnostic dump\n".toList
def diagDumpFeature : Text := "Specify the feature name\n".toList
def diagDumpFeatureBasic : Text := "Capture basic diagnostic dump for a specified feature\n".toList
def diagDumpFeatureFile : Text := "Specify the filename to capture diagnostic dump\n".toList
def diagDumpOpening : Text := "diag-dump (".toList
def diagDumpClosing : Text := ") basic [FILENAME]".toList

/-- The loop over the features, and whether one has been appended; none if a feature has no description. -/
def diagLoop : List FeatureMapping.Feature → Buffers → Bool → Option (Buffers × Bool)
  | [], b, install => some (b, install)
  | f :: fs, b, install =>
    if !f.diagFlag then diagLoop fs b install
    else
      match f.desc with
      | none => none
      | some desc => diagLoop fs (b.alternative f.name desc) true

def installDiagDump (featureHead : List FeatureMapping.Feature) : Option Installation :=
  (diagLoop featureHead ⟨strncpy maxCmdSize diagDumpOpening, strncpy maxFeatureHelpSize diagDumpStr⟩ false).map
    fun (b, install) =>
      let cmd := strncat maxCmdSize b.cmd diagDumpClosing
      let help := strncat maxFeatureHelpSize (strncat maxFeatureHelpSize
        (strncat maxFeatureHelpSize b.help diagDumpFeature) diagDumpFeatureBasic) diagDumpFeatureFile
      ⟨0, if install then some (cmd, help) else none⟩

/-! ### `show tech` -/

def showTechFileStr : Text := "Capture command-output into a specified file\n".toList
def showTechFilenameStr : Text := "Specify the filename to capture command-output\n".toList
def showTechOpening : Text := "show tech (".toList
def showTechClosing : Text := ") {localfile FILENAME}".toList
def featureNameKey : Text := "feature_name".toList

/-- The variables of the loop of `install_show_tech`. -/
structure TechLoop where
  buffers : Buffers
  found : Bool
  install : Bool
  prev : Text
  desc : Text
  deriving DecidableEq, Repr

def TechLoop.scalar (s : TechLoop) (key : Text) : TechLoop :=
  let s := if s.found then
      { s with buffers := s.buffers.alternative key s.desc, found := false, install := true }
    else s
  let s := if key = featureNameKey then { s with found := true, desc := s.prev } else s
  { s with prev := strncpy maxHelpSize key }

/-- The first help text is that of the element before; no list of scalars is no file. A parser error ends the
    scalars like the end of the stream. -/
def installShowTech (doc : Text) (file : Option (List Text)) : Installation :=
  match file with
  | none => ⟨1, none⟩
  | some scalars =>
    let s := scalars.foldl TechLoop.scalar
      ⟨⟨strncpy maxCmdSize showTechOpening, strncpy maxFeatureHelpSize doc⟩, false, false, [], []⟩
    if !s.install then ⟨1, none⟩
    else
      ⟨0, some (strncat maxCmdSize s.buffers.cmd showTechClosing,
        strncat maxFeatureHelpSize (strncat maxFeatureHelpSize s.buffers.help showTechFileStr) showTechFilenameStr)⟩

end SupportabilityVty
end OpsSupportability
