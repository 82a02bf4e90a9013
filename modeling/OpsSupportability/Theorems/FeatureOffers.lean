import Mathlib.Data.List.TakeWhile
import OpsSupportability.Theorems.FeatureMapping
import OpsSupportability.Theorems.SupportabilityVty

/-! Which features are offered for `diag-dump`, by the installed command and by `diag-dump list`, against the
    daemons that `diag-dump` asks. The installed command is cut off at the end of its buffer, and `diag-dump`
    looks for the first feature of a name. -/

namespace OpsSupportability
namespace FeatureMapping

open SupportabilityVty (diagDumpOpening installDiagDump diagOffer flaggedNames)
open ShowEvents (maxCmdSize)

/-! ### What is offered, and what is asked -/

/-- The words of a command from its bracket up to the closing one. -/
def words (cmd : Text) : List Text :=
  (Text.tokens '|' ((cmd.drop diagDumpOpening.length).takeWhile (· != ')'))).flatMap (Text.tokens ' ')

def Offered (featureHead : List Feature) (name : Text) : Prop :=
  ∃ cmd help, installDiagDump featureHead = some ⟨0, some (cmd, help)⟩ ∧ name ∈ words cmd

def Listed (featureHead : List Feature) (name : Text) : Prop := ∃ line ∈ vtyshDiagListFeatures featureHead, line.1 = name

/-- A name that is a word of the command. -/
structure Word (name : Text) : Prop where
  nonempty : name ≠ []
  bar : '|' ∉ name
  blank : ' ' ∉ name
  bracket : ')' ∉ name

instance (name : Text) : Decidable (Word name) :=
  decidable_of_iff (name ≠ [] ∧ '|' ∉ name ∧ ' ' ∉ name ∧ ')' ∉ name)
    ⟨fun ⟨h, h', h'', h'''⟩ => ⟨h, h', h'', h'''⟩, fun ⟨h, h', h'', h'''⟩ => ⟨h, h', h'', h'''⟩⟩

theorem word_of_mem {cmd name : Text} (h : name ∈ words cmd) : Word name := by
  obtain ⟨part, hpart, hname⟩ := List.mem_flatMap.mp h
  obtain ⟨hbar, hin⟩ := Text.mem_tokens hpart
  obtain ⟨hblank, hsub⟩ := Text.mem_tokens hname
  refine ⟨Text.mem_tokens_ne_nil hname, fun hc => hbar (hsub.subset hc), hblank, fun hc => ?_⟩
  exact absurd (List.mem_takeWhile_imp ((hsub.trans hin).subset hc)) (by decide)

section
variable {featureHead : List Feature}

theorem Offered.word {name : Text} (h : Offered featureHead name) : Word name := by
  obtain ⟨cmd, help, -, hmem⟩ := h
  exact word_of_mem hmem

end

/-! ### The document -/

def featureName (s : Text × List (Key × Text)) : Text := s.1.take featureSize

/-- Some daemon of the feature has `y` as its last flag. -/
def enabled (s : Text × List (Key × Text)) : Bool := (daemonFlags s.2).any (·.getLast? == some true)

end FeatureMapping
end OpsSupportability
