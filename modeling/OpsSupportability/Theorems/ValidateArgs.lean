import OpsSupportability.DiagDump
import OpsSupportability.Theorems.CoreDump
import OpsSupportability.Theorems.Rsyslog

/-! What `validate_cli_args` says about an argument: with `REG_NEWLINE` the anchors stand at the ends of a line, so an
    argument of several lines passes by one of them. -/

namespace OpsSupportability
namespace ValidateArgs

open CoreDump (validateCliArgs validateCliArgs_eq_zero nameChars)

/-- The patterns that arguments are validated with. -/
inductive Pattern where
  | userName
  | hostName
  | fileName
  | daemonName
  | corefileInstance
  | diagFileName
  | hostname
  deriving DecidableEq, Repr

def Pattern.regex : Pattern → RegularExpression Char
  | .userName => CoreDump.userNameRegex
  | .hostName => CoreDump.hostNameRegex
  | .fileName => CoreDump.fileNameRegex
  | .daemonName => CoreDump.daemonNameRegex
  | .corefileInstance => CoreDump.corefileInstanceRegex
  | .diagFileName => DiagDump.diagFileNameRegex
  | .hostname => Syslog.hostnameRegex

/-- What the uses of an argument rely on: in a pattern of `glob` it stands for itself, in the rsyslog file it ends no
    line. -/
def Pattern.Relies (arg : Text) : Pattern → Prop
  | .daemonName | .corefileInstance => ∀ c ∈ arg, Glob.isPlain c = true
  | .hostname => '\n' ∉ arg
  | .userName | .hostName | .fileName | .diagFileName => True

/-- An argument that passes is in the language of the pattern, from its first to its last character. -/
def Whole (p : Pattern) (arg : Text) : Prop :=
  validateCliArgs arg p.regex = 0 → arg ∈ p.regex.matches' ∧ p.Relies arg

section
variable {p : Pattern} {arg : Text}

/-- The character of a bracket expression is one of the language. -/
theorem mem_interval_all {cs : List Char} {m n : Nat} (hmn : m ≤ n) {P : Char → Prop} (hcs : ∀ c ∈ cs, P c)
    (h : arg ∈ (Regex.interval (Regex.oneOf cs) m n).matches') : ∀ c ∈ arg, P c :=
  fun c hc => hcs c ((Regex.mem_interval hmn).mp h |>.2 c hc)

theorem hostname_chars : ∀ c ∈ Regex.chars Syslog.hostnameRegex, c ≠ '\n' := by decide +kernel

theorem newline_not_mem (h : arg ∈ p.regex.matches') : '\n' ∉ arg := by
  suffices hall : ∀ c ∈ arg, c ≠ '\n' from fun hmem => hall _ hmem rfl
  cases p with
  | userName => exact mem_interval_all (by decide) (by decide) h
  | hostName => exact mem_interval_all (by decide) (by decide) h
  | fileName => exact mem_interval_all (by decide) (by decide) h
  | daemonName => exact mem_interval_all (by decide) (by decide) h
  | corefileInstance => exact mem_interval_all (by decide) (by decide) h
  | diagFileName => exact mem_interval_all (by decide) (by decide) h
  | hostname => exact fun c hc => hostname_chars c (Regex.mem_chars h c hc)

theorem relies_of_mem (h : arg ∈ p.regex.matches') : p.Relies arg := by
  cases p with
  | daemonName => exact mem_interval_all (by decide) (fun c hc => (CoreDump.daemonChars c hc).1) h
  | corefileInstance =>
    exact mem_interval_all (by decide) (fun c hc => (CoreDump.isPlain_of_isDigit (CoreDump.digitChars c hc)).1) h
  | hostname => exact newline_not_mem h
  | userName | hostName | fileName | diagFileName => exact trivial

/-- The whole argument is validated if and only if it has one line, or no line of it passes. -/
theorem whole_iff (p : Pattern) (arg : Text) :
    Whole p arg ↔ '\n' ∉ arg ∨ ∀ line ∈ arg.splitOn '\n', line ∉ p.regex.matches' := by
  rw [← Regex.accepts_whole_iff fun _ => newline_not_mem, Whole, validateCliArgs_eq_zero]
  exact imp_congr_right fun _ => and_iff_left_of_imp relies_of_mem

theorem not_whole_of_line (line : Text) (hnewline : '\n' ∈ arg) (hline : line ∈ arg.splitOn '\n')
    (hmatch : line ∈ p.regex.matches') : ¬ Whole p arg := by
  intro h
  have hzero := validateCliArgs_eq_zero.mpr (Regex.accepts_iff.mpr ⟨line, hline, hmatch⟩)
  exact newline_not_mem (h hzero).1 hnewline

/-- A star on a line of its own passes as a daemon name and as an instance id, and a line for the rsyslog file as a
    host. -/
theorem lines_not_whole :
    ¬ Whole .daemonName "a\n*".toList ∧ ¬ Whole .corefileInstance "1\n*".toList ∧
      ¬ Whole .hostname "h\n*.* @x".toList := by
  refine ⟨?_, ?_, ?_⟩
  · exact not_whole_of_line ['a'] (by decide) (by decide) ((Regex.mem_interval (by decide)).mpr (by decide))
  · exact not_whole_of_line ['1'] (by decide) (by decide) ((Regex.mem_interval (by decide)).mpr (by decide))
  · exact not_whole_of_line ['h'] (by decide) (by decide)
      ((RegularExpression.rmatch_iff_matches' _ _).mp (by decide +kernel))

/-! ### The commands -/

/-- A host that `logging` accepts ends no line of the rsyslog file, if the whole of it is validated. -/
theorem remoteHost_line {env : Syslog.Env} {host : String}
    (hip : env.isValidIpAddress host = (Inet.inetPton4 host.toList || Inet.inetPton6 host.toList))
    (hregexec : env.regexec Syslog.hostnameRgx host = Regex.accepts Syslog.hostnameRegex host.toList)
    (hwhole : Whole .hostname host.toList) (haccepted : Syslog.remoteHostError env host = none) :
    '\n' ∉ host.toList := by
  have hvalid : (Inet.inetPton4 host.toList = true ∨ Inet.inetPton6 host.toList = true) ∨
      Regex.accepts Syslog.hostnameRegex host.toList = true := by
    rw [← Bool.or_eq_true, ← hip, ← hregexec]
    by_contra hnot
    obtain ⟨haddress, hname⟩ := not_or.mp hnot
    simp only [Syslog.remoteHostError, Syslog.validateCliArgs, haddress, hname] at haccepted
    split at haccepted <;> cases haccepted
  rcases hvalid with (hv4 | hv6) | hname
  · intro hmem
    rcases Inet.inetPton4_chars hv4 _ hmem with hdigit | hdot
    · cases hdigit
    · cases hdot
  · intro hmem
    cases Inet.inetPton6_chars hv6 _ hmem
  · exact (hwhole (validateCliArgs_eq_zero.mpr hname)).2

end

end ValidateArgs
end OpsSupportability
