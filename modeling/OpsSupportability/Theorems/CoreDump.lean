import OpsSupportability.Theorems.TimeStamps

/-! Which cores `copy core-dump` sends for an instance id, against those that `show core-dump` lists with
    it. The pattern has a wildcard in front of the id, so any field that ends in the id is taken for it. -/

namespace OpsSupportability
namespace CoreDump

def coreDir : Text := "/var/diagnostics/coredump".toList

/-- The parts of a name in front of its fields. -/
def coreWord : Text := "core".toList
def coreDot : Text := "core.".toList

theorem coreDot_eq : coreDot = coreWord ++ ['.'] := by decide

def DigitField (w : Text) : Prop := w ≠ [] ∧ ∀ c ∈ w, c.isDigit = true

/-- The name of a core file: `core.COMM.UID.BOOTID.PID.TIMESTAMP`, maybe with the extension of a compression. -/
structure CoreName where
  comm : Text
  uid : Text
  bootId : Text
  pid : Text
  timestamp : Text
  extension : Option Text
  comm_dots : '.' ∉ comm
  uid_digits : DigitField uid
  bootId_hex : (1 ≤ bootId.length ∧ bootId.length ≤ 64) ∧ ∀ c ∈ bootId, isLowerHex c = true
  pid_digits : DigitField pid
  timestamp_digits : DigitField timestamp
  extension_word : ∀ e, extension = some e → '.' ∉ e ∧ ∃ c rest, e = c :: rest ∧ c.isDigit = false

namespace CoreName

def fields (core : CoreName) : List Text :=
  [core.comm, core.uid, core.bootId, core.pid, core.timestamp] ++ core.extension.toList

def name (core : CoreName) : Text := ['.'].intercalate (coreWord :: core.fields)

def path (core : CoreName) : Text := coreDir ++ '/' :: core.name

/-- The core of a process of a daemon. -/
def IsOf (core : CoreName) (daemon instanceId : Text) : Prop := core.comm = daemon ∧ core.pid = instanceId

instance (core : CoreName) (daemon instanceId : Text) : Decidable (core.IsOf daemon instanceId) :=
  inferInstanceAs (Decidable (_ ∧ _))

end CoreName

section
variable {core : CoreName} {d i : Text}

/-! ### Fields -/

theorem DigitField.no_dot {w : Text} (h : DigitField w) : '.' ∉ w := fun hmem => absurd (h.2 _ hmem) (by decide)

theorem CoreName.bootId_no_dot (core : CoreName) : '.' ∉ core.bootId := fun hmem =>
  absurd (core.bootId_hex.2 _ hmem) (by decide)

theorem CoreName.fields_no_dot (core : CoreName) : ∀ w ∈ core.fields, '.' ∉ w := by
  intro w hw
  simp only [CoreName.fields, List.cons_append, List.nil_append, List.mem_cons, Option.mem_toList] at hw
  rcases hw with rfl | rfl | rfl | rfl | rfl | hext
  · exact core.comm_dots
  · exact core.uid_digits.no_dot
  · exact core.bootId_no_dot
  · exact core.pid_digits.no_dot
  · exact core.timestamp_digits.no_dot
  · exact (core.extension_word w hext).1

theorem CoreName.splitOn_name (core : CoreName) : core.name.splitOn '.' = coreWord :: core.fields := by
  refine List.splitOn_intercalate '.' (fun w hw => ?_) (by simp)
  rcases List.mem_cons.mp hw with rfl | hw
  · decide
  · exact core.fields_no_dot w hw

/-- Cores whose name is one that the pattern of `copy core-dump` describes: behind the parts of the daemon
    name some field ends in the instance id and is followed by another. -/
def CoreName.Taken (core : CoreName) (daemon instanceId : Text) : Prop :=
  ∃ rest, core.fields = daemon.splitOn '.' ++ rest ∧ ∃ w ∈ rest.dropLast, instanceId <:+ w

theorem CoreName.IsOf.taken (h : core.IsOf d i) : core.Taken d i := by
  obtain ⟨rfl, rfl⟩ := h
  refine ⟨[core.uid, core.bootId, core.pid, core.timestamp] ++ core.extension.toList, ?_, core.pid, ?_, List.suffix_rfl⟩
  · rw [List.splitOn_eq_singleton core.comm_dots]
    rfl
  · cases core.extension <;> simp

/-- The pattern between `core.` and the end, as a shape of the name. -/
theorem taken_iff (hi : '.' ∉ i) :
    core.Taken d i ↔ ∃ a b, core.name = coreDot ++ d ++ '.' :: (a ++ i ++ '.' :: b) := by
  constructor
  · rintro ⟨rest, hfields, w, hw, u, rfl⟩
    obtain ⟨pre, post, hsplit⟩ := List.append_of_mem hw
    have hne : rest ≠ [] := fun hnil => by simp [hnil] at hw
    have hrest : rest = pre ++ (u ++ i) :: (post ++ [rest.getLast hne]) := by
      conv_lhs => rw [← List.dropLast_append_getLast hne, hsplit]
      simp
    let last := ['.'].intercalate (post ++ [rest.getLast hne])
    have htail : ['.'].intercalate ((u ++ i) :: (post ++ [rest.getLast hne])) = u ++ i ++ '.' :: last := by
      have happ := Text.intercalate_append '.' [u ++ i] (post ++ [rest.getLast hne]) (by simp) (by simp)
      simpa using happ
    have hd : ['.'].intercalate (d.splitOn '.') = d := List.intercalate_splitOn '.'
    have hname : core.name = coreDot ++ d ++ '.' :: ['.'].intercalate rest := by
      have hhead := Text.intercalate_append '.' [coreWord] (d.splitOn '.' ++ rest) (by simp) (by simp)
      rw [List.singleton_append, Text.intercalate_append '.' _ _ (by simp) hne, hd] at hhead
      rw [CoreName.name, hfields, hhead, coreDot_eq]
      simp
    cases pre with
    | nil =>
      refine ⟨u, last, ?_⟩
      rw [hname, hrest, List.nil_append, htail]
    | cons v pre =>
      refine ⟨['.'].intercalate (v :: pre) ++ '.' :: u, last, ?_⟩
      rw [hname, hrest, Text.intercalate_append '.' _ _ (by simp) (by simp), htail]
      simp
  · rintro ⟨a, b, hname⟩
    have hsplit := core.splitOn_name
    have hshape : core.name = coreWord ++ '.' :: (d ++ '.' :: (a ++ i ++ '.' :: b)) := by
      rw [hname, coreDot_eq]
      simp
    rw [hshape, List.splitOn_append_cons_self_of_not_mem (by decide), List.splitOn_append_cons_self,
      List.splitOn_append_cons_self] at hsplit
    obtain ⟨init, w, -, ha⟩ := Text.splitOn_append_of_not_mem hi a
    have hfields := (List.cons.inj hsplit).2
    have hb : b.splitOn '.' ≠ [] := List.splitOn_ne_nil '.' b
    refine ⟨_, hfields.symm, w ++ i, ?_, List.suffix_append w i⟩
    rw [ha, List.dropLast_append_of_ne_nil hb]
    simp

/-! ### The pattern of `copy core-dump` -/

/-- Daemon name and instance id that pass the validation; an argument is a word of the command line. -/
structure ValidArguments (daemon instanceId : Text) : Prop where
  daemonLine : '\n' ∉ daemon
  daemon : validateCliArgs daemon daemonNameRegex = 0
  instanceLine : '\n' ∉ instanceId
  instanceId : validateCliArgs instanceId corefileInstanceRegex = 0

theorem validateCliArgs_eq_zero {arg : Text} {regex : RegularExpression Char} :
    validateCliArgs arg regex = 0 ↔ Regex.accepts regex arg = true := by
  unfold validateCliArgs
  split <;> simp_all

theorem daemonChars : ∀ c ∈ nameChars ++ ['.', '-'], Glob.isPlain c = true ∧ c ≠ '/' ∧ c ≠ '\n' := by decide

theorem digitChars : ∀ c ∈ Regex.range '0' '9', c.isDigit = true := by decide

namespace ValidArguments

theorem daemon_spec (h : ValidArguments d i) :
    d.length ≤ 50 ∧ ∀ c ∈ d, Glob.isPlain c = true ∧ c ≠ '/' ∧ c ≠ '\n' := by
  obtain ⟨⟨-, hlen⟩, hchars⟩ :=
    (Regex.accepts_interval (by decide) h.daemonLine).mp (validateCliArgs_eq_zero.mp h.daemon)
  exact ⟨hlen, fun c hc => daemonChars c (hchars c hc)⟩

theorem instance_spec (h : ValidArguments d i) : i.length ≤ 5 ∧ DigitField i := by
  obtain ⟨⟨hmin, hlen⟩, hchars⟩ :=
    (Regex.accepts_interval (by decide) h.instanceLine).mp (validateCliArgs_eq_zero.mp h.instanceId)
  exact ⟨hlen, List.length_pos_iff.mp hmin, fun c hc => digitChars c (hchars c hc)⟩

theorem no_dot (h : ValidArguments d i) : '.' ∉ i := h.instance_spec.2.no_dot

end ValidArguments

/-- The tokens of the names in the pattern. -/
def nameTokens (daemon instanceId : Text) : List Glob.Token :=
  (coreDot ++ daemon ++ ['.']).map .char ++ .star :: ((instanceId ++ ['.']).map .char ++ [.star])

theorem isPlain_of_isDigit {c : Char} (h : c.isDigit = true) : Glob.isPlain c = true ∧ c ≠ '/' := by
  have hne : ∀ x : Char, x.isDigit = false → c ≠ x := fun x hx heq => by simp [heq, hx] at h
  simp [Glob.isPlain, hne '\\' rfl, hne '?' rfl, hne '*' rfl, hne '[' rfl, hne '/' rfl]

theorem tokens_location (h : ValidArguments d i) :
    Glob.tokens (location .daemon daemonCorePattern (some d) (some i)) =
      coreDir.map .char ++ .char '/' :: nameTokens d i := by
  have hd := Glob.tokens_plain fun c hc => (h.daemon_spec.2 c hc).1
  have hi := Glob.tokens_plain fun c hc => (isPlain_of_isDigit (h.instance_spec.2.2 c hc)).1
  have hfront : Glob.tokens (daemonCorePath ++ "\\/core\\.".toList) =
      coreDir.map .char ++ .char '/' :: coreDot.map .char := by decide
  have hmiddle : Glob.tokens "\\.*".toList = [.char '.', .star] := by decide
  have hend : Glob.tokens ("\\.".toList ++ daemonCorePattern) = [.char '.', .star] := by decide
  have hloc : location .daemon daemonCorePattern (some d) (some i) =
      daemonCorePath ++ "\\/core\\.".toList ++ (d ++ ("\\.*".toList ++ (i ++ ("\\.".toList ++ daemonCorePattern)))) := by
    simp only [location, List.append_assoc]
  rw [hloc, Glob.tokens_append (by decide), hfront, hd, Glob.tokens_append (by decide), hmiddle, hi, hend]
  simp [nameTokens]

theorem length_location (h : ValidArguments d i) :
    (location .daemon daemonCorePattern (some d) (some i)).length ≤ coreFileName - 1 := by
  have hd := h.daemon_spec.1
  have hi := h.instance_spec.1
  have hconstant : daemonCorePath.length + "\\/core\\.".toList.length + "\\.*".toList.length +
      "\\.".toList.length + daemonCorePattern.length ≤ 100 := by decide
  simp only [location, List.length_append, coreFileName]
  omega

theorem nameTokens_slash (h : ValidArguments d i) : Glob.Token.char '/' ∉ nameTokens d i := by
  have hd : '/' ∉ d := fun hmem => (h.daemon_spec.2 _ hmem).2.1 rfl
  have hi : '/' ∉ i := fun hmem => (isPlain_of_isDigit (h.instance_spec.2.2 _ hmem)).2 rfl
  have hcore : '/' ∉ coreDot := by decide
  simp [nameTokens, hd, hi, hcore]

theorem getFileList_instance (env : Env) (h : ValidArguments d i) :
    getFileList env .daemon daemonCorePattern (some d) (some i) =
      some (((env.files coreDir).filter (Glob.acceptsName (nameTokens d i))).map fun file => coreDir ++ '/' :: file) := by
  have hlen := length_location h
  have hfits : ¬ coreFileName < (location .daemon daemonCorePattern (some d) (some i)).length := by
    have : coreFileName - 1 ≤ coreFileName := Nat.sub_le _ _
    omega
  simp only [getFileList, if_neg hfits, List.take_of_length_le hlen]
  rw [Glob.glob_eq env.files (tokens_location h) (nameTokens_slash h)]

theorem accepts_nameTokens (name : Text) :
    Glob.accepts (nameTokens d i) name = true ↔
      ∃ a b, name = coreDot ++ d ++ '.' :: (a ++ i ++ '.' :: b) := by
  rw [nameTokens, Glob.accepts_chars]
  simp only [Glob.accepts_star, Glob.accepts_chars]
  constructor
  · rintro ⟨t, rfl, a, b, rfl, c, rfl, -⟩
    exact ⟨a, c, by simp⟩
  · rintro ⟨a, b, rfl⟩
    exact ⟨a ++ i ++ '.' :: b, by simp, a, i ++ '.' :: b, by simp, b, by simp, b, [], by simp, rfl⟩

theorem CoreName.name_cons (core : CoreName) : ∃ rest, core.name = 'c' :: rest := by
  have hcore : coreWord = 'c' :: "ore".toList := by decide
  refine ⟨"ore".toList ++ '.' :: ['.'].intercalate core.fields, ?_⟩
  have happ := Text.intercalate_append '.' [coreWord] core.fields (by simp) (by simp [CoreName.fields])
  rw [List.singleton_append] at happ
  rw [CoreName.name, happ]
  simp [hcore]

/-- The pattern takes the cores with a field that ends in the id. -/
theorem acceptsName_iff (h : ValidArguments d i) (core : CoreName) :
    Glob.acceptsName (nameTokens d i) core.name = true ↔ core.Taken d i := by
  obtain ⟨rest, hname⟩ := core.name_cons
  have hhead : (core.name.head? != some '.') = true := by rw [hname]; rfl
  rw [Glob.acceptsName, hhead, Bool.true_or, Bool.true_and, accepts_nameTokens, taken_iff h.no_dot]

/-! ### What `show core-dump` reads from a name -/

/-- The groups of a match, each in its class. -/
theorem fits_coreFilePattern {groups : List Text} (h : Capture.Fits coreFilePattern groups) :
    ∃ g₁ g₂ g₃ g₄ g₅, groups = [g₁, g₂, g₃, g₄, g₅] ∧ '.' ∉ g₂ ∧ '.' ∉ g₃ ∧ '.' ∉ g₄ ∧
      ∃ c w, g₅ = c :: w ∧ c.isDigit = true := by
  obtain ⟨g₁, _, rfl, -, -, -, g₂, _, rfl, h₂, -, -, g₃, _, rfl, h₃, -, -, g₄, _, rfl, h₄, -, -, g₅, _, rfl, h₅,
    hmin, -, rfl⟩ := h
  obtain ⟨c, w, rfl⟩ := List.exists_cons_of_length_pos hmin
  have no_dot : ∀ {is : Char → Bool} {w : Text}, is '.' = false → (∀ c ∈ w, is c = true) → '.' ∉ w :=
    fun hdot hw hmem => absurd (hw _ hmem) (by simp [hdot])
  exact ⟨g₁, g₂, g₃, g₄, c :: w, rfl, no_dot rfl h₂, no_dot rfl h₃, no_dot rfl h₄, c, w, rfl, h₅ c List.mem_cons_self⟩

theorem assemble_coreFilePattern (g₁ g₂ g₃ g₄ g₅ : Text) :
    Capture.assemble coreFilePattern [g₁, g₂, g₃, g₄, g₅] =
      coreWord ++ '.' :: (g₁ ++ '.' :: (g₂ ++ '.' :: (g₃ ++ '.' :: (g₄ ++ '.' :: g₅)))) := by
  have hcore : coreWord = ['c', 'o', 'r', 'e'] := by decide
  simp [Capture.assemble, coreFilePattern, hcore]

theorem CoreName.name_eq (core : CoreName) : core.name = coreWord ++ '.' :: ['.'].intercalate core.fields := by
  have happ := Text.intercalate_append '.' [coreWord] core.fields (by simp) (by simp [CoreName.fields])
  rwa [List.singleton_append] at happ

theorem CoreName.splitOn_path {dir : Text} (hdir : '.' ∉ dir) (core : CoreName) :
    (dir ++ '/' :: core.name).splitOn '.' = (dir ++ '/' :: coreWord) :: core.fields := by
  have hfields : (['.'].intercalate core.fields).splitOn '.' = core.fields :=
    List.splitOn_intercalate '.' core.fields_no_dot (by simp [CoreName.fields])
  have hhead : '.' ∉ dir ++ '/' :: coreWord := by
    rw [List.mem_append, not_or]
    exact ⟨hdir, by decide⟩
  have hpath : dir ++ '/' :: core.name = (dir ++ '/' :: coreWord) ++ '.' :: ['.'].intercalate core.fields := by
    rw [core.name_eq, List.append_assoc, List.cons_append]
  rw [hpath, List.splitOn_append_cons_self_of_not_mem hhead, hfields]

/-- What stands behind the timestamp. -/
def CoreName.tail (core : CoreName) : Text := core.extension.toList.flatMap ('.' :: ·)

theorem CoreName.timestamp_tail (core : CoreName) :
    ['.'].intercalate (core.timestamp :: core.extension.toList) = core.timestamp ++ core.tail := by
  rw [CoreName.tail]
  cases core.extension <;> simp

theorem CoreName.name_parts (core : CoreName) :
    core.name = coreWord ++ '.' :: (core.comm ++ '.' :: (core.uid ++ '.' :: (core.bootId ++ '.' ::
      (core.pid ++ '.' :: (core.timestamp ++ core.tail))))) := by
  rw [core.name_eq, ← core.timestamp_tail, CoreName.fields]
  simp

/-- The first part of a text that begins with a digit begins with it. -/
theorem splitOn_digit {c : Char} (hc : c.isDigit = true) (s : Text) :
    ∃ w ws, (c :: s).splitOn '.' = (c :: w) :: ws := by
  have hne : ¬ (c == '.') = true := by
    rw [beq_iff_eq]
    rintro rfl
    cases hc
  obtain ⟨w, ws, hs⟩ := List.exists_cons_of_ne_nil (List.splitOn_ne_nil '.' s)
  refine ⟨w, ws, ?_⟩
  rw [List.splitOn_cons_eq_if_modifyHead, hs, if_neg hne, List.modifyHead_cons]

/-- The parts of a match are those of the name, since an extension is no number. -/
theorem match_fields (core : CoreName) {dir pre rest : Text} {groups : List Text} (hdir : '.' ∉ dir)
    (hpath : dir ++ '/' :: core.name = pre ++ Capture.assemble coreFilePattern groups ++ rest)
    (hfits : Capture.Fits coreFilePattern groups) :
    pre = dir ++ ['/'] ∧ ∃ g₅, groups = [core.comm, core.uid, core.bootId, core.pid, g₅] ∧
      g₅ ++ rest = core.timestamp ++ core.tail := by
  obtain ⟨g₁, g₂, g₃, g₄, _, rfl, h₂, h₃, h₄, c, w, rfl, hc⟩ := fits_coreFilePattern hfits
  obtain ⟨v, vs, htail⟩ := splitOn_digit hc (w ++ rest)
  have hshape : pre ++ Capture.assemble coreFilePattern [g₁, g₂, g₃, g₄, c :: w] ++ rest =
      pre ++ coreWord ++ '.' :: (g₁ ++ '.' :: (g₂ ++ '.' :: (g₃ ++ '.' :: (g₄ ++ '.' :: (c :: (w ++ rest)))))) := by
    rw [assemble_coreFilePattern]
    simp
  have hsplit := core.splitOn_path hdir
  rw [hpath, hshape, List.splitOn_append_cons_self, List.splitOn_append_cons_self,
    List.splitOn_append_cons_self_of_not_mem h₂, List.splitOn_append_cons_self_of_not_mem h₃,
    List.splitOn_append_cons_self_of_not_mem h₄] at hsplit
  obtain ⟨a, as, ha⟩ := List.exists_cons_of_ne_nil (List.splitOn_ne_nil '.' (pre ++ coreWord))
  obtain ⟨b, bs, hb⟩ := List.exists_cons_of_ne_nil (List.splitOn_ne_nil '.' g₁)
  rw [ha, hb] at hsplit
  have hext : (c :: (w ++ rest)).splitOn '.' ≠ core.extension.toList := fun heq => by
    rw [htail] at heq
    obtain ⟨-, c', rest', hword, hc'⟩ := core.extension_word (c :: v) (Option.mem_toList.mp (heq ▸ List.mem_cons_self))
    obtain ⟨rfl, -⟩ := List.cons.inj hword
    exact Bool.false_ne_true (hc'.symm.trans hc)
  have hlen := congrArg List.length hsplit
  simp only [List.cons_append, List.nil_append, CoreName.fields, List.length_cons, List.length_append, htail] at hlen
  have hextLen : core.extension.toList.length ≤ 1 := by cases core.extension <;> simp
  simp only [List.cons_append, List.nil_append, CoreName.fields, List.cons.injEq] at hsplit
  obtain ⟨hhead, hsplit⟩ := hsplit
  cases as with
  | nil =>
    rw [List.nil_append, List.cons.injEq] at hsplit
    obtain ⟨rfl, hsplit⟩ := hsplit
    cases bs with
    | nil =>
      simp only [List.nil_append, List.cons.injEq] at hsplit
      obtain ⟨rfl, rfl, rfl, hlast⟩ := hsplit
      have hpre : ['.'].intercalate ((pre ++ coreWord).splitOn '.') = pre ++ coreWord := List.intercalate_splitOn '.'
      have hg₁ : ['.'].intercalate (g₁.splitOn '.') = g₁ := List.intercalate_splitOn '.'
      have hg₅ : ['.'].intercalate ((c :: (w ++ rest)).splitOn '.') = c :: (w ++ rest) := List.intercalate_splitOn '.'
      rw [ha, hhead, List.intercalate_singleton] at hpre
      rw [hb, List.intercalate_singleton] at hg₁
      rw [hlast, core.timestamp_tail] at hg₅
      refine ⟨?_, c :: w, by rw [hg₁], hg₅.symm⟩
      have hpre : pre ++ coreWord = (dir ++ ['/']) ++ coreWord := by
        rw [← hpre, List.append_assoc, List.singleton_append]
      exact List.append_cancel_right hpre
    | cons b' bs =>
      obtain rfl : bs = [] := List.length_eq_zero_iff.mp (by simp only [List.length_cons] at hlen; omega)
      simp only [List.cons_append, List.nil_append, List.cons.injEq] at hsplit
      exact absurd hsplit.2.2.2.2 hext
  | cons a' as =>
    obtain rfl : as = [] := List.length_eq_zero_iff.mp (by simp only [List.length_cons] at hlen; omega)
    obtain rfl : bs = [] := List.length_eq_zero_iff.mp (by simp only [List.length_cons] at hlen; omega)
    simp only [List.cons_append, List.nil_append, List.cons.injEq] at hsplit
    exact absurd hsplit.2.2.2.2.2 hext

/-- The pattern takes the name: the command stands on one line, and the process id has at most eight digits. -/
def CoreName.Matches (core : CoreName) : Prop := '\n' ∉ core.comm ∧ core.pid.length ≤ 8

instance (core : CoreName) : Decidable core.Matches := inferInstanceAs (Decidable (_ ∧ _))

/-- What is left of the timestamp. -/
def Stamped (stamp : Text) : Prop := (∀ c ∈ stamp, c.isDigit = true) ∧ stamp.length ≤ 16

theorem fits_stamp {g₁ g₂ g₃ g₄ g₅ : Text} (h : Capture.Fits coreFilePattern [g₁, g₂, g₃, g₄, g₅]) :
    '\n' ∉ g₁ ∧ g₄.length ≤ 8 ∧ Stamped g₅ := by
  obtain ⟨_, _, h₁, hline, -, -, _, _, h₂, -, -, -, _, _, h₃, -, -, -, _, _, h₄, -, -, hpid, _, _, h₅, hdigits, -, hmax, -⟩ := h
  cases h₁
  cases h₂
  cases h₃
  cases h₄
  cases h₅
  exact ⟨fun hmem => bne_iff_ne.mp (hline _ hmem) rfl, hpid 8 rfl, hdigits, hmax 16 rfl⟩

/-- The match of a name. -/
theorem search_path {core : CoreName} {groups : List Text} {rest : Text}
    (h : Capture.search coreFilePattern core.path = some (groups, rest)) :
    core.Matches ∧ ∃ stamp, groups = [core.comm, core.uid, core.bootId, core.pid, stamp] ∧ Stamped stamp := by
  obtain ⟨pre, hpath, hfits⟩ := Capture.search_some h
  obtain ⟨-, g₅, rfl, -⟩ := match_fields core (by decide) hpath hfits
  obtain ⟨hline, hpid, hstamp⟩ := fits_stamp hfits
  exact ⟨⟨hline, hpid⟩, g₅, rfl, hstamp⟩

theorem search_isSome {core : CoreName} (h : core.Matches) :
    (Capture.search coreFilePattern core.path).isSome = true := by
  obtain ⟨hcomm, hpid⟩ := h
  obtain ⟨hne, hdigits⟩ := core.timestamp_digits
  have hmin : 1 ≤ (core.timestamp.take 16).length := by
    rw [List.length_take]
    have := List.length_pos_iff.mpr hne
    omega
  have hchars : ∀ c ∈ core.comm, (c != '\n') = true := fun c hc => bne_iff_ne.mpr fun heq => hcomm (heq ▸ hc)
  have unbounded : ∀ (w : Text) (n : Nat), (none : Option Nat) = some n → w.length ≤ n := fun _ _ hn => nomatch hn
  have bounded : ∀ {w : Text} {m : Nat}, w.length ≤ m → ∀ n, some m = some n → w.length ≤ n := fun hw n hn =>
    Option.some.inj hn ▸ hw
  have hfits : Capture.Fits coreFilePattern [core.comm, core.uid, core.bootId, core.pid, core.timestamp.take 16] :=
    ⟨_, _, rfl, hchars, Nat.zero_le _, unbounded _,
      _, _, rfl, core.uid_digits.2, List.length_pos_iff.mpr core.uid_digits.1, unbounded _,
      _, _, rfl, core.bootId_hex.2, core.bootId_hex.1.1, bounded core.bootId_hex.1.2,
      _, _, rfl, core.pid_digits.2, List.length_pos_iff.mpr core.pid_digits.1, bounded hpid,
      _, _, rfl, fun c hc => hdigits c (List.mem_of_mem_take hc), hmin, bounded (List.length_take_le 16 _), rfl⟩
  have hpath : core.path = coreDir ++ ['/'] ++ Capture.assemble coreFilePattern
      [core.comm, core.uid, core.bootId, core.pid, core.timestamp.take 16] ++ (core.timestamp.drop 16 ++ core.tail) := by
    have htimestamp : core.timestamp ++ core.tail =
        core.timestamp.take 16 ++ (core.timestamp.drop 16 ++ core.tail) := by
      rw [← List.append_assoc, List.take_append_drop]
    rw [CoreName.path, core.name_parts, assemble_coreFilePattern, htimestamp]
    simp
  rw [hpath]
  exact Capture.search_isSome hfits

/-- What the folder holds: core files. -/
def Folder (env : Env) (cores : List CoreName) : Prop := env.files coreDir = cores.map CoreName.name

theorem eq_of_take_eq {w v : Text} {n : Nat} (h : v = w.take n) (hv : v.length < n) : w = v := by
  rw [h, List.length_take] at hv
  rw [h, List.take_of_length_le (by omega)]

/-! ### Where the date is defined -/

/-- Where the other fields are found, a timestamp of six characters or more among the attributes has a date, and date
    and time fit their arrays. -/
def Dated (env : Env) (path : Text) : Prop :=
  let found := Capture.search coreFilePattern path
  (attributeOrGroup env path "user.coredump.comm".toList daemonNameSize found 0).isSome = true →
  (attributeOrGroup env path "user.coredump.pid".toList instanceIdSize found 3).isSome = true →
    ∀ value, getxattr env path "user.coredump.timestamp".toList sizeDateAndTime = some value → minSize ≤ value.length →
      ∃ date time, env.localtime (Text.atoll value) = some (date, time) ∧ date.length < dateStrSize ∧
        time.length < timeStrSize

/-- The timestamp of a name has a date. -/
theorem convert_stamped (env : Env) {stamp : Text} (h : Stamped stamp) :
    (convertToDateAndTime env stamp true).isSome = true := by
  refine TimeStamps.convertToDateAndTime_isSome_iff.mpr fun seconds hseconds => ?_
  by_cases hmin : minSize ≤ stamp.length
  · have hlong : stamp.length ≤ 18 := h.2.trans (by decide)
    rw [TimeStamps.dateAndTimeSeconds_of_stamp ⟨h.1, hmin, hlong⟩] at hseconds
    obtain rfl := Option.some.inj hseconds
    have hmicros : TimeStamps.micros stamp < 10 ^ 16 :=
      (Text.ofDigitChars_lt h.1).trans_le (Nat.pow_le_pow_right (by decide) h.2)
    obtain ⟨date, time, -, hdefined⟩ := TimeStamps.dateAndTime_calendar env
      (TimeStamps.micros stamp / 1000000 : Nat) (by omega) (by omega)
    rw [hdefined]
    rfl
  · rw [TimeStamps.dateAndTimeSeconds, if_neg hmin] at hseconds
    cases hseconds

theorem stamped_of_search {path : Text} {groups : List Text} {rest stamp : Text}
    (h : Capture.search coreFilePattern path = some (groups, rest)) (hstamp : groups[4]? = some stamp) : Stamped stamp := by
  obtain ⟨-, -, hfits⟩ := Capture.search_some h
  obtain ⟨g₁, g₂, g₃, g₄, g₅, rfl, -⟩ := fits_coreFilePattern hfits
  obtain rfl := Option.some.inj hstamp
  exact (fits_stamp hfits).2.2

/-- What is shown of a file is undefined just where its timestamp has no date. -/
theorem extractInfo_isSome_iff (env : Env) (path : Text) :
    (extractInfo env coreFilePattern path .daemon).isSome = true ↔ Dated env path := by
  rw [extractInfo, extractDaemonInfo, Dated]
  dsimp only
  cases attributeOrGroup env path "user.coredump.comm".toList daemonNameSize (Capture.search coreFilePattern path) 0 with
  | none => exact iff_of_true rfl nofun
  | some daemonName =>
    cases attributeOrGroup env path "user.coredump.pid".toList instanceIdSize (Capture.search coreFilePattern path) 3 with
    | none => exact iff_of_true rfl fun _ => nofun
    | some instanceId =>
      rw [attributeOrGroup]
      cases getxattr env path "user.coredump.timestamp".toList sizeDateAndTime with
      | none =>
        -- the timestamp of the name, or none
        refine iff_of_true ?_ fun _ _ => nofun
        dsimp only [Option.isNone_none]
        split
        · next value hvalue =>
          obtain ⟨⟨groups, rest⟩, hsearch, hgroup⟩ := Option.bind_eq_some_iff.mp hvalue
          obtain ⟨stamp, hstamp, rfl⟩ := Option.map_eq_some_iff.mp hgroup
          have hstamp := stamped_of_search hsearch hstamp
          rw [Option.isSome_map, List.take_of_length_le (hstamp.2.trans (by decide))]
          split
          · rfl
          · exact convert_stamped env hstamp
        · rfl
      | some value =>
        have hdate : (if value.isEmpty then some ([], []) else convertToDateAndTime env value false).isSome = true ↔
            (minSize ≤ value.length → ∃ date time, env.localtime (Text.atoll value) = some (date, time) ∧
              date.length < dateStrSize ∧ time.length < timeStrSize) := by
          have hempty : value.isEmpty = true → ¬ minSize ≤ value.length := fun h => by
            rw [List.isEmpty_iff.mp h]
            decide
          split
          · next h => exact iff_of_true rfl fun hmin => absurd hmin (hempty h)
          · rw [TimeStamps.convertToDateAndTime_isSome_iff, TimeStamps.dateAndTimeSeconds]
            split
            · next hmin =>
              simp only [Option.some.injEq, forall_eq', hmin, true_imp_iff, Option.isSome_iff_exists, Prod.exists,
                TimeStamps.dateAndTime_eq_some_iff, Bool.false_eq_true, if_false]
            · next hmin => exact iff_of_true (fun _ h => absurd h.symm (Option.some_ne_none _)) fun h => absurd h hmin
        dsimp only [Option.isNone_some]
        rw [Option.isSome_map, hdate]
        exact ⟨fun hall _ _ v hv => Option.some.inj hv ▸ hall, fun hall => hall rfl rfl value rfl⟩

/-! ### The fields of a core file -/

/-- What is read for a field: the attribute, else what the name has for it, if the pattern takes the name. -/
def CoreName.field (core : CoreName) (env : Env) (attr : Text) (size : Nat) (own : Text) : Option Text :=
  (getxattr env core.path attr size).or (if core.Matches then some own else none)

section
variable {env : Env} {attr own v : Text} {size index : Nat}

/-- The field is that of the attribute or of the name, cut to the buffer. -/
theorem attributeOrGroup_eq_field
    (hgroup : ∀ groups rest, Capture.search coreFilePattern core.path = some (groups, rest) → groups[index]? = some own) :
    attributeOrGroup env core.path attr size (Capture.search coreFilePattern core.path) index =
      core.field env attr size (own.take size) := by
  rw [attributeOrGroup, CoreName.field]
  cases getxattr env core.path attr size with
  | some value => rfl
  | none =>
    cases hsearch : Capture.search coreFilePattern core.path with
    | none =>
      have hnot : ¬ core.Matches := fun hm => by
        have := search_isSome hm
        rw [hsearch] at this
        cases this
      rw [if_neg hnot]
      rfl
    | some found =>
      obtain ⟨groups, rest⟩ := found
      rw [if_pos (search_path hsearch).1]
      exact congrArg (Option.map (·.take size)) (hgroup groups rest hsearch)

theorem field_take_eq_some_iff (hv : v.length < size) :
    core.field env attr size (own.take size) = some v ↔ core.field env attr size own = some v := by
  rw [CoreName.field, CoreName.field]
  cases getxattr env core.path attr size with
  | some value => rfl
  | none =>
    rw [Option.none_or, Option.none_or]
    split
    · rw [Option.some_inj, Option.some_inj]
      refine ⟨fun h => eq_of_take_eq h.symm hv, fun h => ?_⟩
      rw [h, List.take_of_length_le (Nat.le_of_lt hv)]
    · rfl

theorem field_isSome_congr (own own' : Text) :
    (core.field env attr size own).isSome = (core.field env attr size own').isSome := by
  rw [CoreName.field, CoreName.field]
  cases getxattr env core.path attr size with
  | some value => rfl
  | none => split <;> rfl

end

def CoreName.comm? (core : CoreName) (env : Env) : Option Text :=
  core.field env "user.coredump.comm".toList daemonNameSize core.comm

def CoreName.pid? (core : CoreName) (env : Env) : Option Text :=
  core.field env "user.coredump.pid".toList instanceIdSize core.pid

def CoreName.timestamp? (core : CoreName) (env : Env) : Option Text :=
  core.field env "user.coredump.timestamp".toList sizeDateAndTime core.timestamp

/-- The core is shown with a daemon name and an instance id. -/
structure CoreName.Listed (core : CoreName) (env : Env) (daemon instanceId : Text) : Prop where
  comm : core.comm? env = some daemon
  pid : core.pid? env = some instanceId
  timestamp : (core.timestamp? env).isSome = true

theorem exists_stamp (core : CoreName) : ∃ stamp, Stamped stamp ∧
    ∀ groups rest, Capture.search coreFilePattern core.path = some (groups, rest) →
      groups[0]? = some core.comm ∧ groups[3]? = some core.pid ∧ groups[4]? = some stamp := by
  cases hsearch : Capture.search coreFilePattern core.path with
  | none => exact ⟨[], ⟨nofun, Nat.zero_le _⟩, nofun⟩
  | some found =>
    obtain ⟨groups, rest⟩ := found
    obtain ⟨-, stamp, rfl, hstamp⟩ := search_path hsearch
    refine ⟨stamp, hstamp, fun groups' rest' heq => ?_⟩
    obtain ⟨rfl, -⟩ := Prod.mk.inj (Option.some.inj heq)
    exact ⟨rfl, rfl, rfl⟩

/-- The fields that are read of a core. -/
theorem attributeOrGroup_path (env : Env) (core : CoreName) : ∃ stamp, Stamped stamp ∧
    attributeOrGroup env core.path "user.coredump.comm".toList daemonNameSize (Capture.search coreFilePattern core.path) 0 =
      core.field env "user.coredump.comm".toList daemonNameSize (core.comm.take daemonNameSize) ∧
    attributeOrGroup env core.path "user.coredump.pid".toList instanceIdSize (Capture.search coreFilePattern core.path) 3 =
      core.field env "user.coredump.pid".toList instanceIdSize (core.pid.take instanceIdSize) ∧
    attributeOrGroup env core.path "user.coredump.timestamp".toList sizeDateAndTime
        (Capture.search coreFilePattern core.path) 4 =
      core.field env "user.coredump.timestamp".toList sizeDateAndTime stamp := by
  obtain ⟨stamp, hstamp, hgroups⟩ := exists_stamp core
  have hfull : stamp.take sizeDateAndTime = stamp := List.take_of_length_le (hstamp.2.trans (by decide))
  refine ⟨stamp, hstamp, attributeOrGroup_eq_field fun groups rest h => (hgroups groups rest h).1,
    attributeOrGroup_eq_field fun groups rest h => (hgroups groups rest h).2.1, ?_⟩
  rw [attributeOrGroup_eq_field fun groups rest h => (hgroups groups rest h).2.2, hfull]

/-- A core is shown with a daemon name and an instance id just when its fields are these. -/
theorem extractInfo_listed_iff {env : Env} (h : ValidArguments d i) {shown : Option CoreDumpData}
    (hshown : extractInfo env coreFilePattern core.path .daemon = some shown) :
    shown.any (fun cd => cd.daemonName = d ∧ cd.crashInstanceId = i) = true ↔ core.Listed env d i := by
  obtain ⟨stamp, -, hcommField, hpidField, htimeField⟩ := attributeOrGroup_path env core
  have hd : d.length < daemonNameSize := Nat.lt_of_le_of_lt h.daemon_spec.1 (by decide)
  have hi : i.length < instanceIdSize := Nat.lt_of_le_of_lt h.instance_spec.1 (by decide)
  have hcomm : core.field env "user.coredump.comm".toList daemonNameSize (core.comm.take daemonNameSize) = some d ↔
      core.comm? env = some d := field_take_eq_some_iff hd
  have hpid : core.field env "user.coredump.pid".toList instanceIdSize (core.pid.take instanceIdSize) = some i ↔
      core.pid? env = some i := field_take_eq_some_iff hi
  have htime : (core.timestamp? env).isSome = _ := field_isSome_congr core.timestamp stamp
  have hlisted : core.Listed env d i ↔
      core.field env "user.coredump.comm".toList daemonNameSize (core.comm.take daemonNameSize) = some d ∧
      core.field env "user.coredump.pid".toList instanceIdSize (core.pid.take instanceIdSize) = some i ∧
      (core.field env "user.coredump.timestamp".toList sizeDateAndTime stamp).isSome = true := by
    rw [hcomm, hpid, ← htime]
    exact ⟨fun ⟨hcomm, hpid, htime⟩ => ⟨hcomm, hpid, htime⟩, fun ⟨hcomm, hpid, htime⟩ => ⟨hcomm, hpid, htime⟩⟩
  rw [hlisted]
  rw [extractInfo, extractDaemonInfo, hcommField, hpidField, htimeField] at hshown
  split at hshown
  · next hcomm hpid htime =>
    obtain ⟨⟨date, time⟩, -, rfl⟩ := Option.map_eq_some_iff.mp hshown
    rw [hcomm, hpid, htime]
    simp
  · next hnone =>
    obtain rfl := Option.some.inj hshown
    refine iff_of_false nofun fun ⟨hcomm, hpid, htime⟩ => ?_
    obtain ⟨value, htime⟩ := Option.isSome_iff_exists.mp htime
    exact hnone d i value hcomm hpid htime

/-! ### The files that `show core-dump` lists -/

/-- The files listed with a daemon name and an instance id. -/
def shownAs (env : Env) (daemon instanceId : Text) : Defined (List Text) :=
  match getFileList env .daemon gbPattern none none with
  | none => some []
  | some paths =>
    (showDaemonCores env paths).map fun shown =>
      (shown.filter fun core => core.2.daemonName = daemon ∧ core.2.crashInstanceId = instanceId).map Prod.fst

theorem getFileList_all {env : Env} {cores : List CoreName} (hf : Folder env cores) :
    getFileList env .daemon gbPattern none none = some (cores.map CoreName.path) := by
  have hloc : location .daemon gbPattern none none = daemonCorePath ++ "/core.*".toList := by decide
  have htokens : Glob.tokens (daemonCorePath ++ "/core.*".toList) =
      coreDir.map .char ++ .char '/' :: (coreDot.map .char ++ [.star]) := by decide
  have hslash : Glob.Token.char '/' ∉ coreDot.map .char ++ [.star] := by decide
  have hlen : ¬ coreFileName < (daemonCorePath ++ "/core.*".toList).length := by decide
  have htake : (daemonCorePath ++ "/core.*".toList).take (coreFileName - 1) = daemonCorePath ++ "/core.*".toList :=
    List.take_of_length_le (by decide)
  have hall : ∀ file ∈ cores.map CoreName.name, Glob.acceptsName (coreDot.map .char ++ [.star]) file = true := by
    intro file hfile
    obtain ⟨core, -, rfl⟩ := List.mem_map.mp hfile
    have happ := Text.intercalate_append '.' [coreWord] core.fields (by simp) (by simp [CoreName.fields])
    have hname : core.name = coreDot ++ ['.'].intercalate core.fields := by
      rw [List.singleton_append] at happ
      rw [CoreName.name, happ, coreDot_eq]
      simp
    obtain ⟨rest, hcons⟩ := core.name_cons
    have hhead : (core.name.head? != some '.') = true := by rw [hcons]; rfl
    rw [Glob.acceptsName, hhead, Bool.true_or, Bool.true_and, Glob.accepts_chars]
    exact ⟨_, hname, Glob.accepts_all _⟩
  rw [getFileList, hloc]
  rw [if_neg hlen, htake, Glob.glob_eq env.files htokens hslash, hf, List.filter_eq_self.mpr hall, List.map_map]
  rfl


/-- The listing is defined where that of each file is. -/
theorem showDaemonCores_isSome_iff {env : Env} {paths : List Text} :
    (showDaemonCores env paths).isSome = true ↔
      ∀ path ∈ paths, (extractInfo env coreFilePattern path .daemon).isSome = true := by
  induction paths with
  | nil => exact iff_of_true rfl fun _ hmem => absurd hmem List.not_mem_nil
  | cons path paths ih =>
    rw [List.forall_mem_cons, ← ih, showDaemonCores]
    cases extractInfo env coreFilePattern path .daemon with
    | none => simp
    | some cd => cases showDaemonCores env paths <;> simp

/-- The files of the listing for which something holds of what is shown. -/
theorem filter_showDaemonCores {env : Env} {paths : List Text} {shown : List (Text × CoreDumpData)}
    (h : showDaemonCores env paths = some shown) (p : CoreDumpData → Bool) :
    (shown.filter fun core => p core.2).map Prod.fst =
      paths.filter fun path => (extractInfo env coreFilePattern path .daemon).join.any p := by
  induction paths generalizing shown with
  | nil =>
    obtain rfl := Option.some.inj h
    rfl
  | cons path paths ih =>
    rw [showDaemonCores] at h
    obtain ⟨cd, hcd, h⟩ := Option.bind_eq_some_iff.mp h
    obtain ⟨rest, hrest, h⟩ := Option.bind_eq_some_iff.mp h
    obtain rfl := Option.some.inj h
    rw [List.filter_append, List.map_append, ih hrest, List.filter_cons, hcd]
    cases cd with
    | none => rfl
    | some cd => cases hp : p cd <;> simp [hp]

theorem CoreName.path_injective : Function.Injective CoreName.path := by
  intro core core' h
  have hname : core.name = core'.name := (List.cons.inj (List.append_cancel_left h)).2
  have hfields := core.splitOn_name.symm.trans ((congrArg (List.splitOn '.') hname).trans core'.splitOn_name)
  simp only [CoreName.fields, List.cons_append, List.nil_append, List.cons.injEq, true_and] at hfields
  obtain ⟨hcomm, huid, hbootId, hpid, htimestamp, hextension⟩ := hfields
  have hextension : core.extension = core'.extension := by
    have := congrArg List.head? hextension
    rwa [Option.head?_toList, Option.head?_toList] at this
  cases core
  cases core'
  cases hcomm
  cases huid
  cases hbootId
  cases hpid
  cases htimestamp
  cases hextension
  rfl

/-- The cores that are selected are known by their paths. -/
theorem map_path_filter_eq_iff {p q : CoreName → Bool} {cores : List CoreName} :
    (cores.filter p).map CoreName.path = (cores.filter q).map CoreName.path ↔ ∀ core ∈ cores, p core = q core := by
  rw [(List.map_injective_iff.mpr CoreName.path_injective).eq_iff]
  refine ⟨fun h core hcore => ?_, fun h => List.filter_congr h⟩
  have hmem : core ∈ cores.filter p ↔ core ∈ cores.filter q := by rw [h]
  rw [List.mem_filter, List.mem_filter, and_iff_right hcore, and_iff_right hcore] at hmem
  exact Bool.eq_iff_iff.mpr hmem

/-- The listing tells the cores of a process just where each has a date, and its fields tell what its name does. -/
theorem shownAs_eq_iff {env : Env} {cores : List CoreName} (hf : Folder env cores) (h : ValidArguments d i) :
    shownAs env d i = some ((cores.filter fun core => core.IsOf d i).map CoreName.path) ↔
      (∀ core ∈ cores, Dated env core.path) ∧ ∀ core ∈ cores, core.Listed env d i ↔ core.IsOf d i := by
  have hdefined : (showDaemonCores env (cores.map CoreName.path)).isSome = true ↔ ∀ core ∈ cores, Dated env core.path := by
    rw [showDaemonCores_isSome_iff, List.forall_mem_map]
    exact forall₂_congr fun core _ => extractInfo_isSome_iff env core.path
  rw [shownAs, getFileList_all hf, ← hdefined]
  dsimp only
  cases hshown : showDaemonCores env (cores.map CoreName.path) with
  | none => exact iff_of_false nofun fun hall => nomatch hall.1
  | some shown =>
    have hlisted : ∀ core ∈ cores,
        (extractInfo env coreFilePattern core.path .daemon).join.any
          (fun cd => cd.daemonName = d ∧ cd.crashInstanceId = i) = true ↔ core.Listed env d i := fun core hcore => by
      have hsome := showDaemonCores_isSome_iff.mp (Option.isSome_of_eq_some hshown) core.path (List.mem_map_of_mem hcore)
      obtain ⟨cd, hcd⟩ := Option.isSome_iff_exists.mp hsome
      rw [hcd]
      exact extractInfo_listed_iff h hcd
    rw [Option.map_some, Option.some_inj, filter_showDaemonCores hshown
      (fun cd => cd.daemonName = d ∧ cd.crashInstanceId = i), List.filter_map,
      map_path_filter_eq_iff, Option.isSome_some, and_iff_right rfl]
    refine forall₂_congr fun core hcore => ?_
    rw [Function.comp_apply, Bool.eq_iff_iff, hlisted core hcore, decide_eq_true_iff]

/-! ### The files that `copy core-dump` sends -/

def kernelDir : Text := coreDir ++ "/kernel-core".toList

def kernelCores (env : Env) : List Text :=
  ((env.files kernelDir).filter (Glob.acceptsName (Glob.tokens kernelCorePattern))).map fun file => kernelDir ++ '/' :: file

/-- An accepted `copy core-dump DAEMON instance-id ID`, whose transfers succeed. -/
structure Accepted (env : Env) (q : CopyRequest) (daemon instanceId : Text) : Prop where
  arguments : ValidArguments daemon instanceId
  daemonName : q.daemonName = some daemon
  instanceId : q.instanceId = some instanceId
  address : ∃ address, q.address = some address ∧ validateCliArgs address hostNameRegex = 0
  destinationFile : ∀ file, q.destinationFile = some file → validateCliArgs file fileNameRegex = 0
  protocol : ∃ protocol command, q.protocol = some protocol ∧ transferScript env protocol q.userName = .ok command
  transfers : ∀ command arguments, env.execute command arguments = 0

def CopyResult.paths (r : CopyResult) : List Text := r.sent.map Transfer.path

theorem checkArgument_none {arg : Option Text} {regex : RegularExpression Char} {text : Text}
    (h : ∀ a, arg = some a → validateCliArgs a regex = 0) : checkArgument arg regex text = none := by
  cases arg with
  | none => rfl
  | some a => simp [checkArgument, h a rfl]

theorem Accepted.copy {env : Env} {q : CopyRequest} (ha : Accepted env q d i) :
    ∃ command protocol address, cliCopyCoreDump env q = copyFiles env command d protocol address q := by
  obtain ⟨address, haddress, hvalid⟩ := ha.address
  obtain ⟨protocol, command, hprotocol, hscript⟩ := ha.protocol
  refine ⟨command, protocol, address, ?_⟩
  have hd : ∀ a, some d = some a → validateCliArgs a daemonNameRegex = 0 := fun a heq =>
    Option.some.inj heq ▸ ha.arguments.daemon
  have haddr : ∀ a, some address = some a → validateCliArgs a hostNameRegex = 0 := fun a heq =>
    Option.some.inj heq ▸ hvalid
  have hi : ∀ a, q.instanceId = some a → validateCliArgs a corefileInstanceRegex = 0 := fun a heq =>
    Option.some.inj (ha.instanceId.symm.trans heq) ▸ ha.arguments.instanceId
  simp only [cliCopyCoreDump, ha.daemonName, hprotocol, haddress, checkArgument_none hd, checkArgument_none haddr,
    checkArgument_none hi, checkArgument_none ha.destinationFile, hscript, Option.orElse_eq_orElse, Option.orElse_none]

theorem sendFiles_daemon {env : Env} (h : ∀ command arguments, env.execute command arguments = 0) (command : Text)
    (arguments : Text → List Text) (paths : List Text) :
    (sendFiles env .daemon command arguments paths).paths = paths := by
  induction paths with
  | nil => rfl
  | cons path paths ih =>
    rw [sendFiles, if_neg (not_not.mpr (h command _)), if_neg (by decide)]
    exact congrArg (path :: ·) ih

theorem sendFiles_kernel {env : Env} (h : ∀ command arguments, env.execute command arguments = 0) (command : Text)
    (arguments : Text → List Text) (paths : List Text) :
    (sendFiles env .kernel command arguments paths).paths = paths.take 1 := by
  cases paths with
  | nil => rfl
  | cons path paths =>
    rw [sendFiles, if_neg (not_not.mpr (h command _)), if_pos rfl]
    rfl

theorem strncmpEq_kernel : strncmpEq d "kernel".toList 10 = true ↔ d = "kernel".toList := by
  have hkernel : "kernel".toList.take 10 = "kernel".toList := by decide
  have hlen : "kernel".toList.length = 6 := by decide
  rw [strncmpEq, hkernel, beq_iff_eq]
  constructor
  · intro h
    refine eq_of_take_eq (n := 10) h.symm ?_
    omega
  · rintro rfl
    exact hkernel

/-- What is sent for a daemon: the cores of its name with a field that ends in the id. -/
theorem copy_paths {env : Env} {q : CopyRequest} {cores : List CoreName} (hf : Folder env cores) (ha : Accepted env q d i)
    (hd : d ≠ "kernel".toList) [DecidablePred fun core : CoreName => core.Taken d i] :
    (cliCopyCoreDump env q).paths = (cores.filter fun core => core.Taken d i).map CoreName.path := by
  obtain ⟨command, protocol, address, hcopy⟩ := ha.copy
  have htype : strncmpEq d "kernel".toList 10 = false := by
    rw [← Bool.not_eq_true, strncmpEq_kernel]
    exact hd
  have hfilter : (((env.files coreDir).filter (Glob.acceptsName (nameTokens d i))).map fun file => coreDir ++ '/' :: file) =
      (cores.filter fun core => core.Taken d i).map CoreName.path := by
    rw [hf, List.filter_map, List.map_map]
    refine congrArg (List.map CoreName.path) (List.filter_congr fun core _ => ?_)
    rw [Bool.eq_iff_iff, decide_eq_true_iff]
    exact acceptsName_iff ha.arguments core
  rw [hcopy, copyFiles, htype, ha.instanceId]
  simp only [Bool.false_eq_true, if_false, reduceCtorEq, getFileList_instance env ha.arguments, hfilter]
  cases hpaths : (cores.filter fun core => core.Taken d i).map CoreName.path with
  | nil => rfl
  | cons path paths => exact sendFiles_daemon ha.transfers _ _ _

theorem copy_kernel {env : Env} {q : CopyRequest} (ha : Accepted env q d i) (hd : d = "kernel".toList) :
    (cliCopyCoreDump env q).paths = (kernelCores env).take 1 := by
  obtain ⟨command, protocol, address, hcopy⟩ := ha.copy
  have hloc : ∀ daemon instanceId, location .kernel kernelCorePattern daemon instanceId =
      kernelCorePath ++ "/kernel-core/".toList ++ kernelCorePattern := fun _ _ => rfl
  have htokens : Glob.tokens (kernelCorePath ++ "/kernel-core/".toList ++ kernelCorePattern) =
      kernelDir.map .char ++ .char '/' :: Glob.tokens kernelCorePattern := by decide +kernel
  have hslash : Glob.Token.char '/' ∉ Glob.tokens kernelCorePattern := by decide +kernel
  have hlen : ¬ coreFileName < (kernelCorePath ++ "/kernel-core/".toList ++ kernelCorePattern).length := by
    decide +kernel
  have htake : (kernelCorePath ++ "/kernel-core/".toList ++ kernelCorePattern).take (coreFileName - 1) =
      kernelCorePath ++ "/kernel-core/".toList ++ kernelCorePattern := List.take_of_length_le (by decide +kernel)
  have hfiles : ∀ daemon instanceId, getFileList env .kernel kernelCorePattern daemon instanceId = some (kernelCores env) :=
    fun daemon instanceId => by
      rw [getFileList, hloc]
      rw [if_neg hlen, htake, Glob.glob_eq env.files htokens hslash]
      rfl
  rw [hcopy, copyFiles, strncmpEq_kernel.mpr hd]
  simp only [if_true, hfiles]
  cases hpaths : kernelCores env with
  | nil => rfl
  | cons path paths => exact sendFiles_kernel ha.transfers _ _ _

/-! ### Sent and listed -/

/-- What is sent are the cores of the process, and these are the files listed with the daemon name and the
    instance id. -/
def SelectsShown (env : Env) (cores : List CoreName) (q : CopyRequest) (daemon instanceId : Text) : Prop :=
  (cliCopyCoreDump env q).paths = (cores.filter fun core => core.IsOf daemon instanceId).map CoreName.path ∧
    shownAs env daemon instanceId = some (cliCopyCoreDump env q).paths

/-- Nothing but the cores of the process fits the pattern; for `kernel`, which has a pattern of its own, there
    is nothing to send and no core of the process. -/
def TakenRight (env : Env) (cores : List CoreName) (daemon instanceId : Text) : Prop :=
  if daemon = "kernel".toList then kernelCores env = [] ∧ ∀ core ∈ cores, ¬ core.IsOf daemon instanceId
  else ∀ core ∈ cores, core.Taken daemon instanceId → core.IsOf daemon instanceId

/-- The pattern takes the right cores, each core has a date, and its attributes tell of the process what its name
    tells. -/
structure Precise (env : Env) (cores : List CoreName) (daemon instanceId : Text) : Prop where
  taken : TakenRight env cores daemon instanceId
  dated : ∀ core ∈ cores, Dated env core.path
  listed : ∀ core ∈ cores, core.Listed env daemon instanceId ↔ core.IsOf daemon instanceId

theorem sent_daemon_iff {env : Env} {cores : List CoreName} {q : CopyRequest} (hf : Folder env cores)
    (ha : Accepted env q d i) (hd : d ≠ "kernel".toList) :
    (cliCopyCoreDump env q).paths = (cores.filter fun core => core.IsOf d i).map CoreName.path ↔
      ∀ core ∈ cores, core.Taken d i → core.IsOf d i := by
  classical
  rw [copy_paths hf ha hd, map_path_filter_eq_iff]
  refine forall₂_congr fun core _ => ?_
  rw [decide_eq_decide]
  exact ⟨Iff.mp, fun h => ⟨h, CoreName.IsOf.taken⟩⟩

/-- A kernel core lies in a folder of its own. -/
theorem kernelCores_path {env : Env} {core : CoreName} : core.path ∉ kernelCores env := by
  intro hmem
  obtain ⟨file, -, heq⟩ := List.mem_map.mp hmem
  obtain ⟨rest, hname⟩ := core.name_cons
  have hkernel : kernelDir = coreDir ++ '/' :: "kernel-core".toList := by decide
  rw [CoreName.path, hname, hkernel, List.append_assoc] at heq
  have hchars := (List.cons.inj (List.append_cancel_left heq)).2
  have hk : "kernel-core".toList = 'k' :: "ernel-core".toList := by decide
  rw [hk] at hchars
  exact absurd (List.cons.inj hchars).1 (by decide)

theorem sent_kernel_iff {env : Env} {cores : List CoreName} {q : CopyRequest} (ha : Accepted env q d i)
    (hd : d = "kernel".toList) :
    (cliCopyCoreDump env q).paths = (cores.filter fun core => core.IsOf d i).map CoreName.path ↔
      kernelCores env = [] ∧ ∀ core ∈ cores, ¬ core.IsOf d i := by
  rw [copy_kernel ha hd]
  have hnone : (∀ core ∈ cores, ¬ core.IsOf d i) ↔ (cores.filter fun core => core.IsOf d i) = [] := by
    rw [List.filter_eq_nil_iff]
    simp only [decide_eq_true_iff]
  rw [hnone]
  cases hk : kernelCores env with
  | nil =>
    rw [List.take_nil, eq_comm, List.map_eq_nil_iff]
    exact ⟨fun h => ⟨rfl, h⟩, And.right⟩
  | cons path paths =>
    have hpath : path ∈ kernelCores env := hk ▸ List.mem_cons_self
    refine iff_of_false (fun heq => ?_) (fun h => List.cons_ne_nil _ _ h.1)
    have hmem : path ∈ (cores.filter fun core => core.IsOf d i).map CoreName.path := heq ▸ List.mem_cons_self
    obtain ⟨core, -, hcore⟩ := List.mem_map.mp hmem
    exact kernelCores_path (hcore ▸ hpath)

/-- What is sent are the cores of the process just when the pattern takes the right ones. -/
theorem sent_iff {env : Env} {cores : List CoreName} {q : CopyRequest} (hf : Folder env cores) (ha : Accepted env q d i) :
    (cliCopyCoreDump env q).paths = (cores.filter fun core => core.IsOf d i).map CoreName.path ↔
      TakenRight env cores d i := by
  unfold TakenRight
  split
  · next hd => exact sent_kernel_iff ha hd
  · next hd => exact sent_daemon_iff hf ha hd

end

/-! ### Two processes of a daemon -/

/-- `core.COMM.0.ab.PID.1459547856000000.xz`. -/
def coreFile (comm pid : Text) (hcomm : '.' ∉ comm) (hpid : DigitField pid) : CoreName where
  comm := comm
  uid := "0".toList
  bootId := "ab".toList
  pid := pid
  timestamp := "1459547856000000".toList
  extension := some "xz".toList
  comm_dots := hcomm
  uid_digits := by constructor <;> decide
  bootId_hex := by decide
  pid_digits := hpid
  timestamp_digits := by constructor <;> decide
  extension_word := by
    rintro e he
    obtain rfl := Option.some.inj he
    exact ⟨by decide, 'x', ['z'], by decide, by decide⟩

theorem digitField_two : DigitField ['2'] := ⟨by decide, by decide⟩
theorem digitField_twelve : DigitField ['1', '2'] := ⟨by decide, by decide⟩
theorem digitField_thirty : DigitField ['3', '0'] := ⟨by decide, by decide⟩

def two : CoreName := coreFile "fand".toList ['2'] (by decide) digitField_two
def twelve : CoreName := coreFile "fand".toList ['1', '2'] (by decide) digitField_twelve
def thirty : CoreName := coreFile "fand".toList ['3', '0'] (by decide) digitField_thirty
def lldpTwo : CoreName := coreFile "lldpd".toList ['2'] (by decide) digitField_two

/-- A switch with these cores and attributes, whose transfers succeed. -/
def switchWith (cores : List CoreName) (xattr : Text → Text → Option Text) : Env where
  files dir := if dir = coreDir then cores.map CoreName.name else []
  xattr := xattr
  localtime _ := some ("2016-04-01".toList, "21:57:36".toList)
  localtime_calendar _ _ _ := ⟨_, _, rfl, by decide, by decide⟩
  executable _ := true
  execute _ _ := 0

/-- `copy core-dump fand instance-id 2 tftp h`. -/
def copyTwo : CopyRequest :=
  ⟨some "fand".toList, some ['2'], some "tftp".toList, some ['h'], none, none⟩

theorem switchWith_folder (cores : List CoreName) (xattr : Text → Text → Option Text) :
    Folder (switchWith cores xattr) cores := by
  simp only [Folder, switchWith, if_true]

theorem copyTwo_accepted (cores : List CoreName) (xattr : Text → Text → Option Text) :
    Accepted (switchWith cores xattr) copyTwo "fand".toList ['2'] where
  arguments :=
    { daemonLine := by decide
      daemon := validateCliArgs_eq_zero.mpr ((Regex.accepts_interval (by decide) (by decide)).mpr (by decide))
      instanceLine := by decide
      instanceId := validateCliArgs_eq_zero.mpr ((Regex.accepts_interval (by decide) (by decide)).mpr (by decide)) }
  daemonName := rfl
  instanceId := rfl
  address := ⟨['h'], rfl,
    validateCliArgs_eq_zero.mpr ((Regex.accepts_interval (by decide) (by decide)).mpr (by decide))⟩
  destinationFile file hfile := by cases hfile
  protocol := ⟨"tftp".toList, tftpNoiScript, rfl, rfl⟩
  transfers _ _ := rfl

/-- `copy core-dump` sends what `show core-dump` lists with the daemon name and the instance id just when no
    other core fits its pattern, and the listing tells what the names tell. -/
theorem copy_selects_iff {d i : Text} {env : Env} {cores : List CoreName} {q : CopyRequest} (hf : Folder env cores)
    (ha : Accepted env q d i) : SelectsShown env cores q d i ↔ Precise env cores d i := by
  have hshown := shownAs_eq_iff hf ha.arguments
  constructor
  · rintro ⟨hsent, hlisted⟩
    rw [hsent, hshown] at hlisted
    exact ⟨(sent_iff hf ha).mp hsent, hlisted.1, hlisted.2⟩
  · rintro ⟨htaken, hdated, hlisted⟩
    have hsent := (sent_iff hf ha).mpr htaken
    refine ⟨hsent, ?_⟩
    rw [hsent, hshown]
    exact ⟨hdated, hlisted⟩

/-- The attributes of a core of the first process. -/
def twoAttributes (path attr : Text) : Option Text :=
  if path = two.path then
    if attr = "user.coredump.comm".toList then some "fand".toList
    else if attr = "user.coredump.pid".toList then some ['2']
    else if attr = "user.coredump.signal".toList then some "11".toList
    else if attr = "user.coredump.timestamp".toList then some "1459547856".toList
    else none
  else none

/-- Another process of the daemon, and a process with the same id of another daemon, are left alone. -/
theorem copy_selects_iff_two :
    SelectsShown (switchWith [thirty, two, lldpTwo] twoAttributes) [thirty, two, lldpTwo] copyTwo "fand".toList ['2'] := by
  have ha := copyTwo_accepted [thirty, two, lldpTwo] twoAttributes
  refine (copy_selects_iff (switchWith_folder _ _) ha).mpr ⟨?_, fun core _ _ _ value _ _ => ?_, ?_⟩
  · rw [TakenRight, if_neg (by decide)]
    intro core hcore htaken
    rw [← acceptsName_iff ha.arguments] at htaken
    simp only [List.mem_cons, List.not_mem_nil, or_false] at hcore
    rcases hcore with rfl | rfl | rfl
    · exact absurd htaken (by decide)
    · exact ⟨rfl, rfl⟩
    · exact absurd htaken (by decide)
  · exact ⟨_, _, rfl, by decide, by decide⟩
  · intro core hcore
    simp only [List.mem_cons, List.not_mem_nil, or_false] at hcore
    rcases hcore with rfl | rfl | rfl
    · exact iff_of_false (fun h => absurd h.pid (by decide)) (by decide)
    · exact iff_of_true ⟨by decide, by decide, by decide⟩ (by decide)
    · exact iff_of_false (fun h => absurd h.comm (by decide)) (by decide)

/-- The core of process 12 is sent as well. -/
theorem twelve_sent :
    Folder (switchWith [two, twelve] fun _ _ => none) [two, twelve] ∧
      Accepted (switchWith [two, twelve] fun _ _ => none) copyTwo "fand".toList ['2'] ∧
      twelve.path ∈ (cliCopyCoreDump (switchWith [two, twelve] fun _ _ => none) copyTwo).paths ∧
      ¬SelectsShown (switchWith [two, twelve] fun _ _ => none) [two, twelve] copyTwo "fand".toList ['2'] := by
  classical
  have hf := switchWith_folder [two, twelve] fun _ _ => none
  have ha := copyTwo_accepted [two, twelve] fun _ _ => none
  have hd : "fand".toList ≠ "kernel".toList := by decide
  have htaken : twelve.Taken "fand".toList ['2'] :=
    ⟨["0".toList, "ab".toList, ['1', '2'], "1459547856000000".toList, "xz".toList], by decide, ['1', '2'], by decide,
      ⟨['1'], rfl⟩⟩
  have hmem : twelve ∈ [two, twelve] := List.mem_cons_of_mem _ List.mem_cons_self
  refine ⟨hf, ha, ?_, fun h => ?_⟩
  · rw [copy_paths hf ha hd]
    exact List.mem_map_of_mem (List.mem_filter.mpr ⟨hmem, decide_eq_true htaken⟩)
  · have hof := (sent_daemon_iff hf ha hd).mp h.1 twelve hmem htaken
    exact absurd hof.2 (by decide)

end CoreDump
end OpsSupportability
