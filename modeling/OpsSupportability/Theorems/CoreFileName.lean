import OpsSupportability.CoreDumpWrites
import OpsSupportability.Theorems.CoreDump
import OpsSupportability.Theorems.TimeStamps

/-! The names that systemd gives to core files, read by `extract_info` when no extended attribute can be: the
    pattern matches each in one way up to the end of the time stamp, and the fields are those of the name. -/

namespace OpsSupportability
namespace CoreDump

/-- The parts of `core.COMM.UID.BOOTID.PID.TS`, maybe with an extension. -/
structure FileName where
  comm : Text
  uid : Text
  bootId : Text
  pid : Text
  ts : Text
  extension : Option Text
  deriving DecidableEq

namespace FileName

def fields (f : FileName) : List Text := [f.comm, f.uid, f.bootId, f.pid, f.ts]

def name (f : FileName) : Text := ['.'].intercalate (coreWord :: f.fields ++ f.extension.toList)

/-- What stands behind the time stamp. -/
def tail (f : FileName) : Text := f.extension.toList.flatMap ('.' :: ·)

end FileName

def isHex (c : Char) : Bool := isLowerHex c || ('A' ≤ c && c ≤ 'F')

/-- The names of core files. -/
structure Described (f : FileName) : Prop where
  comm : f.comm ≠ [] ∧ '.' ∉ f.comm ∧ '/' ∉ f.comm
  uid : DigitField f.uid
  bootId : f.bootId.length = 32 ∧ ∀ c ∈ f.bootId, isHex c = true
  pid : DigitField f.pid ∧ f.pid.length ≤ 8
  ts : (9 ≤ f.ts.length ∧ f.ts.length ≤ 16) ∧ ∀ c ∈ f.ts, c.isDigit = true
  extension : ∀ e, f.extension = some e → e ≠ [] ∧ ∀ c ∈ e, c.isAlpha = true
  length : f.name.length ≤ 255

/-- The path in a folder. -/
def pathIn (dir : Text) (f : FileName) : Text := dir ++ '/' :: f.name

/-- A match of the pattern: what stands in front of it, its groups, and what stands behind it. -/
structure Match (path pre : Text) (groups : List Text) (rest : Text) : Prop where
  path : path = pre ++ Capture.assemble coreFilePattern groups ++ rest
  fits : Capture.Fits coreFilePattern groups

/-- The match starts in front of the time stamp and ends behind it. -/
def Covers (path : Text) (f : FileName) (pre rest : Text) : Prop :=
  pre.length + (f.ts ++ f.tail).length ≤ path.length ∧ rest.length ≤ f.tail.length

/-- What `extract_info` stores for the parts of a name, with the date and the time of the microseconds. -/
def Stored (env : Env) (path : Text) (f : FileName) : Prop :=
  ∃ date time, env.localtime (TimeStamps.micros f.ts / 1000000 : Nat) = some (date, time) ∧
    extractInfo env coreFilePattern path .daemon = some (some ⟨f.comm, date, time, [], f.pid⟩)

/-- The pattern matches, in one way as far as the time stamp is covered, and the fields are stored, each inside its
    array. -/
structure Decoded (env : Env) (path : Text) (f : FileName) : Prop where
  found : (Capture.search coreFilePattern path).isSome = true
  unique : ∀ pre groups rest, Match path pre groups rest → Covers path f pre rest → groups = f.fields
  stored : Stored env path f
  inBounds : Writes.InBounds Memory.size (extractDaemonWrites env coreFilePattern path)

/-- No extended attribute is readable. -/
def NoAttributes (env : Env) (path : Text) : Prop := ∀ name, env.xattr path name = none

section
variable {f : FileName} {env : Env} {dir path : Text}

/-! ### Names that the pattern describes -/

/-- The pattern takes no newline in the name of a command and no capital letter in the boot id. -/
structure Matched (f : FileName) : Prop extends Described f where
  line : '\n' ∉ f.comm
  lower : ∀ c ∈ f.bootId, isLowerHex c = true

/-- The name as one of the names for which the pattern has been looked at. -/
def Matched.core (h : Matched f) : CoreName where
  comm := f.comm
  uid := f.uid
  bootId := f.bootId
  pid := f.pid
  timestamp := f.ts
  extension := f.extension
  comm_dots := h.comm.2.1
  uid_digits := h.uid
  bootId_hex := ⟨by rw [h.bootId.1]; decide, h.lower⟩
  pid_digits := h.pid.1
  timestamp_digits := ⟨List.ne_nil_of_length_pos (by have := h.ts.1.1; omega), h.ts.2⟩
  extension_word := by
    intro e he
    obtain ⟨hne, halpha⟩ := h.extension e he
    refine ⟨fun hdot => absurd (halpha _ hdot) (by decide), ?_⟩
    obtain ⟨c, rest, rfl⟩ := List.exists_cons_of_ne_nil hne
    exact ⟨c, rest, rfl, Text.isDigit_of_isAlpha (halpha c List.mem_cons_self)⟩

theorem Matched.core_name (h : Matched f) : h.core.name = f.name := rfl

theorem Matched.fits (h : Matched f) : Capture.Fits coreFilePattern f.fields := by
  have unbounded (w : Text) (n : Nat) (hn : none = some n) : w.length ≤ n := nomatch hn
  have bounded {w : Text} {m : Nat} (hw : w.length ≤ m) (n : Nat) (hn : some m = some n) : w.length ≤ n :=
    Option.some.inj hn ▸ hw
  have hcomm : ∀ c ∈ f.comm, (c != '\n') = true := fun c hc => bne_iff_ne.mpr fun heq => h.line (heq ▸ hc)
  have hboot := h.bootId.1
  exact ⟨_, _, rfl, hcomm, Nat.zero_le _, unbounded _,
    _, _, rfl, h.uid.2, List.length_pos_iff.mpr h.uid.1, unbounded _,
    _, _, rfl, h.lower, by omega, bounded (by omega),
    _, _, rfl, h.pid.1.2, List.length_pos_iff.mpr h.pid.1.1, bounded h.pid.2,
    _, _, rfl, h.ts.2, by have := h.ts.1.1; omega, bounded h.ts.1.2, rfl⟩

theorem Matched.pathIn_eq (h : Matched f) (dir : Text) :
    pathIn dir f = dir ++ ['/'] ++ Capture.assemble coreFilePattern f.fields ++ f.tail := by
  have hname : f.name = Capture.assemble coreFilePattern f.fields ++ f.tail := by
    rw [← h.core_name, h.core.name_parts, FileName.fields, assemble_coreFilePattern]
    simp [Matched.core, CoreName.tail, FileName.tail]
  rw [pathIn, hname]
  simp

/-- The last group is the time stamp when the match ends behind it: no more digits follow. -/
theorem timestamp_of_covered {g₅ rest : Text} (hdigits : ∀ c ∈ g₅, c.isDigit = true)
    (hparts : g₅ ++ rest = f.ts ++ f.tail) (hlen : rest.length ≤ f.tail.length) : g₅ = f.ts ∧ rest = f.tail := by
  rcases List.append_eq_append_iff.mp hparts with ⟨a, hts, hrest⟩ | ⟨a, hg, htail⟩
  · have ha : a = [] := by
      have hsum := congrArg List.length hrest
      rw [List.length_append] at hsum
      exact List.length_eq_zero_iff.mp (by omega)
    subst ha
    exact ⟨(hts.trans (List.append_nil _)).symm, hrest⟩
  · cases a with
    | nil => exact ⟨hg.trans (List.append_nil _), htail.symm⟩
    | cons c a =>
      have hc : c.isDigit = true := hdigits c (hg ▸ List.mem_append_right _ List.mem_cons_self)
      rw [FileName.tail] at htail
      cases hext : f.extension with
      | none =>
        rw [hext] at htail
        cases htail
      | some e =>
        rw [hext] at htail
        obtain ⟨rfl, -⟩ := List.cons.inj htail
        cases hc

/-- Any match that ends behind the time stamp has the fields as its groups. -/
theorem Matched.unique (h : Matched f) (hdir : '.' ∉ dir) {pre rest : Text} {groups : List Text}
    (hmatch : Match (pathIn dir f) pre groups rest) (hlen : rest.length ≤ f.tail.length) :
    pre = dir ++ ['/'] ∧ groups = f.fields ∧ rest = f.tail := by
  obtain ⟨hpre, g₅, rfl, hparts⟩ := match_fields h.core hdir hmatch.path hmatch.fits
  obtain ⟨rfl, hrest⟩ := timestamp_of_covered (fits_stamp hmatch.fits).2.2.1 hparts hlen
  exact ⟨hpre, rfl, hrest⟩

theorem Matched.search (h : Matched f) (hdir : '.' ∉ dir) :
    Capture.search coreFilePattern (pathIn dir f) = some (f.fields, f.tail) := by
  have hfound : (Capture.search coreFilePattern (pathIn dir f)).isSome = true :=
    h.pathIn_eq dir ▸ Capture.search_isSome h.fits
  obtain ⟨⟨groups, rest⟩, hsearch⟩ := Option.isSome_iff_exists.mp hfound
  obtain ⟨pre, t, hpath, hlong⟩ := Capture.search_longest hsearch
  obtain ⟨ht, hfits⟩ := Capture.mem_splits.mp (Capture.mem_of_longest hlong)
  have hmatch : Match (pathIn dir f) pre groups rest := ⟨by rw [hpath, ht, List.append_assoc], hfits⟩
  -- The match starts where the fields do, and is not shorter than they are.
  obtain ⟨hpre, -⟩ := match_fields h.core hdir hmatch.path hfits
  have hwhole : t = Capture.assemble coreFilePattern f.fields ++ f.tail := by
    rw [h.pathIn_eq, hpre, List.append_assoc] at hpath
    exact (List.append_cancel_left hpath).symm
  have hlen := Capture.length_le_of_longest hlong (Capture.mem_splits.mpr ⟨hwhole, h.fits⟩)
  obtain ⟨-, rfl, rfl⟩ := h.unique hdir hmatch hlen
  exact hsearch

/-! ### What is stored -/

theorem getxattr_none (hno : NoAttributes env path) (name : Text) (size : Nat) : getxattr env path name size = none := by
  rw [getxattr, hno name]
  rfl

/-- Without attributes the fields are the groups. -/
theorem attributeOrGroup_group (hno : NoAttributes env path) (name : Text) (size index : Nat) (groups : List Text)
    (rest : Text) : attributeOrGroup env path name size (some (groups, rest)) index = groups[index]?.map (·.take size) := by
  rw [attributeOrGroup, getxattr_none hno]
  rfl

theorem FileName.length_comm (f : FileName) : f.comm.length < f.name.length := by
  rw [FileName.name, FileName.fields]
  simp
  omega

theorem Described.isStamp (h : Described f) : TimeStamps.IsStamp f.ts :=
  ⟨h.ts.2, by have := h.ts.1.1; omega, by have := h.ts.1.2; omega⟩

theorem Matched.stored (h : Matched f) (hdir : '.' ∉ dir) (hno : NoAttributes env (pathIn dir f)) :
    Stored env (pathIn dir f) f := by
  have hcomm : f.comm.take daemonNameSize = f.comm := List.take_of_length_le (by
    have := f.length_comm
    have := h.length
    unfold daemonNameSize
    omega)
  have hpid : f.pid.take instanceIdSize = f.pid := List.take_of_length_le h.pid.2
  have hts : f.ts.take sizeDateAndTime = f.ts := List.take_of_length_le (h.ts.1.2.trans (by decide))
  have hne : f.ts.isEmpty = false := by
    have := h.ts.1.1
    cases hts : f.ts with
    | nil => simp [hts] at this
    | cons c ts => rfl
  have hmicros : TimeStamps.micros f.ts < 10 ^ 16 :=
    (Text.ofDigitChars_lt h.ts.2).trans_le (Nat.pow_le_pow_right (by decide) h.ts.1.2)
  obtain ⟨date, time, hlocal, hdefined⟩ := TimeStamps.dateAndTime_calendar env
    (TimeStamps.micros f.ts / 1000000 : Nat) (by omega) (by omega)
  have hdate : convertToDateAndTime env f.ts true = some (date, time) := by
    rw [TimeStamps.convertToDateAndTime_eq, TimeStamps.dateAndTimeSeconds_of_stamp h.isStamp]
    exact hdefined
  refine ⟨date, time, hlocal, ?_⟩
  rw [extractInfo, extractDaemonInfo, h.search hdir]
  simp only [attributeOrGroup_group hno, getxattr_none hno, FileName.fields, List.getElem?_cons_zero,
    List.getElem?_cons_succ, Option.map_some, hcomm, hpid, hts, hne, Bool.false_eq_true, if_false, Option.isNone_none,
    hdate, Option.getD_none]

theorem fieldWrites_group (hno : NoAttributes env path) (name : Text) (memory : Memory) (size : Nat) (group : Text) :
    fieldWrites env path name memory size (some group) =
      [⟨memory, size⟩, ⟨memory, group.length + 1⟩, ⟨memory, size + 1⟩] := by
  rw [fieldWrites, getxattr_none hno]

theorem fieldWrites_none (hno : NoAttributes env path) (name : Text) (memory : Memory) (size : Nat) :
    fieldWrites env path name memory size none = [⟨memory, 1⟩] := by
  rw [fieldWrites, getxattr_none hno]

theorem inBounds_dateWrites (value : Text) : Writes.InBounds Memory.size (dateWrites value) := by
  rw [dateWrites, convertToDateAndTimeWrites]
  split
  · decide
  · split <;> decide

theorem Matched.inBounds (h : Matched f) (hdir : '.' ∉ dir) (hno : NoAttributes env (pathIn dir f)) :
    Writes.InBounds Memory.size (extractDaemonWrites env coreFilePattern (pathIn dir f)) := by
  have hcomm : f.comm.length + 1 ≤ Memory.daemonName.size := by
    have := f.length_comm
    have := h.length
    change _ ≤ 257
    omega
  have hpid : f.pid.length + 1 ≤ Memory.crashInstanceId.size := Nat.succ_le_succ h.pid.2
  have hts : f.ts.length + 1 ≤ Memory.value.size := Nat.succ_le_succ (h.ts.1.2.trans (by decide))
  rw [extractDaemonWrites, h.search hdir]
  simp only [attributeOrGroup_group hno, FileName.fields, List.getElem?_cons_zero, List.getElem?_cons_succ,
    Option.map_some, Option.isNone_some, Bool.false_eq_true, if_false, Option.bind_some, fieldWrites_group hno,
    fieldWrites_none hno, Writes.inBounds_append, Writes.inBounds_cons, Writes.inBounds_nil, inBounds_dateWrites,
    hcomm, hpid, hts, and_true]
  decide

end

/-- A name of a core file, its command on one line and its boot id in lower case, is decoded in the folder of the
    cores, with or without the backslashes that quote its slashes. -/
theorem decoded_of_described {f : FileName} {env : Env} {dir : Text} (h : Described f) (hline : '\n' ∉ f.comm)
    (hlower : ∀ c ∈ f.bootId, isLowerHex c = true) (hdir : dir = coreDir ∨ dir = daemonCorePath)
    (hno : NoAttributes env (pathIn dir f)) : Decoded env (pathIn dir f) f := by
  have hmatched : Matched f := ⟨h, hline, hlower⟩
  have hdots : '.' ∉ dir := by
    rcases hdir with rfl | rfl <;> decide
  exact {
    found := by rw [hmatched.search hdots]; rfl
    unique := fun _ _ _ hmatch hcovers => (hmatched.unique hdots hmatch hcovers.2).2.1
    stored := hmatched.stored hdots hno
    inBounds := hmatched.inBounds hdots hno }

/-- `core.COMM.0.BOOTID.682.1459547856000000.xz`. -/
def coreOf (comm bootId : Text) : FileName where
  comm := comm
  uid := ['0']
  bootId := bootId
  pid := ['6', '8', '2']
  ts := TimeStamps.stamp2016
  extension := some ['x', 'z']

theorem described_coreOf {comm bootId : Text} (hcomm : comm ≠ [] ∧ '.' ∉ comm ∧ '/' ∉ comm)
    (hbootId : bootId.length = 32 ∧ ∀ c ∈ bootId, isHex c = true) (hlength : (coreOf comm bootId).name.length ≤ 255) :
    Described (coreOf comm bootId) := by
  have huid : DigitField ['0'] := ⟨by decide, by decide⟩
  have hpid : DigitField ['6', '8', '2'] ∧ ['6', '8', '2'].length ≤ 8 := ⟨⟨by decide, by decide⟩, by decide⟩
  have hts : (9 ≤ TimeStamps.stamp2016.length ∧ TimeStamps.stamp2016.length ≤ 16) ∧
      ∀ c ∈ TimeStamps.stamp2016, c.isDigit = true := ⟨by decide, by decide⟩
  have hextension : ∀ c ∈ ['x', 'z'], c.isAlpha = true := by decide
  exact ⟨hcomm, huid, hbootId, hpid, hts, fun e he => Option.some.inj he ▸ ⟨by decide, hextension⟩, hlength⟩

/-- The name in the header file. -/
def vtyshCore : FileName := coreOf "vtysh".toList "68b62225067c4523af7d4d38e723da39".toList

theorem vtyshCore_decoded : Decoded (switchWith [] fun _ _ => none) (pathIn coreDir vtyshCore) vtyshCore :=
  decoded_of_described (described_coreOf ⟨by decide, by decide, by decide⟩ ⟨by decide, by decide⟩ (by decide))
    (by decide) (by decide) (Or.inl rfl) fun _ => rfl

/-- The same with a command on two lines, and with a boot id in capital letters. -/
def linesCore : FileName := coreOf "vty\nsh".toList "68b62225067c4523af7d4d38e723da39".toList
def capitalCore : FileName := coreOf "vtysh".toList "68B62225067C4523AF7D4D38E723DA39".toList

theorem search_linesCore : Capture.search coreFilePattern (pathIn coreDir linesCore) = none := by decide +kernel

theorem search_capitalCore : Capture.search coreFilePattern (pathIn coreDir capitalCore) = none := by decide +kernel

/-- Neither is decoded: the pattern takes no newline, and no capital letter in the boot id. -/
theorem lines_capitals_not_decoded :
    (Described linesCore ∧ NoAttributes (switchWith [] fun _ _ => none) (pathIn coreDir linesCore) ∧
        ¬ Decoded (switchWith [] fun _ _ => none) (pathIn coreDir linesCore) linesCore) ∧
      Described capitalCore ∧ NoAttributes (switchWith [] fun _ _ => none) (pathIn coreDir capitalCore) ∧
        ¬ Decoded (switchWith [] fun _ _ => none) (pathIn coreDir capitalCore) capitalCore := by
  refine ⟨⟨?_, fun _ => rfl, fun h => ?_⟩, ?_, fun _ => rfl, fun h => ?_⟩
  · exact described_coreOf ⟨by decide, by decide, by decide⟩ ⟨by decide, by decide⟩ (by decide)
  · exact Bool.noConfusion (search_linesCore ▸ h.found)
  · exact described_coreOf ⟨by decide, by decide, by decide⟩ ⟨by decide, by decide⟩ (by decide)
  · exact Bool.noConfusion (search_capitalCore ▸ h.found)

end CoreDump
end OpsSupportability
