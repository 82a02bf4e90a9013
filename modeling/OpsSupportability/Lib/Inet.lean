import OpsSupportability.Lib.Text

/-! The texts that `inet_pton` accepts. -/

namespace Inet

def isOctet (w : Text) : Bool :=
  !w.isEmpty && w.length ≤ 3 && w.all Char.isDigit && (w.length == 1 || w.head? != some '0') &&
    Nat.ofDigitChars 10 w 0 ≤ 255

/-- `inet_pton` of `AF_INET`: four decimal numbers without leading zeros. -/
def inetPton4 (s : Text) : Bool := (s.splitOn '.').length == 4 && (s.splitOn '.').all isOctet

def isHex (c : Char) : Bool := c.isDigit || ('a' ≤ c && c ≤ 'f') || ('A' ≤ c && c ≤ 'F')

def isGroup (w : Text) : Bool := !w.isEmpty && w.length ≤ 4 && w.all isHex

/-- The number of 16-bit words that the parts between colons stand for; the last part may be an IPv4
    address. -/
def wordCount : List Text → Option Nat
  | [] => some 0
  | w :: ws =>
    if isGroup w then (wordCount ws).map (· + 1) else if ws.isEmpty && inetPton4 w then some 2 else none

def groups (s : Text) : List Text := if s.isEmpty then [] else s.splitOn ':'

/-- `inet_pton` of `AF_INET6`: eight words, or fewer when `::` stands for the missing ones. -/
def inetPton6 (s : Text) : Bool :=
  match Text.cutFirst [':', ':'] s with
  | none => wordCount (s.splitOn ':') == some 8
  | some (pre, post) =>
    (groups pre).all isGroup && (wordCount (groups post)).any fun n => (groups pre).length + n ≤ 7

/-! ### The characters of an address -/

def isAddress (c : Char) : Bool := isHex c || c == '.' || c == ':'

theorem inetPton4_chars {s : Text} (h : inetPton4 s = true) : ∀ c ∈ s, c.isDigit = true ∨ c = '.' := by
  intro c hc
  rw [inetPton4, Bool.and_eq_true] at h
  rcases Text.mem_of_splitOn '.' hc with hdot | ⟨w, hw, hcw⟩
  · exact Or.inr hdot
  · have hoctet := List.all_eq_true.mp h.2 w hw
    simp only [isOctet, Bool.and_eq_true] at hoctet
    exact Or.inl (List.all_eq_true.mp hoctet.1.1.2 c hcw)

theorem isGroup_chars {w : Text} (h : isGroup w = true) : ∀ c ∈ w, isAddress c = true := by
  intro c hc
  rw [isGroup, Bool.and_eq_true] at h
  simp [isAddress, List.all_eq_true.mp h.2 c hc]

theorem wordCount_chars {ws : List Text} {n : Nat} (h : wordCount ws = some n) :
    ∀ w ∈ ws, ∀ c ∈ w, isAddress c = true := by
  induction ws generalizing n with
  | nil => exact fun w hw => absurd hw List.not_mem_nil
  | cons w ws ih =>
    rw [wordCount] at h
    split at h
    · next hgroup =>
      obtain ⟨m, hm, -⟩ := Option.map_eq_some_iff.mp h
      exact List.forall_mem_cons.mpr ⟨isGroup_chars hgroup, ih hm⟩
    · split at h
      · next hlast =>
        rw [Bool.and_eq_true, List.isEmpty_iff] at hlast
        obtain ⟨rfl, haddress⟩ := hlast
        refine List.forall_mem_cons.mpr ⟨fun c hc => ?_, fun w hw => absurd hw List.not_mem_nil⟩
        rcases inetPton4_chars haddress c hc with hdigit | rfl
        · simp [isAddress, isHex, hdigit]
        · rfl
      · cases h

theorem groups_chars {s : Text} (h : ∀ w ∈ groups s, ∀ c ∈ w, isAddress c = true) : ∀ c ∈ s, isAddress c = true := by
  intro c hc
  rw [groups, if_neg (by simpa using List.ne_nil_of_mem hc)] at h
  rcases Text.mem_of_splitOn ':' hc with rfl | ⟨w, hw, hcw⟩
  · rfl
  · exact h w hw c hcw

theorem inetPton6_chars {s : Text} (h : inetPton6 s = true) : ∀ c ∈ s, isAddress c = true := by
  unfold inetPton6 at h
  split at h
  · intro c hc
    rcases Text.mem_of_splitOn ':' hc with rfl | ⟨w, hw, hcw⟩
    · rfl
    · exact wordCount_chars (beq_iff_eq.mp h) w hw c hcw
  · next pre post hcut =>
    rw [Bool.and_eq_true, Option.any_eq_true] at h
    obtain ⟨hpre, n, hn, -⟩ := h
    have hleft := groups_chars fun w hw => isGroup_chars (List.all_eq_true.mp hpre w hw)
    have hright := groups_chars (wordCount_chars hn)
    rw [Text.cutFirst_some hcut]
    intro c hc
    simp only [List.mem_append, List.mem_cons, List.not_mem_nil, or_false, or_self] at hc
    rcases hc with (hc | rfl) | hc
    · exact hleft c hc
    · rfl
    · exact hright c hc

end Inet
