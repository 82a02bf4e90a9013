import Mathlib.Algebra.Group.Int.Defs
import Mathlib.Algebra.Group.Nat.Defs
import Mathlib.Data.List.Flatten
import Mathlib.Data.List.Infix

/-! Texts as lists of characters, and the string functions of C and Python that the programs under
    verification call. A C string is the text before its NUL, one character for each byte. -/

abbrev Text := List Char

namespace Text

/-- The tests for membership in a list of texts share this instance. -/
instance lawfulBEq : LawfulBEq Text := List.instLawfulBEq

/-- The characters of a text are gone through one by one, not those of the whole type. -/
instance (priority := 1100) decidableForallMem (s : Text) (p : Char → Prop) [DecidablePred p] :
    Decidable (∀ c ∈ s, p c) := List.decidableBAll p s

/-! ### Literals -/

/-- The characters of a literal; `h` is `rfl`, and finds them. -/
theorem toList_eq {s : String} {l : Text} (h : s = String.ofList l) : s.toList = l := by
  rw [h, String.toList_ofList]

/-! ### Decimal numbers -/

/-- `%d` of `printf`, and `str` of a Python integer. -/
def decimal (n : Int) : Text :=
  if n < 0 then '-' :: Nat.toDigits 10 n.natAbs else Nat.toDigits 10 n.natAbs

def isSpace (c : Char) : Bool := c == ' ' || (9 ≤ c.toNat && c.toNat ≤ 13)

/-- `atoi`, wrapping around to 32 bits. -/
def atoi (s : Text) : Int :=
  let number (digits : Text) : Int := Nat.ofDigitChars 10 (digits.takeWhile Char.isDigit) 0
  match s.dropWhile isSpace with
  | '-' :: rest => (-number rest).bmod (2 ^ 32)
  | '+' :: rest => (number rest).bmod (2 ^ 32)
  | rest => (number rest).bmod (2 ^ 32)

/-- `atoll`, which stops at the ends of 64 bits. -/
def atoll (s : Text) : Int :=
  let number (digits : Text) : Int := Nat.ofDigitChars 10 (digits.takeWhile Char.isDigit) 0
  let value := match s.dropWhile isSpace with
    | '-' :: rest => -number rest
    | '+' :: rest => number rest
    | rest => number rest
  max (-2 ^ 63) (min value (2 ^ 63 - 1))

theorem isDigit_of_mem_toDigits {c : Char} {n : Nat} (h : c ∈ Nat.toDigits 10 n) : c.isDigit = true :=
  Nat.isDigit_of_mem_toDigits (by decide) (by decide) h

theorem toDigits_head_ne (n : Nat) : ∀ rest, Nat.toDigits 10 n ≠ '-' :: rest := by
  intro rest h
  cases isDigit_of_mem_toDigits (h ▸ List.mem_cons_self)

theorem toDigits_injective {m n : Nat} (h : Nat.toDigits 10 m = Nat.toDigits 10 n) : m = n := by
  rw [← Nat.ofDigitChars_ten_toDigits (n := m), h, Nat.ofDigitChars_ten_toDigits]

theorem decimal_injective {m n : Int} (h : decimal m = decimal n) : m = n := by
  unfold decimal at h
  split at h <;> split at h
  · have := toDigits_injective (List.cons.inj h).2
    omega
  · exact absurd h.symm (toDigits_head_ne _ _)
  · exact absurd h (toDigits_head_ne _ _)
  · have := toDigits_injective h
    omega

theorem decimal_natCast (n : Nat) : decimal n = Nat.toDigits 10 n := by
  rw [decimal, if_neg (by omega), Int.natAbs_natCast]

theorem isSpace_of_isDigit {c : Char} (h : c.isDigit = true) : isSpace c = false := by
  simp [Char.isDigit, isSpace] at h ⊢
  refine ⟨?_, ?_⟩
  · rintro rfl
    exact absurd h.1 (by decide)
  · have : '0'.toNat ≤ c.toNat := h.1
    intro _
    have : '0'.toNat = 48 := rfl
    omega

/-- What a text of digits is taken for by `strtol` and the like, before it is cut to a type. -/
theorem number_of_isDigit {α : Type*} {s : Text} (h : ∀ c ∈ s, c.isDigit = true) (minus plus other : Text → α) :
    (match s.dropWhile isSpace with
      | '-' :: rest => minus rest
      | '+' :: rest => plus rest
      | rest => other (rest.takeWhile Char.isDigit)) = other s := by
  have htake : s.takeWhile Char.isDigit = s := by
    rw [← List.append_nil s, List.takeWhile_append_of_pos h, List.takeWhile_nil]
  cases s with
  | nil => rfl
  | cons c s =>
    have hc : c.isDigit = true := h c List.mem_cons_self
    rw [List.dropWhile_cons_of_neg (by simp [isSpace_of_isDigit hc])]
    split
    · next heq =>
      cases heq
      cases hc
    · next heq =>
      cases heq
      cases hc
    · rw [htake]

theorem atoi_of_isDigit {s : Text} (h : ∀ c ∈ s, c.isDigit = true) :
    atoi s = (Nat.ofDigitChars 10 s 0 : Int).bmod (2 ^ 32) :=
  number_of_isDigit h _ _ fun digits => (Nat.ofDigitChars 10 digits 0 : Int).bmod (2 ^ 32)

theorem atoll_of_isDigit {s : Text} (h : ∀ c ∈ s, c.isDigit = true) :
    atoll s = max (-2 ^ 63) (min (Nat.ofDigitChars 10 s 0 : Int) (2 ^ 63 - 1)) :=
  congrArg (fun value => max (-2 ^ 63) (min value (2 ^ 63 - 1)))
    (number_of_isDigit h _ _ fun digits => (Nat.ofDigitChars 10 digits 0 : Int))

theorem atoi_decimal {n : Nat} (h : n < 2 ^ 31) : atoi (decimal n) = n := by
  have hdigits : ∀ c ∈ Nat.toDigits 10 n, c.isDigit = true := fun c hc => isDigit_of_mem_toDigits hc
  rw [decimal_natCast, atoi_of_isDigit hdigits, Nat.ofDigitChars_ten_toDigits]
  exact Int.bmod_eq_of_le (by omega) (by omega)

/-! ### Values of digits -/

theorem isDigit_range {c : Char} (h : c.isDigit = true) : '0'.toNat ≤ c.toNat ∧ c.toNat < '0'.toNat + 10 := by
  obtain ⟨hge, hle⟩ := Bool.and_eq_true_iff.mp h
  have hge : '0'.toNat ≤ c.toNat := of_decide_eq_true hge
  have hle : c.toNat ≤ '9'.toNat := of_decide_eq_true hle
  exact ⟨hge, Nat.lt_succ_of_le hle⟩

theorem isDigit_of_isAlpha {c : Char} (h : c.isAlpha = true) : c.isDigit = false := by
  have hge : 65 ≤ c.toNat := by
    rcases Bool.or_eq_true_iff.mp h with hupper | hlower
    · exact (of_decide_eq_true hupper : 'A'.val ≤ c.val ∧ c.val ≤ 'Z'.val).1
    · obtain ⟨hfirst, -⟩ := Bool.and_eq_true_iff.mp
        (hlower : (decide ('a'.val ≤ c.val) && decide (c.val ≤ 'z'.val)) = true)
      exact Nat.le_trans (show 65 ≤ 97 by decide) (of_decide_eq_true hfirst)
  by_contra hdigit
  have hlt := (isDigit_range (eq_true_of_ne_false hdigit)).2
  have hzero : '0'.toNat = 48 := rfl
  omega

theorem ofDigitChars_cons_zero (c : Char) (s : Text) :
    Nat.ofDigitChars 10 (c :: s) 0 = 10 ^ s.length * (c.toNat - '0'.toNat) + Nat.ofDigitChars 10 s 0 := by
  rw [Nat.ofDigitChars_cons, Nat.ofDigitChars_eq_ofDigitChars_zero, Nat.mul_zero, Nat.zero_add]

theorem ofDigitChars_lt {s : Text} (h : ∀ c ∈ s, c.isDigit = true) : Nat.ofDigitChars 10 s 0 < 10 ^ s.length := by
  induction s with
  | nil => exact Nat.one_pos
  | cons c s ih =>
    have hc := isDigit_range (h c List.mem_cons_self)
    have hs := ih fun d hd => h d (List.mem_cons_of_mem _ hd)
    rw [ofDigitChars_cons_zero, List.length_cons, Nat.pow_succ]
    have hle : 10 ^ s.length * (c.toNat - '0'.toNat) ≤ 10 ^ s.length * 9 := Nat.mul_le_mul_left _ (by omega)
    omega

/-- Texts of digits of one length and value are equal. -/
theorem ofDigitChars_injective {s t : Text} (hs : ∀ c ∈ s, c.isDigit = true) (ht : ∀ c ∈ t, c.isDigit = true)
    (hlen : s.length = t.length) (h : Nat.ofDigitChars 10 s 0 = Nat.ofDigitChars 10 t 0) : s = t := by
  induction s generalizing t with
  | nil => exact (List.length_eq_zero_iff.mp hlen.symm).symm
  | cons c s ih =>
    obtain ⟨d, t, rfl⟩ := List.exists_cons_of_length_eq_add_one hlen.symm
    have hlen : s.length = t.length := Nat.succ.inj hlen
    obtain ⟨hc, hs⟩ := List.forall_mem_cons.mp hs
    obtain ⟨hd, ht⟩ := List.forall_mem_cons.mp ht
    have hpos : 0 < 10 ^ t.length := Nat.pow_pos (by decide)
    rw [ofDigitChars_cons_zero, ofDigitChars_cons_zero, hlen] at h
    have hhead := congrArg (· / 10 ^ t.length) h
    rw [Nat.mul_add_div hpos, Nat.mul_add_div hpos, Nat.div_eq_of_lt (hlen ▸ ofDigitChars_lt hs),
      Nat.div_eq_of_lt (ofDigitChars_lt ht), Nat.add_zero, Nat.add_zero] at hhead
    rw [hhead] at h
    have hchar : c.toNat = d.toNat := by
      have hc := isDigit_range hc
      have hd := isDigit_range hd
      omega
    rw [ih hs ht hlen (Nat.add_left_cancel h), Char.toNat_inj.mp hchar]

/-- A number in at least so many digits. -/
def padded (k n : Nat) : Text := List.leftpad k '0' (Nat.toDigits 10 n)

theorem padded_ofDigitChars {s : Text} (hne : s ≠ []) (h : ∀ c ∈ s, c.isDigit = true) :
    padded s.length (Nat.ofDigitChars 10 s 0) = s := by
  have hlen : (Nat.toDigits 10 (Nat.ofDigitChars 10 s 0)).length ≤ s.length :=
    (Nat.length_toDigits_le_iff (by decide) (List.length_pos_of_ne_nil hne)).mpr (ofDigitChars_lt h)
  refine ofDigitChars_injective (fun c hc => ?_) h ?_ ?_
  · rcases List.mem_append.mp hc with hzero | hdigits
    · exact List.eq_of_mem_replicate hzero ▸ rfl
    · exact isDigit_of_mem_toDigits hdigits
  · rw [padded, List.length_leftpad, Nat.max_eq_left hlen]
  · rw [padded, List.leftpad, Nat.ofDigitChars_append, Nat.ofDigitChars_replicate_zero, Nat.mul_zero,
      Nat.ofDigitChars_ten_toDigits]

theorem ofDigitChars_append (s t : Text) :
    Nat.ofDigitChars 10 (s ++ t) 0 = 10 ^ t.length * Nat.ofDigitChars 10 s 0 + Nat.ofDigitChars 10 t 0 := by
  rw [Nat.ofDigitChars_append, Nat.ofDigitChars_eq_ofDigitChars_zero]

/-- The digits but for the last are the quotient, and the last are the remainder. -/
theorem ofDigitChars_take_drop {s : Text} (k : Nat) (hk : k ≤ s.length) (h : ∀ c ∈ s, c.isDigit = true) :
    Nat.ofDigitChars 10 (s.take (s.length - k)) 0 = Nat.ofDigitChars 10 s 0 / 10 ^ k ∧
      Nat.ofDigitChars 10 (s.drop (s.length - k)) 0 = Nat.ofDigitChars 10 s 0 % 10 ^ k := by
  have hlen : (s.drop (s.length - k)).length = k := by
    rw [List.length_drop]
    omega
  have hdrop : ∀ c ∈ s.drop (s.length - k), c.isDigit = true := fun c hc => h c (List.mem_of_mem_drop hc)
  have hlt := ofDigitChars_lt hdrop
  have hsplit := ofDigitChars_append (s.take (s.length - k)) (s.drop (s.length - k))
  rw [List.take_append_drop] at hsplit
  rw [hlen] at hlt hsplit
  have hpos : 0 < 10 ^ k := Nat.pow_pos (by decide)
  rw [hsplit, Nat.mul_add_div hpos, Nat.div_eq_of_lt hlt, Nat.add_zero, Nat.mul_add_mod, Nat.mod_eq_of_lt hlt]
  exact ⟨rfl, rfl⟩

theorem length_decimal_le {n k : Nat} (hk : 0 < k) (h : n < 10 ^ k) : (decimal n).length ≤ k := by
  rw [decimal_natCast]
  exact (Nat.length_toDigits_le_iff (by decide) hk).mpr h

theorem notMem_decimal {c : Char} (hdigit : c.isDigit = false) (hsign : c ≠ '-') (n : Int) : c ∉ decimal n := by
  have hdigits : c ∉ Nat.toDigits 10 n.natAbs := fun hmem =>
    Bool.false_ne_true (hdigit.symm.trans (isDigit_of_mem_toDigits hmem))
  unfold decimal
  split
  · exact List.not_mem_cons_of_ne_of_not_mem hsign hdigits
  · exact hdigits

/-! ### Upper and lower case -/

theorem toUpper_toLower_of_ascii : ∀ n < 128, (Char.ofNat n).toLower.toUpper = (Char.ofNat n).toUpper := by
  decide +kernel

theorem toUpper_toLower (c : Char) : c.toLower.toUpper = c.toUpper := by
  by_cases h : c.toNat < 128
  · have := toUpper_toLower_of_ascii c.toNat h
    rwa [Char.ofNat_toNat] at this
  · have hlower : c.toLower = c := by
      unfold Char.toLower
      refine dif_neg fun hupper => h ?_
      have hle : c.toNat ≤ 90 := hupper.2
      omega
    rw [hlower]

/-! ### Searching and replacing -/

/-- `strstr`: the text before and after the first occurrence of `pat`. -/
def cutFirst (pat : Text) : Text → Option (Text × Text)
  | [] => if pat.isEmpty then some ([], []) else none
  | c :: s =>
    if pat.isPrefixOf (c :: s) then some ([], (c :: s).drop pat.length)
    else (cutFirst pat s).map fun (pre, post) => (c :: pre, post)

theorem cutFirst_some {pat s pre post : Text} (h : cutFirst pat s = some (pre, post)) : s = pre ++ pat ++ post := by
  induction s generalizing pre with
  | nil =>
    rw [cutFirst] at h
    split at h
    · next hpat => simp_all
    · cases h
  | cons c s ih =>
    rw [cutFirst] at h
    split at h
    · next hpat =>
      obtain ⟨rfl, rfl⟩ := Prod.mk.inj (Option.some.inj h)
      obtain ⟨post, hpost⟩ := List.isPrefixOf_iff_prefix.mp hpat
      rw [← hpost, List.drop_left, List.nil_append]
    · obtain ⟨⟨pre', post'⟩, hcut, heq⟩ := Option.map_eq_some_iff.mp h
      obtain ⟨rfl, rfl⟩ := Prod.mk.inj heq
      rw [ih hcut, List.cons_append, List.cons_append]

theorem cutFirst_none {pat s : Text} : cutFirst pat s = none ↔ ¬ pat <:+: s := by
  induction s with
  | nil => simp [cutFirst]
  | cons c s ih =>
    rw [cutFirst, List.infix_cons_iff, ← List.isPrefixOf_iff_prefix]
    by_cases hpat : pat.isPrefixOf (c :: s) = true
    · simp [hpat]
    · simp [hpat, ih]

/-- No occurrence ends before the first one does. -/
theorem cutFirst_leftmost {pat s pre post : Text} (hpat : pat ≠ []) (h : cutFirst pat s = some (pre, post)) :
    ¬ pat <:+: pre ++ pat.dropLast := by
  have hdrop : pat.dropLast <+: pat := List.dropLast_prefix pat
  induction s generalizing pre with
  | nil =>
    rw [cutFirst, if_neg (by simpa using hpat)] at h
    cases h
  | cons c s ih =>
    rw [cutFirst] at h
    split at h
    · obtain ⟨rfl, -⟩ := Prod.mk.inj (Option.some.inj h)
      intro hpart
      have hle := hpart.length_le
      have hpos := List.length_pos_iff.mpr hpat
      rw [List.nil_append, List.length_dropLast] at hle
      omega
    · next hstart =>
      obtain ⟨⟨pre', post'⟩, hcut, heq⟩ := Option.map_eq_some_iff.mp h
      obtain ⟨rfl, rfl⟩ := Prod.mk.inj heq
      rw [List.cons_append, List.infix_cons_iff]
      rintro (hhead | htail)
      · have hs : c :: s = c :: pre' ++ (pat ++ post') := by
          rw [cutFirst_some hcut]
          simp
        have hbegin : c :: pre' ++ pat.dropLast <+: c :: pre' ++ (pat ++ post') :=
          (List.prefix_append_right_inj _).mpr (hdrop.trans (List.prefix_append _ _))
        exact hstart (List.isPrefixOf_iff_prefix.mpr (hs ▸ hhead.trans hbegin))
      · exact ih hcut htail

/-- No occurrence lies before the first. -/
theorem cutFirst_first {pat s pre post : Text} (hpat : pat ≠ []) (h : cutFirst pat s = some (pre, post)) :
    ¬ pat <:+: pre := fun hpart => cutFirst_leftmost hpat h (hpart.trans (List.prefix_append _ _).isInfix)

/-- An occurrence is the first one if none ends before it does. -/
theorem cutFirst_append {pat pre : Text} (hpat : pat ≠ []) (h : ¬ pat <:+: pre ++ pat.dropLast) (post : Text) :
    cutFirst pat (pre ++ pat ++ post) = some (pre, post) := by
  induction pre with
  | nil =>
    obtain ⟨c, pat, rfl⟩ := List.exists_cons_of_ne_nil hpat
    have hstart : (c :: pat).isPrefixOf (c :: (pat ++ post)) = true :=
      List.isPrefixOf_iff_prefix.mpr (List.prefix_append (c :: pat) post)
    change cutFirst (c :: pat) (c :: (pat ++ post)) = some ([], post)
    rw [cutFirst, if_pos hstart]
    simp
  | cons c pre ih =>
    rw [List.cons_append, List.infix_cons_iff, not_or] at h
    have hstart : ¬ pat.isPrefixOf (c :: (pre ++ pat ++ post)) = true := by
      rw [List.isPrefixOf_iff_prefix]
      intro hhead
      have hbegin : c :: (pre ++ pat.dropLast) <+: c :: (pre ++ pat ++ post) := by
        rw [List.append_assoc, List.cons_prefix_cons]
        exact ⟨rfl, (List.prefix_append_right_inj _).mpr ((List.dropLast_prefix pat).trans (List.prefix_append _ _))⟩
      have hlen : pat.length ≤ (c :: (pre ++ pat.dropLast)).length := by
        simp only [List.length_cons, List.length_append, List.length_dropLast]
        omega
      exact h.1 (List.prefix_of_prefix_length_le hhead hbegin hlen)
    change cutFirst pat (c :: (pre ++ pat ++ post)) = some (c :: pre, post)
    rw [cutFirst, if_neg hstart, ih h.2]
    rfl

/-- The walk of `replaceAll`: the next `skip` characters belong to an occurrence already replaced. -/
def replaceFrom (pat new : Text) : Nat → Text → Text
  | _, [] => []
  | skip + 1, _ :: s => replaceFrom pat new skip s
  | 0, c :: s =>
    if pat.isPrefixOf (c :: s) then new ++ replaceFrom pat new (pat.length - 1) s
    else c :: replaceFrom pat new 0 s

/-- `str.replace` of Python for a non-empty `pat`: its occurrences from left to right, without overlap. -/
def replaceAll (pat new s : Text) : Text := replaceFrom pat new 0 s

theorem replaceFrom_inside (pat new s rest : Text) : replaceFrom pat new s.length (s ++ rest) = replaceFrom pat new 0 rest := by
  induction s with
  | nil => rfl
  | cons c s ih => exact ih

theorem replaceAll_none {pat s : Text} (new : Text) (h : cutFirst pat s = none) : replaceAll pat new s = s := by
  induction s with
  | nil => rfl
  | cons c s ih =>
    rw [cutFirst] at h
    split at h
    · cases h
    · next hpat =>
      rw [replaceAll, replaceFrom, if_neg hpat]
      exact congrArg (c :: ·) (ih (Option.map_eq_none_iff.mp h))

/-- The first occurrence is replaced, then those in the text behind it. -/
theorem replaceAll_some {pat s pre post : Text} (new : Text) (hpat : pat ≠ []) (h : cutFirst pat s = some (pre, post)) :
    replaceAll pat new s = pre ++ new ++ replaceAll pat new post := by
  induction s generalizing pre with
  | nil =>
    rw [cutFirst, if_neg (by simpa using hpat)] at h
    cases h
  | cons c s ih =>
    rw [cutFirst] at h
    rw [replaceAll, replaceFrom]
    split at h
    · next hstart =>
      obtain ⟨rfl, rfl⟩ := Prod.mk.inj (Option.some.inj h)
      obtain ⟨post, hpost⟩ := List.isPrefixOf_iff_prefix.mp hstart
      obtain ⟨d, pat, rfl⟩ := List.exists_cons_of_ne_nil hpat
      obtain ⟨rfl, rfl⟩ := List.cons.inj hpost
      have hdrop : (d :: (pat ++ post)).drop (d :: pat).length = post := by simp
      rw [if_pos hstart, List.length_cons, Nat.add_sub_cancel]
      change new ++ replaceFrom (d :: pat) new pat.length (pat ++ post) =
        new ++ replaceAll (d :: pat) new ((d :: (pat ++ post)).drop (d :: pat).length)
      rw [replaceFrom_inside, hdrop]
      rfl
    · next hstart =>
      obtain ⟨⟨pre', post'⟩, hcut, heq⟩ := Option.map_eq_some_iff.mp h
      obtain ⟨rfl, rfl⟩ := Prod.mk.inj heq
      rw [if_neg hstart]
      exact congrArg (c :: ·) (ih hcut)

/-- Induction on the text behind the first occurrence. -/
theorem cutFirst_induction {pat : Text} {motive : Text → Prop} (hpat : pat ≠ [])
    (none : ∀ s, cutFirst pat s = none → motive s)
    (some : ∀ s pre post, cutFirst pat s = some (pre, post) → motive post → motive s) (s : Text) : motive s := by
  induction hn : s.length using Nat.strong_induction_on generalizing s with
  | _ n ih =>
    cases hcut : cutFirst pat s with
    | none => exact none s hcut
    | some r =>
      refine some s r.1 r.2 hcut (ih r.2.length ?_ r.2 rfl)
      have hs : s = r.1 ++ pat ++ r.2 := cutFirst_some hcut
      have hlen := congrArg List.length hs
      have hpos := List.length_pos_iff.mpr hpat
      simp only [List.length_append] at hlen
      omega

/-- Replacing `n` occurrences changes the length by `n` times the same difference. -/
theorem length_replaceAll {pat : Text} (hpat : pat ≠ []) (s : Text) :
    ∃ n, (0 < n ↔ pat <:+: s) ∧
      ∀ new, (replaceAll pat new s).length + n * pat.length = s.length + n * new.length := by
  induction s using cutFirst_induction hpat with
  | none s hcut =>
    refine ⟨0, by simpa using cutFirst_none.mp hcut, fun new => ?_⟩
    rw [replaceAll_none new hcut, Nat.zero_mul, Nat.zero_mul]
  | some s pre post hcut ih =>
    obtain ⟨n, -, hn⟩ := ih
    have hs := cutFirst_some hcut
    refine ⟨n + 1, ⟨fun _ => ⟨pre, post, hs.symm⟩, fun _ => Nat.succ_pos n⟩, fun new => ?_⟩
    have := hn new
    rw [replaceAll_some new hpat hcut, hs]
    simp only [List.length_append, Nat.succ_mul]
    omega

/-! ### Splitting -/

/-- The tokens that successive calls of `strtok` return: the non-empty parts between delimiters. -/
def tokens (delim : Char) (s : Text) : List Text := (s.splitOn delim).filter (!·.isEmpty)

theorem mem_splitOn {c : Char} {s t : Text} (h : t ∈ s.splitOn c) : c ∉ t ∧ t <:+: s := by
  induction hn : s.length using Nat.strong_induction_on generalizing s with
  | _ n ih =>
    by_cases hc : c ∈ s
    · obtain ⟨a, b, rfl, ha⟩ := List.eq_append_cons_of_mem hc
      rw [List.splitOn_append_cons_self_of_not_mem ha] at h
      rcases List.mem_cons.mp h with rfl | h
      · exact ⟨ha, ⟨[], c :: b, rfl⟩⟩
      · obtain ⟨hmem, hpart⟩ := ih b.length (by simp [← hn]; omega) h rfl
        exact ⟨hmem, hpart.trans ⟨a ++ [c], [], by simp⟩⟩
    · rw [List.splitOn_eq_singleton hc] at h
      obtain rfl := List.mem_singleton.mp h
      exact ⟨hc, List.infix_refl _⟩

/-- A character is the delimiter or belongs to a part. -/
theorem mem_of_splitOn (d : Char) {c : Char} {s : Text} (h : c ∈ s) : c = d ∨ ∃ w ∈ s.splitOn d, c ∈ w := by
  induction hn : s.length using Nat.strong_induction_on generalizing s with
  | _ n ih =>
    by_cases hd : d ∈ s
    · obtain ⟨a, b, rfl, ha⟩ := List.eq_append_cons_of_mem hd
      rw [List.splitOn_append_cons_self_of_not_mem ha]
      rcases List.mem_append.mp h with hc | hc
      · exact Or.inr ⟨a, List.mem_cons_self, hc⟩
      · rcases List.mem_cons.mp hc with rfl | hc
        · exact Or.inl rfl
        · rcases ih b.length (by simp [← hn]; omega) hc rfl with rfl | ⟨w, hw, hcw⟩
          · exact Or.inl rfl
          · exact Or.inr ⟨w, List.mem_cons_of_mem _ hw, hcw⟩
    · rw [List.splitOn_eq_singleton hd]
      exact Or.inr ⟨s, List.mem_cons_self, h⟩

/-- The last part of a text grows by what is appended to the text, up to the next delimiter. -/
theorem splitOn_append_of_not_mem {d : Char} {t : Text} (ht : d ∉ t) (s : Text) :
    ∃ init w, s.splitOn d = init ++ [w] ∧ (s ++ t).splitOn d = init ++ [w ++ t] := by
  induction hn : s.length using Nat.strong_induction_on generalizing s with
  | _ n ih =>
    by_cases hd : d ∈ s
    · obtain ⟨a, b, rfl, ha⟩ := List.eq_append_cons_of_mem hd
      obtain ⟨init, w, hb, hbt⟩ := ih b.length (by simp [← hn]; omega) b rfl
      refine ⟨a :: init, w, ?_, ?_⟩
      · rw [List.splitOn_append_cons_self_of_not_mem ha, hb, List.cons_append]
      · rw [List.append_assoc, List.cons_append, List.splitOn_append_cons_self_of_not_mem ha, hbt, List.cons_append]
    · refine ⟨[], s, List.splitOn_eq_singleton hd, List.splitOn_eq_singleton fun hmem => ?_⟩
      rcases List.mem_append.mp hmem with hmem | hmem
      · exact hd hmem
      · exact ht hmem

theorem intercalate_append (d : Char) (l l' : List Text) (hl : l ≠ []) (hl' : l' ≠ []) :
    [d].intercalate (l ++ l') = [d].intercalate l ++ d :: [d].intercalate l' := by
  induction l with
  | nil => exact absurd rfl hl
  | cons w l ih =>
    cases l with
    | nil =>
      obtain ⟨w', l', rfl⟩ := List.exists_cons_of_ne_nil hl'
      simp [List.intercalate]
    | cons w' l =>
      have hcons : ∀ rest, [d].intercalate (w :: w' :: rest) = w ++ d :: [d].intercalate (w' :: rest) := fun rest => by
        simp [List.intercalate]
      rw [List.cons_append, List.cons_append, hcons, hcons, ← List.cons_append, ih (by simp), List.append_assoc,
        List.cons_append]

theorem mem_tokens {c : Char} {s t : Text} (h : t ∈ tokens c s) : c ∉ t ∧ t <:+: s :=
  mem_splitOn (List.mem_of_mem_filter h)

theorem mem_tokens_ne_nil {c : Char} {s t : Text} (h : t ∈ tokens c s) : t ≠ [] := by
  rintro rfl
  exact absurd (List.mem_filter.mp h).2 (by simp)

/-- A token of a text with delimiters is not the whole of it. -/
theorem length_lt_of_mem_tokens {c : Char} {s t : Text} (hc : c ∈ s) (h : t ∈ tokens c s) : t.length < s.length := by
  obtain ⟨hmem, hpart⟩ := mem_tokens h
  refine lt_of_le_of_ne hpart.length_le fun hlen => hmem ?_
  rwa [hpart.eq_of_length hlen]

/-- The parts, each with a delimiter behind it, are the text with a delimiter behind it. -/
theorem flatMap_splitOn (c : Char) (s : Text) : (s.splitOn c).flatMap (· ++ [c]) = s ++ [c] := by
  induction hn : s.length using Nat.strong_induction_on generalizing s with
  | _ n ih =>
    by_cases hc : c ∈ s
    · obtain ⟨a, b, rfl, ha⟩ := List.eq_append_cons_of_mem hc
      have hlt : b.length < n := by
        rw [← hn, List.length_append, List.length_cons]
        omega
      rw [List.splitOn_append_cons_self_of_not_mem ha, List.flatMap_cons, ih b.length hlt b rfl, List.append_assoc,
        List.append_assoc]
      rfl
    · rw [List.splitOn_eq_singleton hc]
      exact List.append_nil _

/-- Two tokens stand behind one another with a delimiter between them. -/
theorem length_two_tokens {c : Char} {s t t' : Text} {ts : List Text} (h : tokens c s = t :: t' :: ts) :
    t.length + t'.length + 1 ≤ s.length := by
  have hpart : ((tokens c s).flatMap (· ++ [c])).Sublist (s ++ [c]) :=
    flatMap_splitOn c s ▸ List.filter_sublist.flatMap _
  have hle := hpart.length_le
  simp only [h, List.flatMap_cons, List.length_append, List.length_cons, List.length_nil] at hle
  omega

/-- An occurrence ends before a text without its last character. -/
theorem infix_of_append {q a b : Text} {c : Char} (hc : c ∉ b) (h : q ++ [c] <:+: a ++ b) : q ++ [c] <:+: a := by
  obtain ⟨u, v, huv⟩ := h
  rcases List.append_eq_append_iff.mp huv with ⟨w, rfl, -⟩ | ⟨w, hw, rfl⟩
  · exact ⟨u, w, rfl⟩
  · rcases List.eq_nil_or_concat w with rfl | ⟨w, d, rfl⟩
    · rw [List.append_nil] at hw
      exact ⟨u, [], by rw [List.append_nil, hw]⟩
    · rw [List.concat_eq_append, ← List.append_assoc, ← List.append_assoc] at hw
      obtain rfl := List.singleton_inj.mp (List.append_inj_right' hw rfl)
      exact absurd (by simp) hc

/-! ### Buffers of a fixed size -/

/-- What is appended as far as there is room leaves the beginning of the whole text. -/
theorem take_append_take (n : Nat) (s t : Text) :
    s.take n ++ t.take (n - (s.take n).length) = (s ++ t).take n := by
  rw [List.take_append, List.length_take]
  congr 2
  omega

end Text
