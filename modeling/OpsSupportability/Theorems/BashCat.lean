import OpsSupportability.BashCat

/-! `bashcat` prints the file as it is, but for the pieces after which the byte that is looked at is a newline:
    they are printed twice. -/

namespace OpsSupportability
namespace BashCat

open Fgets (lines)

/-! ### The array after a read -/

section
variable (line : Line) {chunk : Text} (h : chunk.length ≤ readLineSize - 1)

theorem takeWhile_nul {s : Text} (hnul : nul ∉ s) (rest : Text) :
    (s ++ nul :: rest).takeWhile (· ≠ nul) = s := by
  have hall : ∀ c ∈ s, decide (c ≠ nul) = true := fun c hc => decide_eq_true fun heq => hnul (heq ▸ hc)
  rw [List.takeWhile_append_of_pos hall, List.takeWhile_cons_of_neg (by simp), List.append_nil]

theorem store_text (hnul : nul ∉ chunk) : (line.store chunk h).text = chunk := takeWhile_nul hnul _

theorem store_last_of_full (hfull : chunk.length = readLineSize - 1) :
    (line.store chunk h).last = chunk.getLast? := by
  rw [Line.last, Line.store, List.getElem?_append_left (by rw [hfull]; decide), List.getLast?_eq_getElem?, hfull]
  rfl

theorem store_last_of_next (hnext : chunk.length = readLineSize - 2) : (line.store chunk h).last = some nul := by
  rw [Line.last, Line.store, List.getElem?_append_right (Nat.le_of_eq hnext), hnext, Nat.sub_self]
  rfl

theorem store_last_of_short (hshort : chunk.length < readLineSize - 2) : (line.store chunk h).last = line.last := by
  obtain ⟨k, hk⟩ := Nat.exists_eq_add_of_lt hshort
  rw [Line.last, Line.last, Line.store, List.getElem?_append_right (Nat.le_of_lt hshort), hk,
    show chunk.length + k + 1 - chunk.length = k + 1 by omega, List.getElem?_cons_succ, List.getElem?_drop,
    Nat.add_right_comm]

theorem cut_text : (line.store chunk h).cut.text =
    ((chunk ++ nul :: line.bytes.drop (chunk.length + 1)).set (readLineSize - 2) nul).takeWhile (· ≠ nul) := rfl

theorem cut_text_of_full (hfull : chunk.length = readLineSize - 1) (hnul : nul ∉ chunk) :
    (line.store chunk h).cut.text = chunk.dropLast := by
  rw [cut_text]
  obtain rfl | ⟨body, c, rfl⟩ := chunk.eq_nil_or_concat
  · cases hfull
  · rw [List.concat_eq_append] at hfull hnul ⊢
    have hbody : body.length = readLineSize - 2 := by
      rw [List.length_append, List.length_singleton] at hfull
      exact Nat.succ_injective hfull
    rw [List.dropLast_concat, List.append_assoc, List.set_append_right _ _ (Nat.le_of_eq hbody), hbody, Nat.sub_self]
    exact takeWhile_nul (fun hmem => hnul (List.mem_append_left _ hmem)) _

theorem cut_text_of_short (hshort : chunk.length < readLineSize - 2) (hnul : nul ∉ chunk) :
    (line.store chunk h).cut.text = chunk := by
  obtain ⟨k, hk⟩ := Nat.exists_eq_add_of_lt hshort
  rw [cut_text, List.set_append_right _ _ (Nat.le_of_lt hshort), hk,
    show chunk.length + k + 1 - chunk.length = k + 1 by omega, List.set_cons_succ]
  exact takeWhile_nul hnul _

end

/-! ### What the loop prints -/

section
variable {line : Line} {content : Text}

/-- A piece that is printed twice is longer than the piece. -/
theorem length_cut_text {chunk : Text} (h : chunk.length ≤ readLineSize - 1) (hnul : nul ∉ chunk)
    (hlast : (line.store chunk h).last = some '\n') :
    chunk.length < 2 * (line.store chunk h).cut.text.length + 1 := by
  rcases Nat.lt_trichotomy chunk.length (readLineSize - 2) with hshort | hnext | hlong
  · rw [cut_text_of_short line h hshort hnul]
    omega
  · rw [store_last_of_next line h hnext] at hlast
    cases hlast
  · have hfull : chunk.length = readLineSize - 1 := Nat.le_antisymm h hlong
    rw [cut_text_of_full line h hfull hnul, List.length_dropLast, hfull]
    decide

/-- A round of the loop, for a piece of the file that is printed twice. -/
theorem catLoop_of_twice {c : Char} {s chunk rest : Text} (hread : Fgets.read (readLineSize - 1) (c :: s) = (chunk, rest))
    (h : chunk.length ≤ readLineSize - 1) (hlast : (line.store chunk h).last = some '\n') :
    (catLoop line (c :: s)).flatten =
      (line.store chunk h).cut.text ++ '\n' :: ((line.store chunk h).cut.text ++
        (catLoop (line.store chunk h).cut rest).flatten) := by
  obtain rfl : (Fgets.read (readLineSize - 1) (c :: s)).1 = chunk := congrArg Prod.fst hread
  obtain rfl : (Fgets.read (readLineSize - 1) (c :: s)).2 = rest := congrArg Prod.snd hread
  rw [catLoop, if_pos hlast]
  rfl

theorem catLoop_of_once {c : Char} {s chunk rest : Text} (hread : Fgets.read (readLineSize - 1) (c :: s) = (chunk, rest))
    (h : chunk.length ≤ readLineSize - 1) (hnul : nul ∉ chunk) (hlast : (line.store chunk h).last ≠ some '\n') :
    (catLoop line (c :: s)).flatten = chunk ++ (catLoop (line.store chunk h) rest).flatten := by
  obtain rfl : (Fgets.read (readLineSize - 1) (c :: s)).1 = chunk := congrArg Prod.fst hread
  obtain rfl : (Fgets.read (readLineSize - 1) (c :: s)).2 = rest := congrArg Prod.snd hread
  rw [catLoop, if_neg hlast, List.flatten_cons, store_text line h hnul]

/-- The next piece of a file, and what is left of the file. -/
theorem exists_read {c : Char} {s : Text} (hnul : nul ∉ c :: s) :
    ∃ chunk rest, Fgets.read (readLineSize - 1) (c :: s) = (chunk, rest) ∧ chunk.length ≤ readLineSize - 1 ∧
      c :: s = chunk ++ rest ∧ rest.length < (c :: s).length ∧ nul ∉ chunk ∧ nul ∉ rest := by
  have happend := Fgets.read_append (readLineSize - 1) (c :: s)
  rw [← happend, List.mem_append, not_or] at hnul
  exact ⟨(Fgets.read (readLineSize - 1) (c :: s)).1, (Fgets.read (readLineSize - 1) (c :: s)).2, rfl,
    Fgets.length_read_le _ _, happend.symm, Fgets.length_rest_lt c s, hnul⟩

theorem length_catLoop (line : Line) (hnul : nul ∉ content) :
    content.length ≤ (catLoop line content).flatten.length := by
  induction hlen : content.length using Nat.strong_induction_on generalizing line content with
  | _ n ih =>
    subst hlen
    cases content with
    | nil => exact Nat.zero_le _
    | cons c s =>
      obtain ⟨chunk, rest, hread, h, happend, hlt, hchunk, hrest⟩ := exists_read hnul
      have hlength := congrArg List.length happend
      rw [List.length_append] at hlength
      by_cases hlast : (line.store chunk h).last = some '\n'
      · have htwice := length_cut_text h hchunk hlast
        have := ih rest.length hlt (line.store chunk h).cut hrest rfl
        rw [catLoop_of_twice hread h hlast]
        simp only [List.length_append, List.length_cons] at hlength ⊢
        omega
      · have := ih rest.length hlt (line.store chunk h) hrest rfl
        rw [catLoop_of_once hread h hchunk hlast, List.length_append]
        exact hlength ▸ Nat.add_le_add_left this _

theorem catLoop_ne_of_twice {c : Char} {s chunk rest : Text}
    (hread : Fgets.read (readLineSize - 1) (c :: s) = (chunk, rest)) (h : chunk.length ≤ readLineSize - 1)
    (hnul : nul ∉ c :: s) (hlast : (line.store chunk h).last = some '\n') :
    (catLoop line (c :: s)).flatten ≠ c :: s := by
  obtain ⟨chunk', rest', hread', -, happend, -, hchunk, hrest⟩ := exists_read hnul
  obtain ⟨rfl, rfl⟩ := Prod.mk.inj (hread'.symm.trans hread)
  intro heq
  have hlength := congrArg List.length (heq.trans happend)
  have hmore := length_catLoop (line.store chunk' h).cut hrest
  have htwice := length_cut_text h hchunk hlast
  rw [catLoop_of_twice hread h hlast] at hlength
  simp only [List.length_append, List.length_cons] at hlength
  omega

/-- No line, with its newline, has a length that is a multiple of what a read takes. -/
def Regular (content : Text) : Prop :=
  ∀ l ∈ lines content, l.getLast? = some '\n' → ¬ readLineSize - 1 ∣ l.length

/-- A line without the beginning that has been read is as regular as the line. -/
theorem regular_drop {l : Text} (hlong : readLineSize - 1 < l.length) :
    ((l.drop (readLineSize - 1)).getLast? = some '\n' → ¬ readLineSize - 1 ∣ (l.drop (readLineSize - 1)).length) ↔
      (l.getLast? = some '\n' → ¬ readLineSize - 1 ∣ l.length) := by
  rw [List.getLast?_drop, if_neg (Nat.not_le_of_lt hlong), List.length_drop,
    Nat.dvd_sub_iff_left (Nat.le_of_lt hlong) (Nat.dvd_refl _)]

/-- A line that is read as a whole is irregular if it fills the array. -/
theorem regular_short {l : Text} (hshort : l.length ≤ readLineSize - 1) :
    (l.getLast? = some '\n' → ¬ readLineSize - 1 ∣ l.length) ↔
      ¬ (l.length = readLineSize - 1 ∧ l.getLast? = some '\n') := by
  rw [and_comm, not_and]
  refine imp_congr_right fun hlast => not_congr ⟨fun hdvd => ?_, fun heq => heq ▸ Nat.dvd_refl _⟩
  have hpos : 0 < l.length := List.length_pos_of_ne_nil fun hnil => by
    rw [hnil] at hlast
    cases hlast
  exact Nat.le_antisymm hshort (Nat.le_of_dvd hpos hdvd)

theorem regular_iff {c : Char} {s chunk rest : Text} (hread : Fgets.read (readLineSize - 1) (c :: s) = (chunk, rest)) :
    Regular (c :: s) ↔ ¬ (chunk.length = readLineSize - 1 ∧ chunk.getLast? = some '\n') ∧ Regular rest := by
  cases hlines : lines (c :: s) with
  | nil => exact absurd hlines (Fgets.lines_ne_nil c s)
  | cons l ls =>
    rw [Regular, hlines, List.forall_mem_cons]
    rcases Nat.lt_or_ge (readLineSize - 1) l.length with hlong | hshort
    · obtain ⟨hchunk, hrest⟩ := Fgets.read_of_lt hlines hlong
      rw [hread] at hchunk hrest
      obtain rfl : chunk = l.take (readLineSize - 1) := hchunk
      have hinner : (l.take (readLineSize - 1)).getLast? ≠ some '\n' := fun hlast => by
        refine Fgets.not_mem_dropLast_of_mem_lines (hlines ▸ List.mem_cons_self) ?_
        rw [List.dropLast_eq_take]
        exact List.take_subset_take_left _ (Nat.le_pred_of_lt hlong) (List.mem_of_getLast? hlast)
      rw [Regular, show lines rest = _ from hrest, List.forall_mem_cons, regular_drop hlong]
      exact (and_iff_right fun hand => hinner hand.2).symm
    · obtain ⟨hchunk, hrest⟩ := Fgets.read_of_le hlines hshort
      rw [hread] at hchunk hrest
      obtain rfl : chunk = l := hchunk
      rw [Regular, show lines rest = ls from hrest, regular_short hshort]

/-- What is looked at after a read is of the file, if the byte before was no newline or the piece reaches it. -/
theorem store_last_iff {chunk : Text} (h : chunk.length ≤ readLineSize - 1)
    (hline : line.last ≠ some '\n' ∨ readLineSize - 2 ≤ chunk.length) :
    (line.store chunk h).last = some '\n' ↔ chunk.length = readLineSize - 1 ∧ chunk.getLast? = some '\n' := by
  rcases Nat.lt_trichotomy chunk.length (readLineSize - 2) with hshort | hnext | hlong
  · rw [store_last_of_short line h hshort]
    rcases hline with hline | hlong
    · refine iff_of_false hline fun hand => ?_
      rw [hand.1] at hshort
      exact absurd hshort (by decide)
    · exact absurd hshort (Nat.not_lt_of_le hlong)
  · rw [store_last_of_next line h hnext, hnext]
    exact iff_of_false (by decide) fun hand => absurd hand.1 (by decide)
  · have hfull : chunk.length = readLineSize - 1 := Nat.le_antisymm h hlong
    rw [store_last_of_full line h hfull]
    exact (and_iff_right hfull).symm

/-- A round of the loop, with what is left of the file. -/
theorem catLoop_cons_iff {c : Char} {s chunk rest : Text}
    (hread : Fgets.read (readLineSize - 1) (c :: s) = (chunk, rest)) (h : chunk.length ≤ readLineSize - 1)
    (hnul : nul ∉ c :: s) (hline : line.last ≠ some '\n' ∨ readLineSize - 2 ≤ chunk.length)
    (hrest : ∀ line : Line, line.last ≠ some '\n' → ((catLoop line rest).flatten = rest ↔ Regular rest)) :
    (catLoop line (c :: s)).flatten = c :: s ↔ Regular (c :: s) := by
  obtain ⟨chunk', rest', hread', -, happend, -, hchunk, -⟩ := exists_read hnul
  obtain ⟨rfl, rfl⟩ := Prod.mk.inj (hread'.symm.trans hread)
  rw [regular_iff hread, ← store_last_iff h hline]
  by_cases hlast : (line.store chunk' h).last = some '\n'
  · exact iff_of_false (catLoop_ne_of_twice hread h hnul hlast) fun hand => hand.1 hlast
  · rw [catLoop_of_once hread h hchunk hlast, happend, List.append_cancel_left_eq, and_iff_right hlast]
    exact hrest _ hlast

theorem catLoop_eq_iff (hline : line.last ≠ some '\n') (hnul : nul ∉ content) :
    (catLoop line content).flatten = content ↔ Regular content := by
  induction hlen : content.length using Nat.strong_induction_on generalizing line content with
  | _ n ih =>
    subst hlen
    cases content with
    | nil => exact iff_of_true (by simp [catLoop]) nofun
    | cons c s =>
      obtain ⟨chunk, rest, hread, h, -, hlt, -, hrest⟩ := exists_read hnul
      exact catLoop_cons_iff hread h hnul (.inl hline) fun line hline => ih rest.length hlt hline hrest rfl

/-- A newline that stands in the array before the first read is taken for one of the file, unless the first line
    reaches it. -/
theorem catLoop_eq_iff_of_stale (hline : line.last = some '\n') (hnul : nul ∉ content) :
    (catLoop line content).flatten = content ↔
      Regular content ∧ ∀ l ∈ (lines content).head?, readLineSize - 2 ≤ l.length := by
  cases content with
  | nil => exact iff_of_true (by simp [catLoop]) ⟨nofun, nofun⟩
  | cons c s =>
    obtain ⟨chunk, rest, hread, h, -, -, -, hrest⟩ := exists_read hnul
    have hreach : (∀ l ∈ (lines (c :: s)).head?, readLineSize - 2 ≤ l.length) ↔ readLineSize - 2 ≤ chunk.length := by
      cases hlines : lines (c :: s) with
      | nil => exact absurd hlines (Fgets.lines_ne_nil c s)
      | cons l ls =>
        simp only [List.head?_cons, Option.mem_some_iff, forall_eq']
        rcases Nat.lt_or_ge (readLineSize - 1) l.length with hlong | hshort
        · obtain rfl : chunk = l.take (readLineSize - 1) := by
            rw [← (Fgets.read_of_lt hlines hlong).1, hread]
          rw [List.length_take, Nat.min_eq_left (Nat.le_of_lt hlong)]
          exact iff_of_true (Nat.le_of_succ_le (Nat.le_of_lt hlong)) (by decide)
        · rw [← (Fgets.read_of_le hlines hshort).1, hread]
    rw [hreach]
    rcases Nat.lt_or_ge chunk.length (readLineSize - 2) with hshort | hlong
    · have hlast := (store_last_of_short line h hshort).trans hline
      exact iff_of_false (catLoop_ne_of_twice hread h hnul hlast) fun hand =>
        absurd hand.2 (Nat.not_le_of_lt hshort)
    · rw [and_iff_left hlong]
      exact catLoop_cons_iff hread h hnul (.inr hlong) fun line hline => catLoop_eq_iff hline hrest

end

/-! ### The command -/

section
variable {env : Env} {before between path content : Text}

theorem dropWhile_spaces {spaces s : Text} (hspaces : ∀ c ∈ spaces, Text.isSpace c = true)
    (hs : ∀ c ∈ s.head?, Text.isSpace c = false) : (spaces ++ s).dropWhile Text.isSpace = s := by
  rw [List.dropWhile_append_of_pos hspaces]
  cases s with
  | nil => rfl
  | cons c s => exact List.dropWhile_cons_of_neg (by rw [hs c rfl]; exact Bool.false_ne_true)

/-- What `bashcat FILE` prints. -/
theorem exec_bashCat (line : Line) (hbefore : ∀ c ∈ before, Text.isSpace c = true)
    (hbetween : ∀ c ∈ between, Text.isSpace c = true) (hpath : path ≠ [])
    (hhead : ∀ c ∈ path.head?, Text.isSpace c = false) (hfile : env.readable path = some content) :
    execShowtechCmdOnThread env line (some (before ++ (bashCatCmd ++ (between ++ path)))) =
      (.success, catLoop line content ++ [vtyNewline]) := by
  have htrim : (before ++ (bashCatCmd ++ (between ++ path))).dropWhile Text.isSpace =
      bashCatCmd ++ (between ++ path) := dropWhile_spaces hbefore fun c hc => by
    rw [← Option.mem_some.mp hc]
    decide
  have hcmd : bashCatCmd ++ (between ++ path) ≠ [] := List.append_ne_nil_of_left_ne_nil (by decide) _
  dsimp only [execShowtechCmdOnThread]
  rw [htrim, if_neg hcmd, List.take_left, if_pos rfl, List.drop_left, dropWhile_spaces hbetween hhead, if_neg hpath,
    hfile]

/-- The file is printed as it is, for whatever the array holds before the first read, just when no line fills
    the array up to its end and a newline in the array is not taken for one of the file. -/
theorem bashCat_faithful_iff (env : Env) (line : Line) (before between path content : Text)
    (hbefore : ∀ c ∈ before, Text.isSpace c = true) (hbetween : ∀ c ∈ between, Text.isSpace c = true)
    (hpath : path ≠ []) (hhead : ∀ c ∈ path.head?, Text.isSpace c = false)
    (hfile : env.readable path = some content) (hnul : nul ∉ content) :
    (execShowtechCmdOnThread env line (some (before ++ (bashCatCmd ++ (between ++ path))))).2.flatten =
        content ++ ['\n'] ↔
      Regular content ∧ (line.last = some '\n' → ∀ l ∈ (lines content).head?, readLineSize - 2 ≤ l.length) := by
  rw [exec_bashCat line hbefore hbetween hpath hhead hfile, List.flatten_append]
  change (catLoop line content).flatten ++ vtyNewline = content ++ vtyNewline ↔ _
  rw [List.append_left_inj]
  by_cases hline : line.last = some '\n'
  · rw [catLoop_eq_iff_of_stale hline hnul]
    exact and_congr_right fun _ => ⟨fun h _ => h, fun h => h hline⟩
  · rw [catLoop_eq_iff hline hnul]
    exact (and_iff_left fun h => absurd h hline).symm

end

/-! ### Two files -/

def zeroLine : Line := ⟨List.replicate readLineSize nul, List.length_replicate⟩

def oneFile (content : Text) : Env := ⟨fun _ => some content, fun _ => (.success, [])⟩

theorem readable_oneFile (content path : Text) : (oneFile content).readable path = some content := rfl

theorem head_f : ∀ c ∈ (['f'] : Text).head?, Text.isSpace c = false := fun c hc => by
  obtain rfl := Option.some.inj hc
  rfl

theorem zeroLine_last : zeroLine.last ≠ some '\n' := by decide +kernel

def shortContent : Text := ['a', '\n', 'b']

theorem shortContent_printed :
    (execShowtechCmdOnThread (oneFile shortContent) zeroLine (some ([] ++ (bashCatCmd ++ ([' '] ++ ['f']))))).2.flatten =
      shortContent ++ ['\n'] :=
  (bashCat_faithful_iff (oneFile shortContent) zeroLine [] [' '] ['f'] shortContent (by decide) (by decide) (by decide)
    head_f (readable_oneFile _ _) (by decide)).mpr
      ⟨fun l hl hlast hdvd => absurd (Nat.le_of_dvd (List.length_pos_of_mem (List.mem_of_getLast? hlast)) hdvd)
        (Nat.not_le_of_lt ((show ∀ l ∈ lines shortContent, l.length < readLineSize - 1 by decide) l hl)),
        fun h => absurd h zeroLine_last⟩

/-- A line that fills the array. -/
def fullContent : Text := List.replicate 254 'a' ++ ['\n']

theorem fullContent_printedTwice :
    ¬ (execShowtechCmdOnThread (oneFile fullContent) zeroLine (some ([] ++ (bashCatCmd ++ ([' '] ++ ['f']))))).2.flatten =
      fullContent ++ ['\n'] := by
  intro h
  rw [exec_bashCat zeroLine (by decide) (by decide) (by decide) head_f (readable_oneFile _ _),
    List.flatten_append] at h
  have hcat : (catLoop zeroLine fullContent).flatten = fullContent := (List.append_left_inj vtyNewline).mp h
  have hregular := (catLoop_eq_iff zeroLine_last (by decide +kernel)).mp hcat
  exact hregular fullContent (by decide +kernel) (by decide +kernel) (by decide +kernel)

end BashCat
end OpsSupportability
