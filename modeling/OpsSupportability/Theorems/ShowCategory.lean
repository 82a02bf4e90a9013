import OpsSupportability.Theorems.ShowEvents

/-! Showing the events of a category: the word that the installed command offers for a category, the match
    made of that word, and the category that an event was logged with. -/

namespace OpsSupportability
namespace ShowEvents

open EventLog Printf

/-! ### The words of the command -/

theorem strnupr_strnlwr (s : Text) : strnupr (strnlwr s) = strnupr s := by
  unfold strnupr strnlwr
  rw [List.map_map]
  exact List.map_congr_left fun c _ => Text.toUpper_toLower c

theorem alternatives_helpLine (key : Text) (s : Install) : (s.helpLine key).alternatives = s.alternatives := by
  unfold Install.helpLine
  split <;> rfl

theorem alternatives_skip (s : Install) : s.skip.alternatives = s.alternatives := by
  unfold Install.skip
  split <;> rfl

theorem mem_alternatives_addCategory {key : Text} {s : Install} {pair : Text × Text}
    (h : pair ∈ (s.addCategory key).alternatives) :
    pair ∈ s.alternatives ∨ ∃ n, pair.2 = (strnlwr pair.1).take n := by
  unfold Install.addCategory at h
  split at h
  · rcases List.mem_append.mp h with h | h
    · exact Or.inl h
    · obtain rfl := List.mem_singleton.mp h
      exact Or.inr ⟨_, rfl⟩
  · exact Or.inl h

theorem mem_alternatives_scalar {key : Text} {s : Install} {pair : Text × Text}
    (h : pair ∈ (s.scalar key).1.alternatives) :
    pair ∈ s.alternatives ∨ ∃ n, pair.2 = (strnlwr pair.1).take n := by
  have hadd : (s.scalar key).1.alternatives = ((s.helpLine key).skip.addCategory key).alternatives := by
    unfold Install.scalar
    generalize (if s.found then strnlwr key else key) = word
    dsimp only
    split
    · rfl
    · split <;> rfl
  rw [hadd] at h
  have := mem_alternatives_addCategory h
  rwa [alternatives_skip, alternatives_helpLine] at this

theorem mem_alternatives_scalars {keys : List Text} {s : Install} {pair : Text × Text}
    (h : pair ∈ (Install.scalars keys s).1.alternatives) :
    pair ∈ s.alternatives ∨ ∃ n, pair.2 = (strnlwr pair.1).take n := by
  induction keys generalizing s with
  | nil => exact Or.inl h
  | cons key keys ih =>
    have hstep : pair ∈ (s.scalar key).1.alternatives → _ := mem_alternatives_scalar
    rw [Install.scalars] at h
    split at h
    · next s' heq =>
      rw [heq] at hstep
      exact hstep h
    · next s' heq =>
      rw [heq] at hstep
      rcases ih h with hmem | hword
      · exact hstep hmem
      · exact Or.inr hword

/-- The word of a category is the start of its lower-cased text: the buffer of the command may be full. -/
theorem word_of_category {doc : Text} {scalars : List Text} {category word : Text}
    (h : (category, word) ∈ (installShowEvnts doc scalars).alternatives) : ∃ n, word = (strnlwr category).take n := by
  have hmem : (category, word) ∈ (Install.scalars scalars (Install.init doc)).1.alternatives := by
    unfold installShowEvnts at h
    split at h
    next s exit heq =>
    rw [heq]
    split at h
    · cases h
    · split at h
      · exact h
      · cases h
  rcases mem_alternatives_scalars hmem with hnil | hword
  · cases hnil
  · exact hword

/-! ### The match made of a word -/

def matchWord (word : Text) : Text := (strnupr word).take 80

theorem journalFilter_category (word : Text) :
    argFilter eventCategoryIndex (some word) = some [categoryField (matchWord word)] := by
  have hname : "OPS_EVENT_CATEGORY=".toList.length = 19 := by simp
  have hsnprintf : snprintf ("OPS_EVENT_CATEGORY=".toList ++ strnupr word) = categoryField (matchWord word) := by
    rw [snprintf, List.take_append, List.take_of_length_le (by rw [hname]; decide), hname]
    rfl
  rw [argFilter, journalFilter, if_neg (by decide)]
  simp only [hsnprintf, if_neg (show eventCategoryIndex ≠ eventSeverityIndex by decide), if_true]

/-- The category has no lower-case letters and fits, with its match and as a word of the command. -/
structure Restores (category word : Text) : Prop where
  upper : strnupr category = category
  length : category.length ≤ 80
  word : word = strnlwr category

theorem matchWord_eq_iff {category word : Text} {n : Nat} (hword : word = (strnlwr category).take n) :
    matchWord word = category ↔ Restores category word := by
  have hmatch : matchWord word = ((strnupr category).take n).take 80 := by
    rw [hword, matchWord, strnupr, List.map_take, ← strnupr, strnupr_strnlwr]
  have hlen : (strnupr category).length = category.length := List.length_map _
  constructor
  · intro h
    rw [hmatch] at h
    have hall : min 80 (min n category.length) = category.length := by
      have := congrArg List.length h
      rwa [List.length_take, List.length_take, hlen] at this
    have hn : category.length ≤ n := by omega
    have h80 : category.length ≤ 80 := by omega
    refine ⟨?_, h80, ?_⟩
    · rwa [List.take_of_length_le (by rw [List.length_take]; omega), List.take_of_length_le (by omega)] at h
    · rw [hword, List.take_of_length_le]
      rwa [strnlwr, List.length_map]
  · rintro ⟨hupper, hlength, rfl⟩
    rw [matchWord, strnupr_strnlwr, hupper, List.take_of_length_le hlength]

/-! ### One entry -/

/-- The pairs of the entry read like the match. -/
def Stray (F : Formatter) (word : Text) (r : Record) : Prop := r.origin.PairsRead F (categoryField (matchWord word))

/-- An event of the category is found by the match made of the word, and no other event is. -/
structure Read (F : Formatter) (category word : Text) (r : Record) : Prop where
  found : r.origin.category? = some category → (Restores category word ∧ r.origin.taken F ≤ 2) ∨ Stray F word r
  apart : ∀ own, r.origin.category? = some own → own ≠ category →
    (own = matchWord word → 2 < r.origin.taken F) ∧ ¬ Stray F word r

section
variable {journald : Journald} {F : Formatter} {r : Record} {id : Int} {severity category own word : Text}

theorem matched_category (fields : List Text) :
    journald.matched [messageOpsEvtMatch, categoryField (matchWord word)] fields = true ↔
      messageOpsEvtMatch ∈ fields ∧ categoryField (matchWord word) ∈ fields := by
  have hne : fieldName (categoryField (matchWord word)) ≠ fieldName messageOpsEvtMatch := by
    rw [fieldName_categoryField, fieldName_mark]
    simp
  rw [journald.matched_iff]
  simp [hne, hne.symm]

theorem visited_iff (h : Tells F r id severity own) :
    journald.matched [messageOpsEvtMatch, categoryField (matchWord word)] r.fields = true ↔
      (own = matchWord word ∧ r.origin.taken F ≤ 2) ∨ Stray F word r := by
  rw [matched_category, Stray]
  constructor
  · rintro ⟨hmark, hfield⟩
    exact ((h.category hmark _).mp hfield).imp_left fun hsame => ⟨hsame.2.symm, hsame.1⟩
  · rintro (⟨rfl, htaken⟩ | hread)
    · have hmark := h.early htaken
      exact ⟨hmark, (h.category hmark _).mpr (Or.inl ⟨htaken, rfl⟩)⟩
    · obtain ⟨rest, hrest, htexts⟩ := hread
      have hmark := h.mark.mpr (Option.isSome_of_eq_some hrest)
      exact ⟨hmark, (h.category hmark _).mpr (Or.inr ⟨rest, hrest, htexts⟩)⟩

/-- Only a match with a comma can be read in pairs. -/
theorem comma_of_stray (h : Tells F r id severity own) (hstray : Stray F word r) : ',' ∈ matchWord word := by
  by_contra hcomma
  exact not_pairsField (by simp) hcomma (by simp) (h.pairs _ hstray)

theorem agree_iff_read (h : Wrote F r) {n : Nat} (hword : word = (strnlwr category).take n) :
    journald.matched [messageOpsEvtMatch, categoryField (matchWord word)] r.fields = (r.origin.category? == some category) ↔
      Read F category word r := by
  rcases h.tells with ⟨horigin, hmark⟩ | ⟨id, severity, own, -, -, hown, htells⟩
  · have hcategory : r.origin.category? = none := by rw [horigin]; rfl
    have hmatched : journald.matched [messageOpsEvtMatch, categoryField (matchWord word)] r.fields = false :=
      Bool.eq_false_iff.mpr fun h => hmark ((matched_category _).mp h).1
    rw [hmatched, hcategory]
    refine iff_of_true rfl ⟨fun h => ?_, fun own h => ?_⟩
    · exact absurd (hcategory.symm.trans h) nofun
    · exact absurd (hcategory.symm.trans h) nofun
  · rw [Bool.eq_iff_iff, visited_iff htells, hown, beq_iff_eq, Option.some.injEq]
    constructor
    · intro hiff
      refine ⟨fun hcategory => ?_, fun own' hown' hne => ?_⟩
      · obtain rfl := Option.some.inj (hown.symm.trans hcategory)
        rcases hiff.mpr rfl with ⟨hsame, htaken⟩ | hstray
        · exact Or.inl ⟨(matchWord_eq_iff hword).mp hsame.symm, htaken⟩
        · exact Or.inr hstray
      · obtain rfl := Option.some.inj (hown.symm.trans hown')
        refine ⟨fun hsame => ?_, fun hstray => hne (hiff.mp (Or.inr hstray))⟩
        by_contra htaken
        exact hne (hiff.mp (Or.inl ⟨hsame, Nat.le_of_not_lt htaken⟩))
    · intro hread
      constructor
      · intro hvisited
        by_contra hne
        obtain ⟨hsame, hstray⟩ := hread.apart own hown hne
        rcases hvisited with ⟨heq, htaken⟩ | hvisited
        · exact absurd (hsame heq) (Nat.not_lt_of_le htaken)
        · exact hstray hvisited
      · rintro rfl
        rcases hread.found hown with ⟨hrestores, htaken⟩ | hstray
        · exact Or.inl ⟨((matchWord_eq_iff hword).mpr hrestores).symm, htaken⟩
        · exact Or.inr hstray

end

/-! ### The command -/

def categoryArgs (word : Text) : Args := ⟨none, none, false, some word⟩

/-- The command succeeds and shows exactly the events of the category. -/
structure Selects (env : Env) (journal : List Record) (category word : Text) : Prop where
  status : (cliPlatformShowEvents env journal (categoryArgs word)).status = .success
  entries : (cliPlatformShowEvents env journal (categoryArgs word)).entries.map Prod.fst =
    journal.filter fun r => r.origin.category? == some category

theorem cliPlatformShowEvents_category (env : Env) (journal : List Record) (word : Text) :
    cliPlatformShowEvents env journal (categoryArgs word) = cliShowEvents env
      (journal.filter fun r => env.matched [messageOpsEvtMatch, categoryField (matchWord word)] r.fields) false true := by
  have hcategory : argFilter eventCategoryIndex (categoryArgs word).category =
      some [categoryField (matchWord word)] := journalFilter_category word
  rw [cliPlatformShowEvents, if_neg (show (categoryArgs word).eventIds ≠ some [] by rintro ⟨⟩), hcategory]
  rfl

/-- The alternative that the command offers for a category selects exactly its events when each event of the
    journal is read back. -/
theorem selects_iff_read {F : Formatter} {journal : List Record} (h : Written F journal) {doc : Text}
    {scalars : List Text} {category word : Text}
    (hword : (category, word) ∈ (installShowEvnts doc scalars).alternatives) (env : Env) :
    Selects env journal category word ↔ ∀ r ∈ journal, Read F category word r := by
  obtain ⟨n, hn⟩ := word_of_category hword
  have hentries : (cliPlatformShowEvents env journal (categoryArgs word)).entries.map Prod.fst =
      journal.filter fun r => env.matched [messageOpsEvtMatch, categoryField (matchWord word)] r.fields := by
    rw [cliPlatformShowEvents_category, entries_cliShowEvents]
    rfl
  have hfilter : (journal.filter fun r => env.matched [messageOpsEvtMatch, categoryField (matchWord word)] r.fields) =
      (journal.filter fun r => r.origin.category? == some category) ↔ ∀ r ∈ journal, Read F category word r := by
    rw [filter_eq_filter_iff]
    exact forall₂_congr fun r hr => agree_iff_read (h.wrote r hr) hn
  rw [← hfilter]
  constructor
  · intro hselects
    exact hentries.symm.trans hselects.entries
  · intro heq
    refine ⟨by rw [cliPlatformShowEvents_category]; rfl, ?_⟩
    rw [hentries, heq]

/-! ### Two shipped categories -/

/-- The scalars of the file, with two of its categories. -/
def categoryScalars : List Text :=
  ["categories".toList, "event_category".toList, "FAN".toList, "description".toList, "Events related to FAN".toList,
    "category_rank".toList, "2".toList, "event_category".toList, "OSPFv2".toList, "description".toList,
    "Events related to OSPFv2".toList, "category_rank".toList, "11".toList, "event_definitions".toList]

theorem alternatives_categoryScalars : (installShowEvnts [] categoryScalars).alternatives =
    [("FAN".toList, "fan".toList), ("OSPFv2".toList, "ospfv2".toList)] := by decide +kernel

theorem selects_iff_read_fan : Selects noClock fanAndCrash "FAN".toList "fan".toList := by
  have hword : ("FAN".toList, "fan".toList) ∈ (installShowEvnts [] categoryScalars).alternatives := by
    rw [alternatives_categoryScalars]
    exact List.mem_cons_self
  refine (selects_iff_read written_fanAndCrash hword noClock).mpr ?_
  have hrestores : Restores "FAN".toList "fan".toList := ⟨by decide +kernel, by decide +kernel, by decide +kernel⟩
  intro r hr
  rcases List.mem_pair.mp hr with rfl | rfl
  · refine ⟨fun _ => Or.inl ⟨hrestores, by decide +kernel⟩, fun own hown hne => ?_⟩
    exact absurd (Option.some.inj hown).symm hne
  · refine ⟨fun hcategory => absurd hcategory (by decide +kernel), fun own hown hne => ?_⟩
    obtain rfl := Option.some.inj hown
    refine ⟨fun hsame => absurd hsame (by decide +kernel), ?_⟩
    rintro ⟨rest, hrest, htexts⟩
    obtain rfl := Option.some.inj hrest
    cases htexts

/-- OSPFv2_ROUTER_ID as shipped. -/
def routerIdEvent : Event where
  category := "OSPFv2".toList
  eventId := 11003
  eventName := "OSPFv2_ROUTER_ID".toList
  severity := "LOG_INFO".toList
  numOfKeys := 2
  eventDescription := "Router-id  updated from \x7bold\x7d to \x7bnew\x7d".toList

def routerIdSent : Sent :=
  .event "MESSAGE=ops-evt|11003|LOG_INFO|Router-id  updated from 10.0.0.1 to 10.0.0.2".toList 6 11003 "OSPFv2".toList
    (some "old=10.0.0.1,new=10.0.0.2,".toList)

def routerIdFields : List Text :=
  ["MESSAGE=ops-evt|11003|LOG_INFO|Router-id  updated from 10.0.0.1 to 10.0.0.2".toList, "PRIORITY=6".toList,
    messageOpsEvtMatch, "OPS_EVENT_ID=11003".toList, "OPS_EVENT_CATEGORY=OSPFv2".toList,
    "old=10.0.0.1,new=10.0.0.2,".toList]

def routerIdRecord : Record :=
  ⟨.c routerIdEvent routerIdSent,
    routerIdFields ++ Stamp.fields ⟨some "ops-ospfd".toList, some "1467360000000000".toList⟩⟩

theorem wrote_routerIdRecord : Wrote Printf.basic routerIdRecord := by
  have hlookup : lookup "OSPFv2_ROUTER_ID".toList (some fun _ => routerIdEvent) = some 0 := by decide +kernel
  have hlog : logEvent (fun _ => 0) 3 (some fun _ => routerIdEvent) "OSPFv2_ROUTER_ID".toList
      [some "old=10.0.0.1".toList, some "new=10.0.0.2".toList] [] =
        .ok ⟨0, some routerIdSent, "Router-id  updated from 10.0.0.1 to 10.0.0.2".toList⟩ := by decide +kernel
  have hfields : Printf.basic.texts routerIdSent.arguments = some routerIdFields := by decide +kernel
  exact Wrote.c _ hlookup hlog rfl rfl hfields

/-- The event of OSPFv2 is not among those of its alternative: the match is made of OSPFV2. -/
theorem ospfv2_not_selected :
    ("OSPFv2".toList, "ospfv2".toList) ∈ (installShowEvnts [] categoryScalars).alternatives ∧
      Written Printf.basic [routerIdRecord] ∧
      ¬ Selects noClock [routerIdRecord] "OSPFv2".toList "ospfv2".toList := by
  refine ⟨?_, .append .empty wrote_routerIdRecord, fun h => absurd h.entries ?_⟩
  · rw [alternatives_categoryScalars]
    exact List.mem_cons_of_mem _ List.mem_cons_self
  · decide +kernel

end ShowEvents
end OpsSupportability
