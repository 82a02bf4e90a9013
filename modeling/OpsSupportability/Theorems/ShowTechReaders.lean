import OpsSupportability.Theorems.ShowTech
import OpsSupportability.Theorems.ShowTechDocument
import OpsSupportability.Theorems.SupportabilityVty

/-! The two readers of the file of `show tech`: `install_show_tech`, which offers the features, and the parser, whose
    features `cli_show_tech` accepts. -/

namespace OpsSupportability
namespace ShowTechConfig

open FeatureMapping (Document)
open Sections
open ShowTech (Feature Env Shown showSelected showNamedFeature named)
open SupportabilityVty (offered showTechOffer installShowTech featureNameKey maxHelpSize)

/-! ### Scalars and items -/

/-- The item that a scalar is, if it is one. -/
def itemOf (state : Key) (data : Text) : Option Item :=
  match getValueType data with
  | .value => some (.value state data)
  | .feature => some .feature
  | .subFeature => some .subFeature
  | .table => some .table
  | _ => none

def nextState (state : Key) (data : Text) : Key :=
  match getValueType data with
  | .value => state
  | key => key

theorem items_cons (state : Key) (data : Text) (l : List Text) :
    items state (data :: l) = (itemOf state data).toList ++ items (nextState state data) l := by
  rw [items, itemOf, nextState]
  cases getValueType data <;> rfl

theorem items_append (state : Key) (l l' : List Text) :
    items state (l ++ l') = items state l ++ items (l.foldl nextState state) l' := by
  induction l generalizing state with
  | nil => rfl
  | cons data l ih => rw [List.cons_append, items_cons, items_cons, ih, List.append_assoc, List.foldl_cons]

theorem getValueType_keystr {key : Key} (h : key ∈ keywords) : getValueType (keystr key) = key := by
  cases key with
  | value => exact absurd h (by decide)
  | _ => decide +kernel

theorem eq_keystr {data : Text} {key : Key} (hkey : key ≠ .value) (h : getValueType data = key) :
    data = keystr key := by
  rw [getValueType] at h
  cases hfind : keywords.find? fun k => keystr k == data with
  | none =>
    rw [hfind] at h
    exact absurd h.symm hkey
  | some k =>
    rw [hfind] at h
    obtain rfl : k = key := h
    have hmatch : (keystr k == data) = true := List.find?_some (p := fun k => keystr k == data) hfind
    exact (beq_iff_eq.mp hmatch).symm

theorem items_feature (state : Key) (l : List Text) :
    items state (keystr .feature :: l) = .feature :: items .feature l := by
  have htype : getValueType (keystr .feature) = .feature := getValueType_keystr (by decide)
  rw [items_cons, itemOf, nextState, htype]
  rfl

theorem items_value {data : Text} (h : getValueType data = .value) (state : Key) (l : List Text) :
    items state (data :: l) = .value state data :: items state l := by
  rw [items_cons, itemOf, nextState, h]
  rfl

/-- A key that makes no item. -/
theorem items_key {key : Key} (h : key = .featureName ∨ key = .featureDesc) (state : Key) (l : List Text) :
    items state (keystr key :: l) = items key l := by
  have htype : getValueType (keystr key) = key := getValueType_keystr (by rcases h with rfl | rfl <;> decide)
  rw [items_cons, itemOf, nextState, htype]
  rcases h with rfl | rfl <;> rfl

/-- Nothing is read in a state whose key does not come. -/
theorem values_items_eq_nil {key state : Key} (hkey : key ≠ .value) (hstate : state ≠ key) {l : List Text}
    (hl : keystr key ∉ l) : values key (items state l) = [] := by
  induction l generalizing state with
  | nil => rfl
  | cons data l ih =>
    obtain ⟨hdata, hl⟩ := not_or.mp (fun h => hl (List.mem_cons.mpr h))
    have hnext : nextState state data ≠ key := by
      rw [nextState]
      split
      · exact hstate
      · exact fun h => hdata (eq_keystr hkey h).symm
    have hitem : (itemOf state data).toList.filterMap (valueOf key) = [] := by
      rw [itemOf]
      cases getValueType data with
      | value => simp [valueOf, hstate]
      | _ => rfl
    rw [items_cons, values, List.filterMap_append, hitem, List.nil_append]
    exact ih hnext hl

/-! ### The documents -/

/-- A feature in the file: its description, its name, and the scalars behind them. -/
structure Entry where
  desc : Text
  name : Text
  rest : List Text
  desc_value : getValueType desc = .value
  name_value : getValueType name = .value
  desc_short : desc.length < maxHelpSize
  rest_keyword : ∀ data ∈ rest.head?, ∃ key ∈ keywords, data = keystr key
  rest_feature : keystr .feature ∉ rest
  rest_featureName : keystr .featureName ∉ rest

def Entry.scalars (e : Entry) : List Text :=
  keystr .feature :: keystr .featureDesc :: e.desc :: keystr .featureName :: e.name :: e.rest

/-- The items of an entry behind its `feature`. -/
def Entry.body (e : Entry) : List Item :=
  .value .featureDesc e.desc :: .value .featureName e.name :: items .featureName e.rest

theorem items_entries (entries : List Entry) (state : Key) :
    items state (entries.flatMap Entry.scalars) = entries.flatMap fun e => .feature :: e.body := by
  induction entries generalizing state with
  | nil => rfl
  | cons e entries ih =>
    rw [List.flatMap_cons, Entry.scalars, List.cons_append, items_feature, List.cons_append, items_key (.inr rfl),
      List.cons_append, items_value e.desc_value, List.cons_append, items_key (.inl rfl), List.cons_append,
      items_value e.name_value, items_append, ih, List.flatMap_cons]
    rfl

theorem feature_notMem_items {l : List Text} (hl : keystr .feature ∉ l) (state : Key) : .feature ∉ items state l := by
  induction l generalizing state with
  | nil => exact List.not_mem_nil
  | cons data l ih =>
    obtain ⟨hdata, hl⟩ := not_or.mp (fun h => hl (List.mem_cons.mpr h))
    rw [items_cons, List.mem_append, not_or]
    refine ⟨fun h => ?_, ih hl _⟩
    have hitem : itemOf state data = some .feature := Option.mem_toList.mp h
    rw [itemOf] at hitem
    cases htype : getValueType data with
    | feature => exact hdata (eq_keystr (by decide) htype).symm
    | _ =>
      rw [htype] at hitem
      cases hitem

/-- The parser returns a feature for each entry. -/
theorem configuration_entries (entries : List Entry) (state : Key) :
    configuration (items state (entries.flatMap Entry.scalars)) = entries.map fun e => featureOf e.body := by
  have hbody : ∀ e : Entry, ∀ i ∈ e.body, featureMark i = none := fun e i hi => by
    refine if_neg fun hfeature => ?_
    subst hfeature
    rcases List.mem_cons.mp hi with hi | hi
    · cases hi
    · rcases List.mem_cons.mp hi with hi | hi
      · cases hi
      · exact feature_notMem_items e.rest_feature _ hi
  have hsections : sections featureMark (entries.flatMap fun e => .feature :: e.body) =
      ([], entries.map fun e => ((), e.body)) :=
    @sections_flatMap Item Unit Entry featureMark (fun _ => .feature) (fun _ => ()) Entry.body (fun _ => rfl) hbody
      entries
  rw [configuration, items_entries, hsections, List.map_map]
  rfl

/-- The rest of an entry begins with a key, and so reads no name. -/
theorem Entry.name_eq (e : Entry) : (featureOf e.body).name = some e.name := by
  have hrest : values .featureName (items .featureName e.rest) = [] := by
    cases hr : e.rest with
    | nil => rfl
    | cons data rest =>
      obtain ⟨key, hkey, hdata⟩ := e.rest_keyword data (by rw [hr]; rfl)
      have hnot := e.rest_featureName
      rw [hr] at hnot
      obtain ⟨hhead, hrest⟩ := not_or.mp (fun h => hnot (List.mem_cons.mpr h))
      subst hdata
      have htype := getValueType_keystr hkey
      have hne : nextState .featureName (keystr key) ≠ .featureName := by
        rw [nextState, htype]
        intro h
        cases key with
        | featureName => exact hhead rfl
        | value => exact absurd hkey (by decide)
        | _ => cases h
      have hitem : (itemOf .featureName (keystr key)).toList.filterMap (valueOf .featureName) = [] := by
        rw [itemOf, htype]
        cases key with
        | value => exact absurd hkey (by decide)
        | _ => rfl
      rw [items_cons, values, List.filterMap_append, hitem, List.nil_append]
      exact values_items_eq_nil (by decide) hne hrest
  have hvalues : values .featureName e.body = e.name :: values .featureName (items .featureName e.rest) := rfl
  rw [featureOf, hvalues, hrest]
  rfl

/-- No value of the rest is read as a description. -/
def Entry.DescribedOnce (e : Entry) : Prop := values .featureDesc (items .featureName e.rest) = []

theorem Entry.desc_eq {e : Entry} (h : e.DescribedOnce) : (featureOf e.body).desc = some e.desc := by
  have hvalues : values .featureDesc e.body = e.desc :: values .featureDesc (items .featureName e.rest) := rfl
  rw [featureOf, hvalues, h]
  rfl

/-! ### The installer -/

theorem ne_featureNameKey {data : Text} (h : getValueType data ≠ .featureName) : data ≠ featureNameKey := by
  rintro rfl
  have htype : getValueType (keystr .featureName) = .featureName := getValueType_keystr (by decide)
  exact h htype

theorem offered_rest {rest : List Text} (h : featureNameKey ∉ rest) (prev : Text) (l : List Text) :
    ∃ prev', offered prev none (rest ++ l) = offered prev' none l := by
  induction rest generalizing prev with
  | nil => exact ⟨prev, rfl⟩
  | cons data rest ih =>
    obtain ⟨hdata, hrest⟩ := not_or.mp (fun hmem => h (List.mem_cons.mpr hmem))
    obtain ⟨prev', hprev'⟩ := ih hrest data
    refine ⟨prev', ?_⟩
    rw [List.cons_append, offered, if_neg fun he => hdata he.symm]
    exact hprev'

/-- The installer offers the name of each entry, with the description in front of it. -/
theorem offered_entries (entries : List Entry) (prev : Text) :
    offered prev none (entries.flatMap Entry.scalars) = entries.map fun e => (e.name, e.desc) := by
  induction entries generalizing prev with
  | nil => rfl
  | cons e entries ih =>
    have hfeature : keystr .feature ≠ featureNameKey := ne_featureNameKey (by decide +kernel)
    have hdescKey : keystr .featureDesc ≠ featureNameKey := ne_featureNameKey (by decide +kernel)
    have hdesc : e.desc ≠ featureNameKey := ne_featureNameKey (by rw [e.desc_value]; decide)
    have hname : e.name ≠ featureNameKey := ne_featureNameKey (by rw [e.name_value]; decide)
    obtain ⟨prev', hrest⟩ := offered_rest e.rest_featureName e.name (entries.flatMap Entry.scalars)
    have hkey : keystr .featureName = featureNameKey := rfl
    rw [List.flatMap_cons, Entry.scalars]
    simp only [List.cons_append]
    rw [offered, if_neg hfeature, offered, if_neg hdescKey, offered, if_neg hdesc, offered, if_pos hkey, offered,
      if_neg hname, hrest, ih, List.map_cons]
    rfl

/-! ### Agreement -/

/-- `cli_show_tech` finds the feature. -/
def Accepts (head : List Feature) (name : Text) : Prop :=
  ∀ env : Env, ∀ s : Shown, showSelected env head (some name) none s ≠ none

theorem accepts_of_mem {head : List Feature} {f : Feature} {name : Text} (hf : f ∈ head) (hname : f.name = some name) :
    Accepts head name := fun env s hnone => by
  have hsearch : Loop.firstOf (showNamedFeature env name) head s = none := hnone
  have hmissed := Loop.firstOf_eq_none.mp hsearch f hf
  rw [showNamedFeature, named, hname, if_pos (beq_self_eq_true _)] at hmissed
  cases hmissed

/-- What the readers make of one document. -/
structure Agree (entries : List Entry) (techDoc : Text) (doc : Document) : Prop where
  /-- The command offers the names of the features, in order. -/
  names : (offered [] none doc.scalars).map (fun a => some a.1) =
    (getShowtechConfig (some doc) .empty).config.map (·.name)
  element : (installShowTech techDoc (some doc.scalars)).element = some
    ((showTechOffer techDoc).cmd ((offered [] none doc.scalars).map (·.1)),
      (showTechOffer techDoc).help ((offered [] none doc.scalars).map (·.2)))
  /-- Its help lines are the descriptions, where the parser reads only one for each feature. -/
  descs : (∀ e ∈ entries, e.DescribedOnce) → (offered [] none doc.scalars).map (fun a => some a.2) =
    (getShowtechConfig (some doc) .empty).config.map (·.desc)
  accepts : ∀ a ∈ offered [] none doc.scalars, Accepts (getShowtechConfig (some doc) .empty).config a.1

theorem readers_agree {entries : List Entry} {doc : Document} (hdoc : doc.scalars = entries.flatMap Entry.scalars)
    (haccepted : ¬ Refused doc) {techDoc : Text}
    (hfits : (showTechOffer techDoc).Fits (entries.map (·.name)) (entries.map (·.desc))) :
    Agree entries techDoc doc := by
  have hoffered : offered [] none doc.scalars = entries.map fun e => (e.name, e.desc) := by
    rw [hdoc, offered_entries]
  have hconfig : (getShowtechConfig (some doc) .empty).config = entries.map fun e => featureOf e.body := by
    have hparsed := ((parse_complete doc).2 haccepted).2.same
    rw [hdoc, configuration_entries] at hparsed
    exact hparsed
  have hnames : (offered [] none doc.scalars).map (·.1) = entries.map (·.name) := by
    rw [hoffered, List.map_map]
    rfl
  have hlines : (offered [] none doc.scalars).map (·.2) = entries.map (·.desc) := by
    rw [hoffered, List.map_map]
    rfl
  have hsome : offered [] none doc.scalars ≠ [] := fun hnil => by
    have hentries : entries = [] := List.map_eq_nil_iff.mp (hoffered.symm.trans hnil)
    rw [hentries] at hdoc
    refine haccepted (.inr (.inr ?_))
    rw [hdoc]
    exact List.not_mem_nil
  refine ⟨?_, ?_, fun honce => ?_, fun a ha => ?_⟩
  · rw [hoffered, hconfig, List.map_map, List.map_map]
    exact List.map_congr_left fun e _ => e.name_eq.symm
  · have hroom : (showTechOffer techDoc).Fits ((offered [] none doc.scalars).map (·.1))
        ((offered [] none doc.scalars).map (·.2)) := by
      rw [hnames, hlines]
      exact hfits
    have hshort : ∀ a ∈ offered [] none doc.scalars, a.2.length < maxHelpSize := fun a ha => by
      rw [hoffered] at ha
      obtain ⟨e, -, rfl⟩ := List.mem_map.mp ha
      exact e.desc_short
    exact ((SupportabilityVty.installShowTech_iff techDoc doc.scalars).mpr (.inr ⟨hroom, hshort⟩)).trans
      (if_pos ⟨fun hnil => hsome (List.map_eq_nil_iff.mp hnil), hroom⟩)
  · rw [hoffered, hconfig, List.map_map, List.map_map]
    exact List.map_congr_left fun e he => (Entry.desc_eq (honce e he)).symm
  · rw [hoffered] at ha
    obtain ⟨e, he, rfl⟩ := List.mem_map.mp ha
    rw [hconfig]
    exact accepts_of_mem (List.mem_map_of_mem he) e.name_eq

def fanEntry : Entry where
  desc := "Fan".toList
  name := "fan".toList
  rest := ["cli_cmds".toList, "show fan".toList]
  desc_value := by decide +kernel
  name_value := by decide +kernel
  desc_short := by decide +kernel
  rest_keyword := fun data hdata => by
    obtain rfl := Option.some.inj hdata
    exact ⟨.cliCmds, by decide, rfl⟩
  rest_feature := by decide +kernel
  rest_featureName := by decide +kernel

theorem fan_agree : Agree [fanEntry] [] fanDocument :=
  @readers_agree [fanEntry] fanDocument rfl fanDocument_accepted [] (by decide +kernel)

/-- A second description behind the name. -/
def describedTwice : Entry := { fanEntry with
  rest := ["feature_desc".toList, "Cooling".toList]
  rest_keyword := fun data hdata => by
    obtain rfl := Option.some.inj hdata
    exact ⟨.featureDesc, by decide, rfl⟩
  rest_feature := by decide +kernel
  rest_featureName := by decide +kernel }

theorem describedTwice_disagree : ¬ Refused ⟨describedTwice.scalars, false⟩ ∧
    (showTechOffer []).Fits [describedTwice.name] [describedTwice.desc] ∧
    (offered [] none describedTwice.scalars).map (fun a => some a.2) = [some "Fan".toList] ∧
    (getShowtechConfig (some ⟨describedTwice.scalars, false⟩) .empty).config.map (·.desc) =
      [some "Cooling".toList] := by
  refine ⟨?_, ?_, ?_, ?_⟩
  · exact accepted_of_run rfl (by decide +kernel) (by decide +kernel)
  · decide +kernel
  · decide +kernel
  · decide +kernel

end ShowTechConfig
end OpsSupportability
