import OpsSupportability.VlogConfig

/-! What the commands on log levels print and send, in a process that has run any others before: the table of all
    features, and the requests that set a level. -/

namespace OpsSupportability
namespace VlogConfig

open DiagDump (Daemon)
open FeatureMapping (Document Feature getFeatureMapping)

variable {world : Nat → World} {s : State}

/-! ### One request -/

/-- The state behind some requests. -/
def State.after (s : State) (moments : Nat) (sent : List Sent) (lines : List Text) (flag : Bool) : State :=
  { s with flag := flag, moment := s.moment + moments, sent := s.sent ++ sent, console := s.console ++ lines }

theorem State.after_after (m n : Nat) (a b : List Sent) (k l : List Text) (f g : Bool) :
    (s.after m a k f).after n b l g = s.after (m + n) (a ++ b) (k ++ l) g := by
  simp only [State.after, Nat.add_assoc, List.append_assoc]

theorem State.after_zero : s.after 0 [] [] s.flag = s := by
  simp only [State.after, Nat.add_zero, List.append_nil]

theorem State.print_after (n : Nat) (sent : List Sent) (k l : List Text) (f : Bool) :
    (s.after n sent k f).print l = s.after n sent (k ++ l) f := by
  simp only [State.after, State.print, List.append_assoc]

/-- The request that a daemon gets, if it can be connected to. -/
def World.order (w : World) (daemon : Text) (cmdType : CmdType) : Option Sent :=
  (connectToDaemon w daemon).map fun socket => ⟨socket, cmdType.vlogStr.1, cmdType.vlogStr.2⟩

/-- What a daemon answers, the result and the error. -/
def Reply.strings : Reply → Option (Option Text × Option Text)
  | .failed => none
  | .answer result error => some (result, error)

def World.replied (w : World) (daemon : Text) (cmdType : CmdType) : Option (Option Text × Option Text) :=
  (connectToDaemon w daemon).bind fun socket => (w.transact socket cmdType.vlogStr.1 cmdType.vlogStr.2).strings

theorem interface_eq (feature : Option Text) (daemon : Text) (cmdType : CmdType) (request : Request) :
    vtyshVlogInterfaceDaemon world feature daemon cmdType request s =
      ((world s.moment).replied daemon cmdType).elim
        (.warning, s.after 1 ((world s.moment).order daemon cmdType).toList [] s.flag)
        fun r => (replyStatus r.1 r.2,
          s.after 1 ((world s.moment).order daemon cmdType).toList (report request feature daemon r.1 s.flag).1
            (report request feature daemon r.1 s.flag).2) := by
  unfold vtyshVlogInterfaceDaemon World.replied World.order
  dsimp only
  cases connectToDaemon (world s.moment) daemon with
  | none => simp [State.after]
  | some socket =>
    dsimp only [Option.bind_some, Option.map_some, Option.toList_some]
    cases (world s.moment).transact socket cmdType.vlogStr.1 cmdType.vlogStr.2 with
    | failed => simp [Reply.strings, State.after]
    | answer result error => simp [Reply.strings, State.after, State.print]

/-! ### The loop over the daemons -/

/-- The requests that some daemons get, one a moment. -/
def orders (world : Nat → World) (n : Nat) (cmdType : CmdType) : List Daemon → List Sent
  | [] => []
  | d :: ds => ((world n).order d.name cmdType).toList ++ orders world (n + 1) cmdType ds

/-- What some daemons answer, each with its name. -/
def answers (world : Nat → World) (n : Nat) : List Daemon → List (Text × Text)
  | [] => []
  | d :: ds => ((((world n).replied d.name .list).bind (·.1)).map (d.name, ·)).toList ++ answers world (n + 1) ds

theorem orders_append (n : Nat) (cmdType : CmdType) (ds ds' : List Daemon) :
    orders world n cmdType (ds ++ ds') = orders world n cmdType ds ++ orders world (n + ds.length) cmdType ds' := by
  induction ds generalizing n with
  | nil => rfl
  | cons d ds ih =>
    rw [List.cons_append, orders, orders, ih, List.append_assoc, List.length_cons, Nat.add_assoc, Nat.add_comm 1]

/-- What a request prints and leaves of the flag. -/
def World.told (w : World) (feature : Option Text) (daemon : Text) (cmdType : CmdType) (request : Request)
    (flag : Bool) : List Text × Bool :=
  (w.replied daemon cmdType).elim ([], flag) fun r => report request feature daemon r.1 flag

theorem interface_snd (feature : Option Text) (daemon : Text) (cmdType : CmdType) (request : Request) :
    (vtyshVlogInterfaceDaemon world feature daemon cmdType request s).2 =
      s.after 1 ((world s.moment).order daemon cmdType).toList
        ((world s.moment).told feature daemon cmdType request s.flag).1
        ((world s.moment).told feature daemon cmdType request s.flag).2 := by
  rw [interface_eq, World.told]
  cases (world s.moment).replied daemon cmdType <;> rfl

theorem State.print_nil : s.print [] = s := by rw [State.print, List.append_nil]

/-- Where failures print nothing. -/
theorem eachDaemon_cons (feature : Text) (cmdType : CmdType) (request : Request) (d : Daemon) (ds : List Daemon) :
    eachDaemon world feature cmdType request [] (d :: ds) s =
      eachDaemon world feature cmdType request [] ds
        (s.after 1 ((world s.moment).order d.name cmdType).toList
          ((world s.moment).told (some feature) d.name cmdType request s.flag).1
          ((world s.moment).told (some feature) d.name cmdType request s.flag).2) := by
  rw [eachDaemon]
  dsimp only
  rw [State.print_nil, ite_self, interface_snd]

/-- Whatever is printed, the requests go out in turn. -/
theorem eachDaemon_after (world : Nat → World) (s : State) (feature : Text) (cmdType : CmdType) (request : Request)
    (failed : List Text) (ds : List Daemon) :
    ∃ lines flag, eachDaemon world feature cmdType request failed ds s =
      s.after ds.length (orders world s.moment cmdType ds) lines flag := by
  induction ds generalizing s with
  | nil => exact ⟨[], s.flag, State.after_zero.symm⟩
  | cons d ds ih =>
    rw [eachDaemon]
    dsimp only
    rw [interface_snd]
    split
    · obtain ⟨lines, flag, heq⟩ := ih _
      rw [heq, State.after_after, List.length_cons, Nat.add_comm ds.length]
      exact ⟨_, _, rfl⟩
    · obtain ⟨lines, flag, heq⟩ := ih _
      rw [heq, State.print_after, State.after_after, List.length_cons, Nat.add_comm ds.length]
      exact ⟨_, _, rfl⟩

/-- A level is set without a word. -/
theorem eachDaemon_set (feature fdName name : Text) (ds : List Daemon) :
    eachDaemon world feature (.set fdName name) .set [] ds s =
      s.after ds.length (orders world s.moment (.set fdName name) ds) [] s.flag := by
  induction ds generalizing s with
  | nil => exact State.after_zero.symm
  | cons d ds ih =>
    have htold : (world s.moment).told (some feature) d.name (.set fdName name) .set s.flag = ([], s.flag) := by
      rw [World.told]
      cases (world s.moment).replied d.name (.set fdName name) <;> rfl
    rw [eachDaemon_cons, htold, ih, State.after_after, List.length_cons, Nat.add_comm ds.length]
    rfl

/-! ### The table of all features -/

/-- The rows of a feature: the first has its label. -/
def tableRows (first : Text → Text → Text) : List (Text × Text) → List Text
  | [] => []
  | a :: rest => first a.1 a.2 :: rest.map fun a => nextRow a.1 a.2

/-- The rows of `show vlog config`, of what the daemons answer. -/
def configRows (world : Nat → World) (n : Nat) : List Feature → List Text
  | [] => []
  | f :: fs => tableRows (configRow f.name) (answers world n f.daemons) ++ configRows world (n + f.daemons.length) fs

def labelled (feature : Text) (flag : Bool) : Text → Text → Text := if flag then nextRow else configRow feature

theorem tableRows_next (l : List (Text × Text)) : tableRows nextRow l = l.map fun a => nextRow a.1 a.2 := by
  cases l <;> rfl

theorem told_config (w : World) (feature daemon : Text) (flag : Bool) :
    w.told (some feature) daemon .list .showVlogConfig flag =
      ((w.replied daemon .list).bind (·.1)).elim ([], flag) fun result =>
        ([labelled feature flag daemon result], true) := by
  rw [World.told]
  cases w.replied daemon .list with
  | none => rfl
  | some r =>
    obtain ⟨result, error⟩ := r
    cases result <;> cases flag <;> rfl

theorem eachDaemon_config (world : Nat → World) (s : State) (feature : Text) (ds : List Daemon) :
    ∃ flag, eachDaemon world feature .list .showVlogConfig [] ds s =
      s.after ds.length (orders world s.moment .list ds)
        (tableRows (labelled feature s.flag) (answers world s.moment ds)) flag := by
  induction ds generalizing s with
  | nil => exact ⟨s.flag, State.after_zero.symm⟩
  | cons d ds ih =>
    rw [eachDaemon_cons, told_config, answers]
    cases ((world s.moment).replied d.name .list).bind (·.1) with
    | none =>
      obtain ⟨flag, heq⟩ := ih _
      rw [heq, State.after_after, List.length_cons, Nat.add_comm ds.length]
      exact ⟨flag, rfl⟩
    | some result =>
      obtain ⟨flag, heq⟩ := ih _
      rw [heq, State.after_after, List.length_cons, Nat.add_comm ds.length]
      refine ⟨flag, ?_⟩
      congr 1
      exact congrArg (labelled feature s.flag d.name result :: ·) (tableRows_next _)

theorem eachFeature_after (fs : List Feature) (hflag : s.flag = false) :
    eachFeature world fs s =
      s.after (fs.flatMap (·.daemons)).length (orders world s.moment .list (fs.flatMap (·.daemons)))
        (configRows world s.moment fs) false := by
  induction fs generalizing s with
  | nil =>
    rw [← hflag]
    exact State.after_zero.symm
  | cons f fs ih =>
    obtain ⟨flag, heq⟩ := eachDaemon_config world s f.name f.daemons
    rw [eachFeature, heq, hflag]
    change eachFeature world fs (s.after _ _ _ false) = _
    rw [ih rfl, State.after_after, List.flatMap_cons, List.length_append, orders_append]
    rfl

/-! ### A process -/

/-- Between two commands the next row is the first of its feature, and a mapping that is in use is the one in the
    cache. -/
structure Ready (s : State) : Prop where
  flag : s.flag = false
  mapping : s.initialized = true → s.featureHead = s.mapping ∧ s.mapping ≠ []

/-- The features that the next command finds. -/
def State.features (world : Nat → World) (s : State) : List Feature :=
  getFeatureMapping (world s.moment).mapping s.mapping

/-- With the mapping in use. -/
def State.mapped (s : State) (features : List Feature) : State :=
  { s with mapping := features, featureHead := features, initialized := true }

/-- Without one. -/
def State.unmapped (s : State) : State := { s with mapping := [], featureHead := [] }

theorem getFeatureMapping_of_ne_nil {file : Option Document} {l : List Feature} (h : l ≠ []) :
    getFeatureMapping file l = l := by
  obtain ⟨f, fs, rfl⟩ := List.exists_cons_of_ne_nil h
  rfl

theorem State.mapped_self (hinit : s.initialized = true) (hhead : s.featureHead = s.mapping) :
    s.mapped s.mapping = s := by
  cases s
  cases hinit
  cases hhead
  rfl

theorem getMapping_eq (world : Nat → World) (h : Ready s) (error : Text) :
    s.features world = [] ∧ s.initialized = false ∧ getMapping world error s = (false, s.unmapped.print [error]) ∨
      s.features world ≠ [] ∧ getMapping world error s = (true, s.mapped (s.features world)) := by
  unfold getMapping
  cases hinit : s.initialized with
  | true =>
    obtain ⟨hhead, hne⟩ := h.mapping hinit
    have hfeatures : s.features world = s.mapping := getFeatureMapping_of_ne_nil hne
    refine Or.inr ⟨hfeatures ▸ hne, ?_⟩
    rw [hfeatures, if_pos rfl, State.mapped_self hinit hhead]
  | false =>
    rw [if_neg Bool.false_ne_true]
    cases hfeatures : getFeatureMapping (world s.moment).mapping s.mapping with
    | nil =>
      refine Or.inl ⟨hfeatures, rfl, ?_⟩
      rw [State.unmapped, hinit]
    | cons f fs =>
      have hcons : s.features world = f :: fs := hfeatures
      rw [hcons]
      exact Or.inr ⟨List.cons_ne_nil _ _, rfl⟩

namespace Ready

theorem start (mapping : List Feature) : Ready (State.start mapping) := ⟨rfl, nofun⟩

theorem unmapped (h : Ready s) (hinit : s.initialized = false) : Ready s.unmapped :=
  ⟨h.flag, fun htrue => absurd (hinit.symm.trans htrue) Bool.false_ne_true⟩

theorem mapped (h : Ready s) {features : List Feature} (hne : features ≠ []) : Ready (s.mapped features) :=
  ⟨h.flag, fun _ => ⟨rfl, hne⟩⟩

theorem print (h : Ready s) (lines : List Text) : Ready (s.print lines) := ⟨h.flag, h.mapping⟩

theorem after (h : Ready s) (n : Nat) (sent : List Sent) (lines : List Text) : Ready (s.after n sent lines false) :=
  ⟨rfl, h.mapping⟩

end Ready

theorem told_flag (w : World) (feature : Option Text) (daemon : Text) (cmdType : CmdType) {request : Request}
    (h : request = .daemon ∨ request = .set) (flag : Bool) :
    (w.told feature daemon cmdType request flag).2 = flag := by
  rw [World.told]
  rcases h with rfl | rfl <;> cases w.replied daemon cmdType <;> rfl

/-- A request to one daemon. -/
theorem interface_ready (world : Nat → World) (h : Ready s) (daemon : Text) (cmdType : CmdType) {request : Request}
    (hrequest : request = .daemon ∨ request = .set) :
    ∃ lines, (vtyshVlogInterfaceDaemon world none daemon cmdType request s).2 =
      s.after 1 ((world s.moment).order daemon cmdType).toList lines false :=
  ⟨_, by rw [interface_snd, told_flag _ _ _ _ hrequest, h.flag]⟩

/-! ### What is set -/

def Accepted (destination level : Text) : Prop :=
  destinations.any (abbreviates destination) = true ∧ levels.any (abbreviates level) = true

instance (destination level : Text) : Decidable (Accepted destination level) := inferInstanceAs (Decidable (_ ∧ _))

/-- The daemons that a command means. -/
def targets (kind : Kind) (name : Text) (features : List Feature) : List Daemon :=
  match kind with
  | .feature => ((features.find? (·.name == name)).map (·.daemons)).getD []
  | .daemon => [⟨name, false⟩]

/-- The requests with which a command sets levels. -/
def State.settings (world : Nat → World) (s : State) : Command → List Sent
  | .vlog kind name destination level =>
    if Accepted destination level ∧ name ≠ list then
      orders world s.moment (.set name (sentDestination destination ++ ':' :: level))
        (targets kind name (s.features world))
    else []
  | .showConfig => []
  | .showConfigList => []
  | .showConfigOf _ _ => []

def Sent.isSetting (r : Sent) : Bool := r.command == set

theorem filter_orders (n : Nat) (cmdType : CmdType) (ds : List Daemon) :
    (orders world n cmdType ds).filter Sent.isSetting =
      if cmdType.vlogStr.1 = set then orders world n cmdType ds else [] := by
  induction ds generalizing n with
  | nil => rw [orders, List.filter_nil, ite_self]
  | cons d ds ih =>
    rw [orders, List.filter_append, ih, World.order]
    by_cases hset : cmdType.vlogStr.1 = set
    · rw [if_pos hset, if_pos hset]
      cases connectToDaemon (world n) d.name <;> simp [Sent.isSetting, hset]
    · rw [if_neg hset, if_neg hset]
      cases connectToDaemon (world n) d.name <;> simp [Sent.isSetting, hset]

theorem list_ne_set : list ≠ set := by decide

theorem vlogStr_set_iff {fdName name : Text} : (CmdType.set fdName name).vlogStr.1 = set ↔ fdName ≠ list := by
  rw [CmdType.vlogStr]
  split
  · next h => exact iff_of_false list_ne_set (absurd h)
  · next h => exact iff_of_true rfl h

/-- What a command does to the requests. -/
structure Does (world : Nat → World) (s : State) (c : Command) (t : State) : Prop where
  ready : Ready t
  sent : ∃ sent, t.sent = s.sent ++ sent ∧ sent.filter Sent.isSetting = s.settings world c

theorem Does.of_nothing {t : State} {c : Command} (ht : Ready t) (hsent : t.sent = s.sent)
    (hsettings : s.settings world c = []) : Does world s c t :=
  ⟨ht, [], by rw [hsent, List.append_nil], by rw [hsettings, List.filter_nil]⟩

theorem Does.of_list {t : State} {c : Command} (ht : Ready t) {n : Nat} {ds : List Daemon}
    (hsent : t.sent = s.sent ++ orders world n .list ds) (hsettings : s.settings world c = []) : Does world s c t :=
  ⟨ht, _, hsent, by rw [hsettings, filter_orders]; exact if_neg list_ne_set⟩

theorem Does.of_set {t : State} {c : Command} (ht : Ready t) {n : Nat} {ds : List Daemon} {fdName name : Text}
    (hsent : t.sent = s.sent ++ orders world n (.set fdName name) ds)
    (hsettings : s.settings world c = if fdName ≠ list then orders world n (.set fdName name) ds else []) :
    Does world s c t := by
  refine ⟨ht, _, hsent, ?_⟩
  rw [hsettings, filter_orders]
  exact if_congr vlogStr_set_iff rfl rfl

theorem showConfig_eq (world : Nat → World) (h : Ready s) :
    s.features world = [] ∧ s.initialized = false ∧
        (cliShowVlogConfig world s).2 = s.unmapped.print [listError] ∨
      s.features world ≠ [] ∧ (cliShowVlogConfig world s).2 =
        ((s.mapped (s.features world)).print configTitle).after ((s.features world).flatMap (·.daemons)).length
          (orders world s.moment .list ((s.features world).flatMap (·.daemons)))
          (configRows world s.moment (s.features world)) false := by
  unfold cliShowVlogConfig
  rcases getMapping_eq world h listError with ⟨hnil, hinit, heq⟩ | ⟨hne, heq⟩
  · rw [heq]
    exact Or.inl ⟨hnil, hinit, rfl⟩
  · rw [heq]
    exact Or.inr ⟨hne, eachFeature_after _ h.flag⟩

theorem Does.showConfig (h : Ready s) : Does world s .showConfig (run world s .showConfig).2 := by
  rcases showConfig_eq world h with ⟨-, hinit, heq⟩ | ⟨hne, heq⟩
  · rw [run, heq]
    exact .of_nothing ((h.unmapped hinit).print _) rfl rfl
  · rw [run, heq]
    exact .of_list (((h.mapped hne).print _).after _ _ _) rfl rfl

theorem Does.showConfigList (h : Ready s) : Does world s .showConfigList (run world s .showConfigList).2 := by
  rw [run, cliShowVlogConfigList]
  rcases getMapping_eq world h listError with ⟨-, hinit, heq⟩ | ⟨hne, heq⟩
  · rw [heq]
    exact .of_nothing ((h.unmapped hinit).print _) rfl rfl
  · rw [heq]
    exact .of_nothing ((h.mapped hne).print _) rfl rfl

theorem Does.showConfigOf (h : Ready s) (kind : Kind) (name : Text) :
    Does world s (.showConfigOf kind name) (run world s (.showConfigOf kind name)).2 := by
  cases kind with
  | feature =>
    rw [run, cliShowVlogFeatureOrDaemon]
    rcases getMapping_eq world h showError with ⟨-, hinit, heq⟩ | ⟨hne, heq⟩
    · rw [heq]
      exact .of_nothing ((h.unmapped hinit).print _) rfl rfl
    · rw [heq]
      dsimp only
      split
      · next iter hfind =>
        obtain ⟨lines, flag, hloop⟩ := eachDaemon_after world (s.mapped (s.features world)) iter.name
          .list .feature [notAble name] iter.daemons
        rw [hloop]
        exact .of_list ((h.mapped hne).after iter.daemons.length _ lines) rfl rfl
      · exact .of_nothing ((h.mapped hne).print _) rfl rfl
  | daemon =>
    rw [run, cliShowVlogFeatureOrDaemon]
    obtain ⟨lines, heq⟩ := interface_ready world h name .list (Or.inl rfl)
    have hsent : (vtyshVlogInterfaceDaemon world none name .list .daemon s).2.sent =
        s.sent ++ orders world s.moment .list [⟨name, false⟩] := by
      rw [heq, orders, orders, List.append_nil]
      rfl
    have hready : Ready (vtyshVlogInterfaceDaemon world none name .list .daemon s).2 := heq ▸ h.after 1 _ lines
    dsimp only
    split
    · exact .of_list hready hsent rfl
    · exact .of_list (hready.print _) hsent rfl

theorem Does.vlog (h : Ready s) (kind : Kind) (name destination level : Text) :
    Does world s (.vlog kind name destination level) (run world s (.vlog kind name destination level)).2 := by
  have hsettings : s.settings world (.vlog kind name destination level) =
      if Accepted destination level ∧ name ≠ list then
        orders world s.moment (.set name (sentDestination destination ++ ':' :: level))
          (targets kind name (s.features world))
      else [] := rfl
  rw [run, cliConfigVlogSet]
  split
  · next hrefused =>
    refine .of_nothing (h.print _) rfl ?_
    rw [hsettings, if_neg fun haccepted => hrefused haccepted.1.1]
  · next hdestination =>
    split
    · next hrefused =>
      refine .of_nothing (h.print _) rfl ?_
      rw [hsettings, if_neg fun haccepted => hrefused haccepted.1.2]
    · next hlevel =>
      have haccepted : Accepted destination level := ⟨not_not.mp hdestination, not_not.mp hlevel⟩
      simp only [haccepted, true_and] at hsettings
      cases kind with
      | feature =>
        rcases getMapping_eq world h setError with ⟨hnil, hinit, heq⟩ | ⟨hne, heq⟩
        · dsimp only
          rw [heq]
          refine .of_nothing ((h.unmapped hinit).print _) rfl ?_
          rw [hsettings, hnil]
          exact ite_self _
        · dsimp only
          rw [heq]
          dsimp only
          split
          · next iter hfind =>
            have hfind : (s.features world).find? (·.name == name) = some iter := hfind
            rw [eachDaemon_set]
            refine .of_set (h.flag ▸ (h.mapped hne).after _ _ _) rfl ?_
            rw [hsettings, targets, hfind]
            rfl
          · next hnone =>
            have hnone : (s.features world).find? (·.name == name) = none := hnone
            refine .of_nothing ((h.mapped hne).print _) rfl ?_
            rw [hsettings, targets, hnone]
            exact ite_self _
      | daemon =>
        obtain ⟨lines, heq⟩ := interface_ready world h name
          (.set name (sentDestination destination ++ ':' :: level)) (Or.inr rfl)
        have hsent : (vtyshVlogInterfaceDaemon world none name
            (.set name (sentDestination destination ++ ':' :: level)) .set s).2.sent =
            s.sent ++ orders world s.moment (.set name (sentDestination destination ++ ':' :: level))
              [⟨name, false⟩] := by
          rw [heq, orders, orders, List.append_nil]
          rfl
        have hready : Ready (vtyshVlogInterfaceDaemon world none name
            (.set name (sentDestination destination ++ ':' :: level)) .set s).2 := heq ▸ h.after 1 _ lines
        dsimp only
        split
        · exact .of_set hready hsent hsettings
        · exact .of_set (hready.print _) hsent hsettings

theorem Does.run (world : Nat → World) (h : Ready s) (c : Command) : Does world s c (VlogConfig.run world s c).2 := by
  cases c with
  | showConfig => exact .showConfig h
  | showConfigList => exact .showConfigList h
  | showConfigOf kind name => exact .showConfigOf h kind name
  | vlog kind name destination level => exact .vlog h kind name destination level

/-! ### Sessions -/

theorem Ready.session (h : Ready s) (commands : List Command) : Ready (session world s commands) := by
  induction commands generalizing s with
  | nil => exact h
  | cons c commands ih => exact ih (Does.run world h c).ready

/-- What the commands have set, each in the state in which it ran. -/
def settingsOf (world : Nat → World) (s : State) : List Command → List Sent
  | [] => []
  | c :: commands => s.settings world c ++ settingsOf world (run world s c).2 commands

theorem filter_session (h : Ready s) (commands : List Command) :
    (session world s commands).sent.filter Sent.isSetting =
      s.sent.filter Sent.isSetting ++ settingsOf world s commands := by
  induction commands generalizing s with
  | nil => exact (List.append_nil _).symm
  | cons c commands ih =>
    obtain ⟨hready, sent, hsent, hfilter⟩ := Does.run world h c
    change (session world (run world s c).2 commands).sent.filter Sent.isSetting = _
    rw [ih hready, hsent, List.filter_append, hfilter, settingsOf, List.append_assoc]

/-- The levels of a daemon are set by the commands that set levels, and by these as they say: once for each daemon
    that can be connected to, and never by a command that shows them. -/
theorem settings_of_session (world : Nat → World) (mapping : List Feature) (commands : List Command) :
    (session world (State.start mapping) commands).sent.filter Sent.isSetting =
      settingsOf world (State.start mapping) commands :=
  filter_session (Ready.start mapping) commands

/-- Whatever ran before: a row for each daemon that answers, the first of a feature with its label. -/
theorem showConfig_in_session (world : Nat → World) (mapping : List Feature) (commands : List Command) :
    let s := session world (State.start mapping) commands
    let t := (run world s .showConfig).2
    t.console = s.console ++
        (if s.features world = [] then [listError] else configTitle ++ configRows world s.moment (s.features world)) ∧
      t.sent = s.sent ++ orders world s.moment .list ((s.features world).flatMap (·.daemons)) := by
  intro s t
  rcases showConfig_eq world ((Ready.start mapping).session commands) with ⟨hnil, -, heq⟩ | ⟨hne, heq⟩
  · have hnil : s.features world = [] := hnil
    have ht : t = s.unmapped.print [listError] := heq
    rw [ht, hnil, if_pos rfl]
    exact ⟨rfl, (List.append_nil _).symm⟩
  · have hne : s.features world ≠ [] := hne
    rw [if_neg hne, ← List.append_assoc]
    exact ⟨congrArg State.console heq, congrArg State.sent heq⟩

/-! ### Daemons that run -/

/-- A number that a line consists of. -/
theorem number_of_line {α : Type*} {digits : Text} (hne : digits ≠ []) (h : ∀ c ∈ digits, c.isDigit = true)
    (minus plus : Text → α) (other : Text → α) :
    (match (digits ++ ['\n']).dropWhile Text.isSpace with
      | '-' :: rest => minus rest
      | '+' :: rest => plus rest
      | rest => other (rest.takeWhile Char.isDigit)) = other digits := by
  obtain ⟨c, rest, rfl⟩ := List.exists_cons_of_ne_nil hne
  have hc : c.isDigit = true := h c List.mem_cons_self
  have htake : (c :: rest ++ ['\n']).takeWhile Char.isDigit = c :: rest := by
    rw [List.takeWhile_append_of_pos h, List.takeWhile_cons_of_neg (by decide), List.append_nil]
  have hspace : (c :: rest ++ ['\n']).dropWhile Text.isSpace = c :: rest ++ ['\n'] :=
    List.dropWhile_cons_of_neg (by simp [Text.isSpace_of_isDigit hc])
  rw [hspace]
  split
  · next heq =>
    cases heq
    cases hc
  · next heq =>
    cases heq
    cases hc
  · rw [htake]

theorem fscanf_decimal {pid : Nat} (h : pid < 2 ^ 31) : fscanf (Text.decimal pid ++ ['\n']) = some (pid : Int) := by
  have hdigits : ∀ c ∈ Nat.toDigits 10 pid, c.isDigit = true := fun c hc => Text.isDigit_of_mem_toDigits hc
  have hne : Nat.toDigits 10 pid ≠ [] := Nat.toDigits_ne_nil
  have hscanned : scanned (Nat.toDigits 10 pid ++ ['\n']) = Nat.toDigits 10 pid := number_of_line hne hdigits _ _ id
  have hatoll : Text.atoll (Nat.toDigits 10 pid ++ ['\n']) = pid := by
    have hvalue := number_of_line hne hdigits (fun rest => -(Nat.ofDigitChars 10 (rest.takeWhile Char.isDigit) 0 : Int))
      (fun rest => (Nat.ofDigitChars 10 (rest.takeWhile Char.isDigit) 0 : Int))
      fun digits => (Nat.ofDigitChars 10 digits 0 : Int)
    rw [Nat.ofDigitChars_ten_toDigits] at hvalue
    refine (congrArg (fun value => max (-2 ^ 63) (min value (2 ^ 63 - 1))) hvalue).trans ?_
    omega
  rw [Text.decimal_natCast, fscanf, hscanned, if_neg hne, hatoll, Int.bmod_eq_of_le (by omega) (by omega)]

/-- The file of a daemon names it, unless its number is large. -/
theorem readPidFile_line {pid : Nat} (hpos : 0 < pid) (hlt : pid < 2 ^ 31) :
    readPidFile (some (Text.decimal pid ++ ['\n'])) = if pid ≤ 65536 then some (pid : Int) else none := by
  rw [readPidFile, Option.bind_some, fscanf_decimal hlt]
  have hrange : minPid ≤ (pid : Int) ∧ (pid : Int) ≤ maxPid ↔ pid ≤ 65536 := by
    unfold minPid maxPid
    omega
  exact if_congr hrange rfl rfl

/-- The daemons that run, with their process ids: each has written its file, and listens on the socket with the
    number. -/
structure Running (w : World) (rundir : Text) (pids : Text → Option Nat) : Prop where
  rundir : w.rundir = rundir
  range : ∀ name pid, pids name = some pid → 0 < pid ∧ pid < 2 ^ 31
  plain : ∀ name, w.writable (w.path name ctl) = false
  file : ∀ name, w.file (w.path name ".pid".toList) = (pids name).map fun (pid : Nat) => Text.decimal pid ++ ['\n']
  socket : ∀ name pid, pids name = some pid → w.create (w.path name ('.' :: Text.decimal pid ++ ctl)) = true

/-- The socket of a daemon whose process id is taken for one. -/
def socketOf (rundir : Text) (pids : Text → Option Nat) (name : Text) : Option Text :=
  ((pids name).filter (· ≤ 65536)).map fun (pid : Nat) => rundir ++ '/' :: name ++ ('.' :: Text.decimal pid ++ ctl)

theorem connectToDaemon_running {w : World} {rundir : Text} {pids : Text → Option Nat} (h : Running w rundir pids)
    (name : Text) : connectToDaemon w name = socketOf rundir pids name := by
  have hpath : ∀ ending, w.path name ending = rundir ++ '/' :: name ++ ending := fun ending => by
    rw [World.path, h.rundir]
  rw [connectToDaemon, socketOf]
  dsimp only
  rw [h.plain, if_neg Bool.false_ne_true, h.file]
  cases hpid : pids name with
  | none => rfl
  | some pid =>
    obtain ⟨hpos, hlt⟩ := h.range name pid hpid
    rw [Option.map_some, readPidFile_line hpos hlt]
    by_cases hle : pid ≤ 65536
    · rw [if_pos hle]
      dsimp only
      rw [h.socket name pid hpid, if_pos rfl, hpath]
      simp [Option.filter, hle]
    · rw [if_neg hle]
      simp [Option.filter, hle]

theorem orders_running {rundir : Text} {pids : Text → Option Nat} (h : ∀ n, Running (world n) rundir pids) (n : Nat)
    (cmdType : CmdType) (ds : List Daemon) :
    orders world n cmdType ds = ds.filterMap fun d =>
      (socketOf rundir pids d.name).map fun socket => ⟨socket, cmdType.vlogStr.1, cmdType.vlogStr.2⟩ := by
  induction ds generalizing n with
  | nil => rfl
  | cons d ds ih =>
    rw [orders, ih, World.order, connectToDaemon_running (h n)]
    cases hsocket : socketOf rundir pids d.name <;> simp [hsocket]

/-- Whatever ran before: of the daemons of the feature those get the level, each once and on its own socket, whose
    process id is at most 65536, and the command says that it has succeeded. -/
theorem vlogFeature_reaches (world : Nat → World) (mapping : List Feature) (commands : List Command)
    {rundir : Text} {pids : Text → Option Nat} (hrunning : ∀ n, Running (world n) rundir pids)
    {name destination level : Text} (haccepted : Accepted destination level) (hname : name ≠ list) {f : Feature}
    (hf : ((session world (State.start mapping) commands).features world).find? (·.name == name) = some f) :
    let s := session world (State.start mapping) commands
    let t := run world s (.vlog .feature name destination level)
    t.1 = .success ∧ t.2.console = s.console ∧
      t.2.sent = s.sent ++ f.daemons.filterMap fun d => (socketOf rundir pids d.name).map fun socket =>
        ⟨socket, set, [sentDestination destination ++ ':' :: level]⟩ := by
  intro s t
  have hready : Ready s := (Ready.start mapping).session commands
  have ht : t = (.success, (s.mapped (s.features world)).after f.daemons.length
      (orders world s.moment (.set name (sentDestination destination ++ ':' :: level)) f.daemons) [] s.flag) := by
    change run world s _ = _
    rw [run, cliConfigVlogSet, if_neg (not_not.mpr haccepted.1), if_neg (not_not.mpr haccepted.2)]
    rcases getMapping_eq world hready setError with ⟨hnil, -, -⟩ | ⟨-, heq⟩
    · cases (congrArg (List.find? (·.name == name)) hnil).symm.trans hf
    · dsimp only
      rw [heq]
      dsimp only
      split
      · next iter hfind =>
        obtain rfl : f = iter := Option.some.inj (hf.symm.trans hfind)
        rw [eachDaemon_set]
        rfl
      · next hnone => cases hf.symm.trans hnone
  rw [ht, orders_running hrunning, CmdType.vlogStr, if_neg hname]
  exact ⟨rfl, List.append_nil _, rfl⟩

/-! A daemon with a small and one with a large process id. -/

def fanPids (name : Text) : Option Nat :=
  if name = "ops-fand".toList then some 812 else if name = "ops-tempd".toList then some 70000 else none

def fanLevels : Text :=
  "                 console    syslog    file\n".toList ++ "                 -------    ------    ------\n".toList ++
    "fan                OFF       INFO       INFO\n".toList

def fanWorld (_ : Nat) : World where
  mapping := none
  rundir := "/run".toList
  writable _ := false
  file path :=
    if path = "/run/ops-fand.pid".toList then some "812\n".toList
    else if path = "/run/ops-tempd.pid".toList then some "70000\n".toList
    else none
  create _ := true
  transact _ command _ := .answer (some (if command = list then fanLevels else [])) none

def fanMapping : List Feature := [⟨"fan".toList, none, [⟨"ops-fand".toList, false⟩, ⟨"ops-tempd".toList, false⟩], false⟩]

theorem pidPath_inj {name name' : Text} :
    (fanWorld 0).path name ".pid".toList = "/run".toList ++ '/' :: name' ++ ".pid".toList ↔ name = name' := by
  rw [World.path, List.append_left_inj]
  exact ⟨fun h => (List.cons.inj (List.append_cancel_left h)).2, fun h => h ▸ rfl⟩

theorem running_fanWorld (n : Nat) : Running (fanWorld n) "/run".toList fanPids where
  rundir := rfl
  range name pid h := by
    unfold fanPids at h
    split at h
    · cases h
      exact ⟨by decide, by decide⟩
    · split at h
      · cases h
        exact ⟨by decide, by decide⟩
      · cases h
  plain _ := rfl
  file name := by
    have hfan : "/run/ops-fand.pid".toList = "/run".toList ++ '/' :: "ops-fand".toList ++ ".pid".toList := by decide
    have htemp : "/run/ops-tempd.pid".toList = "/run".toList ++ '/' :: "ops-tempd".toList ++ ".pid".toList := by decide
    change (if (fanWorld 0).path name _ = "/run/ops-fand.pid".toList then _ else
      if (fanWorld 0).path name _ = "/run/ops-tempd.pid".toList then _ else _) = _
    rw [hfan, htemp, fanPids]
    simp only [pidPath_inj]
    split
    · decide +kernel
    · split
      · decide +kernel
      · rfl
  socket _ _ _ := rfl

theorem vlogFeature_reaches_fan :
    let s := session fanWorld (State.start fanMapping) [.showConfig]
    let t := run fanWorld s (.vlog .feature "fan".toList "all".toList "dbg".toList)
    t.1 = .success ∧ t.2.console = s.console ∧
      t.2.sent = s.sent ++ [⟨"/run/ops-fand.812.ctl".toList, set, ["any:dbg".toList]⟩] := by
  have haccepted : Accepted "all".toList "dbg".toList := by decide
  have hname : "fan".toList ≠ list := by decide
  have hfind : ((session fanWorld (State.start fanMapping) [.showConfig]).features fanWorld).find?
      (·.name == "fan".toList) = fanMapping.head? := by decide +kernel
  obtain ⟨hstatus, hconsole, hsent⟩ :=
    vlogFeature_reaches fanWorld fanMapping [.showConfig] running_fanWorld haccepted hname hfind
  exact ⟨hstatus, hconsole, hsent.trans (congrArg _ (by decide +kernel))⟩

end VlogConfig
end OpsSupportability
