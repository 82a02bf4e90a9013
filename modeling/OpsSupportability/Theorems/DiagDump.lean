import OpsSupportability.DiagDump

/-! The report of `diag-dump` against what the callbacks delivered. A reply with a result counts as
    captured; the handler in C answers with a result just when its callback delivered data, the one in
    Python always does. -/

namespace OpsSupportability
namespace DiagDump

/-! ### What a callback delivers -/

inductive Outcome where
  | data (text : Text)
  | noData
  | exception
  | notRegistered
  deriving DecidableEq

def cOutcome (cb : Text → Option Text) (feature : Text) : Outcome :=
  match cb feature with
  | some text => .data text
  | none => .noData

def pyOutcome (callback : Option PyCallback) (feature : Text) : Outcome :=
  match callback with
  | none => .notRegistered
  | some callback =>
    match callback [diagBasic, feature] with
    | .ok (some text) => .data text
    | .ok none => .noData
    | .error _ => .exception

def Outcome.isData : Outcome → Bool
  | .data _ => true
  | _ => false

def Server.isPython : Server → Bool
  | .c _ => false
  | .python _ => true

/-- The arguments pass the validation, and the callback delivers data. -/
def Server.delivers (server : Server) (feature : Text) : Bool :=
  match server with
  | .c cb => cValid [diagDumpBasicCmd, diagBasic, feature] && (cOutcome cb feature).isData
  | .python callback => pyValid [diagBasic, feature] && (pyOutcome callback feature).isData

def Env.reaches (env : Env) (daemon : Text) : Bool := env.connect daemon && env.transport daemon

def Env.delivers (env : Env) (feature daemon : Text) : Bool := env.reaches daemon && (env.server daemon).delivers feature

def Env.answers (env : Env) (feature daemon : Text) : Bool :=
  env.reaches daemon && ((env.server daemon).transact env.unixctl diagDumpBasicCmd [diagBasic, feature]).isResult

/-! ### The report -/

/-- The line on the captured daemons: the last one, before that on the file. -/
def ShowResult.report (r : ShowResult) (file : Option Text) : Option Text :=
  (r.out.console.reverse.drop (if file.isSome then 1 else 0)).head?

def Feature.enabled (feature : Feature) : List Daemon := feature.daemons.filter (·.diagFlag)

/-- The number of daemons whose callback has not delivered. -/
def failures (env : Env) (feature : Feature) : Nat :=
  feature.enabled.countP fun d => !env.delivers feature.name d.name

/-- The report tells whether every callback delivered, and otherwise how many did not. -/
def RightReport (env : Env) (feature : Feature) (file : Option Text) : Prop :=
  let report := (vtyshDiagDumpShow env feature.name file).report file
  (report = some (captured feature.name) ↔ failures env feature = 0) ∧
    (failures env feature ≠ 0 → report = some (failedFor feature.name (failures env feature)))

/-- The command finds the feature and opens its file. -/
structure Runs (env : Env) (feature : Feature) (file : Option Text) : Prop where
  signals : env.signals = true
  feature : ∃ features, env.featureMapping = some features ∧ features.find? (·.name == feature.name) = some feature
  file : ∀ f, file = some f → ∃ path, openPath env f = .ok path

/-- The handlers in C and in Python answer on the same channel. -/
def SameChannel (cb : Text → Option Text) (callback : Option PyCallback) (feature : Text) : Prop :=
  (diagHandlerCb cb [diagDumpBasicCmd, diagBasic, feature]).isResult =
    (diagBasicUnxctlCb callback [diagBasic, feature]).isResult

section
variable {env : Env} {feature : Feature} {name : Text} {file : Option Text}

/-! ### The channels -/

theorem diagHandlerCb_isResult (cb : Text → Option Text) (name : Text) :
    (diagHandlerCb cb [diagDumpBasicCmd, diagBasic, name]).isResult =
      (cValid [diagDumpBasicCmd, diagBasic, name] && (cOutcome cb name).isData) := by
  have hname : [diagDumpBasicCmd, diagBasic, name][2]?.getD [] = name := rfl
  rw [diagHandlerCb, cOutcome]
  cases hvalid : cValid [diagDumpBasicCmd, diagBasic, name] with
  | false => rfl
  | true =>
    rw [if_pos rfl, hname]
    cases cb name <;> rfl

theorem diagBasicUnxctlCb_isResult (callback : Option PyCallback) (argv : List Text) :
    (diagBasicUnxctlCb callback argv).isResult = true := rfl

theorem transact_isResult (unixctl : Unixctl) (server : Server) (name : Text) :
    (server.transact unixctl diagDumpBasicCmd [diagBasic, name]).isResult =
      (server.isPython || server.delivers name) := by
  rw [Server.transact, unixctl.dispatch_registered (Nat.le_refl 2) (Nat.le_refl 2)]
  cases server with
  | c cb => exact diagHandlerCb_isResult cb name
  | python callback => rfl

/-- Apart from delivered data the two handlers never agree. -/
theorem sameChannel_iff {cb : Text → Option Text} {callback : Option PyCallback}
    (hvalid : cValid [diagDumpBasicCmd, diagBasic, name] = pyValid [diagBasic, name]) :
    SameChannel cb callback name ↔ pyValid [diagBasic, name] = true ∧ (cOutcome cb name).isData = true := by
  rw [SameChannel, diagHandlerCb_isResult, diagBasicUnxctlCb_isResult, hvalid, Bool.and_eq_true]

theorem answers_eq (env : Env) (name daemon : Text) :
    env.answers name daemon = (env.delivers name daemon || (env.reaches daemon && (env.server daemon).isPython)) := by
  rw [Env.answers, Env.delivers, transact_isResult, ← Bool.and_or_distrib_left, Bool.or_comm]

/-! ### The counters -/

theorem createThread_rc (env : Env) (daemon name : Text) (toFile : Bool) :
    (vtyshDiagDumpCreateThread env daemon [diagBasic, name] toFile).1 = if env.answers name daemon then 0 else 1 := by
  have hbasic : [diagBasic, name].head? = some diagBasic := rfl
  rw [vtyshDiagDumpCreateThread, vtyshDiagDumpDaemon, Env.answers, Env.reaches]
  cases env.connect daemon with
  | false => rfl
  | true =>
    cases env.transport daemon with
    | false => rfl
    | true =>
      simp only [hbasic, if_true, Bool.not_true, Bool.false_eq_true, if_false, Bool.true_and]
      cases (env.server daemon).transact env.unixctl diagDumpBasicCmd [diagBasic, name] <;> rfl

/-- The loop counts the enabled daemons and those that answered with a result. -/
theorem countDaemons_counts (env : Env) (name : Text) (toFile : Bool) (daemons : List Daemon) (count : Count) :
    (countDaemons env [diagBasic, name] toFile daemons count).daemonCount =
        count.daemonCount + (daemons.filter (·.diagFlag)).length ∧
      (countDaemons env [diagBasic, name] toFile daemons count).daemonResp =
        count.daemonResp + (daemons.filter (·.diagFlag)).countP fun d => env.answers name d.name := by
  induction daemons generalizing count with
  | nil => exact ⟨rfl, rfl⟩
  | cons d ds ih =>
    rw [countDaemons]
    cases hflag : d.diagFlag with
    | false => simpa [hflag] using ih count
    | true =>
      simp only [Bool.not_true, Bool.false_eq_true, if_false, createThread_rc]
      obtain ⟨hcount, hresp⟩ := ih ⟨count.daemonCount + 1,
        if (if env.answers name d.name then 0 else 1) = 0 then count.daemonResp + 1 else count.daemonResp,
        count.out.append (vtyshDiagDumpCreateThread env d.name [diagBasic, name] toFile).2⟩
      rw [hcount, hresp]
      cases hanswer : env.answers name d.name with
      | false => simp [hflag, hanswer, Nat.add_assoc, Nat.add_comm 1]
      | true => simp [hflag, hanswer, Nat.add_assoc, Nat.add_comm 1]

def answered (env : Env) (feature : Feature) : Nat := feature.enabled.countP fun d => env.answers feature.name d.name

theorem report_last {status : Syslog.CmdStatus} {file : Option Text} {line : Text} (header out footer rest : Output)
    (hrest : rest.console.length = if file.isSome then 1 else 0) :
    ShowResult.report ⟨status, header.append (out.append (footer.append ((printed line).append rest)))⟩ file =
      some line := by
  have hconsole : (header.append (out.append (footer.append ((printed line).append rest)))).console =
      (header.console ++ (out.console ++ footer.console)) ++ line :: rest.console := by
    simp [Output.append, printed]
  rw [ShowResult.report, hconsole, ← hrest, List.reverse_append, List.reverse_cons, List.append_assoc,
    List.drop_left' (List.length_reverse ..)]
  rfl

/-- What the counters come to. -/
theorem dumpFeature_report (name : Text) (path : Option Text) :
    (dumpFeature env feature name path).report path =
      some (verdict name feature.enabled.length (feature.enabled.countP fun d => env.answers name d.name)) := by
  obtain ⟨hcount, hresp⟩ := countDaemons_counts env name path.isSome feature.daemons ⟨0, 0, ⟨[], []⟩⟩
  rw [Nat.zero_add] at hcount hresp
  have hverdict := congrArg₂ (verdict name) hcount hresp
  refine Eq.trans ?_ (congrArg some hverdict)
  cases path with
  | none => exact report_last _ _ _ ⟨[], []⟩ rfl
  | some path => exact report_last _ _ _ (printed _) rfl

theorem report_eq (h : Runs env feature file) :
    (vtyshDiagDumpShow env feature.name file).report file =
      some (verdict feature.name feature.enabled.length (answered env feature)) := by
  obtain ⟨features, hmapping, hfind⟩ := h.feature
  rw [vtyshDiagDumpShow, h.signals, hmapping]
  simp only [Bool.not_true, Bool.false_eq_true, if_false, hfind]
  cases hfile : file with
  | none => exact dumpFeature_report feature.name none
  | some f =>
    obtain ⟨path, hpath⟩ := h.file f hfile
    simp only [hpath]
    exact dumpFeature_report feature.name (some path)

theorem captured_ne_failedFor (name : Text) (n : Nat) : captured name ≠ failedFor name n := by
  intro h
  have hlen := congrArg List.length h
  have hconstant : capturedText.length < dumpText.length + failedText.length + 3 := by decide
  have hdaemon : 3 ≤ (daemonText n).length := by
    unfold daemonText
    split <;> decide
  simp only [captured, failedFor, List.length_append, List.length_singleton] at hlen
  omega

theorem failedFor_injective {m n : Nat} (h : failedFor name m = failedFor name n) : m = n := by
  have hdecimal : ∀ k : Nat, ' ' ∉ Text.decimal k := fun k => Text.notMem_decimal (by decide) (by decide) k
  simp only [failedFor, List.append_assoc, List.append_cancel_left_eq, List.cons_append] at h
  have hsplit := congrArg (List.splitOn ' ') h
  rw [List.splitOn_append_cons_self_of_not_mem (hdecimal m), List.splitOn_append_cons_self_of_not_mem (hdecimal n)]
    at hsplit
  exact Int.ofNat.inj (Text.decimal_injective (List.cons.inj hsplit).1)

/-- The report is right just when the daemons that answered are those that delivered. -/
theorem rightReport_iff (h : Runs env feature file) (hle : failures env feature + answered env feature ≥ feature.enabled.length)
    (hanswered : answered env feature ≤ feature.enabled.length) :
    RightReport env feature file ↔ failures env feature + answered env feature = feature.enabled.length := by
  rw [RightReport, report_eq h, verdict]
  by_cases hall : feature.enabled.length = answered env feature
  · rw [if_pos hall]
    simp only [Option.some.injEq, true_iff, captured_ne_failedFor, imp_false, not_not, and_self]
    omega
  · rw [if_neg hall]
    have hne : failedFor feature.name (feature.enabled.length - answered env feature) ≠ captured feature.name :=
      (captured_ne_failedFor _ _).symm
    have hinj : failedFor feature.name (feature.enabled.length - answered env feature) =
        failedFor feature.name (failures env feature) ↔ feature.enabled.length - answered env feature = failures env feature :=
      ⟨failedFor_injective, congrArg _⟩
    simp only [Option.some.injEq, hne, false_iff, hinj]
    constructor
    · rintro ⟨hpos, heq⟩
      have := heq hpos
      omega
    · intro heq
      exact ⟨by omega, fun _ => by omega⟩

theorem countP_not_add {α : Type*} {p q : α → Bool} (l : List α) (hqp : ∀ x ∈ l, p x = true → q x = true) :
    l.length ≤ (l.countP fun x => !p x) + l.countP q ∧
      ((l.countP fun x => !p x) + l.countP q = l.length ↔ ∀ x ∈ l, q x = true → p x = true) := by
  induction l with
  | nil => simp
  | cons x l ih =>
    obtain ⟨hx, hl⟩ := List.forall_mem_cons.mp hqp
    obtain ⟨hle, hiff⟩ := ih hl
    rw [List.forall_mem_cons, List.countP_cons, List.countP_cons, List.length_cons, ← hiff]
    cases hp : p x <;> cases hq : q x
    · simp; omega
    · simp; omega
    · exact absurd (hx hp) (by simp [hq])
    · simp; omega

/-- The report is right just when each daemon behind the handler in Python that could be asked delivered, and
    the two handlers answer on the same channel just for delivered data. -/
theorem report_right_iff (h : Runs env feature file) :
    (RightReport env feature file ↔
        ∀ d ∈ feature.enabled, env.reaches d.name = true → (env.server d.name).isPython = true →
          (env.server d.name).delivers feature.name = true) ∧
      ∀ cb callback, cValid [diagDumpBasicCmd, diagBasic, feature.name] = pyValid [diagBasic, feature.name] →
        cOutcome cb feature.name = pyOutcome callback feature.name →
        (SameChannel cb callback feature.name ↔
          pyValid [diagBasic, feature.name] = true ∧ (cOutcome cb feature.name).isData = true) := by
  refine ⟨?_, fun cb callback hvalid _ => sameChannel_iff hvalid⟩
  obtain ⟨hle, hiff⟩ := countP_not_add (p := fun d => env.delivers feature.name d.name)
    (q := fun d => env.answers feature.name d.name) feature.enabled fun d _ hd => by
      rw [answers_eq, hd, Bool.true_or]
  rw [rightReport_iff h hle List.countP_le_length]
  refine hiff.trans (forall₂_congr fun d _ => ?_)
  rw [answers_eq, Env.delivers]
  cases env.reaches d.name <;> cases (env.server d.name).isPython <;> cases (env.server d.name).delivers feature.name <;> simp

end

/-- Four daemons that are asked: one delivers, one has no data, one in Python delivers, and one cannot be reached. -/
def fanFeature : Feature :=
  ⟨"fan".toList, [⟨"ops-fand".toList, true⟩, ⟨"ops-tempd".toList, true⟩, ⟨"ops-ledd".toList, true⟩,
    ⟨"ops-sysd".toList, false⟩, ⟨"ops-powerd".toList, true⟩]⟩

def fanServer (daemon : Text) : Server :=
  if daemon = "ops-fand".toList then .c fun feature => some (feature ++ " 1: ok".toList)
  else if daemon = "ops-tempd".toList then .c fun _ => none
  else .python (some fun argv => .ok argv.getLast?)

def fanEnv : Env where
  signals := true
  featureMapping := some [⟨"led".toList, [⟨"ops-ledd".toList, true⟩]⟩, fanFeature]
  directory := true
  openError _ := none
  time := "Fri Jul  1 08:00:00 2016".toList
  connect daemon := daemon ≠ "ops-powerd".toList
  transport _ := true
  server := fanServer
  unixctl := .basic

theorem fanEnv_runs : Runs fanEnv fanFeature (some "fan.txt".toList) where
  signals := rfl
  feature := ⟨_, rfl, by decide +kernel⟩
  file f hf := by
    obtain rfl := Option.some.inj hf
    exact ⟨"/tmp/ops-diag/fan.txt".toList, by decide +kernel⟩

/-- The daemon without data and the one that cannot be reached are the two that are reported. -/
theorem report_right_iff_noData :
    RightReport fanEnv fanFeature (some "fan.txt".toList) ∧ failures fanEnv fanFeature = 2 ∧
      ¬ SameChannel (fun _ => none) (some fun _ => .ok none) fanFeature.name := by
  obtain ⟨hreport, hchannel⟩ := report_right_iff fanEnv_runs
  refine ⟨hreport.mpr ?_, by decide +kernel, fun hsame => ?_⟩
  · simp only [Feature.enabled, fanFeature]
    decide +kernel
  · have hdata := (hchannel (fun _ => none) (some fun _ => .ok none) (by decide +kernel) rfl).mp hsame
    cases hdata.2

/-! ### A callback that raises -/

/-- A switch with one feature, whose daemon is the given server. -/
def switchWith (server : Server) : Env where
  signals := true
  featureMapping := some [⟨['f'], [⟨['d'], true⟩]⟩]
  directory := true
  openError _ := none
  time := []
  connect _ := true
  transport _ := true
  server _ := server
  unixctl := .basic

def oneDaemon : Feature := ⟨['f'], [⟨['d'], true⟩]⟩

theorem switchWith_runs (server : Server) : Runs (switchWith server) oneDaemon none where
  signals := rfl
  feature := ⟨[oneDaemon], rfl, rfl⟩
  file _ hf := by cases hf

/-- The exception of a Python callback is reported as a captured dump; and without data the two handlers
    answer on different channels. -/
theorem exception_captured :
    Runs (switchWith (.python (some fun _ => .error ()))) oneDaemon none ∧
      failures (switchWith (.python (some fun _ => .error ()))) oneDaemon = 1 ∧
      (vtyshDiagDumpShow (switchWith (.python (some fun _ => .error ()))) ['f'] none).report none = some (captured ['f']) ∧
      ¬RightReport (switchWith (.python (some fun _ => .error ()))) oneDaemon none ∧
      cOutcome (fun _ => none) ['f'] = pyOutcome (some fun _ => .ok none) ['f'] ∧
      ¬SameChannel (fun _ => none) (some fun _ => .ok none) ['f'] := by
  have hruns := switchWith_runs (.python (some fun _ => .error ()))
  have hreport := report_eq hruns
  have hfailures : failures (switchWith (.python (some fun _ => .error ()))) oneDaemon = 1 := by decide
  have hverdict : verdict oneDaemon.name oneDaemon.enabled.length
      (answered (switchWith (.python (some fun _ => .error ()))) oneDaemon) = captured ['f'] := by decide
  rw [hverdict] at hreport
  refine ⟨hruns, hfailures, hreport, fun h => ?_, rfl, fun h => ?_⟩
  · have hzero := h.1.mp hreport
    rw [hfailures] at hzero
    cases hzero
  · have hsame := (sameChannel_iff (by decide)).mp h
    cases hsame.2

end DiagDump
end OpsSupportability
