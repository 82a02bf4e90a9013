import OpsSupportability.Theorems.SyslogTable

/-! The commands refine `put` and `drop` on the map from hosts to configurations, exactly when the row
    of the host is not the last row of the table with another port set (`PortUnchecked`). -/

namespace OpsSupportability
namespace Syslog

/-- The calls outside the repository succeed, and the inserted row has a fresh identity. -/
structure Env.Ok (env : Env) (db : Db) : Prop where
  txn : env.txn = true
  system : env.system = true
  callocDelete : env.callocDelete = true
  callocAdd : env.callocAdd = true
  insert : env.insert = true
  fresh : env.uuid ∉ db.rows.map Row.uuid

/-- A port comes with a transport and lies in the range the commands accept. -/
def Request.PortValid (q : Request) : Prop :=
  ∀ p, q.portNumber = some p → q.transport.isSome = true ∧ minPortNumberSupported ≤ p ∧ p ≤ maxPortNumberSupported

/-- An add puts the configuration of the request under its host; it fails only for a fifth host. -/
structure AddRefines (db : Db) (q : Request) (host : String) (r : Result) : Prop where
  success : r.status = .success →
    (∃ row, r.db.rows.filter (·.remoteHost == host) = [row] ∧ row.config = q.config) ∧
      r.db.rows.filter (·.remoteHost != host) = db.rows.filter (·.remoteHost != host) ∧
      r.db.remotes = Function.update db.remotes host (some q.config)
  failure : r.status ≠ .success →
    host ∉ db.rows.map Row.remoteHost ∧ db.rows.length = maxRemoteServers ∧ r.db = db
  wellFormed : r.db.WellFormed

/-- A removal drops the host, and succeeds exactly when its row agrees with the request. -/
structure RemoveRefines (db : Db) (q : Request) (host : String) (r : Result) : Prop where
  succeeds : r.status = .success ↔ ∃ row ∈ db.rows, row.remoteHost = host ∧ q.Agrees row
  success : r.status = .success →
    r.db.rows = db.rows.filter (·.remoteHost != host) ∧ r.db.remotes = Function.update db.remotes host none
  failure : r.status ≠ .success → r.db = db
  wellFormed : r.db.WellFormed

def Refines (db : Db) (q : Request) (host : String) (isAdd : Bool) (r : Result) : Prop :=
  if isAdd then AddRefines db q host r else RemoveRefines db q host r

/-- The last row of the table is the host's, agrees with the request apart from its port, and has
    another port set than the request. -/
def PortUnchecked (db : Db) (q : Request) (isAdd : Bool) : Prop :=
  ∃ row, db.rows.getLast? = some row ∧ q.remoteHost = some row.remoteHost ∧ q.AgreesButPort isAdd row ∧
    q.PortsDiffer row

/-! ### Tables and maps -/

theorem remotes_of_filter {db db' : Db} {host : String}
    (h : db'.rows.filter (·.remoteHost != host) = db.rows.filter (·.remoteHost != host)) :
    db'.remotes = Function.update db.remotes host
      ((db'.rows.filter (·.remoteHost == host)).head?.map Row.config) := by
  funext k
  by_cases hk : k = host
  · subst hk
    rw [Function.update_self, List.head?_filter]
    rfl
  · rw [Function.update_of_ne hk]
    have away : ∀ rows : List Row, rows.find? (fun row => row.remoteHost == k) =
        (rows.filter (·.remoteHost != host)).find? (fun row => row.remoteHost == k) := fun rows => by
      rw [List.find?_filter]
      congr 1
      funext row
      by_cases hr : row.remoteHost = k
      · simp [hr, hk]
      · simp [hr]
    rw [Db.remotes, Db.remotes, away, away db.rows, h]

theorem newRow_config {q : Request} (hp : q.PortValid) (uuid : Uuid) (host : String) :
    (newRow uuid host q).config = q.config := by
  have hport : q.portNumber.filter (fun p => minPortNumberSupported ≤ p && p ≤ maxPortNumberSupported) =
      q.portNumber := by
    cases h : q.portNumber with
    | none => rfl
    | some p => simp [Option.filter, (hp p h).2]
  simp only [Row.config, newRow, hport, Request.config]

section
variable {db : Db} {row : Row} {host : String}

theorem insert_filter_ne (db : Db) (place : Nat) (h : row.remoteHost = host) :
    (db.insert row place).rows.filter (·.remoteHost != host) = db.rows.filter (·.remoteHost != host) := by
  have hrow : (row.remoteHost != host) = false := by simp [h]
  rw [insert_rows, List.filter_append, List.filter_cons_of_neg (by simp [hrow]), ← List.filter_append,
    List.take_append_drop]

theorem insert_filter_eq (place : Nat) (h : row.remoteHost = host) (hnew : host ∉ db.rows.map Row.remoteHost) :
    (db.insert row place).rows.filter (·.remoteHost == host) = [row] := by
  have hnil := Keyed.filter_eq_nil hnew
  rw [← List.take_append_drop place db.rows, List.filter_append, List.append_eq_nil_iff] at hnil
  simp [h, hnil.1, hnil.2]

end

/-! ### Results of the commands -/

section
variable {env : Env} {db : Db} {q : Request} {host : String} {row : Row}

theorem config_add_exact (ok : env.Ok db) (hq : q.remoteHost = some host) (hv : remoteHostError env host = none)
    (h : syslogRemoteGetConfig q false true db.rows = some row) :
    cliSyslogConfig env .success db q true = ⟨.success, [], db⟩ := by
  simp [cliSyslogConfig, prepareSyslogConfig, Prepared.finish, ok.txn, ok.system, hq, hv, h]

theorem config_add (ok : env.Ok db) (hq : q.remoteHost = some host) (hv : remoteHostError env host = none)
    (h : syslogRemoteGetConfig q false true db.rows = none) {d : Deleted}
    (hd : cliSyslogDeleteConfig env q (Txn.begin db) true false = d) (hs : d.status = .success) :
    cliSyslogConfig env .success db q true =
      if d.txn.view.syslogRemotes.length < maxRemoteServers then
        ⟨.success, [], d.txn.view.insert (newRow env.uuid host q) env.place⟩
      else ⟨.warning, ["Limit of 4 remote syslog servers already reached"], db⟩ := by
  have hprep : prepareSyslogConfig env db q true = insertSyslogConfig env host q d := by
    simp [prepareSyslogConfig, ok.txn, ok.system, hq, hv, h, hd, hs]
  rw [cliSyslogConfig, hprep, insertSyslogConfig]
  by_cases hlen : d.txn.view.syslogRemotes.length < maxRemoteServers
  · simp [hlen, Nat.not_le.mpr hlen, ok.insert, ok.callocAdd, Prepared.finish, Db.insert, insertWrites, Db.writes,
      Db.write, newRow]
  · simp [hlen, Nat.not_lt.mp hlen, Prepared.finish]

theorem config_add_present (wf : db.WellFormed) (ok : env.Ok db) (hq : q.remoteHost = some host)
    (hv : remoteHostError env host = none) (h : syslogRemoteGetConfig q false true db.rows = none)
    (hg : syslogRemoteGetConfig q true false db.rows = some row) :
    cliSyslogConfig env .success db q true =
      ⟨.success, [], (db.remove row).insert (newRow env.uuid host q) env.place⟩ := by
  have hrow := (mem_of_getConfig hg).1
  have hlen : (db.remove row).syslogRemotes.length < maxRemoteServers := by
    have := wf.length_remove hrow
    have := wf.limit
    rw [(wf.remove row).length_refs]
    omega
  have hd := deleteConfig_some env false wf hrow hg
  rw [ok.callocDelete, if_pos rfl] at hd
  rw [config_add ok hq hv h hd rfl]
  exact if_pos hlen

theorem config_add_absent (wf : db.WellFormed) (ok : env.Ok db) (hq : q.remoteHost = some host)
    (hv : remoteHostError env host = none) (hnew : host ∉ db.rows.map Row.remoteHost) :
    cliSyslogConfig env .success db q true =
      if db.rows.length < maxRemoteServers then ⟨.success, [], db.insert (newRow env.uuid host q) env.place⟩
      else ⟨.warning, ["Limit of 4 remote syslog servers already reached"], db⟩ := by
  have hne : ∀ r ∈ db.rows, q.remoteHost ≠ some r.remoteHost := fun r hr heq =>
    hnew (List.mem_map.mpr ⟨r, hr, Option.some.inj (heq.symm.trans hq)⟩)
  have hnone : syslogRemoteGetConfig q true false (Txn.begin db).view.rows = none := getConfig_eq_none hne
  have hd := deleteConfig_none env false hnone
  rw [if_neg (by simp)] at hd
  rw [config_add ok hq hv (getConfig_eq_none hne) hd rfl, ← wf.length_refs]
  rfl

theorem config_remove_some (wf : db.WellFormed) (ok : env.Ok db) (hq : q.remoteHost = some host)
    (hv : remoteHostError env host = none) (hg : syslogRemoteGetConfig q false false db.rows = some row) :
    cliSyslogConfig env .success db q false = ⟨.success, [], db.remove row⟩ := by
  have hd := deleteConfig_some env true wf (mem_of_getConfig hg).1 hg
  rw [ok.callocDelete, if_pos rfl] at hd
  simp [cliSyslogConfig, prepareSyslogConfig, Prepared.finish, ok.txn, ok.system, hq, hv, hd]
  rfl

theorem config_remove_none (ok : env.Ok db) (hq : q.remoteHost = some host)
    (hv : remoteHostError env host = none) (hg : syslogRemoteGetConfig q false false db.rows = none) :
    cliSyslogConfig env .success db q false = ⟨.warning, ["Syslog configuration not found"], db⟩ := by
  have hd := deleteConfig_none (t := Txn.begin db) env true hg
  simp [cliSyslogConfig, prepareSyslogConfig, Prepared.finish, ok.txn, ok.system, hq, hv, hd]

end

/-! ### Refinement -/

section
variable {env : Env} {db : Db} {q : Request} {host : String} {isAdd : Bool} {pre post : List Row} {row : Row}

theorem addRefines_put (hp : q.PortValid) (hhost : host ∉ db.rows.map Row.remoteHost) {db₀ : Db}
    (wf : (db.insert (newRow env.uuid host q) env.place).WellFormed)
    (hrows : db.rows.filter (·.remoteHost != host) = db₀.rows.filter (·.remoteHost != host)) :
    AddRefines db₀ q host ⟨.success, [], db.insert (newRow env.uuid host q) env.place⟩ where
  success := fun _ => by
    have hkey : (newRow env.uuid host q).remoteHost = host := rfl
    have hne := (insert_filter_ne db env.place hkey).trans hrows
    have heq := insert_filter_eq env.place hkey hhost
    refine ⟨⟨_, heq, newRow_config hp _ _⟩, hne, ?_⟩
    rw [remotes_of_filter hne, heq]
    simp [newRow_config hp]
  failure := fun h => absurd rfl h
  wellFormed := wf

theorem refines_absent (wf : db.WellFormed) (ok : env.Ok db) (hq : q.remoteHost = some host)
    (hv : remoteHostError env host = none) (hp : q.PortValid) (hnew : host ∉ db.rows.map Row.remoteHost) :
    Refines db q host isAdd (cliSyslogConfig env .success db q isAdd) := by
  cases isAdd with
  | true =>
    rw [Refines, if_pos rfl, config_add_absent wf ok hq hv hnew]
    by_cases hlen : db.rows.length < maxRemoteServers
    · rw [if_pos hlen]
      exact addRefines_put hp hnew (wf.insert hnew ok.fresh hlen _) rfl
    · rw [if_neg hlen]
      exact ⟨fun h => (by cases h), fun _ => ⟨hnew, Nat.le_antisymm wf.limit (Nat.not_lt.mp hlen), rfl⟩, wf⟩
  | false =>
    have hnone : syslogRemoteGetConfig q false false db.rows = none := getConfig_eq_none fun r hr heq =>
      hnew (List.mem_map.mpr ⟨r, hr, Option.some.inj (heq.symm.trans hq)⟩)
    rw [Refines, if_neg (by simp), config_remove_none ok hq hv hnone]
    refine ⟨⟨fun h => (by cases h), ?_⟩, fun h => (by cases h), fun _ => rfl, wf⟩
    rintro ⟨r, hr, hhost, -⟩
    exact absurd (List.mem_map.mpr ⟨r, hr, hhost⟩) hnew

/-- The matcher finds the row of the host unless it disagrees with the request; it also finds it where
    only the port of the last row disagrees. -/
theorem getConfig_present (hq : q.remoteHost = some host) (hs : Keyed.Split Row.remoteHost host pre row post)
    (exactMatch : Bool) :
    syslogRemoteGetConfig q false exactMatch (pre ++ row :: post) = some row ↔
      q.AgreesButPort exactMatch row ∧ (q.AgreesPort exactMatch row ∨ (post = [] ∧ q.PortsDiffer row)) := by
  rw [getConfig_split hq hs]
  have hhost : q.remoteHost = some row.remoteHost := hs.key ▸ hq
  have hiff : rowMatches row post.head? q false exactMatch = true ↔
      q.AgreesButPort exactMatch row ∧ (q.AgreesPort exactMatch row ∨ (post = [] ∧ q.PortsDiffer row)) := by
    rw [rowMatches_iff, and_iff_right hhost, List.head?_eq_none_iff]
  rw [← hiff]
  split
  · simp_all
  · simp_all

theorem portUnchecked_split (hq : q.remoteHost = some host) (hrows : db.rows = pre ++ row :: post)
    (hs : Keyed.Split Row.remoteHost host pre row post) :
    PortUnchecked db q isAdd ↔ post = [] ∧ q.AgreesButPort isAdd row ∧ q.PortsDiffer row := by
  have hhost : q.remoteHost = some row.remoteHost := hs.key ▸ hq
  constructor
  · rintro ⟨r, hlast, hr, hb, hd⟩
    have hmem : r ∈ pre ++ row :: post := hrows ▸ List.mem_of_getLast? hlast
    have hrh : r.remoteHost = host := Option.some.inj (hr.symm.trans hq)
    obtain rfl := hs.eq_of_mem hmem hrh
    refine ⟨?_, hb, hd⟩
    rw [hrows] at hlast
    rcases List.eq_nil_or_concat post with rfl | ⟨post', x, rfl⟩
    · rfl
    · have hx : x = r := by
        rw [List.concat_eq_append, ← List.cons_append, ← List.append_assoc, List.getLast?_concat] at hlast
        exact Option.some.inj hlast
      exact absurd (hx ▸ hrh) (hs.post x (by simp))
  · rintro ⟨rfl, hb, hd⟩
    exact ⟨row, by simp [hrows], hhost, hb, hd⟩

theorem portsDiffer_not_agrees (hd : q.PortsDiffer row) {exactMatch : Bool} : ¬q.AgreesPort exactMatch row := by
  obtain ⟨r, p, hr, hp, hne⟩ := hd
  unfold Request.AgreesPort
  cases exactMatch <;> simp [Row.config, Request.config, effective, hr, hp, hne]

theorem add_refines_present (wf : db.WellFormed) (ok : env.Ok db) (hq : q.remoteHost = some host)
    (hv : remoteHostError env host = none) (hp : q.PortValid) (hrows : db.rows = pre ++ row :: post)
    (hs : Keyed.Split Row.remoteHost host pre row post) :
    AddRefines db q host (cliSyslogConfig env .success db q true) ↔ ¬PortUnchecked db q true := by
  have hrow : row ∈ db.rows := by simp [hrows]
  have hhost := hs.key
  have hfilter : db.rows.filter (·.remoteHost == host) = [row] := by rw [hrows]; exact hs.filter_eq
  rw [portUnchecked_split hq hrows hs]
  cases hg : syslogRemoteGetConfig q false true db.rows with
  | some r =>
    obtain rfl := hs.eq_of_mem (hrows ▸ (mem_of_getConfig hg).1) (Option.some.inj ((mem_of_getConfig hg).2.symm.trans hq))
    rw [config_add_exact ok hq hv hg]
    rw [hrows, getConfig_present hq hs] at hg
    constructor
    · -- The table is unchanged, so its row already had the requested configuration.
      rintro ⟨hsucc, -, -⟩ ⟨-, -, hd⟩
      obtain ⟨⟨r', hr', hc⟩, -, -⟩ := hsucc rfl
      rw [hfilter] at hr'
      obtain rfl := List.singleton_inj.mp hr'
      exact portsDiffer_not_agrees hd (config_eq_iff.mp hc).2
    · intro hno
      have hc : r.config = q.config := config_eq_iff.mpr ⟨hg.1, hg.2.resolve_right fun h => hno ⟨h.1, hg.1, h.2⟩⟩
      refine ⟨fun _ => ⟨⟨r, hfilter, hc⟩, rfl, ?_⟩, fun h => absurd rfl h, wf⟩
      rw [← hc, eq_comm, Function.update_eq_self_iff, Db.remotes, hrows, hs.find?_eq]
      rfl
  | none =>
    have hno : ¬(post = [] ∧ q.AgreesButPort true row ∧ q.PortsDiffer row) := fun ⟨h1, h2, h3⟩ => by
      have := (getConfig_present hq hs true).mpr ⟨h2, Or.inr ⟨h1, h3⟩⟩
      rw [← hrows, hg] at this
      cases this
    have hg' : syslogRemoteGetConfig q true false db.rows = some row := by
      rw [hrows, getConfig_split hq hs, if_pos (rowMatches_hostOnly.mpr (hhost ▸ hq))]
    rw [config_add_present wf ok hq hv hg hg']
    refine iff_of_true ?_ hno
    have hnew : host ∉ (db.remove row).rows.map Row.remoteHost := hhost ▸ not_mem_remove wf hrow
    have huuid : env.uuid ∉ (db.remove row).rows.map Row.uuid := fun h =>
      ok.fresh ((List.filter_sublist.map _).mem h)
    have hlen : (db.remove row).rows.length < maxRemoteServers := by
      have := wf.length_remove hrow
      have := wf.limit
      omega
    refine addRefines_put hp hnew ((wf.remove row).insert hnew huuid hlen _) ?_
    rw [remove_rows_host wf hrow, hhost, List.filter_filter]
    simp

theorem remove_refines_present (wf : db.WellFormed) (ok : env.Ok db) (hq : q.remoteHost = some host)
    (hv : remoteHostError env host = none) (hrows : db.rows = pre ++ row :: post)
    (hs : Keyed.Split Row.remoteHost host pre row post) :
    RemoveRefines db q host (cliSyslogConfig env .success db q false) ↔ ¬PortUnchecked db q false := by
  have hrow : row ∈ db.rows := by simp [hrows]
  have hhost := hs.key
  rw [portUnchecked_split hq hrows hs]
  cases hg : syslogRemoteGetConfig q false false db.rows with
  | some r =>
    obtain rfl := hs.eq_of_mem (hrows ▸ (mem_of_getConfig hg).1) (Option.some.inj ((mem_of_getConfig hg).2.symm.trans hq))
    rw [config_remove_some wf ok hq hv hg]
    rw [hrows, getConfig_present hq hs] at hg
    constructor
    · rintro ⟨hsucc, -, -, -⟩ ⟨-, -, hd⟩
      obtain ⟨r', hr', hh, ha⟩ := hsucc.mp rfl
      obtain rfl := hs.eq_of_mem (hrows ▸ hr') hh
      exact portsDiffer_not_agrees hd (agrees_iff.mp ha).2
    · intro hno
      have ha : q.Agrees r := agrees_iff.mpr ⟨hg.1, hg.2.resolve_right fun h => hno ⟨h.1, hg.1, h.2⟩⟩
      have hdrop : (db.remove r).rows = db.rows.filter (·.remoteHost != host) := hhost ▸ remove_rows_host wf hrow
      refine ⟨iff_of_true rfl ⟨r, hrow, hhost, ha⟩, fun _ => ⟨hdrop, ?_⟩, fun h => absurd rfl h, wf.remove r⟩
      have hne : (db.remove r).rows.filter (·.remoteHost != host) = db.rows.filter (·.remoteHost != host) := by
        rw [hdrop, List.filter_filter]
        simp
      rw [remotes_of_filter hne, Keyed.filter_eq_nil (hhost ▸ not_mem_remove wf hrow)]
      rfl
  | none =>
    rw [config_remove_none ok hq hv hg]
    have hmiss : ¬(q.AgreesButPort false row ∧ (q.AgreesPort false row ∨ (post = [] ∧ q.PortsDiffer row))) := fun h => by
      rw [hrows, (getConfig_present hq hs false).mpr h] at hg
      cases hg
    refine iff_of_true ⟨⟨fun h => (by cases h), ?_⟩, fun h => (by cases h), fun _ => rfl, wf⟩
      fun ⟨h1, h2, h3⟩ => hmiss ⟨h2, Or.inr ⟨h1, h3⟩⟩
    rintro ⟨r', hr', hh, ha⟩
    obtain rfl := hs.eq_of_mem (hrows ▸ hr') hh
    obtain ⟨hb, hpt⟩ := agrees_iff.mp ha
    exact absurd ⟨hb, Or.inl hpt⟩ hmiss

/-- A command whose commit succeeds does what `put` or `drop` does to the map of hosts, exactly when it
    does not meet the unchecked port of the last row. -/
theorem cliSyslogConfig_refines_iff (wf : db.WellFormed) (ok : env.Ok db) (hq : q.remoteHost = some host)
    (hv : remoteHostError env host = none) (hp : q.PortValid) :
    Refines db q host isAdd (cliSyslogConfig env .success db q isAdd) ↔ ¬PortUnchecked db q isAdd := by
  by_cases hhost : host ∈ db.rows.map Row.remoteHost
  · obtain ⟨pre, row, post, hrows, hs⟩ := Keyed.exists_split wf.hosts hhost
    cases isAdd with
    | true => exact add_refines_present wf ok hq hv hp hrows hs
    | false => exact remove_refines_present wf ok hq hv hrows hs
  · refine iff_of_true (refines_absent wf ok hq hv hp hhost) ?_
    rintro ⟨row, hlast, hr, -, -⟩
    exact hhost (List.mem_map.mpr ⟨row, List.mem_of_getLast? hlast, Option.some.inj (hr.symm.trans hq)⟩)

end

/-! ### A run into the unchecked port -/

/-- An environment in which every call succeeds; the next row gets identity 7. -/
def plainEnv : Env where
  isValidIpAddress host := host == "10.0.0.2" || host == "10.0.0.3"
  regexec _ _ := false
  txn := true
  system := true
  callocDelete := true
  callocAdd := true
  insert := true
  uuid := 7
  place := 0

/-- The table after `logging 10.0.0.2 udp 1000`. -/
def oneRemote : Db := ⟨[⟨1, "10.0.0.2", some .udp, some 1000, none⟩], [1]⟩

/-- `logging 10.0.0.2 udp 2000` and `no logging 10.0.0.2 udp 2000`. -/
def otherPort : Request := ⟨some "10.0.0.2", some .udp, some 2000, none⟩

/-- `logging 10.0.0.3 tcp 99 severity err`. -/
def otherHost : Request := ⟨some "10.0.0.3", some .tcp, some 99, some .err⟩

theorem oneRemote_wellFormed : oneRemote.WellFormed := by
  constructor <;> decide

theorem plainEnv_ok : plainEnv.Ok oneRemote := by
  constructor <;> decide

theorem cliSyslogConfig_refines_iff_otherHost :
    Refines oneRemote otherHost "10.0.0.3" true (cliSyslogConfig plainEnv .success oneRemote otherHost true) ↔
      ¬PortUnchecked oneRemote otherHost true :=
  cliSyslogConfig_refines_iff oneRemote_wellFormed plainEnv_ok rfl (by decide) (by
    rintro p hp
    obtain rfl := Option.some.inj hp
    decide)

/-- The add reports success and leaves the old port; the removal of a port that is not configured
    succeeds. -/
theorem otherPort_not_refines :
    oneRemote.WellFormed ∧ plainEnv.Ok oneRemote ∧ remoteHostError plainEnv "10.0.0.2" = none ∧
      otherPort.PortValid ∧
      ¬Refines oneRemote otherPort "10.0.0.2" true (cliSyslogConfig plainEnv .success oneRemote otherPort true) ∧
      ¬Refines oneRemote otherPort "10.0.0.2" false (cliSyslogConfig plainEnv .success oneRemote otherPort false) := by
  have hadd : cliSyslogConfig plainEnv .success oneRemote otherPort true = ⟨.success, [], oneRemote⟩ := by decide
  have hremove : (cliSyslogConfig plainEnv .success oneRemote otherPort false).status = .success := by decide
  refine ⟨oneRemote_wellFormed, plainEnv_ok, by decide, ?_, fun h => ?_, fun h => ?_⟩
  · rintro p hp
    obtain rfl := Option.some.inj hp
    decide
  · rw [hadd] at h
    obtain ⟨⟨row, hrow, hc⟩, -, -⟩ := h.success rfl
    obtain rfl := List.singleton_inj.mp hrow
    exact absurd hc (by decide)
  · obtain ⟨row, hrow, -, ha⟩ := h.succeeds.mp hremove
    obtain rfl := List.mem_singleton.mp hrow
    exact absurd (ha.port 2000 rfl) (by decide)

end Syslog
end OpsSupportability
