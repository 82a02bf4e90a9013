import OpsSupportability.SyslogContext
import OpsSupportability.Theorems.SyslogSessions

/-! The running configuration of the syslog table read back: a printed line is the request with the columns
    of its row, so on an empty table the lines rebuild the rows, and on the table itself each finds its
    own row. -/

namespace OpsSupportability
namespace Syslog

/-- The columns that a command sets. -/
structure Columns where
  remoteHost : String
  transport : Option Transport
  portNumber : Option Int
  severity : Option Severity
  deriving DecidableEq

def Row.columns (row : Row) : Columns := ⟨row.remoteHost, row.transport, row.portNumber, row.severity⟩

/-- The command that sets the columns of a row. -/
def Row.request (row : Row) : Request := ⟨some row.remoteHost, row.transport, row.portNumber, row.severity⟩

def IsWord (w : Text) : Prop := w ≠ [] ∧ ∀ c ∈ w, Text.isSpace c = false

/-- The checks of a host, which answer the same in every call. -/
structure Checks where
  isValidIpAddress : String → Bool
  regexec : String → String → Bool

def Env.Uses (env : Env) (checks : Checks) : Prop :=
  env.isValidIpAddress = checks.isValidIpAddress ∧ env.regexec = checks.regexec

/-- The columns of a row that a command has inserted. -/
structure Configured (checks : Checks) (row : Row) : Prop where
  host : ∀ env : Env, env.Uses checks → remoteHostError env row.remoteHost = none
  word : IsWord row.remoteHost.toList
  port : ∀ p, row.portNumber = some p →
    row.transport.isSome = true ∧ minPortNumberSupported ≤ p ∧ p ≤ maxPortNumberSupported

section
variable {checks : Checks} {env : Env} {row : Row} {db : Db} {w : Text} {ws : List Text}

/-! ### The words of a line -/

theorem words_word (h : IsWord w) : words w = [w] := by
  rw [words, List.splitOnP_eq_singleton h.2]
  simp [h.1]

theorem words_cons (h : IsWord w) (line : Text) : words (w ++ ' ' :: line) = w :: words line := by
  rw [words, words, List.splitOnP_append_cons_of_forall_mem h.2 ' ' (by decide)]
  simp [h.1]

theorem Transport.isWord (t : Transport) : IsWord t.word := by
  cases t <;> exact ⟨by decide, by decide⟩

theorem Severity.isWord (s : Severity) : IsWord s.word := by
  cases s <;> exact ⟨by decide, by decide⟩

theorem ofWord_transport (t : Transport) : Transport.ofWord t.word = some t := by
  cases t <;> decide

theorem ofWord_severity (s : Severity) : Severity.ofWord s.word = some s := by
  cases s <;> decide

theorem decimal_isDigit (n : Nat) : ∀ c ∈ Text.decimal n, c.isDigit = true := by
  rw [Text.decimal_natCast]
  exact fun c hc => Text.isDigit_of_mem_toDigits hc

theorem decimal_isWord (n : Nat) : IsWord (Text.decimal n) := by
  refine ⟨?_, fun c hc => Text.isSpace_of_isDigit (decimal_isDigit n c hc)⟩
  rw [Text.decimal_natCast]
  exact Nat.toDigits_ne_nil

theorem isPort_decimal {n : Nat} (hpos : 1 ≤ n) (hle : n ≤ 65535) : isPort (Text.decimal n) = true := by
  have hdigits := decimal_isDigit n
  have hne := (decimal_isWord n).1
  rw [Text.decimal_natCast] at hdigits hne ⊢
  simp [isPort, Nat.ofDigitChars_ten_toDigits, hpos, hle, hne]
  exact hdigits

/-- The words of the line of a row. -/
def lineWords (row : Row) : List Text :=
  "logging".toList :: row.remoteHost.toList ::
    (row.transport.toList.map Transport.word ++ row.portNumber.toList.map Text.decimal ++
      row.severity.toList.flatMap fun s => ["severity".toList, s.word])

theorem words_intercalate (hne : ws ≠ []) (h : ∀ w ∈ ws, IsWord w) : words ([' '].intercalate ws) = ws := by
  induction ws with
  | nil => exact absurd rfl hne
  | cons w ws ih =>
    obtain ⟨hw, hws⟩ := List.forall_mem_cons.mp h
    cases ws with
    | nil => simpa [List.intercalate] using words_word hw
    | cons w' ws =>
      have hline : [' '].intercalate (w :: w' :: ws) = w ++ ' ' :: [' '].intercalate (w' :: ws) := by
        simp [List.intercalate]
      rw [hline, words_cons hw, ih (by simp) hws]

/-- The line separates its words by single blanks, whichever columns are set. -/
theorem contextLine_eq (hport : ∀ p, row.portNumber = some p → minPortNumberSupported ≤ p ∧ p ≤ maxPortNumberSupported) :
    contextLine row = [' '].intercalate (lineWords row) := by
  obtain ⟨uuid, host, transport, port, severity⟩ := row
  have hlogging : "logging ".toList = "logging".toList ++ [' '] := by decide
  have hseverity : " severity ".toList = ' ' :: ("severity".toList ++ [' ']) := by decide
  cases port with
  | none => cases transport <;> cases severity <;> simp [contextLine, lineWords, List.intercalate, hlogging, hseverity]
  | some p =>
    have hcast : p.bmod 4294967296 = p := by
      obtain ⟨hmin, hmax⟩ := hport p rfl
      simp only [minPortNumberSupported, maxPortNumberSupported] at hmin hmax
      exact Int.bmod_eq_of_le (by omega) (by omega)
    cases transport <;> cases severity <;>
      simp [contextLine, lineWords, List.intercalate, hlogging, hseverity, hcast]

theorem words_contextLine (h : Configured checks row) : words (contextLine row) = lineWords row := by
  rw [contextLine_eq fun p hp => (h.port p hp).2]
  refine words_intercalate (by simp [lineWords]) fun w hw => ?_
  simp only [lineWords, List.mem_cons, List.mem_append, List.mem_map, List.mem_flatMap, Option.mem_toList,
    List.not_mem_nil, or_false] at hw
  rcases hw with rfl | rfl | (⟨t, -, rfl⟩ | ⟨p, hp, rfl⟩) | ⟨s, -, rfl | rfl⟩
  · exact ⟨by decide, by decide⟩
  · exact h.word
  · exact t.isWord
  · obtain ⟨-, hmin, -⟩ := h.port p hp
    have hnonneg : 0 ≤ p := Int.le_trans (show 0 ≤ minPortNumberSupported by decide) hmin
    obtain ⟨n, rfl⟩ := Int.eq_ofNat_of_zero_le hnonneg
    exact decimal_isWord n
  · exact ⟨by decide, by decide⟩
  · exact s.isWord

/-! ### The command of a line -/

section
variable (host : Text) (t : Transport) (s : Severity) {port : Text}

theorem word_ne_severity : t.word ≠ "severity".toList := by
  cases t <;> decide

theorem dispatchArguments_transport :
    dispatchArguments host [t.word] = some (if t = .udp then .udp else .tcp, [host]) := by
  rw [dispatchArguments, ofWord_transport, Option.map_some]

theorem dispatchArguments_severity :
    dispatchArguments host ["severity".toList, s.word] = some (.svrt, [host, s.word]) := by
  rw [dispatchArguments, if_pos rfl, ofWord_severity, Option.map_some]

theorem dispatchArguments_port (hport : isPort port = true) :
    dispatchArguments host [t.word, port] = some (if t = .udp then .udp else .tcp, [host, port]) := by
  rw [dispatchArguments, if_neg (word_ne_severity t), ofWord_transport, Option.bind_some, if_pos hport]

theorem dispatchArguments_noport :
    dispatchArguments host [t.word, "severity".toList, s.word] = some (.protSvrtNoport, [host, t.word, s.word]) := by
  rw [dispatchArguments, if_pos rfl, ofWord_transport, Option.bind_some, ofWord_severity, Option.map_some]

theorem dispatchArguments_all (hport : isPort port = true) :
    dispatchArguments host [t.word, port, "severity".toList, s.word] =
      some (if t = .udp then .udpSvrt else .tcpSvrt, [host, port, s.word]) := by
  rw [dispatchArguments, if_pos ⟨rfl, hport⟩, ofWord_transport, Option.bind_some, ofWord_severity, Option.map_some]

end

/-- The form that vtysh finds hands the columns of the row to the command. -/
theorem dispatch_lineWords (h : Configured checks row) :
    ∃ form argv, dispatch (lineWords row) = some (form, argv) ∧ form.request argv = row.request := by
  obtain ⟨uuid, host, transport, port, severity⟩ := row
  have hhost : some (String.ofList host.toList) = some host := congrArg some String.ofList_toList
  have hcommand : ∀ arguments, dispatch ("logging".toList :: host.toList :: arguments) =
      dispatchArguments host.toList arguments := fun arguments => by rw [dispatch, if_pos rfl]
  cases port with
  | none =>
    cases transport with
    | none =>
      cases severity with
      | none =>
        refine ⟨.basic, [host.toList], hcommand _, ?_⟩
        exact congrArg (Request.mk · none none none) hhost
      | some s =>
        refine ⟨.svrt, [host.toList, s.word], (hcommand _).trans (dispatchArguments_severity _ s), ?_⟩
        exact congrArg₂ (Request.mk · none none ·) hhost (ofWord_severity s)
    | some t =>
      cases severity with
      | none =>
        refine ⟨_, _, (hcommand _).trans (dispatchArguments_transport _ t), ?_⟩
        cases t
        · exact congrArg (Request.mk · _ none none) hhost
        · exact congrArg (Request.mk · _ none none) hhost
      | some s =>
        refine ⟨_, _, (hcommand _).trans (dispatchArguments_noport _ t s), ?_⟩
        change Request.mk (some (String.ofList host.toList)) (Transport.ofWord t.word) none (Severity.ofWord s.word) = _
        rw [hhost, ofWord_transport, ofWord_severity]
        rfl
  | some p =>
    obtain ⟨htransport, hmin, hmax⟩ := h.port p rfl
    obtain ⟨t, rfl⟩ := Option.isSome_iff_exists.mp htransport
    have hnonneg : 0 ≤ p := Int.le_trans (show 0 ≤ minPortNumberSupported by decide) hmin
    obtain ⟨n, rfl⟩ := Int.eq_ofNat_of_zero_le hnonneg
    simp only [minPortNumberSupported, maxPortNumberSupported] at hmin hmax
    have hport : isPort (Text.decimal n) = true := isPort_decimal (by omega) (by omega)
    have hatoi : some (Text.atoi (Text.decimal n)) = some (n : Int) := congrArg some (Text.atoi_decimal (by omega))
    cases severity with
    | none =>
      refine ⟨_, _, (hcommand _).trans (dispatchArguments_port _ t hport), ?_⟩
      have hrequest : configSyslogTransport t [host.toList, Text.decimal n] = ⟨some host, some t, some (n : Int), none⟩ := by
        rw [← hhost, ← hatoi]
        rfl
      cases t
      · exact hrequest
      · exact hrequest
    | some s =>
      refine ⟨_, _, (hcommand _).trans (dispatchArguments_all _ t s hport), ?_⟩
      have hrequest : configSyslogTransportSvrt t [host.toList, Text.decimal n, s.word] =
          ⟨some host, some t, some (n : Int), some s⟩ := by
        rw [← hhost, ← hatoi, ← ofWord_severity s]
        rfl
      cases t
      · exact hrequest
      · exact hrequest

theorem executeLine_contextLine (h : Configured checks row) (finish : TxnStatus) :
    executeLine env finish db (contextLine row) = some (cliSyslogConfig env finish db row.request true) := by
  obtain ⟨form, argv, hdispatch, hrequest⟩ := dispatch_lineWords h
  rw [executeLine, words_contextLine h, hdispatch, Option.map_some, ← hrequest]

/-! ### Executing the lines -/

/-- The calls outside the repository succeed. -/
structure Env.Serves (env : Env) (checks : Checks) : Prop where
  uses : env.Uses checks
  txn : env.txn = true
  system : env.system = true
  callocDelete : env.callocDelete = true
  callocAdd : env.callocAdd = true
  insert : env.insert = true

theorem Env.Serves.ok (h : env.Serves checks) (hfresh : env.uuid ∉ db.rows.map Row.uuid) : env.Ok db :=
  ⟨h.txn, h.system, h.callocDelete, h.callocAdd, h.insert, hfresh⟩

theorem newRow_request (h : Configured checks row) (uuid : Uuid) :
    newRow uuid row.remoteHost row.request = { row with uuid } := by
  have hport : row.portNumber.filter (fun p => minPortNumberSupported ≤ p && p ≤ maxPortNumberSupported) =
      row.portNumber := by
    cases hp : row.portNumber with
    | none => rfl
    | some p => simp [Option.filter, (h.port p hp).2]
  simp only [newRow, Row.request, hport]

/-- On a table without the host and with room, the line inserts the row. -/
theorem executeLine_new (h : Configured checks row) (hs : env.Serves checks) (wf : db.WellFormed)
    (hfresh : env.uuid ∉ db.rows.map Row.uuid) (hhost : row.remoteHost ∉ db.rows.map Row.remoteHost)
    (hroom : db.rows.length < maxRemoteServers) :
    executeLine env .success db (contextLine row) =
      some ⟨.success, [], db.insert { row with uuid := env.uuid } env.place⟩ := by
  rw [executeLine_contextLine h, config_add_absent wf (hs.ok hfresh) rfl (h.host env hs.uses) hhost, if_pos hroom,
    newRow_request h]

/-- The rows after an insertion, with those still to come. -/
theorem insert_append_perm {α : Type*} (f : Row → α) (row row' : Row) (hf : f row' = f row) (place : Nat)
    (rows : List Row) : (((db.insert row' place).rows ++ rows).map f).Perm ((db.rows ++ row :: rows).map f) := by
  have hinsert := ((insert_rows_perm db row' place).append_right rows).map f
  refine hinsert.trans ?_
  rw [List.cons_append, List.map_cons, hf, ← List.map_cons]
  exact (List.perm_middle.map f).symm

/-- By induction on the lines left: each inserts its row. -/
theorem executeLines_rows {rows : List Row} {envs : List Env} (wf : db.WellFormed)
    (configured : ∀ row ∈ rows, Configured checks row) (hosts : ((db.rows ++ rows).map Row.remoteHost).Nodup)
    (hlen : db.rows.length + rows.length ≤ maxRemoteServers) (serves : ∀ env ∈ envs, env.Serves checks)
    (uuids : (db.rows.map Row.uuid ++ envs.map Env.uuid).Nodup) (henvs : envs.length = rows.length) :
    ∃ db', executeLines (envs.zip (vtyshConfigContextSyslogClientcallback rows)) db = some db' ∧
      (db'.rows.map Row.columns).Perm ((db.rows ++ rows).map Row.columns) := by
  induction rows generalizing db envs with
  | nil =>
    obtain rfl := List.length_eq_zero_iff.mp henvs
    exact ⟨db, rfl, by rw [List.append_nil]⟩
  | cons row rows ih =>
    cases envs with
    | nil => cases henvs
    | cons env envs =>
      obtain ⟨hrow, hrows⟩ := List.forall_mem_cons.mp configured
      obtain ⟨henv, henvServes⟩ := List.forall_mem_cons.mp serves
      have hfresh : env.uuid ∉ db.rows.map Row.uuid := fun hmem =>
        (List.nodup_append.mp uuids).2.2 _ hmem _ (by simp) rfl
      have hhost : row.remoteHost ∉ db.rows.map Row.remoteHost := fun hmem => by
        rw [List.map_append] at hosts
        exact (List.nodup_append.mp hosts).2.2 _ hmem _ (by simp) rfl
      rw [List.length_cons] at hlen
      have hroom : db.rows.length < maxRemoteServers := by omega
      let row' : Row := { row with uuid := env.uuid }
      let next := db.insert row' env.place
      have hnext : next.WellFormed := wf.insert (show row'.remoteHost ∉ _ from hhost) hfresh hroom _
      have hhosts : ((next.rows ++ rows).map Row.remoteHost).Nodup :=
        (insert_append_perm Row.remoteHost row row' rfl env.place rows).nodup_iff.mpr hosts
      have huuids : (next.rows.map Row.uuid ++ envs.map Env.uuid).Nodup := by
        have hperm := ((insert_rows_perm db row' env.place).map Row.uuid).append_right (envs.map Env.uuid)
        exact (hperm.trans List.perm_middle.symm).nodup_iff.mpr uuids
      have hnextLen : next.rows.length + rows.length ≤ maxRemoteServers := by
        rw [(insert_rows_perm db row' env.place).length_eq, List.length_cons]
        omega
      obtain ⟨db', hrun, hcolumns⟩ := ih hnext hrows hhosts hnextLen henvServes huuids (Nat.succ.inj henvs)
      refine ⟨db', ?_, hcolumns.trans (insert_append_perm Row.columns row row' rfl env.place rows)⟩
      rw [vtyshConfigContextSyslogClientcallback, List.map_cons, List.zip_cons_cons, executeLines,
        executeLine_new hrow henv wf hfresh hhost hroom]
      exact hrun

theorem rowMatches_request (row : Row) (next : Option Row) : rowMatches row next row.request false true = true := by
  have hhost : (some row.remoteHost == row.request.remoteHost) = true := beq_self_eq_true _
  have htransport : matchTransport row row.request true = true := by
    cases h : row.transport <;> simp [matchTransport, Row.request, h]
  have hport : matchPort row next row.request true = true := by
    cases h : row.portNumber <;> simp [matchPort, Row.request, h]
  have hseverity : matchSeverity row row.request true = true := by
    cases h : row.severity <;> simp [matchSeverity, Row.request, h]
  rw [rowMatches, hhost, htransport, hport, hseverity]
  rfl

/-- On the table of the row the line finds the row and changes nothing. -/
theorem executeLine_present (h : Configured checks row) (hs : env.Serves checks) (wf : db.WellFormed) (hrow : row ∈ db.rows)
    (finish : TxnStatus) : executeLine env finish db (contextLine row) = some ⟨.success, [], db⟩ := by
  obtain ⟨pre, x, post, hl, hsplit⟩ := Keyed.exists_split wf.hosts (List.mem_map_of_mem hrow)
  obtain rfl := hsplit.eq_of_mem (hl ▸ hrow) rfl
  have hfound : syslogRemoteGetConfig row.request false true db.rows = some row := by
    rw [hl, getConfig_split rfl hsplit, if_pos (rowMatches_request row _)]
  have hhost : row.request.remoteHost = some row.remoteHost := rfl
  rw [executeLine_contextLine h]
  simp [cliSyslogConfig, prepareSyslogConfig, Prepared.finish, hs.txn, hs.system, hhost, h.host env hs.uses, hfound]

/-! ### Tables that the commands reach -/

/-- A command that vtysh has dispatched, run on a snapshot; or the `y` branch of `no logging`. -/
def Commanded (checks : Checks) (history : List Db) (snapshot : Db) (t : Txn) : Prop :=
  (∃ (env : Env) (form : Form) (argv : List Text) (isAdd : Bool), env.Uses checks ∧ (∀ w ∈ argv, IsWord w) ∧
      (prepareSyslogConfig env snapshot (form.request argv) isAdd).next = .ok t ∧
      ∀ db ∈ history, env.uuid ∉ db.rows.map Row.uuid) ∨
    ∃ env, (prepareNoSyslog env snapshot).next = .ok t

/-- Any number of vtysh sessions that run commands. -/
def commands (checks : Checks) : Optimistic.Protocol Db Txn := { sessions with plan := Commanded checks }

theorem Commanded.planned {history : List Db} {t : Txn} (h : Commanded checks history db t) : Planned history db t := by
  rcases h with ⟨env, form, argv, isAdd, -, -, hok, hfresh⟩ | hno
  · exact Or.inl ⟨env, form.request argv, isAdd, hok, hfresh⟩
  · exact Or.inr hno

theorem request_remoteHost (form : Form) (argv : List Text) : (form.request argv).remoteHost = hostArgument argv := by
  cases form <;> rfl

/-- Only the forms with a transport read a port. -/
theorem request_port {form : Form} {argv : List Text} {p : Int} (h : (form.request argv).portNumber = some p) :
    (form.request argv).transport.isSome = true := by
  cases form with
  | basic => cases h
  | svrt => cases h
  | protSvrtNoport => cases h
  | udp => rfl
  | tcp => rfl
  | udpSvrt => rfl
  | tcpSvrt => rfl

theorem hostArgument_word {argv : List Text} {host : String} (hwords : ∀ w ∈ argv, IsWord w)
    (h : hostArgument argv = some host) : IsWord host.toList := by
  cases argv with
  | nil => cases h
  | cons w argv =>
    obtain rfl := Option.some.inj h
    rw [String.toList_ofList]
    exact hwords w List.mem_cons_self

/-- The refusal of a host depends on the checks alone. -/
theorem remoteHostError_uses {env' : Env} (h : env.Uses checks) (h' : env'.Uses checks) (host : String) :
    remoteHostError env host = remoteHostError env' host := by
  simp only [remoteHostError, validateCliArgs, h.1, h.2, h'.1, h'.2]

theorem prepareSyslogConfig_host {q : Request} {isAdd : Bool} {host : String} {t : Txn}
    (h : (prepareSyslogConfig env db q isAdd).next = .ok t) (hq : q.remoteHost = some host) :
    remoteHostError env host = none := by
  unfold prepareSyslogConfig at h
  split at h
  · cases h
  · simp only [hq] at h
    split at h
    · cases h
    · assumption

theorem newRow_configured {form : Form} {argv : List Text} {host : String} (uses : env.Uses checks)
    (hwords : ∀ w ∈ argv, IsWord w) (hq : (form.request argv).remoteHost = some host)
    (hvalid : remoteHostError env host = none) (uuid : Uuid) :
    Configured checks (newRow uuid host (form.request argv)) where
  host env' uses' := (remoteHostError_uses uses' uses host).trans hvalid
  word := hostArgument_word hwords ((request_remoteHost form argv).symm.trans hq)
  port p hp := by
    obtain ⟨hport, hrange⟩ := Option.filter_eq_some_iff.mp hp
    rw [Bool.and_eq_true, decide_eq_true_iff, decide_eq_true_iff] at hrange
    exact ⟨request_port hport, hrange⟩

/-- A command inserts only rows that it has configured. -/
theorem Commanded.configured {history : List Db} {t : Txn} {r : Row} {place : Nat} (h : Commanded checks history db t)
    (wf : db.WellFormed) (hins : Write.insertRow r place ∈ t.ops) : Configured checks r := by
  rcases h with ⟨env, form, argv, isAdd, uses, hwords, hok, -⟩ | ⟨env, hok⟩
  · obtain ⟨-, -, hcases⟩ := prepareSyslogConfig_ok wf hok
    rcases hcases with ⟨-, row, -, hops⟩ | ⟨host, -, hq, hadd⟩
    · simp [hops, removeWrites] at hins
    · have hr : r = newRow env.uuid host (form.request argv) := by
        rcases hadd with ⟨row, -, -, hops⟩ | ⟨-, -, hops⟩
        · simp [hops, removeWrites, insertWrites] at hins
          exact hins.1
        · simp [hops, insertWrites] at hins
          exact hins.1
      rw [hr]
      exact newRow_configured uses hwords hq (prepareSyslogConfig_host hok hq) _
  · exact absurd hins ((prepareNoSyslog_ok hok).2.2.2 r place)

theorem commands_sound (checks : Checks) :
    Optimistic.Sound (commands checks) (fun db => db.WellFormed ∧ ∀ row ∈ db.rows, Configured checks row) Coherent where
  shows := fun h hsame => ⟨Db.Same.wellFormed hsame h.1, fun row hrow => h.2 row ((Db.Same.rows hsame).mem_iff.mp hrow)⟩
  commit := by
    intro h s v cur t hinv hcoh hs hcur hsame hplan hcheck
    have hplanned : Planned h v t := Commanded.planned hplan
    have wfv : v.WellFormed := Db.Same.wellFormed hsame (hinv s hs).1
    obtain ⟨hwf, hself, hback⟩ :=
      sessions_sound.commit (fun x hx => (hinv x hx).1) hcoh hs hcur hsame hplanned hcheck
    refine ⟨⟨hwf, fun row hrow => ?_⟩, hself, hback⟩
    rcases mem_writes_rows hrow with hold | ⟨place, hnew⟩
    · exact (hinv cur hcur).2 row hold
    · exact Commanded.configured hplan wfv hnew

/-- However the sessions interleave, the lines of the table rebuild it on an empty one, in any order and
    column by column, and executing one of them on the table itself returns CMD_SUCCESS and changes nothing. -/
theorem context_roundTrip {ι : Type*} [DecidableEq ι] {s : Optimistic.System Db ι}
    (h : Optimistic.Reachable (commands checks) noRemotes s) :
    (∀ (lines : List Text) (envs : List Env),
        lines.Perm (vtyshConfigContextSyslogClientcallback s.current.rows) → envs.length = lines.length →
        (∀ env ∈ envs, env.Serves checks) → (envs.map Env.uuid).Nodup →
        ∃ db', executeLines (envs.zip lines) noRemotes = some db' ∧
          (db'.rows.map Row.columns).Perm (s.current.rows.map Row.columns)) ∧
      ∀ line ∈ vtyshConfigContextSyslogClientcallback s.current.rows, ∀ (env : Env) (finish : TxnStatus),
        env.Serves checks → executeLine env finish s.current line = some ⟨.success, [], s.current⟩ := by
  have hempty : ∀ row ∈ noRemotes.rows, Configured checks row := fun row hrow => by cases hrow
  have hc := h.consistent (commands_sound checks) ⟨empty_wellFormed, hempty⟩ (coherent_self empty_wellFormed)
  obtain ⟨wf, configured⟩ := hc.inv _ List.mem_cons_self
  refine ⟨fun lines envs hlines henvs serves uuids => ?_, fun line hline env finish serves => ?_⟩
  · have hcomp := (congrFun (congrFun (List.eq_map_comp_perm contextLine) lines) s.current.rows).mpr hlines
    obtain ⟨rows, rfl, hrows⟩ := hcomp
    have hosts : ((noRemotes.rows ++ rows).map Row.remoteHost).Nodup := (hrows.map _).nodup_iff.mpr wf.hosts
    have hroom : noRemotes.rows.length + rows.length ≤ maxRemoteServers := by
      rw [hrows.length_eq]
      exact (Nat.zero_add _).le.trans wf.limit
    obtain ⟨db', hrun, hcolumns⟩ := executeLines_rows empty_wellFormed
      (fun row hrow => configured row (hrows.mem_iff.mp hrow)) hosts hroom serves uuids
      (henvs.trans (List.length_map _))
    exact ⟨db', hrun, hcolumns.trans (hrows.map _)⟩
  · obtain ⟨row, hrow, rfl⟩ := List.mem_map.mp hline
    exact executeLine_present (configured row hrow) serves wf hrow finish

end

/-- The checks of `plainEnv`. -/
def plainChecks : Checks := ⟨plainEnv.isValidIpAddress, plainEnv.regexec⟩

/-- One session has executed `logging 10.0.0.2 udp 2000`. -/
def afterLine : Optimistic.System Db Unit where
  current := noRemotes.writes firstAdd.ops
  past := [noRemotes]
  sessions := Function.update (Function.update (fun _ => none) () (some noRemotes)) () none

theorem afterLine_reachable : Optimistic.Reachable (commands plainChecks) noRemotes afterLine := by
  have same : noRemotes.Same noRemotes := ⟨List.Perm.refl _, List.Perm.refl _⟩
  have hhost : some (String.ofList "10.0.0.2".toList) = some "10.0.0.2" := congrArg some String.ofList_toList
  have hport : some (Text.atoi (Text.decimal 2000)) = some 2000 :=
    congrArg some (Text.atoi_decimal (n := 2000) (by decide))
  have hrequest : Form.udp.request ["10.0.0.2".toList, Text.decimal 2000] = otherPort := by
    rw [otherPort, ← hhost, ← hport]
    rfl
  have hplan : Commanded plainChecks [noRemotes] noRemotes firstAdd := by
    refine Or.inl ⟨plainEnv, .udp, ["10.0.0.2".toList, Text.decimal 2000], true, ⟨rfl, rfl⟩, ?_, ?_, fun db hdb => ?_⟩
    · intro w hw
      rcases List.mem_cons.mp hw with rfl | hw
      · exact ⟨by decide, by decide⟩
      · obtain rfl := List.mem_singleton.mp hw
        exact decimal_isWord 2000
    · rw [hrequest]
      rfl
    · obtain rfl := List.mem_singleton.mp hdb
      simp [noRemotes]
  have hcheck : firstAdd.Check noRemotes := fun us hus u => by
    obtain rfl := Option.some.inj hus
    rfl
  let opened : Unit → Option Db := Function.update (fun _ => none) () (some noRemotes)
  have hview : opened () = some noRemotes := Function.update_self ..
  have hopen : Optimistic.Reachable (commands plainChecks) noRemotes ⟨noRemotes, [], opened⟩ :=
    Optimistic.Reachable.init.step (Optimistic.Step.snapshot () List.mem_cons_self same)
  have hstep : Optimistic.Step (commands plainChecks) ⟨noRemotes, [], opened⟩ afterLine :=
    Optimistic.Step.commit (P := commands plainChecks) (t := firstAdd) (s := ⟨noRemotes, [], opened⟩) ()
      hview hplan hcheck
  exact hopen.step hstep

theorem context_roundTrip_afterLine :
    (∀ (lines : List Text) (envs : List Env),
        lines.Perm (vtyshConfigContextSyslogClientcallback afterLine.current.rows) → envs.length = lines.length →
        (∀ env ∈ envs, env.Serves plainChecks) → (envs.map Env.uuid).Nodup →
        ∃ db', executeLines (envs.zip lines) noRemotes = some db' ∧
          (db'.rows.map Row.columns).Perm (afterLine.current.rows.map Row.columns)) ∧
      ∀ line ∈ vtyshConfigContextSyslogClientcallback afterLine.current.rows, ∀ (env : Env) (finish : TxnStatus),
        env.Serves plainChecks → executeLine env finish afterLine.current line = some ⟨.success, [], afterLine.current⟩ :=
  context_roundTrip afterLine_reachable

end Syslog
end OpsSupportability
