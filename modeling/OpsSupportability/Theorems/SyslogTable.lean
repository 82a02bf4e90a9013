import OpsSupportability.Theorems.SyslogMatch
import Mathlib.Data.List.Perm.Basic
import Mathlib.Logic.Function.Basic

/-! The syslog table as a finite map from hosts to configurations, and the two commands as the map's
    `put` and `drop`. Each command is first inverted into the writes of its transaction
    (`prepareSyslogConfig_ok`); removing and inserting a row keep the table well formed. -/

namespace OpsSupportability
namespace Syslog

/-- Distinct hosts, at most four rows, and each row referenced exactly once by the system row. -/
structure Db.WellFormed (db : Db) : Prop where
  hosts : (db.rows.map Row.remoteHost).Nodup
  uuids : (db.rows.map Row.uuid).Nodup
  limit : db.rows.length ≤ maxRemoteServers
  refs : db.syslogRemotes.Perm (db.rows.map Row.uuid)

/-- The finite map that a table stands for. -/
def Db.remotes (db : Db) : String → Option Config := fun host =>
  (db.rows.find? fun row => row.remoteHost == host).map Row.config

theorem Db.WellFormed.remotes_iff {db : Db} (wf : db.WellFormed) {host : String} {config : Config} :
    db.remotes host = some config ↔ ∃ row, row ∈ db.rows ∧ row.remoteHost = host ∧ row.config = config := by
  refine Option.map_eq_some_iff.trans (exists_congr fun row => ?_)
  rw [Keyed.find?_eq_some_iff wf.hosts, and_assoc]

/-! ### Views of a transaction -/

@[simp] theorem view_begin (db : Db) : (Txn.begin db).view = db := rfl

@[simp] theorem view_push (t : Txn) (w : Write) : (t.push w).view = t.view.write w := by
  simp [Txn.view, Txn.push, Db.writes]

@[simp] theorem view_verify (t : Txn) : t.verifySyslogRemotes.view = t.view := rfl

/-- The writes that remove a row and its reference. -/
def removeWrites (db : Db) (row : Row) : List Write :=
  [.deleteRow row.uuid, .setSyslogRemotes (db.syslogRemotes.filter (· != row.uuid))]

/-- The writes that insert a row and append its reference. -/
def insertWrites (db : Db) (row : Row) (place : Nat) : List Write :=
  [.insertRow row place, .setSyslogRemotes (db.syslogRemotes ++ [row.uuid])]

def Db.remove (db : Db) (row : Row) : Db := db.writes (removeWrites db row)

def Db.insert (db : Db) (row : Row) (place : Nat) : Db := db.writes (insertWrites db row place)

@[simp] theorem remove_rows (db : Db) (row : Row) : (db.remove row).rows = db.rows.filter (·.uuid != row.uuid) := rfl

@[simp] theorem remove_syslogRemotes (db : Db) (row : Row) :
    (db.remove row).syslogRemotes = db.syslogRemotes.filter (· != row.uuid) := rfl

@[simp] theorem insert_rows (db : Db) (row : Row) (place : Nat) :
    (db.insert row place).rows = db.rows.take place ++ row :: db.rows.drop place := rfl

@[simp] theorem insert_syslogRemotes (db : Db) (row : Row) (place : Nat) :
    (db.insert row place).syslogRemotes = db.syslogRemotes ++ [row.uuid] := rfl

theorem insert_rows_perm (db : Db) (row : Row) (place : Nat) : (db.insert row place).rows.Perm (row :: db.rows) := by
  rw [insert_rows]
  refine List.perm_middle.trans ?_
  rw [List.take_append_drop]

namespace Db.WellFormed
variable {db : Db} {row : Row}

/-- Among distinct identities, dropping the row's identity drops the row. -/
theorem remove_rows_split (wf : db.WellFormed) (hrow : row ∈ db.rows) :
    ∃ pre post, db.rows = pre ++ row :: post ∧ (db.remove row).rows = pre ++ post := by
  obtain ⟨pre, x, post, hl, hs⟩ := Keyed.exists_split wf.uuids (List.mem_map_of_mem hrow)
  have hx := hs.eq_of_mem (hl ▸ hrow) rfl
  subst hx
  exact ⟨pre, post, hl, by rw [remove_rows, hl, hs.filter_ne]⟩

theorem remove (wf : db.WellFormed) (row : Row) : (db.remove row).WellFormed where
  hosts := wf.hosts.sublist (List.filter_sublist.map _)
  uuids := wf.uuids.sublist (List.filter_sublist.map _)
  limit := Nat.le_trans (List.length_filter_le _ _) wf.limit
  refs := by
    have := wf.refs.filter (· != row.uuid)
    rwa [List.filter_map] at this

theorem length_remove (wf : db.WellFormed) (hrow : row ∈ db.rows) :
    (db.remove row).rows.length + 1 = db.rows.length := by
  obtain ⟨pre, post, hl, hr⟩ := wf.remove_rows_split hrow
  rw [hl, hr]
  simp
  omega

theorem insert (wf : db.WellFormed) (hhost : row.remoteHost ∉ db.rows.map Row.remoteHost)
    (huuid : row.uuid ∉ db.rows.map Row.uuid) (hlen : db.rows.length < maxRemoteServers) (place : Nat) :
    (db.insert row place).WellFormed where
  hosts := ((insert_rows_perm db row place).map _).nodup_iff.mpr (List.nodup_cons.mpr ⟨hhost, wf.hosts⟩)
  uuids := ((insert_rows_perm db row place).map _).nodup_iff.mpr (List.nodup_cons.mpr ⟨huuid, wf.uuids⟩)
  limit := by
    rw [(insert_rows_perm db row place).length_eq]
    exact hlen
  refs := by
    refine List.Perm.trans ?_ ((insert_rows_perm db row place).map _).symm
    rw [insert_syslogRemotes, List.map_cons]
    exact (List.perm_append_singleton _ _).trans (wf.refs.cons _)

theorem length_refs (wf : db.WellFormed) : db.syslogRemotes.length = db.rows.length := by
  rw [wf.refs.length_eq, List.length_map]

/-- Exactly one reference goes with a row. -/
theorem length_refs_filter (wf : db.WellFormed) (hrow : row ∈ db.rows) :
    (db.syslogRemotes.filter (· != row.uuid)).length = db.syslogRemotes.length - 1 := by
  have h := (wf.remove row).length_refs
  have hlen := wf.length_remove hrow
  rw [remove_syslogRemotes] at h
  rw [h, wf.length_refs]
  omega

end Db.WellFormed

section
variable {db : Db} {row : Row}

theorem remove_rows_host (wf : db.WellFormed) (hrow : row ∈ db.rows) :
    (db.remove row).rows = db.rows.filter (·.remoteHost != row.remoteHost) := by
  rw [remove_rows]
  refine List.filter_congr fun r hr => ?_
  -- Among the rows of the table, identities and hosts tell the same row apart.
  have huuid : r.uuid = row.uuid ↔ r = row := ⟨fun h => List.inj_on_of_nodup_map wf.uuids hr hrow h, congrArg _⟩
  have hhost : r.remoteHost = row.remoteHost ↔ r = row :=
    ⟨fun h => List.inj_on_of_nodup_map wf.hosts hr hrow h, congrArg _⟩
  by_cases h : r = row
  · simp [h]
  · simp [bne, beq_eq_false_iff_ne.mpr fun hu => h (huuid.mp hu), beq_eq_false_iff_ne.mpr fun hh => h (hhost.mp hh)]

theorem not_mem_remove (wf : db.WellFormed) (hrow : row ∈ db.rows) :
    row.remoteHost ∉ (db.remove row).rows.map Row.remoteHost := by
  rw [remove_rows_host wf hrow, List.mem_map]
  rintro ⟨r, hr, heq⟩
  have := (List.mem_filter.mp hr).2
  simp [heq] at this

end

/-! ### The commands -/

theorem deleteConfig_none {q : Request} {t : Txn} {hostOnly : Bool} (env : Env) (errorOnNoMatch : Bool)
    (h : syslogRemoteGetConfig q hostOnly false t.view.rows = none) :
    cliSyslogDeleteConfig env q t hostOnly errorOnNoMatch =
      if errorOnNoMatch then ⟨[], ["Syslog configuration not found"], .warning, t⟩ else ⟨[], [], .success, t⟩ := by
  simp only [cliSyslogDeleteConfig, h]

/-- The deletion of a row that a well-formed table holds: the array is filled exactly. -/
theorem deleteConfig_some {q : Request} {db : Db} {row : Row} {hostOnly : Bool} (env : Env) (errorOnNoMatch : Bool)
    (wf : db.WellFormed) (hrow : row ∈ db.rows) (h : syslogRemoteGetConfig q hostOnly false db.rows = some row) :
    cliSyslogDeleteConfig env q (Txn.begin db) hostOnly errorOnNoMatch =
      if env.callocDelete then
        ⟨[⟨db.syslogRemotes.length - 1, db.syslogRemotes.length - 1⟩], [], .success,
          ⟨db, removeWrites db row, some db.syslogRemotes⟩⟩
      else ⟨[], [], .ovsdbFailure, (Txn.begin db).push (.deleteRow row.uuid)⟩ := by
  have hn : db.syslogRemotes.length ≠ 0 := by
    rw [wf.length_refs]
    exact Nat.ne_of_gt (List.length_pos_of_mem hrow)
  have hw : ((Txn.begin db).push (.deleteRow row.uuid)).view.syslogRemotes = db.syslogRemotes := rfl
  simp only [cliSyslogDeleteConfig, view_begin, h, hw, wf.length_refs_filter hrow]
  cases env.callocDelete
  · simp
  · simp [hn, removeWrites, Txn.push, Txn.begin, Txn.verifySyslogRemotes]

theorem mem_of_getConfig {q : Request} {hostOnly exactMatch : Bool} {rows : List Row} {row : Row}
    (h : syslogRemoteGetConfig q hostOnly exactMatch rows = some row) :
    row ∈ rows ∧ q.remoteHost = some row.remoteHost := by
  induction rows with
  | nil => cases h
  | cons r rows ih =>
    rw [syslogRemoteGetConfig] at h
    split at h
    · rename_i hm
      obtain rfl := Option.some.inj h
      simp only [rowMatches, Bool.and_eq_true, beq_iff_eq] at hm
      exact ⟨List.mem_cons_self, hm.1.symm⟩
    · exact ⟨List.mem_cons_of_mem _ (ih h).1, (ih h).2⟩

theorem getConfig_hostOnly_eq_none {q : Request} {rows : List Row} {host : String} (hq : q.remoteHost = some host) :
    syslogRemoteGetConfig q true false rows = none ↔ host ∉ rows.map Row.remoteHost := by
  constructor
  · intro h
    induction rows with
    | nil => simp
    | cons r rows ih =>
      rw [syslogRemoteGetConfig] at h
      split at h
      · cases h
      · rename_i hm
        rw [rowMatches_hostOnly, hq] at hm
        rw [List.map_cons, List.mem_cons, not_or]
        exact ⟨fun heq => hm (heq ▸ rfl), ih h⟩
  · intro h
    refine getConfig_eq_none fun r hr heq => h ?_
    rw [hq] at heq
    exact List.mem_map.mpr ⟨r, hr, (Option.some.inj heq).symm⟩

theorem insertConfig_ok {env : Env} {host : String} {q : Request} {d : Deleted} {t : Txn} :
    (insertSyslogConfig env host q d).next = .ok t ↔
      d.txn.view.syslogRemotes.length < maxRemoteServers ∧ env.insert = true ∧ env.callocAdd = true ∧
        t = ⟨d.txn.start, d.txn.ops ++ insertWrites d.txn.view (newRow env.uuid host q) env.place,
          some d.txn.start.syslogRemotes⟩ := by
  unfold insertSyslogConfig
  by_cases hlen : maxRemoteServers ≤ d.txn.view.syslogRemotes.length
  · simp [hlen, Nat.not_lt.mpr hlen]
  · have hview : ∀ (row : Row) (place : Nat),
        (d.txn.push (.insertRow row place)).view.syslogRemotes = d.txn.view.syslogRemotes := fun row place => by
      rw [view_push, Db.write]
    simp only [if_neg hlen, hview, true_and, Nat.not_le.mp hlen]
    cases env.insert <;> cases env.callocAdd <;>
      simp [insertWrites, Txn.push, Txn.verifySyslogRemotes, newRow, eq_comm]

/-- What a command that reaches its commit writes: it removes the matching row, replaces the row of the
    host, or inserts a row for a new host below the limit; it verifies the references it read. -/
theorem prepareSyslogConfig_ok {env : Env} {db : Db} {q : Request} {isAdd : Bool} {t : Txn} (wf : db.WellFormed)
    (h : (prepareSyslogConfig env db q isAdd).next = .ok t) :
    t.start = db ∧ t.verify = some db.syslogRemotes ∧
      ((isAdd = false ∧ ∃ row ∈ db.rows, t.ops = removeWrites db row) ∨
        ∃ host, isAdd = true ∧ q.remoteHost = some host ∧
          ((∃ row ∈ db.rows, row.remoteHost = host ∧
              t.ops = removeWrites db row ++ insertWrites (db.remove row) (newRow env.uuid host q) env.place) ∨
            (host ∉ db.rows.map Row.remoteHost ∧ db.rows.length < maxRemoteServers ∧
              t.ops = insertWrites db (newRow env.uuid host q) env.place))) := by
  unfold prepareSyslogConfig at h
  split at h
  · cases h
  split at h
  · cases h
  rename_i host hq
  split at h
  · cases h
  split at h
  · cases h
  split at h
  · cases h
  dsimp only at h
  cases isAdd with
  | false =>
    cases hg : syslogRemoteGetConfig q false false db.rows with
    | none => simp [deleteConfig_none (t := Txn.begin db) env _ hg] at h
    | some row =>
      have hrow := (mem_of_getConfig hg).1
      rw [deleteConfig_some env _ wf hrow hg] at h
      cases hc : env.callocDelete
      · simp [hc] at h
      · simp only [hc, ↓reduceIte, bne_self_eq_false, Bool.false_eq_true, Except.ok.injEq] at h
        subst h
        exact ⟨rfl, rfl, Or.inl ⟨rfl, row, hrow, rfl⟩⟩
  | true =>
    cases hg : syslogRemoteGetConfig q true false db.rows with
    | none =>
      have hhost := (getConfig_hostOnly_eq_none hq).mp hg
      rw [deleteConfig_none (t := Txn.begin db) env _ hg] at h
      simp only [Bool.not_true, Bool.false_eq_true, ↓reduceIte, bne_self_eq_false, insertConfig_ok] at h
      obtain ⟨hlen, -, -, rfl⟩ := h
      rw [view_begin, wf.length_refs] at hlen
      exact ⟨rfl, rfl, Or.inr ⟨host, rfl, hq, Or.inr ⟨hhost, hlen, rfl⟩⟩⟩
    | some row =>
      obtain ⟨hrow, hhost⟩ := mem_of_getConfig hg
      rw [deleteConfig_some env _ wf hrow hg] at h
      cases hc : env.callocDelete
      · simp [hc] at h
      · simp only [hc, ↓reduceIte, bne_self_eq_false, Bool.false_eq_true, insertConfig_ok] at h
        obtain ⟨-, -, -, rfl⟩ := h
        exact ⟨rfl, rfl, Or.inr ⟨host, rfl, hq, Or.inl ⟨row, hrow, Option.some.inj (hhost.symm.trans hq), rfl⟩⟩⟩

end Syslog
end OpsSupportability
