import OpsSupportability.Lib.Optimistic
import OpsSupportability.Theorems.SyslogRefine

/-! Any number of vtysh sessions on one syslog table. A session plans its command on a snapshot; the
    commit passes only while `System.syslog_remotes` is what the snapshot showed. Since rows are never
    changed after their insertion, the references decide the rows, and the commit does to the table
    what it did to the snapshot. -/

namespace OpsSupportability
namespace Syslog

/-- Two views of one database state: the IDL may show rows and references in another order. -/
structure Db.Same (a b : Db) : Prop where
  rows : a.rows.Perm b.rows
  refs : a.syslogRemotes.Perm b.syslogRemotes

/-- Rows of one identity are one row. -/
def Coherent (a b : Db) : Prop := ∀ r ∈ a.rows, ∀ r' ∈ b.rows, r.uuid = r'.uuid → r = r'

/-- A command run on a snapshot: `cli_syslog_config`, whose insertion gets an identity that no state has
    used, or the `y` branch of `no logging`. -/
def Planned (history : List Db) (snapshot : Db) (t : Txn) : Prop :=
  (∃ env q isAdd, (prepareSyslogConfig env snapshot q isAdd).next = .ok t ∧
      ∀ db ∈ history, env.uuid ∉ db.rows.map Row.uuid) ∨
    ∃ env, (prepareNoSyslog env snapshot).next = .ok t

/-- The prerequisites of the transaction hold in the current state; a column is compared as a set. -/
def Txn.Check (t : Txn) (current : Db) : Prop :=
  ∀ us, t.verify = some us → ∀ u, u ∈ us ↔ u ∈ current.syslogRemotes

def sessions : Optimistic.Protocol Db Txn where
  shows server snapshot := snapshot.Same server
  plan := Planned
  check := Txn.Check
  apply t current := current.writes t.ops

/-! ### Equal up to order -/

theorem Db.Same.wellFormed {a b : Db} (h : a.Same b) (wf : b.WellFormed) : a.WellFormed where
  hosts := ((h.rows.map _).nodup_iff).mpr wf.hosts
  uuids := ((h.rows.map _).nodup_iff).mpr wf.uuids
  limit := h.rows.length_eq ▸ wf.limit
  refs := h.refs.trans (wf.refs.trans (h.rows.map _).symm)

theorem Db.Same.write {a b : Db} (h : a.Same b) (w : Write) : (a.write w).Same (b.write w) := by
  cases w with
  | deleteRow u => exact ⟨h.rows.filter _, h.refs⟩
  | insertRow row place =>
    exact ⟨(insert_rows_perm a row place).trans ((h.rows.cons row).trans (insert_rows_perm b row place).symm), h.refs⟩
  | setSyslogRemotes us => exact ⟨h.rows, List.Perm.refl _⟩

theorem Db.Same.writes {a b : Db} (h : a.Same b) (ws : List Write) : (a.writes ws).Same (b.writes ws) := by
  induction ws generalizing a b with
  | nil => exact h
  | cons w ws ih => exact ih (h.write w)

/-- Well-formed coherent states with the same references are the same state. -/
theorem same_of_refs {a b : Db} (wfa : a.WellFormed) (wfb : b.WellFormed) (hab : Coherent a b)
    (h : ∀ u, u ∈ a.syslogRemotes ↔ u ∈ b.syslogRemotes) : a.Same b := by
  have huuid : ∀ u, u ∈ a.rows.map Row.uuid ↔ u ∈ b.rows.map Row.uuid := fun u => by
    rw [← wfa.refs.mem_iff, ← wfb.refs.mem_iff, h]
  have hrow : ∀ r, r ∈ a.rows ↔ r ∈ b.rows := fun r => by
    constructor
    · intro hr
      obtain ⟨r', hr', heq⟩ := List.mem_map.mp ((huuid r.uuid).mp (List.mem_map_of_mem hr))
      exact hab r hr r' hr' heq.symm ▸ hr'
    · intro hr
      obtain ⟨r', hr', heq⟩ := List.mem_map.mp ((huuid r.uuid).mpr (List.mem_map_of_mem hr))
      exact hab r' hr' r hr heq ▸ hr'
  refine ⟨(List.perm_ext_iff_of_nodup (List.Nodup.of_map _ wfa.uuids) (List.Nodup.of_map _ wfb.uuids)).mpr hrow, ?_⟩
  have nda := wfa.refs.nodup_iff.mpr wfa.uuids
  have ndb := wfb.refs.nodup_iff.mpr wfb.uuids
  exact (List.perm_ext_iff_of_nodup nda ndb).mpr h

/-! ### What a planned transaction does -/

theorem mem_writes_rows {db : Db} {ws : List Write} {r : Row} (h : r ∈ (db.writes ws).rows) :
    r ∈ db.rows ∨ ∃ place, Write.insertRow r place ∈ ws := by
  induction ws generalizing db with
  | nil => exact Or.inl h
  | cons w ws ih =>
    rcases ih h with hr | ⟨place, hp⟩
    · cases w with
      | deleteRow u => exact Or.inl (List.mem_filter.mp hr).1
      | insertRow row place =>
        rcases List.mem_cons.mp ((insert_rows_perm db row place).mem_iff.mp hr) with rfl | hr
        · exact Or.inr ⟨place, List.mem_cons_self⟩
        · exact Or.inl hr
      | setSyslogRemotes us => exact Or.inl hr
    · exact Or.inr ⟨place, List.mem_cons_of_mem _ hp⟩

theorem foldl_deleteRow (l : List Row) (t : Txn) :
    l.foldl (fun t row => t.push (.deleteRow row.uuid)) t =
      { t with ops := t.ops ++ l.map fun row => .deleteRow row.uuid } := by
  induction l generalizing t with
  | nil => simp
  | cons row l ih =>
    rw [List.foldl_cons, ih]
    simp [Txn.push]

theorem writes_deleteRow_rows (l : List Row) (db : Db) :
    (db.writes (l.map fun row => .deleteRow row.uuid)).rows = db.rows.filter fun r => r.uuid ∉ l.map Row.uuid := by
  induction l generalizing db with
  | nil => simp [Db.writes]
  | cons row l ih =>
    refine (ih (db.write (.deleteRow row.uuid))).trans ?_
    rw [Db.write, List.filter_filter]
    refine List.filter_congr fun r _ => ?_
    by_cases hr : r.uuid = row.uuid <;> simp [hr]

/-- `no logging` empties the table. -/
theorem prepareNoSyslog_ok {env : Env} {db : Db} {t : Txn} (h : (prepareNoSyslog env db).next = .ok t) :
    t.start = db ∧ t.verify = some db.syslogRemotes ∧ t.view = ⟨[], []⟩ ∧ ∀ r place, Write.insertRow r place ∉ t.ops := by
  unfold prepareNoSyslog at h
  split at h
  · cases h
  · simp only [foldl_deleteRow, Except.ok.injEq] at h
    subst h
    refine ⟨rfl, rfl, ?_, by simp [Txn.push, Txn.verifySyslogRemotes, Txn.begin]⟩
    rw [view_push, view_verify, Db.write]
    have hrows := writes_deleteRow_rows db.rows db
    have hnil : (db.rows.filter fun r => r.uuid ∉ db.rows.map Row.uuid) = [] := by
      rw [List.filter_eq_nil_iff]
      intro r hr
      simpa using ⟨r, hr, rfl⟩
    rw [hnil] at hrows
    simp [Txn.view, Txn.begin, hrows]

theorem empty_wellFormed : (⟨[], []⟩ : Db).WellFormed := ⟨List.nodup_nil, List.nodup_nil, Nat.zero_le _, List.Perm.refl _⟩

/-- A planned transaction keeps the snapshot well formed, checks the references it read, and inserts
    only a row with an identity that no state has used. -/
theorem Planned.spec {history : List Db} {snapshot s : Db} {t : Txn} (h : Planned history snapshot t)
    (wf : snapshot.WellFormed) (hs : s ∈ history) (hsame : snapshot.Same s) :
    t.start = snapshot ∧ t.verify = some snapshot.syslogRemotes ∧ t.view.WellFormed ∧
      ∀ r place, Write.insertRow r place ∈ t.ops → ∀ db ∈ history, r.uuid ∉ db.rows.map Row.uuid := by
  rcases h with ⟨env, q, isAdd, hok, hfresh⟩ | ⟨env, hok⟩
  · obtain ⟨rfl, hv, hcases⟩ := prepareSyslogConfig_ok wf hok
    refine ⟨rfl, hv, ?_⟩
    have hnew : env.uuid ∉ t.start.rows.map Row.uuid := fun hmem =>
      hfresh s hs ((hsame.rows.map Row.uuid).mem_iff.mp hmem)
    rcases hcases with ⟨-, row, -, hops⟩ | ⟨host, -, -, ⟨row, hrow, hhost, hops⟩ | ⟨hhost, hlen, hops⟩⟩
    · refine ⟨by rw [Txn.view, hops]; exact wf.remove row, fun r place hmem => ?_⟩
      simp [hops, removeWrites] at hmem
    · refine ⟨?_, fun r place hmem => ?_⟩
      · rw [Txn.view, hops, Db.writes, List.foldl_append]
        refine (wf.remove row).insert (hhost ▸ not_mem_remove wf hrow)
          (fun hmem => hnew ((List.filter_sublist.map _).mem hmem)) ?_ _
        · have := wf.length_remove hrow
          have := wf.limit
          omega
      · simp only [hops, removeWrites, insertWrites, List.mem_append, List.mem_cons, List.not_mem_nil, or_false,
          reduceCtorEq, false_or, Write.insertRow.injEq] at hmem
        exact hmem.1 ▸ hfresh
    · refine ⟨by rw [Txn.view, hops]; exact wf.insert hhost hnew hlen _, fun r place hmem => ?_⟩
      simp only [hops, insertWrites, List.mem_cons, List.not_mem_nil, or_false, reduceCtorEq,
        Write.insertRow.injEq] at hmem
      exact hmem.1 ▸ hfresh
  · obtain ⟨hstart, hv, hview, hins⟩ := prepareNoSyslog_ok hok
    exact ⟨hstart, hv, hview ▸ empty_wellFormed, fun r place hmem => absurd hmem (hins r place)⟩

/-! ### Every interleaving -/

theorem coherent_self {db : Db} (wf : db.WellFormed) : Coherent db db := fun _ hr _ hr' h =>
  List.inj_on_of_nodup_map wf.uuids hr hr' h

theorem sessions_sound : Optimistic.Sound sessions Db.WellFormed Coherent where
  shows := fun wf hsame => Db.Same.wellFormed hsame wf
  commit := by
    intro h s v cur t hinv hcoh hs hcur hsame hplan hcheck
    have wfv : v.WellFormed := Db.Same.wellFormed hsame (hinv s hs)
    obtain ⟨hstart, hverify, hview, hins⟩ := Planned.spec hplan wfv hs hsame
    have hvc : Coherent v cur := fun r hr r' hr' => hcoh s hs cur hcur r (hsame.rows.mem_iff.mp hr) r' hr'
    have hcur' : cur.Same v := same_of_refs (hinv cur hcur) wfv (fun r hr r' hr' heq => (hvc r' hr' r hr heq.symm).symm)
      fun u => (hcheck _ hverify u).symm
    -- The commit does to the current state what the plan did to the snapshot.
    have hwf : (cur.writes t.ops).WellFormed := (hcur'.writes t.ops).wellFormed (hstart ▸ hview)
    have hback : ∀ x ∈ h, Coherent x (cur.writes t.ops) := fun x hx r hr r' hr' heq => by
      rcases mem_writes_rows hr' with hold | ⟨place, hnew⟩
      · exact hcoh x hx cur hcur r hr r' hold heq
      · exact absurd (heq ▸ List.mem_map_of_mem hr) (hins r' place hnew x hx)
    exact ⟨hwf, coherent_self hwf, fun x hx => ⟨hback x hx, fun r hr r' hr' heq => (hback x hx r' hr' r hr heq.symm).symm⟩⟩

theorem Db.WellFormed.count_ref {db : Db} (wf : db.WellFormed) {row : Row} (hrow : row ∈ db.rows) :
    db.syslogRemotes.count row.uuid = 1 := by
  rw [wf.refs.count_eq]
  exact List.count_eq_one_of_mem wf.uuids (List.mem_map_of_mem hrow)

/-- The array of a deletion on a well-formed snapshot is filled within its bounds. -/
theorem deleteConfig_arrays {db : Db} (wf : db.WellFormed) (env : Env) (q : Request) (hostOnly errorOnNoMatch : Bool) :
    ∀ a ∈ (cliSyslogDeleteConfig env q (Txn.begin db) hostOnly errorOnNoMatch).arrays,
      a.allocated = db.syslogRemotes.length - 1 ∧ a.written ≤ db.syslogRemotes.length - 1 := by
  intro a ha
  cases hg : syslogRemoteGetConfig q hostOnly false db.rows with
  | none =>
    rw [deleteConfig_none (t := Txn.begin db) env errorOnNoMatch hg] at ha
    cases errorOnNoMatch <;> simp at ha
  | some row =>
    rw [deleteConfig_some env errorOnNoMatch wf (mem_of_getConfig hg).1 hg] at ha
    cases hc : env.callocDelete
    · simp [hc] at ha
    · simp only [hc, ↓reduceIte, List.mem_singleton] at ha
      subst ha
      exact ⟨rfl, Nat.le_refl _⟩

/-- However the sessions interleave: the server keeps at most four rows with distinct hosts, each
    referenced exactly once and nothing else referenced; and a deletion on any session's snapshot writes
    at most as many entries as it allocated. -/
theorem sessions_safe {ι : Type*} [DecidableEq ι] {init : Db} (wf : init.WellFormed) {s : Optimistic.System Db ι}
    (h : Optimistic.Reachable sessions init s) :
    (s.current.rows.length ≤ maxRemoteServers ∧
      (s.current.rows.map Row.remoteHost).Nodup ∧
      (∀ row ∈ s.current.rows, s.current.syslogRemotes.count row.uuid = 1) ∧
      ∀ u ∈ s.current.syslogRemotes, ∃ row ∈ s.current.rows, row.uuid = u) ∧
    ∀ i snapshot, s.sessions i = some snapshot → ∀ env q hostOnly errorOnNoMatch,
      ∀ a ∈ (cliSyslogDeleteConfig env q (Txn.begin snapshot) hostOnly errorOnNoMatch).arrays,
        a.allocated = snapshot.syslogRemotes.length - 1 ∧ a.written ≤ snapshot.syslogRemotes.length - 1 := by
  have hc := h.consistent sessions_sound wf (coherent_self wf)
  have hcur : s.current.WellFormed := hc.inv _ List.mem_cons_self
  refine ⟨⟨hcur.limit, hcur.hosts, fun row hrow => hcur.count_ref hrow, fun u hu => ?_⟩, fun i v hv => ?_⟩
  · exact List.mem_map.mp (hcur.refs.mem_iff.mp hu)
  · exact deleteConfig_arrays (h.view_inv sessions_sound wf (coherent_self wf) hv)

def noRemotes : Db := ⟨[], []⟩

/-- What `logging 10.0.0.2 udp 2000` plans on the empty table. -/
def firstAdd : Txn := ⟨noRemotes, insertWrites noRemotes ⟨7, "10.0.0.2", some .udp, some 2000, none⟩ 0, some []⟩

/-- Two sessions have taken a snapshot of the empty table, and the second has committed an add. -/
def afterFirstAdd : Optimistic.System Db Bool where
  current := noRemotes.writes firstAdd.ops
  past := [noRemotes]
  sessions := Function.update (Function.update (Function.update (fun _ => none) true (some noRemotes))
    false (some noRemotes)) false none

theorem afterFirstAdd_reachable : Optimistic.Reachable sessions noRemotes afterFirstAdd := by
  have same : noRemotes.Same noRemotes := ⟨List.Perm.refl _, List.Perm.refl _⟩
  have hplan : Planned [noRemotes] noRemotes firstAdd :=
    Or.inl ⟨plainEnv, otherPort, true, rfl, fun db hdb => by
      obtain rfl := List.mem_singleton.mp hdb
      simp [noRemotes]⟩
  have hcheck : firstAdd.Check noRemotes := fun us hus u => by
    obtain rfl := Option.some.inj hus
    rfl
  let opened : Bool → Option Db := Function.update (fun _ => none) true (some noRemotes)
  have h₁ : Optimistic.Reachable sessions noRemotes ⟨noRemotes, [], opened⟩ :=
    Optimistic.Reachable.init.step (Optimistic.Step.snapshot true List.mem_cons_self same)
  have h₂ : Optimistic.Reachable sessions noRemotes ⟨noRemotes, [], Function.update opened false (some noRemotes)⟩ :=
    h₁.step (Optimistic.Step.snapshot false List.mem_cons_self same)
  have hview : Function.update opened false (some noRemotes) false = some noRemotes := Function.update_self ..
  have hstep : Optimistic.Step sessions ⟨noRemotes, [], Function.update opened false (some noRemotes)⟩
      ⟨sessions.apply firstAdd noRemotes, [noRemotes],
        Function.update (Function.update opened false (some noRemotes)) false none⟩ :=
    Optimistic.Step.commit (P := sessions) (t := firstAdd) (s := ⟨noRemotes, [], _⟩) false hview hplan hcheck
  exact h₂.step hstep

theorem sessions_safe_afterFirstAdd :
    (afterFirstAdd.current.rows.length ≤ maxRemoteServers ∧
      (afterFirstAdd.current.rows.map Row.remoteHost).Nodup ∧
      (∀ row ∈ afterFirstAdd.current.rows, afterFirstAdd.current.syslogRemotes.count row.uuid = 1) ∧
      ∀ u ∈ afterFirstAdd.current.syslogRemotes, ∃ row ∈ afterFirstAdd.current.rows, row.uuid = u) ∧
    ∀ i snapshot, afterFirstAdd.sessions i = some snapshot → ∀ env q hostOnly errorOnNoMatch,
      ∀ a ∈ (cliSyslogDeleteConfig env q (Txn.begin snapshot) hostOnly errorOnNoMatch).arrays,
        a.allocated = snapshot.syslogRemotes.length - 1 ∧ a.written ≤ snapshot.syslogRemotes.length - 1 :=
  sessions_safe empty_wellFormed afterFirstAdd_reachable

end Syslog
end OpsSupportability
