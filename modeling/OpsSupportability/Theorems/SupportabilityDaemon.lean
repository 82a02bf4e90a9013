import OpsSupportability.SupportabilityDaemon
import OpsSupportability.Theorems.CrashCalls
import OpsSupportability.Theorems.Rsyslog
import OpsSupportability.Theorems.SyslogSessions

/-! The daemon at rest: whatever the clients of the database do and whenever core files arrive, it stops waiting
    for work only when rsyslog runs on the rows that the database has, and each core file has been reported. -/

namespace OpsSupportability
namespace SupportabilityDaemon

open CrashProcessing (Call Calling corePath)
open Syslog (Row RemoteRow Db remoteConf)

variable {server : List Row} {conf : Option Text} {s t : State} {a : Action}

/-! ### The sequence numbers -/

/-- Outside `supportability_run` the daemon has seen what the IDL has. -/
def Place.settled : Place → Bool
  | .boot _ | .run | .unixctl | .crashes | .coredumps _ | .loopEnd | .blocked => true
  | .init | .compare | .reconfigure | .copied | .exited => false

def Settled (s : State) : Prop := s.place.settled = true → s.seqno = s.changeSeqno

theorem guarded {p : Prop} [Decidable p] {o : Option State} (h : (if p then o else none) = some t) : p ∧ o = some t := by
  by_cases hp : p
  · exact ⟨hp, (if_pos hp).symm.trans h⟩
  · cases (if_neg hp).symm.trans h

theorem mapped {σ : Type*} {o : Option σ} {f : σ → State} (h : o.map f = some t) : ∃ c, o = some c ∧ f c = t :=
  Option.map_eq_some_iff.mp h

/-- The places of `process_coredumps`, and the one that it returns to. -/
inductive Within : (Option Call → Place) → Place → Prop where
  | boot : Within .boot .run
  | coredumps : Within .coredumps .loopEnd

theorem Within.settled {within : Option Call → Place} {back : Place} (h : Within within back) (call : Option Call) :
    (within call).settled = true ∧ back.settled = true := by
  cases h <;> exact ⟨rfl, rfl⟩

theorem looks_settled {within : Option Call → Place} {back : Place} (h : Within within back) (call : Call) :
    (s.looks within back call).place.settled = true := by
  rw [State.looks]
  dsimp only
  split
  · exact (h.settled _).1
  · exact (h.settled none).2

theorem calls_eq {within : Option Call → Place} {names : List Text} (hstep : s.calls within names = some t) :
    (s.place = within none ∧ names.Perm s.crash.folder) ∧
      t = { s with crash := s.crash.called, place := within (some (.loop names names false)) } := by
  obtain ⟨hcalls, heq⟩ := guarded hstep
  exact ⟨hcalls, (Option.some.inj heq).symm⟩

theorem look_eq (hstep : step s .look = some t) : ∃ within back call, Within within back ∧
    s.place = within (some call) ∧ t = s.looks within back call := by
  rw [step] at hstep
  split at hstep
  · next call hplace =>
    cases hstep
    exact ⟨_, _, call, .boot, hplace, rfl⟩
  · next call hplace =>
    cases hstep
    exact ⟨_, _, call, .coredumps, hplace, rfl⟩
  · cases hstep

theorem Settled.step (h : Settled s) (hstep : step s a = some t) : Settled t := by
  cases a with
  | commit rows | reconnect | rsyslogRestarts =>
    cases hstep
    exact h
  | coreMoved name | coreRemoved name =>
    obtain ⟨c, -, rfl⟩ := mapped hstep
    exact h
  | restart =>
    cases hstep
    exact nofun
  | request | wake =>
    obtain ⟨hplace, heq⟩ := guarded hstep
    cases heq
    exact fun _ => h (by simp [hplace, Place.settled])
  | watch =>
    obtain ⟨-, heq⟩ := guarded hstep
    cases heq
    exact fun _ => rfl
  | boot names | coredumps names =>
    obtain ⟨⟨hplace, -⟩, rfl⟩ := calls_eq hstep
    exact fun _ => h (by rw [hplace]; rfl)
  | look =>
    obtain ⟨within, back, call, hwithin, hplace, rfl⟩ := look_eq hstep
    exact fun _ => h (hplace ▸ (hwithin.settled _).1)
  | idlRun updates count =>
    obtain ⟨-, heq⟩ := guarded hstep
    cases heq
    exact nofun
  | compare rows =>
    obtain ⟨hplace, heq⟩ := guarded hstep
    split at heq
    · next hsame =>
      cases heq
      exact fun _ => hsame
    · obtain ⟨-, heq⟩ := guarded heq
      cases heq
      exact nofun
  | reconfigure sameSignature =>
    obtain ⟨-, heq⟩ := guarded hstep
    split at heq
    · cases heq
      exact nofun
    · split at heq
      · cases heq
        exact fun _ => rfl
      · cases heq
        exact nofun
  | restartRsyslog =>
    obtain ⟨-, heq⟩ := guarded hstep
    cases heq
    exact fun _ => rfl
  | unixctl exit =>
    obtain ⟨hplace, heq⟩ := guarded hstep
    cases heq
    exact fun _ => h (by rw [hplace]; rfl)
  | crashes =>
    obtain ⟨hplace, heq⟩ := guarded hstep
    split at heq <;> cases heq <;> exact fun _ => h (by rw [hplace]; rfl)
  | loopEnd =>
    obtain ⟨hplace, heq⟩ := guarded hstep
    split at heq
    · cases heq
      exact nofun
    · split at heq <;> cases heq <;> exact fun _ => h (by rw [hplace]; rfl)

theorem Settled.init : Settled (State.init server conf) := nofun

/-! ### rsyslog -/

/-- The file has the lines of the rows that the IDL shows. -/
def State.InSync (s : State) : Prop := ∃ rows, rows.Perm (s.idl.map Row.idl) ∧ s.conf = some (remoteConf rows)

/-- The first answer of the database is on its way. -/
def State.Due (s : State) : Prop := s.changeSeqno = 0 ∧ s.pending ≠ []

/-- Files with one signature are equal, and the daemon does not die between the copy of the file and the restart of
    rsyslog. -/
def Faithful (s : State) : Action → Prop
  | .reconfigure sameSignature => sameSignature = true → s.conf = some s.tmp
  | .restart => s.place ≠ .copied
  | _ => True

instance (s : State) : DecidablePred (Faithful s)
  | .reconfigure _ => inferInstanceAs (Decidable (_ → _))
  | .restart => inferInstanceAs (Decidable (_ ≠ _))
  | .commit _ | .reconnect | .coreMoved _ | .coreRemoved _ | .rsyslogRestarts | .request | .watch | .boot _ | .look |
    .idlRun .. | .compare _ | .restartRsyslog | .unixctl _ | .crashes | .coredumps _ | .loopEnd | .wake => isTrue trivial

structure Inv (s : State) : Prop where
  settled : Settled s
  /-- The updates lead from the copy of the IDL to what the database has. -/
  last : s.place ≠ .init → (s.idl :: s.pending).getLast? = some s.server
  synced : s.place.settled = true ∨ s.place = .compare ∧ s.seqno = s.changeSeqno → s.InSync ∨ s.Due
  tmp : s.place = .reconfigure ∨ s.place = .copied → ∃ rows, rows.Perm (s.idl.map Row.idl) ∧ s.tmp = remoteConf rows
  copied : s.place = .copied → s.conf = some s.tmp
  loaded : s.place ≠ .copied → s.loaded = s.conf

theorem last_drop {α : Type*} {x last : α} {l : List α} (h : (x :: l).getLast? = some last) (n : Nat) :
    ((l.take n).getLast?.getD x :: l.drop n).getLast? = some last := by
  cases hdrop : l.drop n with
  | nil =>
    rw [List.take_of_length_le (List.drop_eq_nil_iff.mp hdrop), List.getLast?_singleton]
    rwa [List.getLast?_cons] at h
  | cons y m =>
    have hne : l ≠ [] := by
      rintro rfl
      rw [List.drop_nil] at hdrop
      cases hdrop
    have hlen : n < l.length := by
      by_contra hle
      rw [List.drop_eq_nil_of_le (Nat.le_of_not_lt hle)] at hdrop
      cases hdrop
    rw [List.getLast?_cons_cons, ← hdrop, List.getLast?_drop, if_neg (Nat.not_le_of_lt hlen)]
    rwa [List.getLast?_cons_of_ne_nil hne] at h

theorem Place.settled_ne {p : Place} (h : p.settled = true) :
    p ≠ .init ∧ p ≠ .compare ∧ p ≠ .reconfigure ∧ p ≠ .copied := by
  refine ⟨?_, ?_, ?_, ?_⟩ <;> rintro rfl <;> cases h

/-- The steps of `supportability_reconfigure` that the daemon does not die in are the function. -/
theorem reconfigure_rsyslog {sameSignature : Bool} {rows : List RemoteRow} (htmp : s.tmp = remoteConf rows)
    (hstep : step s (.reconfigure sameSignature) = some t) :
    t.place = .unixctl ∧ t.rsyslog = Syslog.supportabilityReconfigure sameSignature rows s.rsyslog ∨
      t.place = .copied ∧ ∀ u, step t .restartRsyslog = some u →
        u.rsyslog = Syslog.supportabilityReconfigure sameSignature rows s.rsyslog := by
  obtain ⟨-, heq⟩ := guarded hstep
  rw [Syslog.supportabilityReconfigure, State.rsyslog, State.rsyslog, ← htmp]
  split at heq
  · next hconf =>
    cases heq
    refine Or.inr ⟨rfl, fun u hu => ?_⟩
    cases hu
    rw [hconf]
    rfl
  · next conf hconf =>
    rw [hconf]
    dsimp only
    split at heq
    · next hsame =>
      cases heq
      exact Or.inl ⟨rfl, by rw [if_pos hsame, State.configured, hconf]⟩
    · next hsame =>
      cases heq
      refine Or.inr ⟨rfl, fun u hu => ?_⟩
      cases hu
      rw [if_neg hsame]
      rfl

namespace Inv

theorem init : Inv (State.init server conf) where
  settled := Settled.init
  last h := absurd rfl h
  synced := by rintro (h | ⟨h, -⟩) <;> cases h
  tmp := by rintro (h | h) <;> cases h
  copied := nofun
  loaded _ := rfl

/-- The daemon goes on, within what it has seen of the database. -/
theorem moves (h : Inv s) (hfrom : s.place.settled = true) {place : Place} (hto : place.settled = true)
    {exiting events : Bool} {crash : CrashProcessing.State} :
    Inv { s with place := place, exiting := exiting, crash := crash, events := events } := by
  obtain ⟨hinit, -, -, hcopied⟩ := Place.settled_ne hfrom
  obtain ⟨-, -, htmp, hcopied'⟩ := Place.settled_ne hto
  exact
    { settled := fun _ => h.settled hfrom
      last := fun _ => h.last hinit
      synced := fun _ => h.synced (Or.inl hfrom)
      tmp := fun hplace => hplace.elim (absurd · htmp) (absurd · hcopied')
      copied := fun hplace => absurd hplace hcopied'
      loaded := fun _ => h.loaded hcopied }

/-- What happens around the daemon does not touch its file. -/
theorem around (h : Inv s) {server : List Row} {pending : List (List Row)} (hne : pending ≠ [])
    (hlast : pending.getLast? = some server) : Inv { s with server := server, pending := pending } :=
  { h with
    last := fun _ => (List.getLast?_cons_of_ne_nil hne).trans hlast
    synced := fun hplace => (h.synced hplace).imp_right fun hdue => ⟨hdue.1, hne⟩ }

theorem step (h : Inv s) (hfaithful : Faithful s a) (hstep : step s a = some t) : Inv t := by
  have hsettled : Settled t := h.settled.step hstep
  cases a with
  | commit rows =>
    cases hstep
    exact h.around (List.append_ne_nil_of_right_ne_nil _ (List.cons_ne_nil _ _)) List.getLast?_concat
  | reconnect =>
    cases hstep
    exact h.around (List.cons_ne_nil _ _) rfl
  | coreMoved name | coreRemoved name =>
    obtain ⟨c, -, rfl⟩ := mapped hstep
    exact { h with }
  | rsyslogRestarts =>
    cases hstep
    exact { h with loaded := fun _ => rfl }
  | restart =>
    cases hstep
    exact
      { settled := nofun
        last := fun hplace => absurd rfl hplace
        synced := by rintro (hplace | ⟨hplace, -⟩) <;> cases hplace
        tmp := by rintro (hplace | hplace) <;> cases hplace
        copied := nofun
        loaded := fun _ => h.loaded hfaithful }
  | request =>
    obtain ⟨hplace, heq⟩ := guarded hstep
    cases heq
    exact h.moves (by rw [hplace]; rfl) rfl
  | wake =>
    obtain ⟨⟨hplace, -⟩, heq⟩ := guarded hstep
    cases heq
    exact h.moves (by rw [hplace]; rfl) rfl
  | watch =>
    obtain ⟨hplace, heq⟩ := guarded hstep
    cases heq
    exact
      { settled := fun _ => rfl
        last := fun _ => rfl
        synced := fun _ => Or.inr ⟨rfl, List.cons_ne_nil _ _⟩
        tmp := by rintro (hplace | hplace) <;> cases hplace
        copied := nofun
        loaded := fun _ => h.loaded (by rw [hplace]; exact nofun) }
  | boot names | coredumps names =>
    obtain ⟨⟨hplace, -⟩, rfl⟩ := calls_eq hstep
    exact h.moves (by rw [hplace]; rfl) rfl
  | look =>
    obtain ⟨within, back, call, hwithin, hplace, rfl⟩ := look_eq hstep
    exact h.moves (hplace ▸ (hwithin.settled _).1) (looks_settled hwithin call)
  | idlRun updates count =>
    obtain ⟨⟨hplace, hle, hcount⟩, heq⟩ := guarded hstep
    cases heq
    have hfrom : s.place.settled = true := by rw [hplace]; rfl
    have hinit : s.place ≠ .init := by rw [hplace]; exact nofun
    refine
      { settled := hsettled
        last := fun _ => last_drop (h.last hinit) updates
        synced := ?_
        tmp := by rintro (hplace | hplace) <;> cases hplace
        copied := nofun
        loaded := fun _ => h.loaded (by rw [hplace]; exact nofun) }
    rintro (hto | ⟨-, hsame⟩)
    · cases hto
    · -- Without a change the IDL has taken no update.
      have hseqno := h.settled hfrom
      have hzero : count = 0 := by
        dsimp only at hsame
        omega
      obtain rfl : updates = 0 := by omega
      subst hzero
      exact h.synced (Or.inl hfrom)
  | compare rows =>
    obtain ⟨hplace, heq⟩ := guarded hstep
    have hinit : s.place ≠ .init := by rw [hplace]; exact nofun
    have hloaded : s.loaded = s.conf := h.loaded (by rw [hplace]; exact nofun)
    split at heq
    · next hsame =>
      cases heq
      exact
        { settled := hsettled
          last := fun _ => h.last hinit
          synced := fun _ => h.synced (Or.inr ⟨hplace, hsame⟩)
          tmp := by rintro (hplace | hplace) <;> cases hplace
          copied := nofun
          loaded := fun _ => hloaded }
    · obtain ⟨hperm, heq⟩ := guarded heq
      cases heq
      exact
        { settled := hsettled
          last := fun _ => h.last hinit
          synced := by rintro (hplace | ⟨hplace, -⟩) <;> cases hplace
          tmp := fun _ => ⟨rows, hperm, rfl⟩
          copied := nofun
          loaded := fun _ => hloaded }
  | reconfigure sameSignature =>
    obtain ⟨hplace, heq⟩ := guarded hstep
    have hinit : s.place ≠ .init := by rw [hplace]; exact nofun
    have hloaded : s.loaded = s.conf := h.loaded (by rw [hplace]; exact nofun)
    obtain ⟨rows, hperm, htmp⟩ := h.tmp (Or.inl hplace)
    have hcopies : Inv { s with place := .copied, conf := some s.tmp } :=
      { settled := nofun
        last := fun _ => h.last hinit
        synced := by rintro (hplace | ⟨hplace, -⟩) <;> cases hplace
        tmp := fun _ => ⟨rows, hperm, htmp⟩
        copied := fun _ => rfl
        loaded := fun hplace => absurd rfl hplace }
    split at heq
    · cases heq
      exact hcopies
    · next conf hconf =>
      split at heq
      · next hsame =>
        cases heq
        have hequal : s.conf = some s.tmp := by
          rcases Bool.or_eq_true_iff.mp hsame with hsignature | htext
          · exact hfaithful hsignature
          · rw [hconf, beq_iff_eq.mp htext]
        exact
          { settled := hsettled
            last := fun _ => h.last hinit
            synced := fun _ => Or.inl ⟨rows, hperm, hequal.trans (congrArg some htmp)⟩
            tmp := by rintro (hplace | hplace) <;> cases hplace
            copied := nofun
            loaded := fun _ => hloaded }
      · cases heq
        exact hcopies
  | restartRsyslog =>
    obtain ⟨hplace, heq⟩ := guarded hstep
    cases heq
    obtain ⟨rows, hperm, htmp⟩ := h.tmp (Or.inr hplace)
    exact
      { settled := hsettled
        last := fun _ => h.last (by rw [hplace]; exact nofun)
        synced := fun _ => Or.inl ⟨rows, hperm, (h.copied hplace).trans (congrArg some htmp)⟩
        tmp := by rintro (hplace | hplace) <;> cases hplace
        copied := nofun
        loaded := fun _ => rfl }
  | unixctl exit =>
    obtain ⟨hplace, heq⟩ := guarded hstep
    cases heq
    exact h.moves (by rw [hplace]; rfl) rfl
  | crashes =>
    obtain ⟨hplace, heq⟩ := guarded hstep
    split at heq <;> cases heq <;> exact h.moves (by rw [hplace]; rfl) rfl
  | loopEnd =>
    obtain ⟨hplace, heq⟩ := guarded hstep
    have hinit : s.place ≠ .init := by rw [hplace]; exact nofun
    have hloaded : s.loaded = s.conf := h.loaded (by rw [hplace]; exact nofun)
    split at heq
    · cases heq
      exact
        { settled := nofun
          last := fun _ => h.last hinit
          synced := by rintro (hplace | ⟨hplace, -⟩) <;> cases hplace
          tmp := by rintro (hplace | hplace) <;> cases hplace
          copied := nofun
          loaded := fun _ => hloaded }
    · split at heq <;> cases heq <;> exact h.moves (by rw [hplace]; rfl) rfl

end Inv

theorem inv_of_reached (h : Runs.Reached step Faithful (State.init server conf) s) : Inv s :=
  h.invariant Inv.init fun _ _ _ hs hfaithful hstep => hs.step hfaithful hstep

/-- At rest the IDL has all that the database has, and rsyslog runs on its lines. -/
theorem Inv.atRest (h : Inv s) (hrest : s.AtRest) :
    ∃ rows : List Row, rows.Perm s.server ∧ s.conf = some (remoteConf (rows.map Row.idl)) ∧ s.loaded = s.conf := by
  obtain ⟨hplace, hpending, -⟩ := hrest
  have hsettled : s.place.settled = true := by rw [hplace]; rfl
  have hlast := h.last (by rw [hplace]; exact nofun)
  rw [hpending, List.getLast?_singleton] at hlast
  obtain ⟨texts, hperm, hconf⟩ := (h.synced (Or.inl hsettled)).resolve_right fun hdue => hdue.2 hpending
  rw [Option.some.inj hlast] at hperm
  obtain ⟨rows, hrows, hsame⟩ := (congrFun (congrFun (List.eq_map_comp_perm Row.idl) texts) s.server).mpr hperm
  exact ⟨rows, hsame, hrows ▸ hconf, h.loaded (by rw [hplace]; exact nofun)⟩

def addedRow : Row := ⟨7, "10.0.0.2", some .udp, some 2000, none⟩

/-- A round of the loop that configures rsyslog, up to the core files. -/
def configures (rows : List Row) : List Action :=
  [.idlRun 1 1, .compare (rows.map Row.idl), .reconfigure false, .restartRsyslog, .unixctl false, .crashes]

/-- The daemon starts on the empty table, and a row is added while a core file arrives. -/
def day : List Action :=
  [.watch, .boot [], .look] ++ configures [] ++ [.loopEnd, .coreMoved "core.a".toList, .commit [addedRow], .wake] ++
    configures [addedRow] ++ [.coredumps ["core.a".toList], .look, .look, .look, .loopEnd]

def dayEnd : State where
  place := .blocked
  server := [addedRow]
  pending := []
  idl := [addedRow]
  changeSeqno := 2
  seqno := 2
  exiting := false
  tmp := "*.info @10.0.0.2:2000\n".toList
  conf := some "*.info @10.0.0.2:2000\n".toList
  loaded := some "*.info @10.0.0.2:2000\n".toList
  restarts := 2
  crash :=
    { folder := ["core.a".toList]
      processedFiles := some "['/var/lib/systemd/coredump/core.a']".toList
      arrived := ["core.a".toList]
      listed := ["core.a".toList]
      reported := ["/var/lib/systemd/coredump/core.a".toList] }
  events := false

theorem dayEnd_reached : Runs.Reached step Faithful (State.init [] none) dayEnd :=
  Runs.reached_of_run (show Runs.run _ Faithful _ day = some _ by decide +kernel)

theorem dayEnd_atRest : dayEnd.AtRest := ⟨rfl, rfl, rfl⟩

/-- Whatever transactions reach the database and whenever they do: when the daemon is at rest, rsyslog has read
    the lines of the rows that the database has. -/
theorem inSync_of_atRest (h : Runs.Reached step Faithful (State.init server conf) s) (hrest : s.AtRest) :
    ∃ rows : List Row, rows.Perm s.server ∧ s.conf = some (remoteConf (rows.map Row.idl)) ∧ s.loaded = s.conf :=
  (inv_of_reached h).atRest hrest

theorem inSync_dayEnd : ∃ rows : List Row, rows.Perm dayEnd.server ∧
    dayEnd.conf = some (remoteConf (rows.map Row.idl)) ∧ dayEnd.loaded = dayEnd.conf :=
  inSync_of_atRest dayEnd_reached dayEnd_atRest

/-- Over the sessions of the CLI: what rsyslog then forwards to is the finite map that their table stands for. -/
theorem forwards_iff_remotes {ι : Type*} [DecidableEq ι] {db : Db} (wf : db.WellFormed) {cli : Optimistic.System Db ι}
    (hcli : Optimistic.Reachable Syslog.sessions db cli)
    (h : Runs.Reached step Faithful (State.init server conf) s) (hserver : s.server.Perm cli.current.rows)
    (valid : ∀ row ∈ cli.current.rows, Syslog.ValidRow row) (hrest : s.AtRest) :
    ∃ text, s.loaded = some text ∧ ∀ host config,
      some (host.toList, config) ∈ (Syslog.lines text).map Syslog.readLine ↔ cli.current.remotes host = some config := by
  have hwf : cli.current.WellFormed :=
    (hcli.consistent Syslog.sessions_sound wf (Syslog.coherent_self wf)).inv _ List.mem_cons_self
  obtain ⟨rows, hperm, hconf, hloaded⟩ := (inv_of_reached h).atRest hrest
  have hrows : rows.Perm cli.current.rows := hperm.trans hserver
  refine ⟨_, hloaded.trans hconf, fun host config => ?_⟩
  rw [Syslog.readLine_lines fun row hrow => valid row (hrows.subset hrow), List.mem_map, hwf.remotes_iff]
  refine exists_congr fun row => ?_
  rw [hrows.mem_iff, Option.some.injEq, Syslog.Row.remote, Prod.mk.injEq, String.toList_inj]

theorem dayEnd_forwards : ∃ text, dayEnd.loaded = some text ∧ ∀ host config,
    some (host.toList, config) ∈ (Syslog.lines text).map Syslog.readLine ↔
      Syslog.afterFirstAdd.current.remotes host = some config :=
  forwards_iff_remotes Syslog.empty_wellFormed Syslog.afterFirstAdd_reachable dayEnd_reached (List.Perm.refl _)
    (fun row hrow => by
      obtain rfl := List.mem_singleton.mp hrow
      refine ⟨⟨⟨by decide, by decide⟩, Or.inl (by decide)⟩, fun p hp => ?_⟩
      obtain rfl := Option.some.inj hp
      decide)
    dayEnd_atRest

/-- The daemon dies when it has copied the file; the next time the files are equal, and rsyslog stays as it is. -/
def death : List Action :=
  [.watch, .boot [], .look, .idlRun 1 1, .compare [addedRow.idl], .reconfigure false, .restart, .watch, .boot [], .look,
    .idlRun 1 1, .compare [addedRow.idl], .reconfigure false, .unixctl false, .crashes, .loopEnd]

theorem loaded_stale : ¬ ∀ s, Runs.Reached step (fun _ _ => True) (State.init [addedRow] none) s → s.AtRest →
    s.loaded = s.conf := by
  have hend : ∃ s, Runs.run step (fun _ _ => True) (State.init [addedRow] none) death = some s ∧ s.AtRest ∧
      s.loaded = none ∧ s.conf ≠ none := ⟨_, rfl, ⟨rfl, rfl, rfl⟩, rfl, nofun⟩
  intro h
  obtain ⟨s, hrun, hrest, hloaded, hconf⟩ := hend
  exact hconf ((h s (Runs.reached_of_run hrun) hrest).symm.trans hloaded)

/-! ### Core files -/

/-- The core files that arrive have plain names, none of which starts a name that there has been before. -/
def Apart (s : State) : Action → Prop
  | .coreMoved name => (∀ c ∈ name, PyRepr.Plain c) ∧ ∀ m ∈ s.crash.arrived, ¬ name <+: m
  | _ => True

instance (s : State) : DecidablePred (Apart s)
  | .coreMoved _ => inferInstanceAs (Decidable (_ ∧ _))
  | .commit _ | .reconnect | .coreRemoved _ | .rsyslogRestarts | .request | .restart | .watch | .boot _ | .look |
    .idlRun .. | .compare _ | .reconfigure _ | .restartRsyslog | .unixctl _ | .crashes | .coredumps _ | .loopEnd |
    .wake => isTrue trivial

def Place.call : Place → Option Call
  | .boot call | .coredumps call => call
  | _ => none

/-- The daemon does not die between the first report of a call of `process_coredumps` and the end of the call. -/
def Calm (s : State) : Action → Prop
  | .restart => ∀ call ∈ s.place.call, call.quiet = true
  | _ => True

instance (s : State) : DecidablePred (Calm s)
  | .restart => inferInstanceAs (Decidable (∀ call ∈ _, _))
  | .commit _ | .reconnect | .coreMoved _ | .coreRemoved _ | .rsyslogRestarts | .request | .watch | .boot _ | .look |
    .idlRun .. | .compare _ | .reconfigure _ | .restartRsyslog | .unixctl _ | .crashes | .coredumps _ | .loopEnd |
    .wake => isTrue trivial

/-- The names that the folder had at the last look through it, where the events since are waited for. -/
def State.seen (s : State) : Option (List Text) :=
  match s.place with
  | .init | .exited => none
  | .boot call | .coredumps call => call.map Call.names
  | .run | .compare | .reconfigure | .copied | .unixctl | .crashes | .loopEnd | .blocked => some s.crash.listed

structure CrashInv (once : Prop) (s : State) : Prop where
  calling : Calling once s.crash s.place.call
  /-- What the watch has not told about has been seen. -/
  seen : s.events = false → ∀ names ∈ s.seen, ∀ n ∈ s.crash.folder, n ∈ names

namespace CrashInv
variable {once : Prop}

theorem init : CrashInv once (State.init server conf) := ⟨.init, fun _ _ h => nomatch h⟩

/-- The daemon goes on outside `process_coredumps`. -/
theorem moves (h : CrashInv once s) (hcall : t.place.call = s.place.call)
    (hseen : t.seen = none ∨ t.seen = s.seen) (hcrash : t.crash = s.crash) (hevents : t.events = s.events) :
    CrashInv once t where
  calling := by
    rw [hcrash, hcall]
    exact h.calling
  seen := fun hnone names hnames => by
    rcases hseen with hseen | hseen
    · rw [hseen] at hnames
      cases hnames
    · rw [hcrash]
      exact h.seen (hevents ▸ hnone) names (hseen ▸ hnames)

theorem calls (h : CrashInv once s) {within : Option Call → Place} {back : Place} {names : List Text}
    (hwithin : Within within back) (hplace : s.place = within none) (hperm : names.Perm s.crash.folder) :
    CrashInv once { s with crash := s.crash.called, place := within (some (.loop names names false)) } := by
  have hcalling := h.calling
  rw [hplace] at hcalling
  cases hwithin <;>
    exact ⟨hcalling.begins hperm, fun _ _ hnames _ hn => Option.some.inj hnames ▸ hperm.symm.subset hn⟩

theorem looks (h : CrashInv once s) {within : Option Call → Place} {back : Place} {call : Call}
    (hwithin : Within within back) (hplace : s.place = within (some call)) :
    CrashInv once (s.looks within back call) := by
  have hcalling := h.calling
  have hnames := h.seen
  rw [State.seen] at hnames
  rw [hplace] at hcalling hnames
  have hnames : s.events = false → ∀ n ∈ s.crash.folder, n ∈ call.names := by
    cases hwithin <;> exact fun hnone => hnames hnone _ rfl
  have hcalling : Calling once s.crash (some call) := by
    cases hwithin <;> exact hcalling
  obtain ⟨hresumed, hlisted⟩ := hcalling.resume
  rw [State.looks]
  dsimp only
  cases hnext : (s.crash.resume call).2 with
  | none =>
    rw [hnext] at hresumed
    have hseen : s.events = false → ∀ n ∈ (s.crash.resume call).1.folder, n ∈ (s.crash.resume call).1.listed :=
      fun hnone n hn => hlisted hnext n (hnames hnone n (CrashProcessing.resume_folder s.crash call ▸ hn))
    cases hwithin <;> exact ⟨hresumed, fun hnone _ hl => Option.some.inj hl ▸ hseen hnone⟩
  | some next =>
    rw [hnext] at hresumed
    have hseen : s.events = false → ∀ n ∈ (s.crash.resume call).1.folder, n ∈ next.names := fun hnone n hn =>
      CrashProcessing.resume_names hnext ▸ hnames hnone n (CrashProcessing.resume_folder s.crash call ▸ hn)
    cases hwithin <;> exact ⟨hresumed, fun hnone _ hl => Option.some.inj hl ▸ hseen hnone⟩

theorem step (h : CrashInv once s) (hapart : Apart s a) (hcalm : once → Calm s a) (hstep : step s a = some t) :
    CrashInv once t := by
  cases a with
  | commit rows | reconnect | rsyslogRestarts =>
    cases hstep
    exact { h with }
  | coreMoved name =>
    obtain ⟨c, hc, rfl⟩ := mapped hstep
    obtain ⟨⟨hname, hnew⟩, heq⟩ := Option.ite_none_right_eq_some.mp hc
    cases heq
    refine ⟨h.calling.arrive hname hnew hapart.1 hapart.2, fun hnone names hnames => ?_⟩
    -- The watch tells about the file.
    have hinit : s.place ≠ .init := fun hplace => by
      have hnames : names ∈ State.seen s := hnames
      rw [State.seen, hplace] at hnames
      cases hnames
    have hwatching : s.watching = true := bne_iff_ne.mpr hinit
    have hnone : (s.events || s.watching) = false := hnone
    rw [hwatching, Bool.or_true] at hnone
    cases hnone
  | coreRemoved name =>
    obtain ⟨c, hc, rfl⟩ := mapped hstep
    obtain ⟨-, heq⟩ := Option.ite_none_right_eq_some.mp hc
    cases heq
    exact ⟨h.calling.remove name, fun hnone names hnames n hn => h.seen hnone names hnames n (List.mem_of_mem_erase hn)⟩
  | restart =>
    cases hstep
    exact ⟨h.calling.dies fun honce => hcalm honce, fun _ _ hnames => nomatch hnames⟩
  | request =>
    obtain ⟨hplace, heq⟩ := guarded hstep
    cases heq
    exact h.moves (by rw [hplace]; rfl) (Or.inr (by simp only [State.seen, hplace])) rfl rfl
  | wake =>
    obtain ⟨⟨hplace, -⟩, heq⟩ := guarded hstep
    cases heq
    exact h.moves (by rw [hplace]; rfl) (Or.inr (by simp only [State.seen, hplace])) rfl rfl
  | watch =>
    obtain ⟨hplace, heq⟩ := guarded hstep
    cases heq
    exact h.moves (by rw [hplace]; rfl) (Or.inl rfl) rfl rfl
  | boot names =>
    obtain ⟨⟨hplace, hperm⟩, rfl⟩ := calls_eq hstep
    exact h.calls .boot hplace hperm
  | coredumps names =>
    obtain ⟨⟨hplace, hperm⟩, rfl⟩ := calls_eq hstep
    exact h.calls .coredumps hplace hperm
  | look =>
    obtain ⟨within, back, call, hwithin, hplace, rfl⟩ := look_eq hstep
    exact h.looks hwithin hplace
  | idlRun updates count =>
    obtain ⟨⟨hplace, -⟩, heq⟩ := guarded hstep
    cases heq
    exact h.moves (by rw [hplace]; rfl) (Or.inr (by simp only [State.seen, hplace])) rfl rfl
  | compare rows =>
    obtain ⟨hplace, heq⟩ := guarded hstep
    split at heq
    · cases heq
      exact h.moves (by rw [hplace]; rfl) (Or.inr (by simp only [State.seen, hplace])) rfl rfl
    · obtain ⟨-, heq⟩ := guarded heq
      cases heq
      exact h.moves (by rw [hplace]; rfl) (Or.inr (by simp only [State.seen, hplace])) rfl rfl
  | reconfigure sameSignature =>
    obtain ⟨hplace, heq⟩ := guarded hstep
    have hmoves {tmp : Text} {conf : Option Text} {seqno : Nat} {place : Place} (hcall : place.call = none)
        (hseen : State.seen { s with place := place } = some s.crash.listed) :
        CrashInv once { s with tmp := tmp, conf := conf, seqno := seqno, place := place } :=
      h.moves (by rw [hplace]; exact hcall) (Or.inr (hseen.trans (by rw [State.seen, hplace]))) rfl rfl
    split at heq
    · cases heq
      exact hmoves rfl rfl
    · split at heq <;> cases heq <;> exact hmoves rfl rfl
  | restartRsyslog =>
    obtain ⟨hplace, heq⟩ := guarded hstep
    cases heq
    exact h.moves (by rw [hplace]; rfl) (Or.inr (by simp only [State.seen, State.configured, hplace])) rfl rfl
  | unixctl exit =>
    obtain ⟨hplace, heq⟩ := guarded hstep
    cases heq
    exact h.moves (by rw [hplace]; rfl) (Or.inr (by simp only [State.seen, hplace])) rfl rfl
  | crashes =>
    obtain ⟨hplace, heq⟩ := guarded hstep
    split at heq
    · cases heq
      have hcalling := h.calling
      rw [hplace] at hcalling
      exact ⟨hcalling, fun _ _ hnames => nomatch hnames⟩
    · cases heq
      exact h.moves (by rw [hplace]; rfl) (Or.inr (by simp only [State.seen, hplace])) rfl rfl
  | loopEnd =>
    obtain ⟨hplace, heq⟩ := guarded hstep
    split at heq
    · cases heq
      exact h.moves (by rw [hplace]; rfl) (Or.inl rfl) rfl rfl
    · split at heq <;> cases heq <;>
        exact h.moves (by rw [hplace]; rfl) (Or.inr (by simp only [State.seen, hplace])) rfl rfl

theorem atRest (h : CrashInv once s) (hrest : s.AtRest) {n : Text} (hn : n ∈ s.crash.folder) :
    corePath n ∈ s.crash.reported ∧ (once → s.crash.reported.count (corePath n) = 1) := by
  obtain ⟨hplace, -, hevents⟩ := hrest
  have hlisted : n ∈ s.crash.listed := h.seen hevents _ (by rw [State.seen, hplace]; rfl) n hn
  have hcalling := h.calling
  rw [hplace] at hcalling
  have hreported := hcalling.known n hlisted
  exact ⟨hreported, fun honce => Nat.le_antisymm (hcalling.exact honce n hn).1 (List.count_pos_iff.mpr hreported)⟩

end CrashInv

theorem crashInv_of_reached (h : Runs.Reached step Apart (State.init server conf) s) : CrashInv False s :=
  h.invariant CrashInv.init fun _ _ _ hs hapart hstep => hs.step hapart nofun hstep

theorem crashInv_of_calm (h : Runs.Reached step (fun s a => Apart s a ∧ Calm s a) (State.init server conf) s) :
    CrashInv True s :=
  h.invariant CrashInv.init fun _ _ _ hs hallowed hstep => hs.step hallowed.1 (fun _ => hallowed.2) hstep

/-- No event of the folder is lost: when the daemon is at rest, each core file has been reported, also those that
    arrived while it was starting, working or down. It has been reported once where the daemon has died in no call of
    `process_coredumps` that had reported something. -/
theorem reportedOnce_of_atRest (h : Runs.Reached step Apart (State.init server conf) s) (hrest : s.AtRest) :
    (∀ n ∈ s.crash.folder, corePath n ∈ s.crash.reported) ∧
      (Runs.Reached step (fun s a => Apart s a ∧ Calm s a) (State.init server conf) s →
        CrashProcessing.ReportedOnce s.crash) :=
  ⟨fun _ hn => ((crashInv_of_reached h).atRest hrest hn).1,
    fun hcalm _ hn => ((crashInv_of_calm hcalm).atRest hrest hn).2 trivial⟩

theorem dayEnd_calm : Runs.Reached step (fun s a => Apart s a ∧ Calm s a) (State.init [] none) dayEnd :=
  Runs.reached_of_run (show Runs.run _ (fun s a => Apart s a ∧ Calm s a) _ day = some _ by decide +kernel)

theorem dayEnd_reportedOnce : CrashProcessing.ReportedOnce dayEnd.crash := by
  have hcalm := dayEnd_calm
  exact (reportedOnce_of_atRest (hcalm.mono fun _ _ hallowed => hallowed.1) dayEnd_atRest).2 hcalm

/-- The daemon dies when it has reported a file, and has not yet written `processed_files`. -/
def reportedTwice : List Action :=
  [.coreMoved "core.a".toList, .watch, .boot ["core.a".toList], .look, .restart, .watch, .boot ["core.a".toList], .look,
    .look, .look] ++ configures [] ++ [.loopEnd]

theorem atRest_reportedTwice : ¬ ∀ s, Runs.Reached step Apart (State.init [] none) s → s.AtRest →
    CrashProcessing.ReportedOnce s.crash := by
  have hend : ∃ s, Runs.run step Apart (State.init [] none) reportedTwice = some s ∧ s.AtRest ∧
      ¬ CrashProcessing.ReportedOnce s.crash := ⟨_, rfl, ⟨rfl, rfl, rfl⟩, by decide +kernel⟩
  obtain ⟨s, hrun, hrest, htwice⟩ := hend
  exact fun h => htwice (h s (Runs.reached_of_run hrun) hrest)

/-! ### Coming to rest -/

/-- The steps of the daemon alone, where `idl.run` takes an update when there is one. -/
def own (s : State) : Action → Bool
  | .idlRun updates _ => s.pending.isEmpty || 0 < updates
  | .unixctl exit => !exit
  | .watch | .boot _ | .look | .compare _ | .reconfigure _ | .restartRsyslog | .crashes | .coredumps _ | .loopEnd |
    .wake => true
  | .commit _ | .reconnect | .coreMoved _ | .coreRemoved _ | .rsyslogRestarts | .request | .restart => false

/-- A bound on the steps that a call still takes. -/
def callLeft : Call → Nat
  | .loop _ left _ => left.length + 2
  | .rewrite _ => 1

/-- The weight of the events that the daemon has not read: a round of its loop, with a call of `process_coredumps`. -/
def unread (files : List Text) : Bool → Nat
  | true => files.length + 24
  | false => 0

/-- A bound on the steps that the daemon still takes: the rounds of its loop, and what is left of the present one. -/
def State.left (s : State) : Nat :=
  let updates := s.pending.length
  let rounds := 20 * updates + unread s.crash.folder s.events
  let call (call : Option Call) := call.elim (s.crash.folder.length + 3) callLeft
  match s.place with
  | .init => 20 + unread s.crash.folder s.events + s.crash.folder.length + 12
  | .boot current => rounds + 8 + call current
  | .run => rounds + 8
  | .compare => rounds + 7 + 10 * min 1 updates
  | .reconfigure => rounds + 6 + 10 * min 1 updates
  | .copied => rounds + 5 + 10 * min 1 updates
  | .unixctl => rounds + 4 + 10 * min 1 updates
  | .crashes => rounds + 3 + 10 * min 1 updates
  | .coredumps current => rounds + 1 + 10 * min 1 rounds + call current
  | .loopEnd => rounds + 1 + 10 * min 1 rounds
  | .blocked => rounds + 9 * min 1 rounds
  | .exited => 0

theorem resume_left (s : CrashProcessing.State) (call : Call) : (s.resume call).2.elim 0 callLeft < callLeft call := by
  match call with
  | .loop names (name :: left) found =>
    rw [CrashProcessing.State.resume]
    split <;> exact Nat.lt_succ_self _
  | .loop _ [] true => exact Nat.one_lt_two
  | .loop _ [] false => exact Nat.two_pos
  | .rewrite _ => exact Nat.one_pos

theorem looks_left {within : Option Call → Place} {back : Place} {call : Call} (hwithin : Within within back)
    (hplace : s.place = within (some call)) : (s.looks within back call).left < s.left := by
  have hless := resume_left s.crash call
  rw [State.left, State.left, hplace, State.looks]
  dsimp only
  rw [CrashProcessing.resume_folder]
  cases hnext : (s.crash.resume call).2 with
  | none =>
    rw [hnext] at hless
    cases hwithin <;> simp only [Option.isSome_none, Bool.false_eq_true, if_false, Option.elim_some] <;> omega
  | some next =>
    rw [hnext] at hless
    cases hwithin <;> simp only [Option.isSome_some, if_true, Option.elim_some] at hless ⊢ <;> omega

theorem left_lt (h : Settled s) (hown : own s a = true) (hstep : step s a = some t) : t.left < s.left := by
  cases a with
  | commit rows | reconnect | rsyslogRestarts | coreMoved name | coreRemoved name | restart | request => cases hown
  | watch =>
    obtain ⟨hplace, heq⟩ := guarded hstep
    cases heq
    simp only [State.left, hplace, List.length_singleton, Option.elim_none]
    omega
  | boot names | coredumps names =>
    obtain ⟨⟨hplace, hperm⟩, rfl⟩ := calls_eq hstep
    have hlength := hperm.length_eq
    simp only [State.left, CrashProcessing.State.called, hplace, Option.elim_none, Option.elim_some, callLeft, hlength]
    omega
  | look =>
    obtain ⟨within, back, call, hwithin, hplace, rfl⟩ := look_eq hstep
    exact looks_left hwithin hplace
  | idlRun updates count =>
    obtain ⟨⟨hplace, hle, -⟩, heq⟩ := guarded hstep
    cases heq
    have htaken : s.pending.length = 0 ∨ 0 < updates := by
      rcases Bool.or_eq_true_iff.mp hown with hempty | hpos
      · exact Or.inl (List.length_eq_zero_iff.mpr (List.isEmpty_iff.mp hempty))
      · exact Or.inr (of_decide_eq_true hpos)
    simp only [State.left, hplace, List.length_drop]
    omega
  | compare rows =>
    obtain ⟨hplace, heq⟩ := guarded hstep
    split at heq
    · cases heq
      simp only [State.left, hplace]
      omega
    · obtain ⟨-, heq⟩ := guarded heq
      cases heq
      simp only [State.left, hplace]
      omega
  | reconfigure sameSignature =>
    obtain ⟨hplace, heq⟩ := guarded hstep
    split at heq
    · cases heq
      simp only [State.left, hplace]
      omega
    · split at heq <;> cases heq <;> simp only [State.left, State.configured, hplace] <;> omega
  | restartRsyslog =>
    obtain ⟨hplace, heq⟩ := guarded hstep
    cases heq
    simp only [State.left, State.configured, hplace]
    omega
  | unixctl exit =>
    obtain ⟨hplace, heq⟩ := guarded hstep
    cases heq
    simp only [State.left, hplace]
    omega
  | crashes =>
    obtain ⟨hplace, heq⟩ := guarded hstep
    split at heq
    · next hevents =>
      cases heq
      simp only [State.left, hplace, hevents, unread, Option.elim_none]
      omega
    · next hevents =>
      cases heq
      simp only [State.left, hplace, Bool.not_eq_true _ ▸ hevents, unread]
      omega
  | loopEnd =>
    obtain ⟨hplace, heq⟩ := guarded hstep
    have hseqno : s.seqno = s.changeSeqno := h (by rw [hplace]; rfl)
    split at heq
    · cases heq
      simp only [State.left, hplace]
      omega
    · cases heq
      simp only [State.left, hplace]
      omega
  | wake =>
    obtain ⟨⟨hplace, hwork⟩, heq⟩ := guarded hstep
    cases heq
    have hsome : 0 < s.pending.length + unread s.crash.folder s.events := by
      rcases hwork with hpending | hevents
      · exact Nat.add_pos_left (List.length_pos_iff.mpr hpending) _
      · rw [hevents]
        exact Nat.add_pos_right _ (Nat.succ_pos _)
    simp only [State.left, hplace]
    omega

/-- Unless it is at rest or has exited, the daemon has a step of its own to take. -/
theorem own_step (hrest : ¬ s.AtRest) (hexited : s.place ≠ .exited) : ∃ a, own s a = true ∧ (step s a).isSome = true := by
  cases hplace : s.place with
  | init => exact ⟨.watch, rfl, by rw [step, if_pos hplace]; rfl⟩
  | boot call =>
    cases call with
    | none =>
      refine ⟨.boot s.crash.folder, rfl, ?_⟩
      rw [step, State.calls, if_pos ⟨hplace, List.Perm.refl _⟩]
      rfl
    | some call => exact ⟨.look, rfl, by rw [step, hplace]; rfl⟩
  | run =>
    refine ⟨.idlRun s.pending.length s.pending.length, ?_, ?_⟩
    · cases hpending : s.pending with
      | nil => simp [own, hpending]
      | cons rows pending => simp [own]
    · rw [step, if_pos ⟨hplace, Nat.le_refl _, Iff.rfl⟩]
      rfl
  | compare =>
    refine ⟨.compare (s.idl.map Row.idl), rfl, ?_⟩
    rw [step, if_pos hplace]
    split
    · rfl
    · rw [if_pos (List.Perm.refl _)]
      rfl
  | reconfigure =>
    refine ⟨.reconfigure false, rfl, ?_⟩
    rw [step, if_pos hplace]
    split
    · rfl
    · split <;> rfl
  | copied => exact ⟨.restartRsyslog, rfl, by rw [step, if_pos hplace]; rfl⟩
  | unixctl => exact ⟨.unixctl false, rfl, by rw [step, if_pos hplace]; rfl⟩
  | crashes =>
    refine ⟨.crashes, rfl, ?_⟩
    rw [step, if_pos hplace]
    split <;> rfl
  | coredumps call =>
    cases call with
    | none =>
      refine ⟨.coredumps s.crash.folder, rfl, ?_⟩
      rw [step, State.calls, if_pos ⟨hplace, List.Perm.refl _⟩]
      rfl
    | some call => exact ⟨.look, rfl, by rw [step, hplace]; rfl⟩
  | loopEnd =>
    refine ⟨.loopEnd, rfl, ?_⟩
    rw [step, if_pos hplace]
    split
    · rfl
    · split <;> rfl
  | blocked =>
    have hwork : s.pending ≠ [] ∨ s.events = true := by
      by_contra hnone
      obtain ⟨hpending, hevents⟩ := not_or.mp hnone
      exact hrest ⟨hplace, not_not.mp hpending, Bool.not_eq_true _ ▸ hevents⟩
    exact ⟨.wake, rfl, by rw [step, if_pos ⟨hplace, hwork⟩]; rfl⟩
  | exited => exact absurd hplace hexited

/-- Left alone the daemon comes to rest: from every state its own steps are bounded, and where it has none left it is
    at rest or has exited. -/
theorem comes_to_rest (h : Runs.Reached step (fun _ _ => True) (State.init server conf) s) {as : List Action}
    (hrun : Runs.run step (fun s a => own s a = true) s as = some t) :
    as.length ≤ s.left ∧ ((∀ a, own t a = true → step t a = none) → t.AtRest ∨ t.place = .exited) := by
  have hsettled : Settled s := h.invariant Settled.init fun _ _ _ hs _ hstep => hs.step hstep
  constructor
  · have hlength := Runs.length_add_le (fun _ _ _ hs hown hstep => ⟨hs.step hstep, left_lt hs hown hstep⟩) hsettled hrun
    omega
  · intro hstuck
    by_contra hgoes
    obtain ⟨hrest, hexited⟩ := not_or.mp hgoes
    obtain ⟨a, hown, hsome⟩ := own_step hrest hexited
    rw [hstuck a hown] at hsome
    cases hsome

def started : State :=
  { State.init [addedRow] none with
    place := .run, pending := [[addedRow]], crash := { CrashProcessing.State.init with processedFiles := some [] } }

theorem started_comes_to_rest : ([.watch, .boot [], .look] : List Action).length ≤ (State.init [addedRow] none).left ∧
    ((∀ a, own started a = true → step started a = none) → started.AtRest ∨ started.place = .exited) :=
  comes_to_rest Runs.Reached.start rfl

end SupportabilityDaemon
end OpsSupportability
