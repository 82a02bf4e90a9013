import OpsSupportability.Lib.Keyed
import OpsSupportability.Syslog

/-! What the matcher of the syslog table finds. A row stands for a configuration, its columns with the
    defaults filled in; the matcher compares configurations, except that the port of the last row is
    not compared (`PortSkipped`). -/

namespace OpsSupportability
namespace Syslog

/-- Where a host is logged to. -/
structure Config where
  transport : Transport
  port : Int
  severity : Severity
  deriving DecidableEq, Repr

/-- An unset transport is UDP, an unset port the default of the transport, an unset severity `info`. -/
def effective (transport : Option Transport) (port : Option Int) (severity : Option Severity) : Config where
  transport := transport.getD .udp
  port := port.getD (defaultPort (transport.getD .udp))
  severity := severity.getD .info

def Row.config (row : Row) : Config := effective row.transport row.portNumber row.severity

def Request.config (q : Request) : Config := effective q.transport q.portNumber q.severity

/-- A row agrees with every field that a request supplies. -/
structure Request.Agrees (q : Request) (row : Row) : Prop where
  transport : ∀ t, q.transport = some t → row.config.transport = t
  port : ∀ p, q.portNumber = some p → row.config.port = p
  severity : ∀ s, q.severity = some s → row.config.severity = s

/-- What the matcher compares apart from the port. -/
def Request.AgreesButPort (q : Request) (exactMatch : Bool) (row : Row) : Prop :=
  if exactMatch then row.config.transport = q.config.transport ∧ row.config.severity = q.config.severity
  else (∀ t, q.transport = some t → row.config.transport = t) ∧ (∀ s, q.severity = some s → row.config.severity = s)

def Request.AgreesPort (q : Request) (exactMatch : Bool) (row : Row) : Prop :=
  if exactMatch then row.config.port = q.config.port else ∀ p, q.portNumber = some p → row.config.port = p

instance (q : Request) (exactMatch : Bool) (row : Row) : Decidable (q.AgreesButPort exactMatch row) := by
  unfold Request.AgreesButPort
  cases exactMatch <;> cases q.transport <;> cases q.severity <;> simp <;> infer_instance

/-- The row and the request have ports set that differ. -/
def Request.PortsDiffer (q : Request) (row : Row) : Prop :=
  ∃ r p, row.portNumber = some r ∧ q.portNumber = some p ∧ r ≠ p

instance (q : Request) (row : Row) : Decidable (q.PortsDiffer row) :=
  match hr : row.portNumber, hq : q.portNumber with
  | some r, some p => decidable_of_iff (r ≠ p) (by simp [Request.PortsDiffer, hr, hq])
  | some _, none => isFalse (by simp [Request.PortsDiffer, hq])
  | none, _ => isFalse (by simp [Request.PortsDiffer, hr])

theorem currTransport_eq (row : Row) : currTransport row = row.config.transport := by
  unfold currTransport Row.config effective
  rcases row.transport with _ | _ | _ <;> rfl

theorem matchTransport_iff {row : Row} {q : Request} {exactMatch : Bool} :
    matchTransport row q exactMatch = true ↔
      if exactMatch then row.config.transport = q.config.transport
      else ∀ t, q.transport = some t → row.config.transport = t := by
  unfold matchTransport Row.config Request.config effective
  cases exactMatch <;> cases q.transport <;> cases row.transport <;> simp

theorem matchSeverity_iff {row : Row} {q : Request} {exactMatch : Bool} :
    matchSeverity row q exactMatch = true ↔
      if exactMatch then row.config.severity = q.config.severity
      else ∀ s, q.severity = some s → row.config.severity = s := by
  unfold matchSeverity Row.config Request.config effective
  cases exactMatch <;> cases q.severity <;> cases row.severity <;> simp

/-- Between rows and requests of one transport, the port comparison is that of the effective ports,
    except on the last row. -/
theorem matchPort_iff {row : Row} {next : Option Row} {q : Request} {exactMatch : Bool}
    (ht : exactMatch = true → row.config.transport = q.config.transport) :
    matchPort row next q exactMatch = true ↔
      q.AgreesPort exactMatch row ∨ (next = none ∧ q.PortsDiffer row) := by
  unfold matchPort Request.AgreesPort Request.PortsDiffer
  rw [currTransport_eq]
  have ht' : exactMatch = true → row.transport.getD .udp = q.transport.getD .udp := ht
  cases exactMatch <;> rcases hq : q.portNumber with _ | p <;> rcases hr : row.portNumber with _ | r
  · simp
  · simp
  · simpa [Row.config, effective, hr] using eq_comm
  · cases next <;> simp [Row.config, effective, hr, em]
  · simp [Row.config, Request.config, effective, hr, hq, ht']
  · simp [Row.config, Request.config, effective, hr, hq, ht']
  · simpa [Row.config, Request.config, effective, hr, hq] using eq_comm
  · cases next <;> simp [Row.config, Request.config, effective, hr, hq, em]

theorem rowMatches_hostOnly {row : Row} {next : Option Row} {q : Request} {exactMatch : Bool} :
    rowMatches row next q true exactMatch = true ↔ q.remoteHost = some row.remoteHost := by
  simpa [rowMatches] using eq_comm

theorem rowMatches_iff {row : Row} {next : Option Row} {q : Request} {exactMatch : Bool} :
    rowMatches row next q false exactMatch = true ↔
      q.remoteHost = some row.remoteHost ∧ q.AgreesButPort exactMatch row ∧
        (q.AgreesPort exactMatch row ∨ (next = none ∧ q.PortsDiffer row)) := by
  simp only [rowMatches, Bool.false_or, Bool.and_eq_true, beq_iff_eq, eq_comm (a := some row.remoteHost)]
  refine and_congr_right fun _ => ?_
  rw [matchTransport_iff, matchSeverity_iff, Request.AgreesButPort]
  cases exactMatch with
  | false =>
    rw [matchPort_iff (by simp)]
    simp only [Bool.false_eq_true, ↓reduceIte]
    tauto
  | true =>
    simp only [↓reduceIte]
    constructor
    · rintro ⟨⟨ht, hp⟩, hs⟩
      exact ⟨⟨ht, hs⟩, (matchPort_iff fun _ => ht).mp hp⟩
    · rintro ⟨⟨ht, hs⟩, hp⟩
      exact ⟨⟨ht, (matchPort_iff fun _ => ht).mpr hp⟩, hs⟩

theorem agrees_iff {q : Request} {row : Row} : q.Agrees row ↔ q.AgreesButPort false row ∧ q.AgreesPort false row := by
  simp only [Request.AgreesButPort, Request.AgreesPort, Bool.false_eq_true, ↓reduceIte]
  exact ⟨fun h => ⟨⟨h.transport, h.severity⟩, h.port⟩, fun h => ⟨h.1.1, h.2, h.1.2⟩⟩

theorem config_eq_iff {q : Request} {row : Row} :
    row.config = q.config ↔ q.AgreesButPort true row ∧ q.AgreesPort true row := by
  simp only [Request.AgreesButPort, Request.AgreesPort, ↓reduceIte]
  rw [Config.mk.injEq]
  tauto

/-! ### The walk over the rows -/

theorem getConfig_eq_none {q : Request} {hostOnly exactMatch : Bool} {rows : List Row}
    (h : ∀ r ∈ rows, q.remoteHost ≠ some r.remoteHost) : syslogRemoteGetConfig q hostOnly exactMatch rows = none := by
  induction rows with
  | nil => rfl
  | cons row rows ih =>
    have hm : rowMatches row rows.head? q hostOnly exactMatch = false := by
      have := h row List.mem_cons_self
      simp [rowMatches, Ne.symm this]
    rw [syslogRemoteGetConfig, hm]
    exact ih fun r hr => h r (List.mem_cons_of_mem _ hr)

/-- With distinct hosts only the row of the requested host is looked at in full, and all that its place
    in the table decides is whether a row follows it. -/
theorem getConfig_split {q : Request} {hostOnly exactMatch : Bool} {host : String} {pre post : List Row} {row : Row}
    (hq : q.remoteHost = some host) (h : Keyed.Split Row.remoteHost host pre row post) :
    syslogRemoteGetConfig q hostOnly exactMatch (pre ++ row :: post) =
      if rowMatches row post.head? q hostOnly exactMatch then some row else none := by
  have differ : ∀ r : Row, r.remoteHost ≠ host → q.remoteHost ≠ some r.remoteHost := fun r hr heq =>
    hr (Option.some.inj (heq.symm.trans hq))
  obtain ⟨-, hpre, hpost⟩ := h
  induction pre with
  | nil =>
    have htail : syslogRemoteGetConfig q hostOnly exactMatch post = none :=
      getConfig_eq_none fun r hr => differ r (hpost r hr)
    rw [List.nil_append, syslogRemoteGetConfig, htail]
  | cons r pre ih =>
    have hr := differ r (hpre r List.mem_cons_self)
    have hm : rowMatches r (pre ++ row :: post).head? q hostOnly exactMatch = false := by
      simp [rowMatches, Ne.symm hr]
    rw [List.cons_append, syslogRemoteGetConfig, hm, if_neg (by simp)]
    exact ih fun y hy => hpre y (List.mem_cons_of_mem _ hy)

end Syslog
end OpsSupportability
