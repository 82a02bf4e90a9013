import OpsSupportability.Lib.Regex
import OpsSupportability.Rsyslog
import OpsSupportability.Theorems.SyslogContext

/-! The generated rsyslog file read back: each line tells the host and the effective configuration of its
    row, so the lines of two tables agree just when the exact match of the CLI pairs their rows. -/

namespace OpsSupportability
namespace Syslog

/-! ### Hosts that the CLI accepts -/

def alphanumeric : List Char := Regex.range 'a' 'z' ++ Regex.range 'A' 'Z' ++ Regex.range '0' '9'

/-- A label of `HOSTNAME_RGX`; the backslash in its bracket expression stands for itself. -/
def hostnameLabel : RegularExpression Char :=
  Regex.oneOf alphanumeric +
    Regex.oneOf alphanumeric * .star (Regex.oneOf (alphanumeric ++ ['\\', '-'])) * Regex.oneOf alphanumeric

/-- `HOSTNAME_RGX`. -/
def hostnameRegex : RegularExpression Char := .star (hostnameLabel * .char '.') * hostnameLabel

/-- An IPv4 address, an IPv6 address, or a host name; as a word of the command line. -/
structure ValidHost (host : String) : Prop where
  word : IsWord host.toList
  accepted : Inet.inetPton4 host.toList = true ∨ Inet.inetPton6 host.toList = true ∨
    Regex.accepts hostnameRegex host.toList = true

structure ValidRow (row : Row) : Prop where
  host : ValidHost row.remoteHost
  port : ∀ p, row.portNumber = some p → minPortNumberSupported ≤ p ∧ p ≤ maxPortNumberSupported

/-! ### Reading a line -/

/-- Host and port behind the transport marker. -/
def readTarget : Text → Option (Text × Int)
  | '[' :: s =>
    match s.span (· != ']') with
    | (host, ']' :: ':' :: port) => some (host, Text.atoi port)
    | _ => none
  | s =>
    match s.span (· != ':') with
    | (host, ':' :: port) => some (host, Text.atoi port)
    | _ => none

def readTransport : Text → Transport × Text
  | '@' :: s => (.tcp, s)
  | s => (.udp, s)

/-- The host, without brackets, and the configuration of a line. -/
def readLine : Text → Option (Text × Config)
  | '*' :: '.' :: s =>
    match s.span (· != ' ') with
    | (severity, ' ' :: '@' :: s) =>
      (Severity.ofWord severity).bind fun severity =>
        (readTarget (readTransport s).2).map fun (host, port) => (host, ⟨(readTransport s).1, port, severity⟩)
    | _ => none
  | _ => none

/-- The lines of a text whose last line is ended. -/
def lines (text : Text) : List Text := (text.splitOn '\n').dropLast

/-- The loop of `syslog_remote_get_config`, asked for exactly what `row'` sets, would return `row` before a
    following row. -/
def Row.ExactMatch (row row' : Row) : Prop := rowMatches row (some row) row'.request false true = true

/-- The rows of two tables are paired by the exact match. -/
def Equivalent (rows rows' : List Row) : Prop := ∃ l, List.Forall₂ Row.ExactMatch rows l ∧ l.Perm rows'

section
variable {row row' : Row} {rows rows' : List Row} {host : Text} {config : Config}

theorem exactMatch_iff : row.ExactMatch row' ↔ row.remoteHost = row'.remoteHost ∧ row.config = row'.config := by
  have hconfig : row'.request.config = row'.config := rfl
  rw [Row.ExactMatch, rowMatches_iff, ← hconfig, config_eq_iff]
  simp [Row.request, eq_comm]

/-! ### The text of a row -/

/-- The line that stands for a host and its configuration. -/
def remoteText (host : Text) (config : Config) : Text :=
  '*' :: '.' :: (config.severity.word ++ ' ' :: '@' :: ((if config.transport = .tcp then ['@'] else []) ++
    ((if isIpv6 host then '[' :: host ++ [']'] else host) ++ ':' :: Text.decimal config.port)))

theorem pieces_sysserverTmplUdp : Dollar.pieces .plain sysserverTmplUdp =
    [.char '*', .char '.', .hole "severity".toList "$severity".toList, .char ' ', .char '@',
      .hole "remote".toList "$remote".toList, .char ':', .hole "port".toList "$port".toList, .char '\n'] := by
  decide

theorem pieces_sysserverTmplTcp : Dollar.pieces .plain sysserverTmplTcp =
    [.char '*', .char '.', .hole "severity".toList "$severity".toList, .char ' ', .char '@', .char '@',
      .hole "remote".toList "$remote".toList, .char ':', .hole "port".toList "$port".toList, .char '\n'] := by
  decide

theorem pieces_ipv6sysserverTmplUdp : Dollar.pieces .plain ipv6sysserverTmplUdp =
    [.char '*', .char '.', .hole "severity".toList "$severity".toList, .char ' ', .char '@', .char '[',
      .hole "remote".toList "$remote".toList, .char ']', .char ':', .hole "port".toList "$port".toList,
      .char '\n'] := by
  decide

theorem pieces_ipv6sysserverTmplTcp : Dollar.pieces .plain ipv6sysserverTmplTcp =
    [.char '*', .char '.', .hole "severity".toList "$severity".toList, .char ' ', .char '@', .char '@', .char '[',
      .hole "remote".toList "$remote".toList, .char ']', .char ':', .hole "port".toList "$port".toList,
      .char '\n'] := by
  decide

theorem remoteMapping_severity (severity remote : Text) (port : Int) :
    remoteMapping severity remote port "severity".toList = some severity := if_pos rfl

theorem remoteMapping_remote (severity remote : Text) (port : Int) :
    remoteMapping severity remote port "remote".toList = some remote := by
  rw [remoteMapping, if_neg (by decide), if_pos rfl]

theorem remoteMapping_port (severity remote : Text) (port : Int) :
    remoteMapping severity remote port "port".toList = some (Text.decimal port) := by
  rw [remoteMapping, if_neg (by decide), if_neg (by decide), if_pos rfl]

section
variable (severity remote : Text) (port : Int)

theorem safeSubstitute_udp : Dollar.safeSubstitute sysserverTmplUdp (remoteMapping severity remote port) =
    '*' :: '.' :: (severity ++ ' ' :: '@' :: (remote ++ ':' :: (Text.decimal port ++ ['\n']))) := by
  rw [Dollar.safeSubstitute, pieces_sysserverTmplUdp]
  simp only [List.flatMap_cons, List.flatMap_nil, Dollar.Piece.fill, remoteMapping_severity, remoteMapping_remote,
    remoteMapping_port]
  simp

theorem safeSubstitute_tcp : Dollar.safeSubstitute sysserverTmplTcp (remoteMapping severity remote port) =
    '*' :: '.' :: (severity ++ ' ' :: '@' :: '@' :: (remote ++ ':' :: (Text.decimal port ++ ['\n']))) := by
  rw [Dollar.safeSubstitute, pieces_sysserverTmplTcp]
  simp only [List.flatMap_cons, List.flatMap_nil, Dollar.Piece.fill, remoteMapping_severity, remoteMapping_remote,
    remoteMapping_port]
  simp

theorem safeSubstitute_ipv6Udp : Dollar.safeSubstitute ipv6sysserverTmplUdp (remoteMapping severity remote port) =
    '*' :: '.' :: (severity ++ ' ' :: '@' :: '[' :: (remote ++ ']' :: ':' :: (Text.decimal port ++ ['\n']))) := by
  rw [Dollar.safeSubstitute, pieces_ipv6sysserverTmplUdp]
  simp only [List.flatMap_cons, List.flatMap_nil, Dollar.Piece.fill, remoteMapping_severity, remoteMapping_remote,
    remoteMapping_port]
  simp

theorem safeSubstitute_ipv6Tcp : Dollar.safeSubstitute ipv6sysserverTmplTcp (remoteMapping severity remote port) =
    '*' :: '.' :: (severity ++ ' ' :: '@' :: '@' :: '[' :: (remote ++ ']' :: ':' :: (Text.decimal port ++ ['\n']))) := by
  rw [Dollar.safeSubstitute, pieces_ipv6sysserverTmplTcp]
  simp only [List.flatMap_cons, List.flatMap_nil, Dollar.Piece.fill, remoteMapping_severity, remoteMapping_remote,
    remoteMapping_port]
  simp

end

/-- The defaults of the Python code are those of the matcher. -/
theorem idl_severity (row : Row) : row.idl.severity.head?.getD "info".toList = row.config.severity.word := by
  obtain ⟨_, _, _, _, severity⟩ := row
  cases severity with
  | none => rfl
  | some s => rfl

theorem idl_transport (row : Row) : row.idl.transport.head?.getD "udp".toList = row.config.transport.word := by
  obtain ⟨_, _, transport, _, _⟩ := row
  cases transport with
  | none => rfl
  | some t => rfl

theorem idl_port (row : Row) : row.idl.portNumber.head?.getD (defaultPort row.config.transport) = row.config.port := by
  obtain ⟨_, _, _, port, _⟩ := row
  cases port with
  | none => rfl
  | some p => rfl

theorem remoteLine_idl (row : Row) : remoteLine row.idl = remoteText row.remoteHost.toList row.config ++ ['\n'] := by
  have hhost : row.idl.remoteHost = row.remoteHost.toList := rfl
  have hport := idl_port row
  unfold remoteLine remoteText
  rw [idl_severity, idl_transport, hhost]
  cases ht : row.config.transport with
  | udp =>
    rw [ht] at hport
    change row.idl.portNumber.head?.getD 514 = row.config.port at hport
    dsimp only
    rw [if_pos (show Transport.udp.word = "udp".toList from rfl), hport]
    cases hv : isIpv6 row.remoteHost.toList <;> simp [safeSubstitute_udp, safeSubstitute_ipv6Udp]
  | tcp =>
    rw [ht] at hport
    change row.idl.portNumber.head?.getD 1470 = row.config.port at hport
    dsimp only
    rw [if_neg (show Transport.tcp.word ≠ "udp".toList by decide),
      if_pos (show Transport.tcp.word = "tcp".toList from rfl), hport]
    cases hv : isIpv6 row.remoteHost.toList <;> simp [safeSubstitute_tcp, safeSubstitute_ipv6Tcp]

/-! ### The line read back -/

theorem span_stop {p : Char → Bool} {w : Text} {d : Char} (hw : ∀ c ∈ w, p c = true) (hd : p d = false) (s : Text) :
    (w ++ d :: s).span p = (w, d :: s) := by
  rw [List.span_eq_takeWhile_dropWhile, List.takeWhile_append_of_pos hw, List.dropWhile_append_of_pos hw,
    List.takeWhile_cons_of_neg (by simp [hd]), List.dropWhile_cons_of_neg (by simp [hd]), List.append_nil]

theorem hostnameRegex_chars : ∀ c ∈ Regex.chars hostnameRegex, c ≠ ':' ∧ c ≠ '[' ∧ c ≠ '@' := by
  decide +kernel

/-- Without brackets no character of the host can be taken for a mark of the line. -/
theorem ValidHost.unbracketed {host : String} (h : ValidHost host) (hv : isIpv6 host.toList = false) :
    ∀ c ∈ host.toList, c ≠ ':' ∧ c ≠ '[' ∧ c ≠ '@' := by
  intro c hc
  rcases h.accepted with hv4 | hv6 | hname
  · rcases Inet.inetPton4_chars hv4 c hc with hdigit | rfl
    · refine ⟨?_, ?_, ?_⟩ <;> rintro rfl <;> cases hdigit
    · decide
  · exact absurd (hv.symm.trans hv6) (by decide)
  · have hline : '\n' ∉ host.toList := fun hmem => absurd (h.word.2 _ hmem) (by decide)
    exact hostnameRegex_chars c (Regex.mem_chars ((Regex.accepts_line hline).mp hname) c hc)

theorem readTransport_plain {s : Text} (h : ∀ c ∈ s.head?, c ≠ '@') : readTransport s = (.udp, s) := by
  cases s with
  | nil => rfl
  | cons c s =>
    unfold readTransport
    split
    · next heq =>
      obtain ⟨rfl, -⟩ := List.cons.inj heq
      exact absurd rfl (h '@' rfl)
    · rfl

theorem readTarget_bracketed {host : Text} (h : ∀ c ∈ host, c ≠ ']') (port : Text) :
    readTarget ('[' :: (host ++ ']' :: ':' :: port)) = some (host, Text.atoi port) := by
  have hspan := span_stop (p := (· != ']')) (d := ']') (fun c hc => bne_iff_ne.mpr (h c hc)) (by decide) (':' :: port)
  simp only [readTarget, hspan]

theorem readTarget_plain {host : Text} (hne : host ≠ []) (h : ∀ c ∈ host, c ≠ ':' ∧ c ≠ '[') (port : Text) :
    readTarget (host ++ ':' :: port) = some (host, Text.atoi port) := by
  have hspan := span_stop (p := (· != ':')) (d := ':') (fun c hc => bne_iff_ne.mpr (h c hc).1) (by decide) port
  obtain ⟨c, rest, rfl⟩ := List.exists_cons_of_ne_nil hne
  have hc : c ≠ '[' := (h c List.mem_cons_self).2
  rw [List.cons_append] at hspan ⊢
  unfold readTarget
  split
  · next heq => exact absurd (List.cons.inj heq).1 hc
  · simp only [hspan]

/-- Host and port come back, however the host is written. -/
theorem readTarget_host {host : String} (h : ValidHost host) {port : Text} :
    readTarget ((if isIpv6 host.toList then '[' :: host.toList ++ [']'] else host.toList) ++ ':' :: port) =
      some (host.toList, Text.atoi port) := by
  cases hv : isIpv6 host.toList with
  | true =>
    have hchars : ∀ c ∈ host.toList, c ≠ ']' := fun c hc => by
      rintro rfl
      exact absurd (Inet.inetPton6_chars hv _ hc) (by decide)
    simpa using readTarget_bracketed hchars port
  | false =>
    have hchars := h.unbracketed hv
    exact readTarget_plain h.word.1 (fun c hc => ⟨(hchars c hc).1, (hchars c hc).2.1⟩) port

/-- The target never starts with the second `@`. -/
theorem target_head {host : String} (h : ValidHost host) {port : Text} :
    ∀ c ∈ ((if isIpv6 host.toList then '[' :: host.toList ++ [']'] else host.toList) ++ ':' :: port).head?, c ≠ '@' := by
  cases hv : isIpv6 host.toList with
  | true =>
    rintro c hc rfl
    cases hc
  | false =>
    obtain ⟨c, rest, heq⟩ := List.exists_cons_of_ne_nil h.word.1
    have hc := (h.unbracketed hv c (heq ▸ List.mem_cons_self)).2.2
    rw [if_neg Bool.false_ne_true, heq]
    rintro d hd rfl
    exact hc (Option.some.inj hd)

theorem severity_word_blank (s : Severity) : ∀ c ∈ s.word, (c != ' ') = true := by
  cases s <;> decide

theorem readLine_marked (severity : Severity) (s : Text) :
    readLine ('*' :: '.' :: (severity.word ++ ' ' :: '@' :: s)) =
      (readTarget (readTransport s).2).map fun (host, port) => (host, ⟨(readTransport s).1, port, severity⟩) := by
  have hspan := span_stop (severity_word_blank severity) (show (' ' != ' ') = false by decide) ('@' :: s)
  simp only [readLine, hspan, ofWord_severity, Option.bind_some]

theorem readLine_remoteText {host : String} (h : ValidHost host) (hmin : 0 ≤ config.port) (hmax : config.port ≤ 65535) :
    readLine (remoteText host.toList config) = some (host.toList, config) := by
  obtain ⟨transport, port, severity⟩ := config
  obtain ⟨n, rfl⟩ := Int.eq_ofNat_of_zero_le hmin
  have hatoi : Text.atoi (Text.decimal (n : Int)) = n := Text.atoi_decimal (by simp only at hmax; omega)
  rw [remoteText, readLine_marked]
  cases transport with
  | udp =>
    rw [if_neg (show Transport.udp ≠ .tcp by decide), List.nil_append, readTransport_plain (target_head h), readTarget_host h, hatoi]
    rfl
  | tcp =>
    rw [if_pos rfl, List.singleton_append, readTransport, readTarget_host h, hatoi]
    rfl

/-! ### The lines of a table -/

/-- What a row stands for. -/
def Row.remote (row : Row) : Text × Config := (row.remoteHost.toList, row.config)

theorem ValidRow.port_range (h : ValidRow row) : 0 ≤ row.config.port ∧ row.config.port ≤ 65535 := by
  cases hp : row.portNumber with
  | none =>
    cases ht : row.transport with
    | none => simp [Row.config, effective, hp, ht, defaultPort, defaultUdpPort]
    | some t => cases t <;> simp [Row.config, effective, hp, ht, defaultPort, defaultUdpPort, defaultTcpPort]
  | some p =>
    obtain ⟨hmin, hmax⟩ := h.port p hp
    have hconfig : row.config.port = p := by simp [Row.config, effective, hp]
    rw [hconfig]
    exact ⟨Int.le_trans (show 0 ≤ minPortNumberSupported by decide) hmin, hmax⟩

theorem remoteText_line (h : ValidRow row) : '\n' ∉ remoteText row.remoteHost.toList row.config := by
  have hhost : '\n' ∉ row.remoteHost.toList := fun hmem => absurd (h.host.word.2 _ hmem) (by decide)
  have hseverity : '\n' ∉ row.config.severity.word := fun hmem =>
    absurd (row.config.severity.isWord.2 _ hmem) (by decide)
  have hport := Text.notMem_decimal (c := '\n') (by decide) (by decide) row.config.port
  unfold remoteText
  split <;> split <;> simp [hhost, hseverity, hport]

theorem lines_flatMap {f : Row → Text} (h : ∀ row ∈ rows, '\n' ∉ f row) :
    lines (rows.flatMap fun row => f row ++ ['\n']) = rows.map f := by
  have hsplit : (rows.flatMap fun row => f row ++ ['\n']).splitOn '\n' = rows.map f ++ [[]] := by
    induction rows with
    | nil => rfl
    | cons row rows ih =>
      obtain ⟨hrow, hrows⟩ := List.forall_mem_cons.mp h
      rw [List.flatMap_cons, List.append_assoc, List.singleton_append, List.splitOn_append_cons_self_of_not_mem hrow,
        ih hrows]
      rfl
  rw [lines, hsplit, List.dropLast_concat]

theorem lines_remoteConf (valid : ∀ row ∈ rows, ValidRow row) :
    lines (remoteConf (rows.map Row.idl)) = rows.map fun row => remoteText row.remoteHost.toList row.config := by
  have hconf : remoteConf (rows.map Row.idl) =
      rows.flatMap fun row => remoteText row.remoteHost.toList row.config ++ ['\n'] := by
    rw [remoteConf, List.flatMap_map]
    exact congrArg (rows.flatMap ·) (funext remoteLine_idl)
  rw [hconf, lines_flatMap fun row hrow => remoteText_line (valid row hrow)]

theorem readLine_lines (valid : ∀ row ∈ rows, ValidRow row) :
    (lines (remoteConf (rows.map Row.idl))).map readLine = rows.map fun row => some row.remote := by
  rw [lines_remoteConf valid, List.map_map]
  refine List.map_congr_left fun row hrow => ?_
  obtain ⟨hmin, hmax⟩ := (valid row hrow).port_range
  exact readLine_remoteText (valid row hrow).host hmin hmax

theorem exactMatch_remote : row.ExactMatch row' ↔ row.remote = row'.remote := by
  rw [exactMatch_iff, Row.remote, Row.remote, Prod.mk.injEq, String.toList_inj]

theorem equivalent_iff : Equivalent rows rows' ↔ (rows.map Row.remote).Perm (rows'.map Row.remote) := by
  constructor
  · rintro ⟨l, hpairs, hperm⟩
    have hmap : rows.map Row.remote = l.map Row.remote :=
      List.forall₂_eq_eq_eq ▸ List.forall₂_map_left_iff.mpr (List.forall₂_map_right_iff.mpr
        (hpairs.imp fun _ _ => exactMatch_remote.mp))
    rw [hmap]
    exact hperm.map _
  · intro h
    obtain ⟨l, hl, hperm⟩ := (congrFun (congrFun (List.eq_map_comp_perm Row.remote) (rows.map Row.remote)) rows').mpr h
    refine ⟨l, ?_, hperm⟩
    have hpairs : List.Forall₂ (· = ·) (rows.map Row.remote) (l.map Row.remote) := List.forall₂_eq_eq_eq ▸ hl
    exact (List.forall₂_map_right_iff.mp (List.forall₂_map_left_iff.mp hpairs)).imp fun _ _ => exactMatch_remote.mpr

/-- The file has a line for each row, the lines read back as the hosts with their effective configurations,
    and two tables have the same lines up to order just when the CLI takes them for the same. -/
theorem remoteConf_faithful (valid : ∀ row ∈ rows, ValidRow row) (valid' : ∀ row ∈ rows', ValidRow row) :
    (lines (remoteConf (rows.map Row.idl))).length = rows.length ∧
      (lines (remoteConf (rows.map Row.idl))).map readLine =
        rows.map (fun row => some (row.remoteHost.toList, row.config)) ∧
      ((lines (remoteConf (rows.map Row.idl))).Perm (lines (remoteConf (rows'.map Row.idl))) ↔
        Equivalent rows rows') := by
  refine ⟨?_, readLine_lines valid, ?_⟩
  · rw [lines_remoteConf valid, List.length_map]
  · rw [equivalent_iff]
    constructor
    · intro h
      have hread := h.map readLine
      rw [readLine_lines valid, readLine_lines valid'] at hread
      have hsome : ∀ l : List Row, (l.map Row.remote).map some = l.map fun row => some row.remote := fun l => List.map_map
      rw [← hsome, ← hsome] at hread
      exact (List.map_perm_map_iff (Option.some_injective _)).mp hread
    · intro h
      rw [lines_remoteConf valid, lines_remoteConf valid']
      have htext : ∀ l : List Row, (l.map Row.remote).map (fun r => remoteText r.1 r.2) =
          l.map fun row => remoteText row.remoteHost.toList row.config := fun l => List.map_map
      rw [← htext, ← htext]
      exact h.map _

/-- A host with nothing set, and the same host with every default written out. -/
theorem remoteConf_faithful_defaults :
    (lines (remoteConf ([⟨1, "10.0.0.2", none, none, none⟩].map Row.idl))).length = 1 ∧
      (lines (remoteConf ([⟨1, "10.0.0.2", none, none, none⟩].map Row.idl))).map readLine =
        [some ("10.0.0.2".toList, ⟨.udp, 514, .info⟩)] ∧
      ((lines (remoteConf ([⟨1, "10.0.0.2", none, none, none⟩].map Row.idl))).Perm
          (lines (remoteConf ([⟨7, "10.0.0.2", some .udp, some 514, some .info⟩].map Row.idl))) ↔
        Equivalent [⟨1, "10.0.0.2", none, none, none⟩] [⟨7, "10.0.0.2", some .udp, some 514, some .info⟩]) := by
  have hhost : ValidHost "10.0.0.2" := ⟨⟨by decide, by decide⟩, Or.inl (by decide)⟩
  exact remoteConf_faithful
    (fun row hrow => by
      obtain rfl := List.mem_singleton.mp hrow
      exact ⟨hhost, fun p hp => by cases hp⟩)
    (fun row hrow => by
      obtain rfl := List.mem_singleton.mp hrow
      refine ⟨hhost, fun p hp => ?_⟩
      obtain rfl := Option.some.inj hp
      decide)

end

end Syslog
end OpsSupportability
