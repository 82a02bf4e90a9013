import OpsSupportability.Lib.Text
import OpsSupportability.Syslog

/-! The command forms of `syslog_vty.c`, and the running configuration that `vtysh_ovsdb_syslog_context.c`
    prints for the syslog table. How vtysh takes a line apart and finds its command is the documented
    behaviour of vtysh; it is not part of the repository. -/

namespace OpsSupportability
namespace Syslog

/-! ### The words of the columns -/

def Transport.word : Transport → Text
  | .udp => "udp".toList
  | .tcp => "tcp".toList

def Severity.word : Severity → Text
  | .debug => "debug".toList
  | .info => "info".toList
  | .notice => "notice".toList
  | .warning => "warning".toList
  | .err => "err".toList
  | .crit => "crit".toList
  | .alert => "alert".toList
  | .emerg => "emerg".toList

def Transport.ofWord (w : Text) : Option Transport := [Transport.udp, .tcp].find? (·.word == w)

def Severity.ofWord (w : Text) : Option Severity :=
  [Severity.debug, .info, .notice, .warning, .err, .crit, .alert, .emerg].find? (·.word == w)

/-! ### The handlers -/

def hostArgument (argv : List Text) : Option String := argv[0]?.map String.ofList

/-- `logging HOST`. -/
def vtyshConfigSyslogBasic (argv : List Text) : Request := ⟨hostArgument argv, none, none, none⟩

/-- The port is read when there are two arguments. -/
def configSyslogTransport (transport : Transport) (argv : List Text) : Request :=
  ⟨hostArgument argv, some transport, if argv.length = 2 then argv[1]?.map Text.atoi else none, none⟩

/-- `logging HOST udp [PORT]`. -/
def vtyshConfigSyslogUdp : List Text → Request := configSyslogTransport .udp

/-- `logging HOST tcp [PORT]`. -/
def vtyshConfigSyslogTcp : List Text → Request := configSyslogTransport .tcp

/-- `logging HOST severity SEVERITY`. -/
def vtyshConfigSyslogSvrt (argv : List Text) : Request :=
  ⟨hostArgument argv, none, none, argv[1]?.bind Severity.ofWord⟩

/-- The second argument is taken for the port, whether or not the line has one. -/
def configSyslogTransportSvrt (transport : Transport) (argv : List Text) : Request :=
  ⟨hostArgument argv, some transport, argv[1]?.map Text.atoi, argv[2]?.bind Severity.ofWord⟩

/-- `logging HOST udp [PORT] severity SEVERITY`. -/
def vtyshConfigSyslogUdpSvrt : List Text → Request := configSyslogTransportSvrt .udp

/-- `logging HOST tcp [PORT] severity SEVERITY`. -/
def vtyshConfigSyslogTcpSvrt : List Text → Request := configSyslogTransportSvrt .tcp

/-- `logging HOST (udp|tcp) severity SEVERITY`. -/
def vtyshConfigSyslogProtSvrtNoport (argv : List Text) : Request :=
  ⟨hostArgument argv, argv[1]?.bind Transport.ofWord, none, argv[2]?.bind Severity.ofWord⟩

inductive Form where
  | basic
  | udp
  | tcp
  | svrt
  | udpSvrt
  | tcpSvrt
  | protSvrtNoport
  deriving DecidableEq, Repr

/-- What a handler passes on; `logging` and `no logging` have the same seven. -/
def Form.request : Form → List Text → Request
  | .basic => vtyshConfigSyslogBasic
  | .udp => vtyshConfigSyslogUdp
  | .tcp => vtyshConfigSyslogTcp
  | .svrt => vtyshConfigSyslogSvrt
  | .udpSvrt => vtyshConfigSyslogUdpSvrt
  | .tcpSvrt => vtyshConfigSyslogTcpSvrt
  | .protSvrtNoport => vtyshConfigSyslogProtSvrtNoport

/-! ### vtysh -/

/-- The words of a line. -/
def words (line : Text) : List Text := (line.splitOnP Text.isSpace).filter (!·.isEmpty)

/-- `<1-65535>`. -/
def isPort (w : Text) : Bool :=
  !w.isEmpty && w.all Char.isDigit && 1 ≤ Nat.ofDigitChars 10 w 0 && Nat.ofDigitChars 10 w 0 ≤ 65535

/-- The form whose syntax the words behind the host match; without a port it is a form without a port. -/
def dispatchArguments (host : Text) : List Text → Option (Form × List Text)
  | [] => some (.basic, [host])
  | [a] => (Transport.ofWord a).map fun t => (if t = .udp then .udp else .tcp, [host])
  | [a, b] =>
    if a = "severity".toList then (Severity.ofWord b).map fun _ => (.svrt, [host, b])
    else (Transport.ofWord a).bind fun t =>
      if isPort b then some (if t = .udp then .udp else .tcp, [host, b]) else none
  | [a, b, c] =>
    if b = "severity".toList then
      (Transport.ofWord a).bind fun _ => (Severity.ofWord c).map fun _ => (.protSvrtNoport, [host, a, c])
    else none
  | [a, b, c, d] =>
    if c = "severity".toList ∧ isPort b then
      (Transport.ofWord a).bind fun t => (Severity.ofWord d).map fun _ =>
        (if t = .udp then .udpSvrt else .tcpSvrt, [host, b, d])
    else none
  | _ => none

def dispatch : List Text → Option (Form × List Text)
  | command :: host :: arguments => if command = "logging".toList then dispatchArguments host arguments else none
  | _ => none

/-- A `logging` line; `none` when vtysh finds no command for it. -/
def executeLine (env : Env) (finish : TxnStatus) (db : Db) (line : Text) : Option Result :=
  (dispatch (words line)).map fun (form, argv) => cliSyslogConfig env finish db (form.request argv) true

/-- Lines one after the other, each in its own environment; `none` unless all of them return CMD_SUCCESS. -/
def executeLines : List (Env × Text) → Db → Option Db
  | [], db => some db
  | (env, line) :: lines, db =>
    (executeLine env .success db line).bind fun r => if r.status = .success then executeLines lines r.db else none

/-! ### The running configuration -/

/-- The line of a row. -/
def contextLine (row : Row) : Text :=
  let transport := match row.transport with
    | none => []
    | some t => t.word
  let transkey := if row.transport.isNone then [] else [' ']
  let severity := match row.severity with
    | none => []
    | some s => s.word
  let sevkey := if row.severity.isNone then [] else " severity ".toList
  match row.portNumber with
  | none => "logging ".toList ++ row.remoteHost.toList ++ transkey ++ transport ++ sevkey ++ severity
  | some p =>
    "logging ".toList ++ row.remoteHost.toList ++ transkey ++ transport ++ ' ' :: Text.decimal (p.bmod (2 ^ 32)) ++
      sevkey ++ severity

def vtyshConfigContextSyslogClientcallback (rows : List Row) : List Text := rows.map contextLine

end Syslog
end OpsSupportability
