import OpsSupportability.Lib.Dollar
import OpsSupportability.Lib.Inet
import OpsSupportability.SyslogContext

/-! The rsyslog configuration that `ops_supportability.py` writes for the syslog table. A row is what the
    Python IDL shows: an unset optional column is an empty list. -/

namespace OpsSupportability
namespace Syslog

structure RemoteRow where
  remoteHost : Text
  transport : List Text
  portNumber : List Int
  severity : List Text
  deriving DecidableEq, Repr

/-- A row as the Python IDL shows it. -/
def Row.idl (row : Row) : RemoteRow where
  remoteHost := row.remoteHost.toList
  transport := row.transport.toList.map Transport.word
  portNumber := row.portNumber.toList
  severity := row.severity.toList.map Severity.word

/-! ### The templates -/

def sysserverTmplUdp : Text := "*.$severity @$remote:$port\n".toList
def sysserverTmplTcp : Text := "*.$severity @@$remote:$port\n".toList
def ipv6sysserverTmplUdp : Text := "*.$severity @[$remote]:$port\n".toList
def ipv6sysserverTmplTcp : Text := "*.$severity @@[$remote]:$port\n".toList

/-- The keyword arguments of `safe_substitute`. -/
def remoteMapping (severity remote : Text) (port : Int) (name : Text) : Option Text :=
  if name = "severity".toList then some severity
  else if name = "remote".toList then some remote
  else if name = "port".toList then some (Text.decimal port)
  else none

def isIpv6 (address : Text) : Bool := Inet.inetPton6 address

/-! ### The file -/

/-- What the loop writes for a row. -/
def remoteLine (row : RemoteRow) : Text :=
  let severity := row.severity.head?.getD "info".toList
  let transport := row.transport.head?.getD "udp".toList
  if transport = "udp".toList then
    let port := row.portNumber.head?.getD 514
    if isIpv6 row.remoteHost then Dollar.safeSubstitute ipv6sysserverTmplUdp (remoteMapping severity row.remoteHost port)
    else Dollar.safeSubstitute sysserverTmplUdp (remoteMapping severity row.remoteHost port)
  else if transport = "tcp".toList then
    let port := row.portNumber.head?.getD 1470
    if isIpv6 row.remoteHost then Dollar.safeSubstitute ipv6sysserverTmplTcp (remoteMapping severity row.remoteHost port)
    else Dollar.safeSubstitute sysserverTmplTcp (remoteMapping severity row.remoteHost port)
  else []

/-- The text of `/tmp/rsyslog.remote.conf`. -/
def remoteConf (rows : List RemoteRow) : Text := rows.flatMap remoteLine

/-- `/etc/rsyslog.remote.conf`, and how often rsyslog has been restarted. -/
structure Rsyslog where
  conf : Option Text
  restarts : Nat
  deriving DecidableEq, Repr

/-- `filecmp.cmp`: files whose type, size and modification time agree count as equal. -/
def filecmp (sameSignature : Bool) (a b : Text) : Bool := sameSignature || a == b

def supportabilityReconfigure (sameSignature : Bool) (rows : List RemoteRow) (s : Rsyslog) : Rsyslog :=
  let text := remoteConf rows
  match s.conf with
  | none => ⟨some text, s.restarts + 1⟩
  | some conf => if filecmp sameSignature text conf then s else ⟨some text, s.restarts + 1⟩

end Syslog
end OpsSupportability
