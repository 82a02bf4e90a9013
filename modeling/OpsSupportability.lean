import OpsSupportability.Lib.Firsts
import OpsSupportability.Lib.Fuel
import OpsSupportability.Lib.Keyed
import OpsSupportability.Lib.Optimistic
import OpsSupportability.Lib.Text
import OpsSupportability.Lib.Printf
import OpsSupportability.Lib.Template
import OpsSupportability.Lib.Rewriting
import OpsSupportability.Lib.Regex
import OpsSupportability.Lib.Dollar
import OpsSupportability.Lib.Inet
import OpsSupportability.Lib.Glob
import OpsSupportability.Lib.Capture
import OpsSupportability.Lib.Loop
import OpsSupportability.Lib.Runs
import OpsSupportability.EventTable
import OpsSupportability.EventLog
import OpsSupportability.PyEventLog
import OpsSupportability.ShowEvents
import OpsSupportability.Syslog
import OpsSupportability.SyslogContext
import OpsSupportability.CoreDump
import OpsSupportability.DiagDump
import OpsSupportability.Rsyslog
import OpsSupportability.ShowTech
import OpsSupportability.CmdThread
import OpsSupportability.Theorems.SyslogMatch
import OpsSupportability.Theorems.SyslogTable
import OpsSupportability.Theorems.SyslogRefine
import OpsSupportability.Theorems.SyslogSessions
import OpsSupportability.Theorems.SyslogContext
import OpsSupportability.Theorems.Rsyslog
import OpsSupportability.Theorems.CoreDump
import OpsSupportability.Theorems.DiagDump
import OpsSupportability.Theorems.ShowTech
import OpsSupportability.Theorems.PyInit
import OpsSupportability.Theorems.PyAtomic
import OpsSupportability.Theorems.EventLoad
import OpsSupportability.Theorems.EventInit
import OpsSupportability.Theorems.EventSearch
import OpsSupportability.Theorems.EventCapacity
import OpsSupportability.Theorems.EventEnds
import OpsSupportability.Theorems.EventExpand
import OpsSupportability.Theorems.EventLeak
import OpsSupportability.Theorems.EventFormat
import OpsSupportability.Theorems.EventTerminate
import OpsSupportability.Theorems.EventDecode
import OpsSupportability.Theorems.EventJournal
import OpsSupportability.Theorems.ShowEvents
import OpsSupportability.Theorems.ShowCategory
import OpsSupportability.Theorems.CmdThread
import OpsSupportability.FeatureMapping
import OpsSupportability.Theorems.FeatureMapping
import OpsSupportability.DiagDumpRun
import OpsSupportability.Theorems.DiagDumpRun
import OpsSupportability.BashCat
import OpsSupportability.Theorems.BashCat
import OpsSupportability.Theorems.EventVerbatim
import OpsSupportability.EventWrites
import OpsSupportability.Theorems.EventWrites
import OpsSupportability.SupportabilityVty
import OpsSupportability.Theorems.SupportabilityVty
import OpsSupportability.Theorems.FeatureOffers
import OpsSupportability.Lib.Chains
import OpsSupportability.ShowTechConfig
import OpsSupportability.Theorems.ShowTechConfig
import OpsSupportability.Theorems.ShowTechDocument
import OpsSupportability.Theorems.ShowTechReaders
import OpsSupportability.Lib.PyRepr
import OpsSupportability.CrashProcessing
import OpsSupportability.Theorems.CrashCalls
import OpsSupportability.Theorems.CrashProcessing
import OpsSupportability.Lib.Writes
import OpsSupportability.CoreDumpWrites
import OpsSupportability.Theorems.TimeStamps
import OpsSupportability.Theorems.CoreFileName
import OpsSupportability.KeyValue
import OpsSupportability.Theorems.KeyValue
import OpsSupportability.Lib.Paths
import OpsSupportability.OutputFile
import OpsSupportability.Theorems.OutputFile
import OpsSupportability.CmdInterrupt
import OpsSupportability.Lib.Critical
import OpsSupportability.Theorems.CmdInterrupt
import OpsSupportability.Theorems.CmdUndisturbed
import OpsSupportability.Theorems.ValidateArgs
import OpsSupportability.SupportabilityDaemon
import OpsSupportability.Theorems.SupportabilityDaemon
import OpsSupportability.Theorems.VlogConfig
import OpsSupportability.ShowVlog
import OpsSupportability.Theorems.ShowVlog
import OpsSupportability.Theorems.CmdCalls
import OpsSupportability.Theorems.ShowTechTranscript
import OpsSupportability.CoreTable
import OpsSupportability.Theorems.CoreTable
import OpsSupportability.CrashReport
import OpsSupportability.Theorems.CrashReport
