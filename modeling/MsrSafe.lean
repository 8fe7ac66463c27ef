import MsrSafe.Lib.Interleave
import MsrSafe.Lib.Atomic
import MsrSafe.Lib.History
import MsrSafe.Lib.Lanes
import MsrSafe.Lib.Lines
import MsrSafe.Lib.LittleEndian
import MsrSafe.Lib.Mask
import MsrSafe.Lib.Mutex
import MsrSafe.Lib.Rely
import MsrSafe.Lib.Scan
import MsrSafe.Lib.Snapshot
import MsrSafe.Kernel
import MsrSafe.Text
import MsrSafe.AllowlistParser
import MsrSafe.AllowlistStore
import MsrSafe.AllowlistGrammar
import MsrSafe.AllowlistInvariant
import MsrSafe.AllowlistJoin
import MsrSafe.AllowlistCount
import MsrSafe.AllowlistDump
import MsrSafe.AllowlistPasses
import MsrSafe.AllowlistLocking
import MsrSafe.Replacement
import MsrSafe.Entry
import MsrSafe.SeekPosition
import MsrSafe.Batch
import MsrSafe.BatchExecution
import MsrSafe.BatchCheck
import MsrSafe.BatchGuard
import MsrSafe.BatchTrace
import MsrSafe.BatchRequest
import MsrSafe.BatchCoverage
import MsrSafe.BatchReplacement
import MsrSafe.BatchSchedule
import MsrSafe.AccessPaths
import MsrSafe.BatchSerial
import MsrSafe.BatchComposition
import MsrSafe.Mediation
import MsrSafe.CpuIsolation
import MsrSafe.SingleAccess
import MsrSafe.Authority
import MsrSafe.Secrecy
import MsrSafe.LostUpdate
import MsrSafe.MsrsaveAllowlist
import MsrSafe.MsrsaveLines
import MsrSafe.MsrsaveBuffer
import MsrSafe.Msrsave
import MsrSafe.MsrsaveLoops
import MsrSafe.JobIsolation
import MsrSafe.RestoreUndo
import MsrSafe.RestoreOrigin
import MsrSafe.RestoreFailure
import MsrSafe.SaveFile
import MsrSafe.Snapshots
import MsrSafe.SpankHooks
import MsrSafe.JobSeries
import MsrSafe.LogForward
import MsrSafe.ModuleLoad
import MsrSafe.LoadAtomicity
import MsrSafe.Hotplug
