import Crum.Lib.JavaLong
import Crum.Lib.JavaRuntime
import Crum.Lib.LongRange
import Crum.Lib.CarryChain
import Crum.Lib.CarrySeries
import Crum.Lib.Rate
import Crum.Lib.Reorder
import Crum.Lib.Segments
import Crum.Lib.TextOrder
import Crum.Lib.KeyedTable
import Crum.Lib.LastRow
import Crum.Lib.Run
import Crum.Lib.SlidingWindow
import Crum.Lib.SqlSchema
import Crum.Core.Main
import Crum.Core.InitDB
import Crum.Core.Statements
import Crum.Spec.RoundLog
import Crum.Spec.Gregorian
import Crum.Proofs.NetworkAccounting
import Crum.Proofs.NetworkRecovery
import Crum.Proofs.NetworkOrder
import Crum.Proofs.NetworkOverflow
import Crum.Proofs.NetworkTraffic
import Crum.Proofs.InterfaceText
import Crum.Proofs.DiskStartup
import Crum.Proofs.DiskCoverage
import Crum.Proofs.DiskBaselines
import Crum.Proofs.DiskTelescoping
import Crum.Proofs.DiskInterval
import Crum.Proofs.CpuWindows
import Crum.Proofs.RoundAlignment
import Crum.Proofs.StoredRates
import Crum.Proofs.MachineLifetime
import Crum.Proofs.TabRefresh
import Crum.Proofs.Retention
import Crum.Proofs.CullingCalendar
import Crum.Proofs.CullingOrder
import Crum.Proofs.StatementRuns
import Crum.Proofs.Progress
import Crum.Proofs.Exceptions
import Crum.Proofs.Storage
import Crum.Proofs.WindowHistory
import Crum.Proofs.Forgetting
import Crum.Proofs.FiguresInRange
import Crum.Proofs.Restart
