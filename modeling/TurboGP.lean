import TurboGP.Engine.CheckLogic
import TurboGP.Engine.DeclaredKeys
import TurboGP.Engine.FailedCommit
import TurboGP.Engine.GroupedReplay
import TurboGP.Engine.JoinVisibility
import TurboGP.Engine.LifetimeRecovery
import TurboGP.Engine.PastRows
import TurboGP.Engine.PointInTime
import TurboGP.Engine.References
import TurboGP.Engine.RefusedDml
import TurboGP.Engine.ReopenedRows
import TurboGP.Engine.SavepointRecovery
import TurboGP.Engine.SelectWhere
import TurboGP.Engine.Sessions
import TurboGP.Engine.TableShape
import TurboGP.Engine.WithCatalog
import TurboGP.Exec.BloomFilter
import TurboGP.Exec.Partitions
import TurboGP.Exec.Window
import TurboGP.Server.Authenticated
import TurboGP.Server.Framing
import TurboGP.Server.Transactions
import TurboGP.Storage.Crc32c
import TurboGP.Storage.FreshPages
import TurboGP.Storage.PageRepair
import TurboGP.Storage.Quorum
import TurboGP.Storage.RaftStore
import TurboGP.Storage.ReplicaRuns
import TurboGP.Storage.TornTail
import TurboGP.Txn.Conflict
import TurboGP.Txn.Snapshot
import TurboGP.Txn.Vacuum
