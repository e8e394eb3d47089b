import ShardIndex.Config.Writer
import ShardIndex.Report.Definition
import ShardIndex.Report.Entity
import ShardIndex.Report.Fault
import ShardIndex.Scenario.Definition
import ShardIndex.Scenario.Entity
import ShardIndex.Simulation.Listener
import ShardIndex.Proofs.Forward.History
import ShardIndex.Proofs.Store.Rows
import ShardIndex.Proofs.Forward.Sink
import ShardIndex.Proofs.Forward.Conservation
import ShardIndex.Proofs.Forward.Tables
import ShardIndex.Proofs.Forward.Following
import ShardIndex.Proofs.Forward.Run
import ShardIndex.Proofs.Forward.Linkage
import ShardIndex.Proofs.Forward.Labels
import ShardIndex.Proofs.Forward.Schedule
import ShardIndex.Proofs.Discovery.LeastSet
import ShardIndex.Proofs.Linkage.Settlement
import ShardIndex.Proofs.Pipeline.Publication
import ShardIndex.Proofs.Pipeline.Feeds
import ShardIndex.Proofs.Pipeline.Rounds
import ShardIndex.Proofs.Rescan.Coverage
import ShardIndex.Proofs.Rescan.Pointwise
import ShardIndex.Proofs.Rescan.WindowSize
import ShardIndex.Proofs.Supervision.CommitOrder
import ShardIndex.Proofs.Account.Tended
import ShardIndex.Proofs.Rescan.AccountLabels
import ShardIndex.Proofs.Rescan.Queries
import ShardIndex.Proofs.Rescan.SideLabels
import ShardIndex.Proofs.Rescan.Frame
import ShardIndex.Proofs.Rescan.LifeCycle
import ShardIndex.Proofs.Rescan.Idempotence
import ShardIndex.Proofs.Rescan.Relabelling
import ShardIndex.Proofs.Rescan.Interleaving
import ShardIndex.Proofs.Fetch.Transparency
import ShardIndex.Proofs.Fetch.Bundles
import ShardIndex.Proofs.Config.Overlay
import ShardIndex.Proofs.Forward.Retention
import ShardIndex.Proofs.Account.Retraction
import ShardIndex.Proofs.Snapshot.PointInTime
import ShardIndex.Proofs.Store.Transactions
import ShardIndex.Proofs.Account.Merging
import ShardIndex.Proofs.Pipeline.Standstill
