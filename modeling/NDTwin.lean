import NDTwin.Lib.Keyed
import NDTwin.Lib.Machine
import NDTwin.Lib.Fixed
import NDTwin.Lib.PyInt
import NDTwin.Lib.Json
import NDTwin.Journal.Fold
import NDTwin.Journal.Switch
import NDTwin.Journal.Replay
import NDTwin.Journal.Tables
import NDTwin.Journal.Restore
import NDTwin.Journal.Fabric
import NDTwin.Journal.Exclusion
import NDTwin.Routing.RuleJournal
import NDTwin.Routing.SlotPriority
import NDTwin.Routing.WriteOrder
import NDTwin.Lib.Ipv4
import NDTwin.Lib.JsonText
import NDTwin.Lib.PyValue
import NDTwin.Routing.Match
import NDTwin.Routing.RuleIdentity
import NDTwin.Classifier.Key
import NDTwin.Classifier.Parse
import NDTwin.Classifier.Table
import NDTwin.Classifier.Update
import NDTwin.Classifier.Invariant
import NDTwin.Classifier.Refine
import NDTwin.FlowStats.Render
import NDTwin.FlowStats.Routes
import NDTwin.Classifier.FirstMet
import NDTwin.Lib.Dict
import NDTwin.Lib.HopSweep
import NDTwin.Locks.LockManager
import NDTwin.Lib.Descent
import NDTwin.Topology.CanonicalPath
import NDTwin.Topology.InstalledPath
import NDTwin.Netem.LinkFault
import NDTwin.Netem.BothEnds
import NDTwin.Netem.OwnNetem
import NDTwin.Links.Watchdog
import NDTwin.Links.Reports
import NDTwin.Links.Heartbeat
import NDTwin.FlowTables.Batch
import NDTwin.FlowTables.Cache
import NDTwin.FlowTables.Accepted
import NDTwin.FlowTables.Outcomes
import NDTwin.FlowTables.Served
import NDTwin.Topology.RouteWrites
import NDTwin.Topology.RouteRecord
import NDTwin.Twin.Graph
import NDTwin.Twin.AdminDisable
import NDTwin.Twin.InjectLink
import NDTwin.Twin.Discovery
import NDTwin.Twin.Liveness
import NDTwin.FlowTables.Dispatcher
import NDTwin.FlowTables.Accounting
import NDTwin.FlowTables.Staleness
import NDTwin.Classifier.FailedPolls
import NDTwin.EnergySaving.RouteWalk
import NDTwin.EnergySaving.Rewrites
import NDTwin.FlowTables.Conservation
import NDTwin.FlowTables.QueuedOnly
import NDTwin.Lib.Words
import NDTwin.Telemetry.Emitter
import NDTwin.Telemetry.Collector
import NDTwin.Telemetry.RoundTrip
import NDTwin.Telemetry.Batching
import NDTwin.Twin.LinkReports
import NDTwin.Twin.Declarations
import NDTwin.Twin.Sections
import NDTwin.Telemetry.Banks
import NDTwin.Twin.PowerOff
import NDTwin.Telemetry.FlowPath
import NDTwin.Classifier.Adoption
import NDTwin.Classifier.AddressText
import NDTwin.Classifier.MatchMeaning
import NDTwin.Classifier.Widened
import NDTwin.FlowTables.UsableReplies
import NDTwin.FlowTables.DeleteOne
import NDTwin.FlowStats.Faithful
import NDTwin.Lib.JsonRead
import NDTwin.Lib.JsonExtend
import NDTwin.Lib.JsonRoundTrip
import NDTwin.Lib.PyData
import NDTwin.P4Table.Shape
import NDTwin.P4Table.Entry
import NDTwin.P4Table.ReadBack
import NDTwin.P4Table.RoundTrip
import NDTwin.Lib.ValueSets
import NDTwin.P4Table.EntryKey
import NDTwin.P4Table.InstallTimes
import NDTwin.Lib.JsonLine
import NDTwin.Journal.Torn
import NDTwin.Routing.RuleFile
import NDTwin.Lib.Episodes
import NDTwin.Netem.ReadBack
import NDTwin.Telemetry.FailureLog
import NDTwin.Routing.Prefixes
import NDTwin.Topology.PathWalk
import NDTwin.FlowTables.Destinations
import NDTwin.FlowTables.PriorityDelete
import NDTwin.Lib.Reads
import NDTwin.Telemetry.SampleWalk
import NDTwin.Telemetry.FrameIdentity
import NDTwin.Telemetry.Fragments
import NDTwin.FlowTables.GuardedMod
import NDTwin.Lib.Disk
import NDTwin.Journal.Snapshot
import NDTwin.Telemetry.BatchDelay
import NDTwin.Telemetry.EmitAlone
import NDTwin.Telemetry.FlowTable
import NDTwin.Telemetry.Purge
import NDTwin.Telemetry.ImmediateRate
import NDTwin.Telemetry.IngressPort
import NDTwin.Workers.StopSignal
import NDTwin.Twin.P4Power
import NDTwin.Twin.ProxyTopology
import NDTwin.Twin.PathTable
import NDTwin.Twin.NameOverlay
import NDTwin.Links.Beacons
