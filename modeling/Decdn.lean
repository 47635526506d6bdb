import Decdn.Foundations.Words
import Decdn.Foundations.FiniteMaps
import Decdn.Foundations.Fallible
import Decdn.Foundations.Guards
import Decdn.Foundations.Runs
import Decdn.Foundations.Saturation
import Decdn.PaymentPool.Contract
import Decdn.PaymentPool.Spec
import Decdn.PaymentPool.Solvency
import Decdn.PaymentPool.Widths
import Decdn.PaymentPool.OrderIndependence
import Decdn.PaymentPool.Lifecycle
import Decdn.Incentive.Voucher
import Decdn.Incentive.Lane
import Decdn.Incentive.LaneSpec
import Decdn.Incentive.LaneClaim
import Decdn.Node.PlanLane
import Decdn.Node.Voucher
import Decdn.Node.Credit
import Decdn.Node.LaneStore
import Decdn.Node.Durability
import Decdn.Client.Ledger
import Decdn.Client.Pairing
import Decdn.Client.Books
import Decdn.Client.Settlement
import Decdn.Client.StreamMeter
import Decdn.Foundations.Journal
import Decdn.Session.Streams
import Decdn.Session.Chronicle
import Decdn.Session.Reading
import Decdn.Session.Paying
import Decdn.Session.Acceptance
import Decdn.Session.DoubleRoll
import Decdn.Node.PoolView
import Decdn.Node.PoolHistory
import Decdn.Node.PoolCounts
import Decdn.Node.PoolTracking
import Decdn.Node.PoolReplay
import Decdn.Node.PoolObserver
import Decdn.Node.FloorCredit
import Decdn.Node.FloorAccounting
import Decdn.Foundations.Checkpoints
import Decdn.Foundations.Aging
import Decdn.CapacityBond.State
import Decdn.CapacityBond.Registry
import Decdn.CapacityBond.Slashing
import Decdn.CapacityBond.Contract
import Decdn.CapacityBond.Spec
import Decdn.CapacityBond.RegistrySpec
import Decdn.CapacityBond.SlashingSpec
import Decdn.CapacityBond.Solvency
import Decdn.CapacityBond.SlashStamp
import Decdn.Cache.CircuitBreaker
import Decdn.Cache.Sketch
import Decdn.Cache.SketchRuns
import Decdn.Cache.SketchInterleaving
import Decdn.Foundations.EnumerableSets
import Decdn.Foundations.Texts
import Decdn.Foundations.Overlay
import Decdn.ContentBlacklist.EventLog
import Decdn.Node.BlacklistWatcher
import Decdn.Node.BlacklistSystem
import Decdn.Node.OriginDenySet
import Decdn.Node.Takedowns
import Decdn.Client.Uri
import Decdn.Client.UriGrammar
import Decdn.ContentBlacklist.State
import Decdn.ContentBlacklist.Contract
import Decdn.ContentBlacklist.Spec
import Decdn.ContentBlacklist.Enumeration
import Decdn.SlashJudge.Contract
import Decdn.SlashJudge.Spec
import Decdn.Enforcement.System
import Decdn.CapacityBond.Operators
import Decdn.Enforcement.Withdrawal
import Decdn.CapacityBond.Regions
import Decdn.Enforcement.RegionScope
import Decdn.Client.OrderedWrites
import Decdn.Node.WarmingAllowance
import Decdn.Node.Eviction
import Decdn.Foundations.Slots
import Decdn.CapacityBond.RegistryMoves
import Decdn.CapacityBond.RegistryConsistency
import Decdn.CapacityBond.Activity
import Decdn.Node.LoadShed
import Decdn.Incentive.PreimageWalk
import Decdn.Node.AtomicCommit
import Decdn.PaymentPool.VoteBytes
import Decdn.Foundations.Incremental
import Decdn.Protocol.Framing
import Decdn.Dht.Keyspace
import Decdn.Dht.Records
import Decdn.Dht.RecordIndex
import Decdn.Dht.Routing
import Decdn.Dht.RoutingOrder
import Decdn.Session.Undone
import Decdn.Node.DeliverLoop
import Decdn.Session.Reopening
import Decdn.Session.Resume
import Decdn.Foundations.Dealing
import Decdn.Node.RedeemChunks
import Decdn.Node.CheckpointDebounce
import Decdn.Node.RampCredit
import Decdn.Foundations.PreorderWalk
import Decdn.BaoRange.WireSize
import Decdn.Client.PaidFrontier
import Decdn.Client.Pacer
import Decdn.Foundations.Spans
import Decdn.Client.CoveragePlan
import Decdn.Client.Segment
import Decdn.Client.PaidBytes
import Decdn.Foundations.BigEndian
import Decdn.Foundations.Wire
import Decdn.Node.LaneRecord
import Decdn.Foundations.SpanSets
import Decdn.Foundations.Waiting
import Decdn.Client.StreamCap
import Decdn.Foundations.Loops
import Decdn.Incentive.LogScan
import Decdn.ContentBlacklist.EmergencyPath
import Decdn.Client.UpstreamPull
import Decdn.Foundations.CheckedWords
import Decdn.Governance.FeeRouter
import Decdn.Governance.VoteWeight
import Decdn.Foundations.HashMaps
import Decdn.Cache.EvictionPlan
import Decdn.Incentive.BuyerPool
import Decdn.Foundations.StepFunctions
import Decdn.Governance.Buyback
import Decdn.Foundations.Directories
import Decdn.Node.ReceiptLog
import Decdn.Client.UnpaidSpans
import Decdn.Dht.Lookup
import Decdn.Dht.LookupSafety
import Decdn.Dht.LookupSilence
import Decdn.Origins.Namespaces
import Decdn.Origins.Ownership
import Decdn.Origins.Seats
import Decdn.Origins.SeatIndex
import Decdn.Origins.SeatWatcher
import Decdn.Foundations.RecentMap
import Decdn.Origins.Directory
import Decdn.Foundations.AwakeTime
import Decdn.Appeals.Contract
import Decdn.Appeals.System
import Decdn.Appeals.Ledger
import Decdn.Appeals.Agreement
import Decdn.Appeals.Windows
import Decdn.Cache.FillRegistry
import Decdn.Cache.FillSafety
import Decdn.Cache.FillPromises
import Decdn.Foundations.OrderedTables
import Decdn.Foundations.StoredMaps
import Decdn.Foundations.WireLists
import Decdn.Incentive.BuyerRecord
import Decdn.Incentive.BuyerStore
import Decdn.Incentive.BuyerStoreAgreement
import Decdn.Incentive.BuyerStoreProgress
