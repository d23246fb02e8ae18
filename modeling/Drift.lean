import Drift.Lib.Machine
import Drift.Lib.Median
import Drift.Lib.Dict
import Drift.Lib.Causal
import Drift.Lib.CostGraph
import Drift.Lib.Drafting
import Drift.Lib.Chains
import Drift.Lib.Json
import Drift.Lib.Leximin
import Drift.Lib.JsonText
import Drift.Lib.Loop
import Drift.Lib.Outcome
import Drift.Lib.Copies
import Drift.Lib.Crashing
import Drift.Lib.Custody
import Drift.Lib.Processes
import Drift.Lib.Program
import Drift.Lib.SlidingWindow
import Drift.Lib.TokenBucket
import Drift.Identity.Records
import Drift.Identity.ReplayGuard
import Drift.Identity.Verification
import Drift.Identity.TrustStore
import Drift.Identity.TrustChains
import Drift.Identity.ReplaySafety
import Drift.Identity.GuardRun
import Drift.Identity.ReplayHistory
import Drift.Dht.ModuleInfos
import Drift.Manifest.ArtifactVerifier
import Drift.Manifest.CanonicalManifest
import Drift.Manifest.DiskCeiling
import Drift.Manifest.ModelManifest
import Drift.Manifest.ResolvedFiles
import Drift.Manifest.ResumableDownload
import Drift.Client.RoutingUpdates
import Drift.Client.SessionReplay
import Drift.Client.SessionRecovery
import Drift.Client.LatencyRoute
import Drift.Client.CheapestRoutes
import Drift.Client.SpeculativeGeneration
import Drift.Node.CoverageDiscovery
import Drift.Node.CoverageSafety
import Drift.Node.WorkerSupervisor
import Drift.Node.WorkerChanges
import Drift.Node.WorkerInvariants
import Drift.Node.WorkerSafety
import Drift.Node.WorkerReservations
import Drift.Node.OperatorPause
import Drift.Node.RouteMetrics
import Drift.Node.RouteDemand
import Drift.Node.PlacementHysteresis
import Drift.Node.PlacementWindow
import Drift.Server.RequestSplit
import Drift.Node.DemandMinority
import Drift.Node.KeyStoreReload
import Drift.Node.AutomaticPlacement
import Drift.Node.PlacementIntent
import Drift.Node.PolicyStore
import Drift.Node.PolicyTransaction
import Drift.Node.PolicyForeign
import Drift.Node.CatalogRollback
import Drift.Node.CatalogBootstrap
import Drift.Node.ModelLadder
import Drift.Node.CatalogActivation
import Drift.Node.ModelManager
import Drift.Node.ModelSteps
import Drift.Node.ModelResidency
import Drift.Node.ModelOwnership
import Drift.Node.ModelSafety
import Drift.Server.Admission
import Drift.Server.AdmissionRuns
import Drift.Server.AdmissionHealth
import Drift.Server.AdmissionLeases
import Drift.Server.AdmissionRate
import Drift.Server.AdmissionClock
import Drift.Server.AdmissionSlots
import Drift.Server.PushHandlers
import Drift.Server.PushSlots
import Drift.Server.PushGenerations
import Drift.Server.MemoryCache
import Drift.Server.PagedPool
import Drift.Server.PagedPoolSafety
import Drift.Server.PagedContents
import Drift.Server.PagedRefinement
import Drift.Server.SharedKv
import Drift.Server.InferenceStep
import Drift.Server.InferencePaths
import Drift.Server.InferenceAgreement
import Drift.Server.PositionBounds
import Drift.Server.ChunkedForward
import Drift.Server.StepIterator
import Drift.Server.PushedSteps
import Drift.Server.PushedAgreement
import Drift.Server.KvCache
import Drift.Server.BlockSelection
import Drift.Server.CacheAccounting
import Drift.Server.PagedFailures
import Drift.Server.TaskPool
import Drift.Dht.Spans
import Drift.Client.InferenceSession
import Drift.Client.RoutingTable
import Drift.Utils.DiskCache
import Drift.Utils.Packaging
import Drift.Utils.JoinToken
import Drift.Node.PeerCache
import Drift.Lib.Occurrences
import Drift.Lib.BoundedCache
import Drift.Lib.JsonSize
import Drift.Lib.Text
import Drift.Lib.IpAddress
import Drift.Api.StopStrings
import Drift.Release.PublicationBundle
import Drift.Release.BundleWriter
import Drift.Release.BundleAccepted
