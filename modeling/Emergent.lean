import Emergent.Kit.Runs
import Emergent.Kit.Text
import Emergent.Kit.WriteAhead
import Emergent.Kit.Framing
import Emergent.Kit.Splits
import Emergent.Kit.Climb
import Emergent.Kit.PrefixCode
import Emergent.Kit.Segments
import Emergent.Kit.Window
import Emergent.Kit.Cuts
import Emergent.Kit.Calendar
import Emergent.Kit.Fallible
import Emergent.Kit.Paths
import Emergent.Kit.Deque
import Emergent.Kit.KeySort
import Emergent.Kit.Server
import Emergent.Sdk.Topic
import Emergent.Sdk.Types
import Emergent.Sdk.TopicReach
import Emergent.Sdk.CodeUnits
import Emergent.Sdk.TopicAgreement
import Emergent.Sdk.Validators
import Emergent.Sdk.Frames
import Emergent.Sdk.FrameAgreement
import Emergent.Sdk.FrameLoop
import Emergent.Sdk.Message
import Emergent.Engine.Declarations
import Emergent.Engine.ConfigTopics
import Emergent.Engine.Identity
import Emergent.Engine.Ancestry
import Emergent.Engine.PidAgreement
import Emergent.Engine.Policy
import Emergent.Engine.EventStore
import Emergent.Engine.Broker
import Emergent.Engine.BrokerSafety
import Emergent.Engine.BrokerOrder
import Emergent.Engine.BrokerOrigin
import Emergent.Engine.KillOrder
import Emergent.Engine.Lifecycle
import Emergent.Engine.Supervision
import Emergent.Engine.SystemEvent
import Emergent.Engine.PrimitiveActor
import Emergent.Engine.ActorTokens
import Emergent.Engine.RestartRate
import Emergent.Kit.Modify
import Emergent.Kit.Table
import Emergent.Engine.ActorEvents
import Emergent.Engine.ActorTracking
import Emergent.Engine.ActorHalting
import Emergent.Engine.Shutdown
import Emergent.Sdk.Bridge
import Emergent.Sdk.BridgeLoop
import Emergent.Sdk.PythonPublish
import Emergent.Sdk.PushAgreement
import Emergent.Sdk.PushReading
import Emergent.Sdk.PushRouting
import Emergent.Sdk.PublishWatch
import Emergent.Sdk.RejectionLog
import Emergent.Sdk.PublishCalls
import Emergent.Sdk.PublishAccount
import Emergent.Sdk.PublishOrder
import Emergent.Sdk.Helpers
import Emergent.Engine.Drain
import Emergent.Engine.Revocation
import Emergent.Engine.ConnectionCap
import Emergent.Engine.RevokedFrames
import Emergent.Engine.Readiness
import Emergent.Engine.ReadinessBatches
import Emergent.Engine.StartupWait
import Emergent.Engine.TierOrder
import Emergent.Engine.EventRows
import Emergent.Engine.EventHistory
import Emergent.Engine.Retention
import Emergent.Engine.TimeRange
import Emergent.Engine.LogNames
import Emergent.Engine.ApiHost
import Emergent.Engine.Preflight
import Emergent.Engine.TopologyPayload
import Emergent.Engine.Marketplace
import Emergent.Engine.MarketplaceSteps
import Emergent.Engine.Checksums
import Emergent.Engine.InstallPaths
import Emergent.Engine.InstallRuns
import Emergent.Engine.PlacedBinaries
import Emergent.Engine.FailedInstalls
import Emergent.Sdk.MessageStream
import Emergent.Sdk.StreamCalls
import Emergent.Sdk.SubscribeCalls
import Emergent.Sdk.PullStream
import Emergent.Sdk.PullTraffic
import Emergent.Sdk.PullNetwork
import Emergent.Sdk.PullGiveBack
import Emergent.Sdk.WriteQueue
import Emergent.Sdk.PendingRequests
import Emergent.Sdk.QueryAnswers
import Emergent.Sdk.TopologyReading
import Emergent.Engine.Discovery
import Emergent.Engine.DryRun
import Emergent.Engine.LoadIssues
import Emergent.Engine.Validate
import Emergent.Engine.LifecycleReading
import Emergent.Engine.SelfUpdate
import Emergent.Engine.Scaffold
import Emergent.Sdk.HelperLoops
import Emergent.Engine.BrokerForwarding
import Emergent.Sdk.Publishing
import Emergent.Sdk.Unsubscribing
