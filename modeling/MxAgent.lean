import MxAgent.Protocol.CanonicalText
import MxAgent.Policy.Locality
import MxAgent.Policy.Confinement
import MxAgent.Cli.ReorderRuns
import MxAgent.System.CacheHistory
import MxAgent.System.Reserialization
import MxAgent.System.TaskLifecycle
import MxAgent.System.TaskRegister
import MxAgent.System.AuthoredActions
import MxAgent.System.DecisionWindow
import MxAgent.System.ApproverIdentity
import MxAgent.System.FailedReads
import MxAgent.System.TaskPolicy
import MxAgent.System.QueueUpdates
import MxAgent.System.RuntimeCaps
import MxAgent.System.ResultPlane
import MxAgent.System.RouterReplay
import MxAgent.System.ControlFrames
import MxAgent.System.GenuineResults
import MxAgent.System.LiveChildren
import MxAgent.System.Revocations
import MxAgent.System.RestartReconciliation
import MxAgent.System.TaskRendering
import MxAgent.System.ForeignTasks
import MxAgent.System.CaptureReport
import MxAgent.System.StreamDelivery
import MxAgent.System.ApprovalDeadlines
import MxAgent.System.Framing
import MxAgent.System.TaskDiffs
import MxAgent.System.WrappedCommands
import MxAgent.System.CiFixBounds
import MxAgent.System.HeartbeatScan
import MxAgent.System.SyncRuns
import MxAgent.System.AutoClaim
import MxAgent.Daemon.TimestampText
import MxAgent.System.PromptEngines
import MxAgent.System.PromptArguments
import MxAgent.Daemon.Audit
import MxAgent.System.GateCommands
import MxAgent.Daemon.Session
import MxAgent.System.SessionFiles
