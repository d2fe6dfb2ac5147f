import FleetServer.Api.BlockPaste
import FleetServer.Api.ConcurrentEdits
import FleetServer.Api.DeployedVersion
import FleetServer.Api.Deployments
import FleetServer.Api.DispatchDisjoint
import FleetServer.Api.EditRequests
import FleetServer.Api.EffectAgreement
import FleetServer.Api.FailedGoals
import FleetServer.Api.GoalActivation
import FleetServer.Api.GoalExpansion
import FleetServer.Api.GoalInstances
import FleetServer.Api.LockCleanup
import FleetServer.Api.LockOwners
import FleetServer.Api.MergedState
import FleetServer.Api.NormalizedSteps
import FleetServer.Api.PlaceholderTexts
import FleetServer.Api.RealtimeDispatch
import FleetServer.Api.RealtimeSession
import FleetServer.Api.Reservations
import FleetServer.Api.SaveFiles
import FleetServer.Api.SentGraphs
import FleetServer.Api.SessionResets
import FleetServer.Api.StateMerge
import FleetServer.Api.StepNormalization
import FleetServer.Api.TreeFiles
import FleetServer.Api.WebSocketHub
import FleetServer.Db.CapabilityStore
import FleetServer.Db.Models
import FleetServer.Db.PlanningMigration
import FleetServer.Db.Repository
import FleetServer.Db.TreeRenames
import FleetServer.Executor.BusyMark
import FleetServer.Executor.CancelSent
import FleetServer.Executor.Capabilities
import FleetServer.Executor.Completion
import FleetServer.Executor.DispatchAttempts
import FleetServer.Executor.DispatchHolds
import FleetServer.Executor.Outcomes
import FleetServer.Executor.PlanCancel
import FleetServer.Executor.QueueOrder
import FleetServer.Executor.RuntimeResources
import FleetServer.Executor.RuntimeTemplates
import FleetServer.Executor.ShownMessage
import FleetServer.Executor.StartTask
import FleetServer.Executor.StepEffects
import FleetServer.Executor.StepTransitions
import FleetServer.Executor.TaskEnd
import FleetServer.Executor.TaskQueue
import FleetServer.Graph.Converter
import FleetServer.Graph.RoundTrip
import FleetServer.Graph.Schema
import FleetServer.Graph.Unreachable
import FleetServer.Grpc.AgentDecoding
import FleetServer.Grpc.AgentMessages
import FleetServer.Grpc.AssignedIDs
import FleetServer.Grpc.GraphOverrides
import FleetServer.Grpc.MisplacedFields
import FleetServer.Grpc.PeerDecoding
import FleetServer.Grpc.Pings
import FleetServer.Grpc.Reconnects
import FleetServer.Grpc.ServerMessages
import FleetServer.Grpc.StoredStatus
import FleetServer.Grpc.Streams
import FleetServer.Grpc.Waiters
import FleetServer.Lib.BoolChain
import FleetServer.Lib.Channel
import FleetServer.Lib.Choices
import FleetServer.Lib.Fallible
import FleetServer.Lib.FilledMap
import FleetServer.Lib.Frames
import FleetServer.Lib.InvertedIndex
import FleetServer.Lib.JsonArray
import FleetServer.Lib.JsonText
import FleetServer.Lib.JsonValue
import FleetServer.Lib.Leases
import FleetServer.Lib.LetterCase
import FleetServer.Lib.Mailbox
import FleetServer.Lib.Marking
import FleetServer.Lib.Mirror
import FleetServer.Lib.Overlay
import FleetServer.Lib.Placeholders
import FleetServer.Lib.RangeOrder
import FleetServer.Lib.RawFields
import FleetServer.Lib.Relaxation
import FleetServer.Lib.RingBuffer
import FleetServer.Lib.RunningBest
import FleetServer.Lib.SecondaryIndex
import FleetServer.Lib.Template
import FleetServer.Lib.Versions
import FleetServer.Pddl.Bindings
import FleetServer.Pddl.Execution
import FleetServer.Pddl.GroundedIDs
import FleetServer.Pddl.Grounding
import FleetServer.Pddl.GroupConflicts
import FleetServer.Pddl.GroupTermination
import FleetServer.Pddl.InstanceAssignments
import FleetServer.Pddl.PlanInstances
import FleetServer.Pddl.Replay
import FleetServer.Pddl.Solvable
import FleetServer.State.AtomicStart
import FleetServer.State.BlockingInfo
import FleetServer.State.CacheIndex
import FleetServer.State.Connections
import FleetServer.State.EnhancedPreconditions
import FleetServer.State.Operations
import FleetServer.State.OverrideSources
import FleetServer.State.Overrides
import FleetServer.State.PlanHolds
import FleetServer.State.PlanOwners
import FleetServer.State.PlanResources
import FleetServer.State.RegistryAgreement
import FleetServer.State.StartConditions
import FleetServer.State.StartGates
import FleetServer.State.StateRegistry
import FleetServer.State.TaskLog
import FleetServer.State.TaskLogReaders
import FleetServer.State.ZoneLeases
import FleetServer.Grpc.AgentNames
