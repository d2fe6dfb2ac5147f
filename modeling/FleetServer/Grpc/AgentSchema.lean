import FleetServer.Grpc.AgentParsers
import FleetServer.Grpc.PeerDecoding

/-!
# The messages of an agent by the schema

What `fleet.proto` says of the messages that an agent sends: which fields they have, and which
values an encoding of them stands for.  Of the kinds of payload these are the five that the server
has a parser for.

The records that the server parses into have a field for each of the schema's, with the exception
of the heartbeat's.  So the values are put into those records, under their names.
-/

set_option autoImplicit false

namespace FleetServer
namespace Wire

open ProtoWire

variable (w : Protowire)

/-! ## Telemetry -/

def vector3 : Schema where
  shape
    | 1, x => IsFixed64 x
    | 2, y => IsFixed64 y
    | 3, z => IsFixed64 z
    | _, _ => False

def readVector3 (fs : List Field) : Vector3Msg where
  x := fixed64At 1 fs
  y := fixed64At 2 fs
  z := fixed64At 3 fs

def quaternion : Schema where
  shape
    | 1, x => IsFixed64 x
    | 2, y => IsFixed64 y
    | 3, z => IsFixed64 z
    | 4, w => IsFixed64 w
    | _, _ => False

def readQuaternion (fs : List Field) : QuaternionMsg where
  x := fixed64At 1 fs
  y := fixed64At 2 fs
  z := fixed64At 3 fs
  w := fixed64At 4 fs

def pose : Schema where
  shape
    | 1, position => IsMessage w vector3 position
    | 2, orientation => IsMessage w quaternion orientation
    | _, _ => False
  single := [1, 2]

def readPose (fs : List Field) : PoseMsg where
  position := (w.bodyAt 1 fs).map readVector3
  orientation := (w.bodyAt 2 fs).map readQuaternion

def twist : Schema where
  shape
    | 1, linear => IsMessage w vector3 linear
    | 2, angular => IsMessage w vector3 angular
    | _, _ => False
  single := [1, 2]

def readTwist (fs : List Field) : TwistMsg where
  linear := (w.bodyAt 1 fs).map readVector3
  angular := (w.bodyAt 2 fs).map readVector3

def jointState : Schema where
  shape
    | 1, name => IsText name
    | 2, position => IsFixed64s position
    | 3, velocity => IsFixed64s velocity
    | 4, effort => IsFixed64s effort
    | 5, timestampNs => IsVarint timestampNs
    | 6, topicName => IsText topicName
    | _, _ => False

/-- The joint state, for a way to read a list of doubles.  By the schema that is `fixed64sAt`: all
of them, in their order, packed or not. -/
def readJointState (doublesAt : ℕ → List Field → List UInt64) (fs : List Field) :
    JointStateDataMsg where
  name := textsAt 1 fs
  position := doublesAt 2 fs
  velocity := doublesAt 3 fs
  effort := doublesAt 4 fs
  timestampNs := int64At 5 fs
  topicName := textAt 6 fs

def transform : Schema where
  shape
    | 1, frameId => IsText frameId
    | 2, childFrameId => IsText childFrameId
    | 3, translation => IsMessage w vector3 translation
    | 4, rotation => IsMessage w quaternion rotation
    | 5, timestampNs => IsVarint timestampNs
    | _, _ => False
  single := [3, 4]

def readTransform (fs : List Field) : TransformDataMsg where
  frameID := textAt 1 fs
  childFrameID := textAt 2 fs
  translation := (w.bodyAt 3 fs).map readVector3
  rotation := (w.bodyAt 4 fs).map readQuaternion
  timestampNs := int64At 5 fs

def odometry : Schema where
  shape
    | 1, frameId => IsText frameId
    | 2, childFrameId => IsText childFrameId
    | 3, body => IsMessage w (pose w) body
    | 4, body => IsMessage w (twist w) body
    | 5, timestampNs => IsVarint timestampNs
    | 6, topicName => IsText topicName
    | _, _ => False
  single := [3, 4]

def readOdometry (fs : List Field) : OdometryDataMsg where
  frameID := textAt 1 fs
  childFrameID := textAt 2 fs
  pose := (w.bodyAt 3 fs).map (readPose w)
  twist := (w.bodyAt 4 fs).map (readTwist w)
  timestampNs := int64At 5 fs
  topicName := textAt 6 fs

def telemetryPayload : Schema where
  shape
    | 1, robotId => IsText robotId
    | 2, body => IsMessage w jointState body
    | 3, body => IsMessage w (transform w) body
    | 4, body => IsMessage w (odometry w) body
    | 5, collectedAtNs => IsVarint collectedAtNs
    | _, _ => False
  single := [2, 4]

def readTelemetry (doublesAt : ℕ → List Field → List UInt64) (fs : List Field) :
    TelemetryPayloadMsg where
  robotID := textAt 1 fs
  jointState := (w.bodyAt 2 fs).map (readJointState doublesAt)
  transforms := (w.bodiesAt 3 fs).map (readTransform w)
  odometry := (w.bodyAt 4 fs).map (readOdometry w)
  collectedAtNs := int64At 5 fs

/-! ## Resource events and maps -/

def resourceEvent : Schema where
  shape
    | 1, resourceId => IsText resourceId
    | 2, stepId => IsText stepId
    | 3, kind => IsVarint kind
    | _, _ => False

def readResourceEvent (fs : List Field) : ResourceEventMsg where
  resourceID := textAt 1 fs
  stepID := textAt 2 fs
  kind := int32At 3 fs

def eventsAt (n : ℕ) (fs : List Field) : List ResourceEventMsg :=
  (w.bodiesAt n fs).map readResourceEvent

def stringEntry : Schema where
  shape
    | 1, key => IsText key
    | 2, value => IsText value
    | _, _ => False

def entriesAt (n : ℕ) (fs : List Field) : List (String × String) :=
  (w.bodiesAt n fs).map readMapEntry

/-- The map with these entries: each takes the place of those before it with its key. -/
def mapOf (entries : List (String × String)) : StringMap :=
  entries.foldl (fun m entry ↦ Function.update m entry.1 (some entry.2)) fun _ ↦ none

def mapAt (n : ℕ) (fs : List Field) : StringMap := mapOf (entriesAt w n fs)

/-! ## Payloads -/

structure AgentHeartbeat where
  agentId : String
  state : String
  isExecuting : Bool
  currentAction : String
  networkLatencyMs : UInt32
  networkLatencyUs : UInt32
  stateCode : String
  semanticTags : List String
  currentGraphId : String
  currentTaskId : String
  currentStepId : String
  telemetry : Option TelemetryPayloadMsg
  resourceEvents : List ResourceEventMsg
  runtimeVariables : StringMap

def agentHeartbeat : Schema where
  shape
    | 1, agentId => IsText agentId
    | 2, state => IsText state
    | 3, isExecuting => IsVarint isExecuting
    | 4, currentAction => IsText currentAction
    | 5, networkLatencyMs => IsVarint networkLatencyMs
    | 6, networkLatencyUs => IsVarint networkLatencyUs
    | 7, stateCode => IsText stateCode
    | 8, semanticTag => IsText semanticTag
    | 9, currentGraphId => IsText currentGraphId
    | 10, currentTaskId => IsText currentTaskId
    | 11, currentStepId => IsText currentStepId
    | 12, body => IsMessage w (telemetryPayload w) body
    | 13, body => IsMessage w resourceEvent body
    | 14, body => IsMessage w stringEntry body
    | _, _ => False
  single := [12]

def readHeartbeat (fs : List Field) : AgentHeartbeat where
  agentId := textAt 1 fs
  state := textAt 2 fs
  isExecuting := boolAt 3 fs
  currentAction := textAt 4 fs
  networkLatencyMs := uint32At 5 fs
  networkLatencyUs := uint32At 6 fs
  stateCode := textAt 7 fs
  semanticTags := textsAt 8 fs
  currentGraphId := textAt 9 fs
  currentTaskId := textAt 10 fs
  currentStepId := textAt 11 fs
  telemetry := (w.bodyAt 12 fs).map (readTelemetry w fixed64sAt)
  resourceEvents := eventsAt w 13 fs
  runtimeVariables := mapAt w 14 fs

def actionResult : Schema where
  shape
    | 1, commandId => IsText commandId
    | 2, agentId => IsText agentId
    | 3, taskId => IsText taskId
    | 4, stepId => IsText stepId
    | 5, status => IsVarint status
    | 6, result => IsBytes result
    | 7, error => IsText error
    | 8, startedAtMs => IsVarint startedAtMs
    | 9, completedAtMs => IsVarint completedAtMs
    | _, _ => False

def readActionResult (fs : List Field) : ActionResultMsg where
  commandID := textAt 1 fs
  agentID := textAt 2 fs
  taskID := textAt 3 fs
  stepID := textAt 4 fs
  status := int32At 5 fs
  result := bytesAt 6 fs
  error := textAt 7 fs
  startedAtMs := int64At 8 fs
  completedAtMs := int64At 9 fs

def agentStatusUpdate : Schema where
  shape
    | 1, state => IsVarint state
    | 2, isOnline => IsVarint isOnline
    | 3, message => IsText message
    | _, _ => False

def readStatusUpdate (fs : List Field) : AgentStatusUpdateMsg where
  state := int32At 1 fs
  isOnline := boolAt 2 fs
  message := textAt 3 fs

def taskLog : Schema where
  shape
    | 1, agentId => IsText agentId
    | 2, taskId => IsText taskId
    | 3, stepId => IsText stepId
    | 4, commandId => IsText commandId
    | 5, level => IsVarint level
    | 6, message => IsText message
    | 7, timestampMs => IsVarint timestampMs
    | 8, component => IsText component
    | 9, body => IsMessage w stringEntry body
    | _, _ => False

def readTaskLog (fs : List Field) : TaskLogMsg where
  agentID := textAt 1 fs
  taskID := textAt 2 fs
  stepID := textAt 3 fs
  commandID := textAt 4 fs
  level := int32At 5 fs
  message := textAt 6 fs
  timestampMs := int64At 7 fs
  component := textAt 8 fs
  metadata := mapAt w 9 fs

def stepResultInfo : Schema where
  shape
    | 1, stepId => IsText stepId
    | 2, status => IsVarint status
    | 3, resultJson => IsBytes resultJson
    | 4, error => IsText error
    | 5, durationMs => IsVarint durationMs
    | _, _ => False

def readStepResult (fs : List Field) : StepResultInfoMsg where
  stepID := textAt 1 fs
  status := int32At 2 fs
  resultJSON := bytesAt 3 fs
  error := textAt 4 fs
  durationMs := int64At 5 fs

def taskStateUpdate : Schema where
  shape
    | 1, taskId => IsText taskId
    | 2, currentStepId => IsText currentStepId
    | 3, state => IsVarint state
    | 4, progress => IsFixed32 progress
    | 5, blockingReason => IsText blockingReason
    | 6, body => IsMessage w stringEntry body
    | 7, body => IsMessage w stepResultInfo body
    | 8, timestampMs => IsVarint timestampMs
    | 9, body => IsMessage w resourceEvent body
    | _, _ => False
  single := [7]

def readTaskState (fs : List Field) : TaskStateUpdateMsg where
  taskID := textAt 1 fs
  currentStepID := textAt 2 fs
  state := int32At 3 fs
  progress := fixed32At 4 fs
  blockingReason := textAt 5 fs
  vars := mapAt w 6 fs
  stepResult := (w.bodyAt 7 fs).map readStepResult
  timestampMs := int64At 8 fs
  resourceEvents := eventsAt w 9 fs

/-! ## Messages -/

inductive AgentPayload
  | heartbeat (hb : AgentHeartbeat)
  | actionResult (result : ActionResultMsg)
  | statusUpdate (status : AgentStatusUpdateMsg)
  | taskLog (log : TaskLogMsg)
  | taskState (update : TaskStateUpdateMsg)

structure AgentMessage where
  agentId : String
  timestampMs : Int64
  payload : AgentPayload

inductive PayloadKind
  | heartbeat
  | actionResult
  | statusUpdate
  | taskLog
  | taskState
  deriving DecidableEq

namespace PayloadKind

/-- The number in the `oneof`. -/
def number : PayloadKind → ℕ
  | heartbeat => 10
  | actionResult => 11
  | statusUpdate => 12
  | taskLog => 14
  | taskState => 15

def schema : PayloadKind → Schema
  | heartbeat => agentHeartbeat w
  | actionResult => Wire.actionResult
  | statusUpdate => agentStatusUpdate
  | taskLog => Wire.taskLog w
  | taskState => taskStateUpdate w

def read (body : List Field) : PayloadKind → AgentPayload
  | heartbeat => .heartbeat (readHeartbeat w body)
  | actionResult => .actionResult (readActionResult body)
  | statusUpdate => .statusUpdate (readStatusUpdate body)
  | taskLog => .taskLog (readTaskLog w body)
  | taskState => .taskState (readTaskState w body)

end PayloadKind

/-- The bytes are an encoding of a message with a payload of this kind: the fields of the message in
any order, one of them the payload, whose own fields are in any order too. -/
structure IsEncoding (kind : PayloadKind) (b : Bytes) (fs body : List Field) : Prop where
  reads : w.Reads b fs
  header : ∀ f ∈ fs, f.number ≠ kind.number →
    f.number = 1 ∧ IsText f.value ∨ f.number = 2 ∧ IsVarint f.value
  payload : ∃ bytes, values fs kind.number = [.bytes bytes] ∧ w.Reads bytes body
  valid : (kind.schema w).Valid body

/-- The message that such an encoding stands for. -/
def readAgentMessage (kind : PayloadKind) (fs body : List Field) : AgentMessage where
  agentId := textAt 1 fs
  timestampMs := int64At 2 fs
  payload := kind.read w body

end Wire
end FleetServer
