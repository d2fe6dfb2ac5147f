import FleetServer.Lib.FieldLoop
import FleetServer.Lib.GoString

/-!
# The parsers of what an agent sends

`parseAgentMessage` and the parsers below it.  Each is a loop with a switch over the numbers of the
fields.  A value whose wire type the switch does not expect stays where it is, with the exception of
the map entries and the capability registration, which pass over it.

A message in a message that its parser rejects is dropped, and the rest of the message goes on.

Floats are their bits, and strings are valid UTF-8.
-/

set_option autoImplicit false

namespace FleetServer
namespace Wire

open ProtoWire

/-! ## What is parsed -/

structure Vector3Msg where
  x : UInt64 := 0
  y : UInt64 := 0
  z : UInt64 := 0
  deriving DecidableEq

structure QuaternionMsg where
  x : UInt64 := 0
  y : UInt64 := 0
  z : UInt64 := 0
  w : UInt64 := 0
  deriving DecidableEq

structure PoseMsg where
  position : Option Vector3Msg := none
  orientation : Option QuaternionMsg := none
  deriving DecidableEq

structure TwistMsg where
  linear : Option Vector3Msg := none
  angular : Option Vector3Msg := none
  deriving DecidableEq

structure JointStateDataMsg where
  name : List String := []
  position : List UInt64 := []
  velocity : List UInt64 := []
  effort : List UInt64 := []
  timestampNs : Int64 := 0
  topicName : String := ""
  deriving DecidableEq

structure TransformDataMsg where
  frameID : String := ""
  childFrameID : String := ""
  translation : Option Vector3Msg := none
  rotation : Option QuaternionMsg := none
  timestampNs : Int64 := 0
  deriving DecidableEq

structure OdometryDataMsg where
  frameID : String := ""
  childFrameID : String := ""
  pose : Option PoseMsg := none
  twist : Option TwistMsg := none
  timestampNs : Int64 := 0
  topicName : String := ""
  deriving DecidableEq

structure TelemetryPayloadMsg where
  robotID : String := ""
  jointState : Option JointStateDataMsg := none
  transforms : List TransformDataMsg := []
  odometry : Option OdometryDataMsg := none
  collectedAtNs : Int64 := 0
  deriving DecidableEq

structure ResourceEventMsg where
  resourceID : String := ""
  stepID : String := ""
  kind : Int32 := 0
  deriving DecidableEq

/-- A Go map of strings. -/
abbrev StringMap := String → Option String

structure AgentHeartbeatMsg where
  agentID : String := ""
  timestampMs : Int64 := 0
  state : String := ""
  isExecuting : Bool := false
  currentAction : String := ""
  currentTaskID : String := ""
  currentStepID : String := ""
  actionProgress : UInt32 := 0
  networkLatencyMs : UInt32 := 0
  hasNetworkLatency : Bool := false
  networkLatencyUs : UInt32 := 0
  hasNetworkLatencyUs : Bool := false
  telemetry : Option TelemetryPayloadMsg := none
  resourceEvents : List ResourceEventMsg := []
  runtimeVariables : StringMap := fun _ ↦ none

structure ActionResultMsg where
  commandID : String := ""
  agentID : String := ""
  taskID : String := ""
  stepID : String := ""
  status : Int32 := 0
  result : Bytes := []
  error : String := ""
  startedAtMs : Int64 := 0
  completedAtMs : Int64 := 0
  deriving DecidableEq

structure ActionFeedbackMsg where
  commandID : String := ""
  agentID : String := ""
  taskID : String := ""
  stepID : String := ""
  progress : UInt32 := 0
  feedback : Bytes := []
  timestampMs : Int64 := 0
  deriving DecidableEq

structure AgentStatusUpdateMsg where
  state : Int32 := 0
  isOnline : Bool := false
  message : String := ""
  deriving DecidableEq

structure DeployGraphResponseMsg where
  correlationID : String := ""
  success : Bool := false
  graphID : String := ""
  deployedVersion : Int32 := 0
  error : String := ""
  checksum : String := ""
  deriving DecidableEq

structure GraphExecutionStatusMsg where
  executionID : String := ""
  graphID : String := ""
  agentID : String := ""
  state : Int32 := 0
  currentVertexID : String := ""
  currentStepIndex : Int32 := 0
  progress : UInt32 := 0
  startedAtMs : Int64 := 0
  error : String := ""
  updatedAtMs : Int64 := 0
  completedAtMs : Int64 := 0
  failedVertexID : String := ""
  deriving DecidableEq

structure PongResponseMsg where
  pingID : String := ""
  serverTimestampMs : Int64 := 0
  agentTimestampMs : Int64 := 0
  deriving DecidableEq

structure ConfigUpdateAckMsg where
  agentID : String := ""
  stateDefID : String := ""
  version : Int32 := 0
  success : Bool := false
  error : String := ""
  correlationID : String := ""
  deriving DecidableEq

structure SuccessCriteriaMsg where
  field : String := ""
  operator : String := ""
  value : String := ""
  deriving DecidableEq

structure ActionCapabilityMsg where
  actionType : String := ""
  actionServer : String := ""
  package : String := ""
  actionName : String := ""
  capabilityKind : String := ""
  nodeName : String := ""
  isLifecycleNode : Bool := false
  lifecycleState : String := ""
  goalSchema : String := ""
  resultSchema : String := ""
  feedbackSchema : String := ""
  successCriteria : Option SuccessCriteriaMsg := none
  isAvailable : Bool := false
  deriving DecidableEq

structure CapabilityRegistrationMsg where
  agentID : String := ""
  capabilities : List ActionCapabilityMsg := []
  deriving DecidableEq

structure TaskLogMsg where
  agentID : String := ""
  taskID : String := ""
  stepID : String := ""
  commandID : String := ""
  level : Int32 := 0
  message : String := ""
  timestampMs : Int64 := 0
  component : String := ""
  metadata : StringMap := fun _ ↦ none

structure StepResultInfoMsg where
  stepID : String := ""
  status : Int32 := 0
  resultJSON : Bytes := []
  error : String := ""
  durationMs : Int64 := 0
  deriving DecidableEq

structure TaskStateUpdateMsg where
  taskID : String := ""
  currentStepID : String := ""
  state : Int32 := 0
  progress : UInt32 := 0
  blockingReason : String := ""
  vars : StringMap := fun _ ↦ none
  stepResult : Option StepResultInfoMsg := none
  timestampMs : Int64 := 0
  resourceEvents : List ResourceEventMsg := []

structure AgentMsg where
  agentID : String := ""
  timestampMs : Int64 := 0
  heartbeat : Option AgentHeartbeatMsg := none
  actionResult : Option ActionResultMsg := none
  actionFeedback : Option ActionFeedbackMsg := none
  statusUpdate : Option AgentStatusUpdateMsg := none
  deployResponse : Option DeployGraphResponseMsg := none
  graphStatus : Option GraphExecutionStatusMsg := none
  taskStateUpdate : Option TaskStateUpdateMsg := none
  pong : Option PongResponseMsg := none
  configAck : Option ConfigUpdateAckMsg := none
  capabilityRegistration : Option CapabilityRegistrationMsg := none
  taskLog : Option TaskLogMsg := none

variable (w : Protowire)

/-! ## Telemetry -/

def vector3Switch : Switch Vector3Msg where
  cases
    | 1 => some [.fixed64 "x" fun vec v ↦ { vec with x := v }]
    | 2 => some [.fixed64 "y" fun vec v ↦ { vec with y := v }]
    | 3 => some [.fixed64 "z" fun vec v ↦ { vec with z := v }]
    | _ => none

def parseVector3 (data : Bytes) : Except String Vector3Msg := vector3Switch.decode w {} data

def quaternionSwitch : Switch QuaternionMsg where
  cases
    | 1 => some [.fixed64 "x" fun quat v ↦ { quat with x := v }]
    | 2 => some [.fixed64 "y" fun quat v ↦ { quat with y := v }]
    | 3 => some [.fixed64 "z" fun quat v ↦ { quat with z := v }]
    | 4 => some [.fixed64 "w" fun quat v ↦ { quat with w := v }]
    | _ => none

def parseQuaternion (data : Bytes) : Except String QuaternionMsg :=
  quaternionSwitch.decode w {} data

def poseSwitch : Switch PoseMsg where
  cases
    | 1 => some [.message "position" (parseVector3 w) fun pose vec ↦
        { pose with position := some vec }]
    | 2 => some [.message "orientation" (parseQuaternion w) fun pose quat ↦
        { pose with orientation := some quat }]
    | _ => none

def parsePose (data : Bytes) : Except String PoseMsg := (poseSwitch w).decode w {} data

def twistSwitch : Switch TwistMsg where
  cases
    | 1 => some [.message "linear" (parseVector3 w) fun twist vec ↦
        { twist with linear := some vec }]
    | 2 => some [.message "angular" (parseVector3 w) fun twist vec ↦
        { twist with angular := some vec }]
    | _ => none

def parseTwist (data : Bytes) : Except String TwistMsg := (twistSwitch w).decode w {} data

def parsePackedDoubles (data : Bytes) : List UInt64 :=
  if 8 ≤ data.length then
    UInt64.ofNat (ofLittleEndian (data.take 8)) :: parsePackedDoubles (data.drop 8)
  else []
termination_by data.length
decreasing_by
  rw [List.length_drop]
  omega

/-- The two cases of a list of doubles.  A packed value takes the place of what is there, a single
one comes to its end. -/
def doubles {σ : Type} (name : String) (get : σ → List UInt64) (set : σ → List UInt64 → σ) :
    List (Case σ) :=
  [.bytes name fun m packed ↦ set m (parsePackedDoubles packed),
    .fixed64 name fun m v ↦ set m (get m ++ [v])]

def jointStateSwitch : Switch JointStateDataMsg where
  cases
    | 1 => some [.text "name" fun js v ↦ { js with name := js.name ++ [v] }]
    | 2 => some (doubles "position" (·.position) fun js vs ↦ { js with position := vs })
    | 3 => some (doubles "velocity" (·.velocity) fun js vs ↦ { js with velocity := vs })
    | 4 => some (doubles "effort" (·.effort) fun js vs ↦ { js with effort := vs })
    | 5 => some [.varint "timestamp_ns" fun js v ↦ { js with timestampNs := v.toInt64 }]
    | 6 => some [.text "topic_name" fun js v ↦ { js with topicName := v }]
    | _ => none

def parseJointStateData (data : Bytes) : Except String JointStateDataMsg :=
  jointStateSwitch.decode w {} data

def transformSwitch : Switch TransformDataMsg where
  cases
    | 1 => some [.text "frame_id" fun tf v ↦ { tf with frameID := v }]
    | 2 => some [.text "child_frame_id" fun tf v ↦ { tf with childFrameID := v }]
    | 3 => some [.message "translation" (parseVector3 w) fun tf vec ↦
        { tf with translation := some vec }]
    | 4 => some [.message "rotation" (parseQuaternion w) fun tf quat ↦
        { tf with rotation := some quat }]
    | 5 => some [.varint "timestamp_ns" fun tf v ↦ { tf with timestampNs := v.toInt64 }]
    | _ => none

def parseTransformData (data : Bytes) : Except String TransformDataMsg :=
  (transformSwitch w).decode w {} data

def odometrySwitch : Switch OdometryDataMsg where
  cases
    | 1 => some [.text "frame_id" fun odom v ↦ { odom with frameID := v }]
    | 2 => some [.text "child_frame_id" fun odom v ↦ { odom with childFrameID := v }]
    | 3 => some [.message "pose" (parsePose w) fun odom pose ↦ { odom with pose := some pose }]
    | 4 => some [.message "twist" (parseTwist w) fun odom twist ↦
        { odom with twist := some twist }]
    | 5 => some [.varint "timestamp_ns" fun odom v ↦ { odom with timestampNs := v.toInt64 }]
    | 6 => some [.text "topic_name" fun odom v ↦ { odom with topicName := v }]
    | _ => none

def parseOdometryData (data : Bytes) : Except String OdometryDataMsg :=
  (odometrySwitch w).decode w {} data

def telemetrySwitch : Switch TelemetryPayloadMsg where
  cases
    | 1 => some [.text "robot_id" fun tp v ↦ { tp with robotID := v }]
    | 2 => some [.message "joint_state" (parseJointStateData w) fun tp js ↦
        { tp with jointState := some js }]
    | 3 => some [.message "transforms" (parseTransformData w) fun tp tf ↦
        { tp with transforms := tp.transforms ++ [tf] }]
    | 4 => some [.message "odometry" (parseOdometryData w) fun tp odom ↦
        { tp with odometry := some odom }]
    | 5 => some [.varint "collected_at_ns" fun tp v ↦ { tp with collectedAtNs := v.toInt64 }]
    | _ => none

def parseTelemetryPayload (data : Bytes) : Except String TelemetryPayloadMsg :=
  (telemetrySwitch w).decode w {} data

/-! ## Resource events and map entries -/

def resourceEventSwitch : Switch ResourceEventMsg where
  cases
    | 1 => some [.text "resource_id" fun event v ↦ { event with resourceID := v }]
    | 2 => some [.text "step_id" fun event v ↦ { event with stepID := v }]
    | 3 => some [.varint "kind" fun event v ↦ { event with kind := v.toUInt32.toInt32 }]
    | _ => none
  unknown n := "invalid resource event field " ++ toString n

def parseResourceEvent (data : Bytes) : Except String ResourceEventMsg :=
  resourceEventSwitch.decode w {} data

/-- An event is kept when it is about a resource. -/
def keepEvent (events : List ResourceEventMsg) (event : ResourceEventMsg) :
    List ResourceEventMsg :=
  if GoString.trimSpace event.resourceID ≠ "" then events ++ [event] else events

def mapEntrySwitch : Switch (String × String) where
  cases
    | 1 => some [.text "key" fun entry k ↦ (k, entry.2)]
    | 2 => some [.text "value" fun entry v ↦ (entry.1, v)]
    | _ => none
  others _ := some "invalid field"

/-- What has been read of an entry when the loop ends, by an error or without one. -/
def parseStringMapEntry (mapData : Bytes) : String × String :=
  (mapEntrySwitch.decodeFrom w mapData.length 0 ("", "") mapData).1

/-- An entry is kept when it has a key. -/
def keepEntry (vars : StringMap) (entry : String × String) : StringMap :=
  if entry.1 ≠ "" then Function.update vars entry.1 (some entry.2) else vars

/-- The loop over a map entry that `parseTaskLog` and `parseTaskStateUpdate` have in line.  A text
that cannot be read stays where it is. -/
def inlineMapEntry : ℕ → String × String → Bytes → String × String
  | _, entry, [] => entry
  | 0, entry, _ :: _ => entry
  | fuel + 1, entry, mapData@(_ :: _) =>
    match w.consumeTag mapData with
    | none => entry
    | some (fn, wt, value) =>
      if fn = 1 ∧ wt = .bytes then
        match w.consumeString value with
        | some (k, rest) => inlineMapEntry fuel (k, entry.2) rest
        | none => inlineMapEntry fuel entry value
      else if fn = 2 ∧ wt = .bytes then
        match w.consumeString value with
        | some (v, rest) => inlineMapEntry fuel (entry.1, v) rest
        | none => inlineMapEntry fuel entry value
      else
        match w.consumeFieldValue fn wt value with
        | none => entry
        | some rest => inlineMapEntry fuel entry rest

/-! ## Heartbeats -/

def robotStateToString (state : Int32) : String :=
  if state = 0 then "unknown"
  else if state = 1 then "idle"
  else if state = 2 then "executing"
  else if state = 3 then "error"
  else if state = 4 then "charging"
  else if state = 5 then "manual"
  else if state = 6 then "emergency"
  else "unknown"

def heartbeatSwitch : Switch AgentHeartbeatMsg where
  cases
    | 1 => some [.text "agent_id" fun hb v ↦ { hb with agentID := v }]
    | 2 => some [.text "state" fun hb v ↦ { hb with state := v },
        -- Older agents send a number.
        .varint "state" fun hb v ↦ { hb with state := robotStateToString v.toUInt32.toInt32 }]
    | 3 => some [.varint "is_executing" fun hb v ↦ { hb with isExecuting := v ≠ 0 }]
    | 4 => some [.text "current_action" fun hb v ↦ { hb with currentAction := v }]
    | 5 => some [.varint "network_latency_ms" fun hb v ↦
        { hb with networkLatencyMs := v.toUInt32, hasNetworkLatency := true }]
    | 6 => some [.varint "network_latency_us" fun hb v ↦
        { hb with networkLatencyUs := v.toUInt32, hasNetworkLatencyUs := true }]
    | 10 => some [.text "current_task_id" fun hb v ↦ { hb with currentTaskID := v }]
    | 11 => some [.text "current_step_id" fun hb v ↦ { hb with currentStepID := v }]
    | 12 => some [.message "telemetry" (parseTelemetryPayload w) fun hb telemetry ↦
        { hb with telemetry := some telemetry }]
    | 13 => some [.message "resource_events" (parseResourceEvent w) fun hb event ↦
        { hb with resourceEvents := keepEvent hb.resourceEvents event }]
    | 14 => some [.bytes "runtime_variables" fun hb mapData ↦
        { hb with
          runtimeVariables := keepEntry hb.runtimeVariables (parseStringMapEntry w mapData) }]
    | _ => none

def parseAgentHeartbeat (data : Bytes) : Except String AgentHeartbeatMsg :=
  (heartbeatSwitch w).decode w {} data

/-! ## Results and states of tasks -/

def actionResultSwitch : Switch ActionResultMsg where
  cases
    | 1 => some [.text "command_id" fun r v ↦ { r with commandID := v }]
    | 2 => some [.text "agent_id" fun r v ↦ { r with agentID := v }]
    | 3 => some [.text "task_id" fun r v ↦ { r with taskID := v }]
    | 4 => some [.text "step_id" fun r v ↦ { r with stepID := v }]
    | 5 => some [.varint "status" fun r v ↦ { r with status := v.toUInt32.toInt32 }]
    | 6 => some [.bytes "result" fun r v ↦ { r with result := v }]
    | 7 => some [.text "error" fun r v ↦ { r with error := v }]
    | 8 => some [.varint "started_at_ms" fun r v ↦ { r with startedAtMs := v.toInt64 }]
    | 9 => some [.varint "completed_at_ms" fun r v ↦ { r with completedAtMs := v.toInt64 }]
    | _ => none

def parseActionResult (data : Bytes) : Except String ActionResultMsg :=
  actionResultSwitch.decode w {} data

def actionFeedbackSwitch : Switch ActionFeedbackMsg where
  cases
    | 1 => some [.text "command_id" fun fb v ↦ { fb with commandID := v }]
    | 2 => some [.text "agent_id" fun fb v ↦ { fb with agentID := v }]
    | 3 => some [.text "task_id" fun fb v ↦ { fb with taskID := v }]
    | 4 => some [.text "step_id" fun fb v ↦ { fb with stepID := v }]
    | 5 => some [.fixed32 "progress" fun fb v ↦ { fb with progress := v }]
    | 6 => some [.bytes "feedback" fun fb v ↦ { fb with feedback := v }]
    | 7 => some [.varint "timestamp_ms" fun fb v ↦ { fb with timestampMs := v.toInt64 }]
    | _ => none

def parseActionFeedback (data : Bytes) : Except String ActionFeedbackMsg :=
  actionFeedbackSwitch.decode w {} data

def statusUpdateSwitch : Switch AgentStatusUpdateMsg where
  cases
    | 1 => some [.varint "state" fun s v ↦ { s with state := v.toUInt32.toInt32 }]
    | 2 => some [.varint "is_online" fun s v ↦ { s with isOnline := v ≠ 0 }]
    | 3 => some [.text "message" fun s v ↦ { s with message := v }]
    | _ => none

def parseAgentStatusUpdate (data : Bytes) : Except String AgentStatusUpdateMsg :=
  statusUpdateSwitch.decode w {} data

def taskLogSwitch : Switch TaskLogMsg where
  cases
    | 1 => some [.text "agent_id" fun log v ↦ { log with agentID := v }]
    | 2 => some [.text "task_id" fun log v ↦ { log with taskID := v }]
    | 3 => some [.text "step_id" fun log v ↦ { log with stepID := v }]
    | 4 => some [.text "command_id" fun log v ↦ { log with commandID := v }]
    | 5 => some [.varint "level" fun log v ↦ { log with level := v.toUInt32.toInt32 }]
    | 6 => some [.text "message" fun log v ↦ { log with message := v }]
    | 7 => some [.varint "timestamp_ms" fun log v ↦ { log with timestampMs := v.toInt64 }]
    | 8 => some [.text "component" fun log v ↦ { log with component := v }]
    | 9 => some [.bytes "metadata" fun log mapData ↦
        { log with
          metadata := keepEntry log.metadata (inlineMapEntry w mapData.length ("", "") mapData) }]
    | _ => none
  unknown n := "invalid field " ++ toString n

def parseTaskLog (data : Bytes) : Except String TaskLogMsg := (taskLogSwitch w).decode w {} data

def stepResultSwitch : Switch StepResultInfoMsg where
  cases
    | 1 => some [.text "step_id" fun info v ↦ { info with stepID := v }]
    | 2 => some [.varint "status" fun info v ↦ { info with status := v.toUInt32.toInt32 }]
    | 3 => some [.bytes "result_json" fun info v ↦ { info with resultJSON := v }]
    | 4 => some [.text "error" fun info v ↦ { info with error := v }]
    | 5 => some [.varint "duration_ms" fun info v ↦ { info with durationMs := v.toInt64 }]
    | _ => none
  unknown n := "invalid field " ++ toString n

def parseStepResultInfo (data : Bytes) : Except String StepResultInfoMsg :=
  stepResultSwitch.decode w {} data

def taskStateSwitch : Switch TaskStateUpdateMsg where
  cases
    | 1 => some [.text "task_id" fun update v ↦ { update with taskID := v }]
    | 2 => some [.text "current_step_id" fun update v ↦ { update with currentStepID := v }]
    | 3 => some [.varint "state" fun update v ↦ { update with state := v.toUInt32.toInt32 }]
    | 4 => some [.fixed32 "progress" fun update v ↦ { update with progress := v }]
    | 5 => some [.text "blocking_reason" fun update v ↦ { update with blockingReason := v }]
    | 6 => some [.bytes "variables" fun update mapData ↦
        { update with
          vars := keepEntry update.vars (inlineMapEntry w mapData.length ("", "") mapData) }]
    | 7 => some [.message "step_result" (parseStepResultInfo w) fun update result ↦
        { update with stepResult := some result }]
    | 8 => some [.varint "timestamp_ms" fun update v ↦ { update with timestampMs := v.toInt64 }]
    | 9 => some [.message "resource_events" (parseResourceEvent w) fun update event ↦
        { update with resourceEvents := keepEvent update.resourceEvents event }]
    | _ => none
  unknown n := "invalid field " ++ toString n

def parseTaskStateUpdate (data : Bytes) : Except String TaskStateUpdateMsg :=
  (taskStateSwitch w).decode w {} data

/-! ## Answers and registrations -/

def deployResponseSwitch : Switch DeployGraphResponseMsg where
  cases
    | 1 => some [.text "correlation_id" fun r v ↦ { r with correlationID := v }]
    | 2 => some [.varint "success" fun r v ↦ { r with success := v ≠ 0 }]
    | 3 => some [.text "error" fun r v ↦ { r with error := v }]
    | 4 => some [.text "graph_id" fun r v ↦ { r with graphID := v }]
    | 5 => some [.varint "deployed_version" fun r v ↦
        { r with deployedVersion := v.toUInt32.toInt32 }]
    | 6 => some [.text "checksum" fun r v ↦ { r with checksum := v }]
    | _ => none

def parseDeployGraphResponse (data : Bytes) : Except String DeployGraphResponseMsg :=
  deployResponseSwitch.decode w {} data

def graphStatusSwitch : Switch GraphExecutionStatusMsg where
  cases
    | 1 => some [.text "execution_id" fun s v ↦ { s with executionID := v }]
    | 2 => some [.text "graph_id" fun s v ↦ { s with graphID := v }]
    | 3 => some [.text "agent_id" fun s v ↦ { s with agentID := v }]
    | 4 => some [.varint "state" fun s v ↦ { s with state := v.toUInt32.toInt32 }]
    | 5 => some [.text "current_vertex_id" fun s v ↦ { s with currentVertexID := v }]
    | 6 => some [.varint "current_step_index" fun s v ↦
        { s with currentStepIndex := v.toUInt32.toInt32 }]
    | 7 => some [.fixed32 "progress" fun s v ↦ { s with progress := v }]
    | 8 => some [.varint "started_at_ms" fun s v ↦ { s with startedAtMs := v.toInt64 }]
    | 9 => some [.varint "updated_at_ms" fun s v ↦ { s with updatedAtMs := v.toInt64 }]
    | 10 => some [.varint "completed_at_ms" fun s v ↦ { s with completedAtMs := v.toInt64 }]
    | 11 => some [.text "error" fun s v ↦ { s with error := v }]
    | 12 => some [.text "failed_vertex_id" fun s v ↦ { s with failedVertexID := v }]
    | _ => none

def parseGraphExecutionStatus (data : Bytes) : Except String GraphExecutionStatusMsg :=
  graphStatusSwitch.decode w {} data

def pongSwitch : Switch PongResponseMsg where
  cases
    | 1 => some [.text "ping_id" fun p v ↦ { p with pingID := v }]
    | 2 => some [.varint "server_timestamp_ms" fun p v ↦
        { p with serverTimestampMs := v.toInt64 }]
    | 3 => some [.varint "agent_timestamp_ms" fun p v ↦ { p with agentTimestampMs := v.toInt64 }]
    | _ => none

def parsePongResponse (data : Bytes) : Except String PongResponseMsg := pongSwitch.decode w {} data

def configAckSwitch : Switch ConfigUpdateAckMsg where
  cases
    | 1 => some [.text "agent_id" fun a v ↦ { a with agentID := v }]
    | 2 => some [.text "state_def_id" fun a v ↦ { a with stateDefID := v }]
    | 3 => some [.varint "version" fun a v ↦ { a with version := v.toUInt32.toInt32 }]
    | 4 => some [.varint "success" fun a v ↦ { a with success := v ≠ 0 }]
    | 5 => some [.text "error" fun a v ↦ { a with error := v }]
    | 6 => some [.text "correlation_id" fun a v ↦ { a with correlationID := v }]
    | _ => none

def parseConfigUpdateAck (data : Bytes) : Except String ConfigUpdateAckMsg :=
  configAckSwitch.decode w {} data

def successCriteriaSwitch : Switch SuccessCriteriaMsg where
  cases
    | 1 => some [.text "field" fun criteria v ↦ { criteria with field := v }]
    | 2 => some [.text "operator" fun criteria v ↦ { criteria with operator := v }]
    | 3 => some [.text "value" fun criteria v ↦ { criteria with value := v }]
    | _ => none

/-- There are no criteria when all three texts are empty. -/
def parseSuccessCriteria (data : Bytes) : Except String (Option SuccessCriteriaMsg) :=
  (successCriteriaSwitch.decode w {} data).map fun criteria ↦
    if criteria.field = "" ∧ criteria.operator = "" ∧ criteria.value = "" then none
    else some criteria

def lifecycleStateFromProto (value : UInt64) : String :=
  if value = 1 then "unconfigured"
  else if value = 2 then "inactive"
  else if value = 3 then "active"
  else if value = 4 then "finalized"
  else "unknown"

def actionCapabilitySwitch : Switch ActionCapabilityMsg where
  cases
    | 1 => some [.text "action_type" fun cap v ↦ { cap with actionType := v }]
    | 2 => some [.text "action_server" fun cap v ↦ { cap with actionServer := v }]
    | 3 => some [.text "package" fun cap v ↦ { cap with package := v }]
    | 4 => some [.text "action_name" fun cap v ↦ { cap with actionName := v }]
    | 10 => some [.text "capability_kind" fun cap v ↦ { cap with capabilityKind := v },
        .varint "lifecycle_state" fun cap v ↦
          { cap with lifecycleState := lifecycleStateFromProto v }]
    | 11 => some [.text "node_name" fun cap v ↦ { cap with nodeName := v }]
    | 12 => some [.varint "is_lifecycle_node" fun cap v ↦ { cap with isLifecycleNode := v ≠ 0 }]
    | 13 => some [.varint "lifecycle_state" fun cap v ↦
        { cap with lifecycleState := lifecycleStateFromProto v }]
    | 5 => some [.text "goal_schema" fun cap v ↦ { cap with goalSchema := v }]
    | 6 => some [.text "result_schema" fun cap v ↦ { cap with resultSchema := v }]
    | 7 => some [.text "feedback_schema" fun cap v ↦ { cap with feedbackSchema := v }]
    | 8 => some [.message "success_criteria" (parseSuccessCriteria w) fun cap criteria ↦
        { cap with successCriteria := criteria.or cap.successCriteria }]
    | 9 => some [.varint "is_available" fun cap v ↦ { cap with isAvailable := v ≠ 0 }]
    | _ => none

/-- The kind, if the agent has not sent one. -/
def fillKind (cap : ActionCapabilityMsg) : ActionCapabilityMsg :=
  if cap.capabilityKind = "" then
    { cap with capabilityKind :=
        if GoString.contains (GoString.toLower cap.actionType) "/srv/" then "service"
        else "action" }
  else cap

/-- The lifecycle state, if the agent has not sent one; a known state makes a lifecycle node. -/
def fillLifecycle (cap : ActionCapabilityMsg) : ActionCapabilityMsg :=
  let lifecycleState := if cap.lifecycleState = "" then "unknown" else cap.lifecycleState
  { cap with
    lifecycleState
    isLifecycleNode := cap.isLifecycleNode || lifecycleState ≠ "unknown" }

def parseActionCapability (data : Bytes) : Except String ActionCapabilityMsg :=
  ((actionCapabilitySwitch w).decode w {} data).map fun cap ↦ fillLifecycle (fillKind cap)

def capabilityRegistrationSwitch : Switch CapabilityRegistrationMsg where
  cases
    | 1 => some [.text "agent_id" fun reg v ↦ { reg with agentID := v }]
    | 2 => some [.message "capability" (parseActionCapability w) fun reg cap ↦
        { reg with capabilities := reg.capabilities ++ [cap] }]
    | _ => none
  others
    | 1 => some "invalid field value for agent_id"
    | _ => some "invalid field value for capability"
  unknown n := "invalid field " ++ toString n
  badTag position := "invalid tag at position " ++ toString position

def parseCapabilityRegistration (data : Bytes) : Except String CapabilityRegistrationMsg :=
  (capabilityRegistrationSwitch w).decode w {} data

/-! ## Messages -/

def agentMessageSwitch : Switch AgentMsg where
  cases
    | 1 => some [.text "agent_id" fun msg v ↦ { msg with agentID := v }]
    | 2 => some [.varint "timestamp" fun msg v ↦ { msg with timestampMs := v.toInt64 }]
    | 10 => some [.message "heartbeat" (parseAgentHeartbeat w) fun msg hb ↦
        { msg with heartbeat := some hb }]
    | 11 => some [.message "action_result" (parseActionResult w) fun msg result ↦
        { msg with actionResult := some result }]
    | 12 => some [.message "action_feedback" (parseActionFeedback w) fun msg fb ↦
        { msg with actionFeedback := some fb }]
    | 13 => some [.message "status_update" (parseAgentStatusUpdate w) fun msg status ↦
        { msg with statusUpdate := some status }]
    | 14 => some [.message "deploy_response" (parseDeployGraphResponse w) fun msg resp ↦
        { msg with deployResponse := some resp }]
    | 15 => some [.message "graph_status" (parseGraphExecutionStatus w) fun msg status ↦
        { msg with graphStatus := some status }]
    | 16 => some [.message "pong" (parsePongResponse w) fun msg pong ↦
        { msg with pong := some pong }]
    | 17 => some [.message "config_ack" (parseConfigUpdateAck w) fun msg ack ↦
        { msg with configAck := some ack }]
    | 18 => some [.message "capability_registration" (parseCapabilityRegistration w)
        fun msg capReg ↦ { msg with capabilityRegistration := some capReg }]
    | 19 => some [.message "task_log" (parseTaskLog w) fun msg taskLog ↦
        { msg with taskLog := some taskLog }]
    | 20 => some [.message "task_state" (parseTaskStateUpdate w) fun msg update ↦
        { msg with taskStateUpdate := some update }]
    | _ => none
  unknown n := "invalid field " ++ toString n

def parseAgentMessage (data : Bytes) : Except String AgentMsg :=
  (agentMessageSwitch w).decode w {} data

end Wire
end FleetServer
