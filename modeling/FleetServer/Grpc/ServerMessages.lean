import FleetServer.Lib.GoString
import FleetServer.Lib.JsonText
import FleetServer.Lib.ProtoWire

/-!
# The messages of the server to an agent

Every command has a builder of its own, which writes the payload field by field and names the number
under which `buildServerMessage` puts it.  A builder always writes a tag and its value together, so
a message under construction is a list of fields here, and its bytes are `encode` of the list.

Floats are their bits, and strings are valid UTF-8.
-/

set_option autoImplicit false

namespace FleetServer
namespace Wire

open ProtoWire

/-! ## Arguments -/

/-- The floats above zero, infinity among them. -/
def positive32 (bits : UInt32) : Bool := 0 < bits && bits ≤ 0x7F800000

def positive64 (bits : UInt64) : Bool := 0 < bits && bits ≤ 0x7FF0000000000000

structure StartCondition where
  id : String := ""
  operator : String := ""
  quantifier : String := ""
  targetType : String := ""
  agentID : String := ""
  state : String := ""
  stateOperator : String := ""
  allowedStates : List String := []
  maxStalenessSec : UInt64 := 0
  requireOnline : Bool := false
  message : String := ""
  deriving DecidableEq

structure ExecuteCommandReq where
  commandID : String
  agentID : String
  taskID : String := ""
  stepID : String := ""
  actionType : String := ""
  actionServer : String := ""
  params : Bytes := []
  timeoutSec : UInt32 := 0
  deadlineMs : Int64 := 0
  startConditions : List StartCondition := []
  duringStates : List String := []
  successStates : List String := []
  failureStates : List String := []
  deriving DecidableEq

/-- The parameters are as `json.Marshal` writes them. -/
structure CanonicalAction where
  type : String := ""
  server : String := ""
  timeoutS : UInt64 := 0
  params : Option Bytes := none

structure CanonicalStates where
  during : List String := []
  success : List String := []
  failure : List String := []

structure CanonicalStep where
  stepType : String := ""
  action : Option CanonicalAction := none
  states : Option CanonicalStates := none

structure CanonicalVertex where
  id : String := ""
  type : String := ""
  step : Option CanonicalStep := none
  /-- The `terminal_type`, if there is a terminal. -/
  terminal : Option String := none

structure CanonicalConfig where
  condition : String := ""
  retry : ℤ := 0
  fallback : String := ""
  backoffMs : ℤ := 0

structure CanonicalEdge where
  source : String := ""
  target : String := ""
  type : String := ""
  condition : String := ""
  config : Option CanonicalConfig := none

/-- What `buildDeployGraphMessage` reads of the JSON of a graph. -/
structure CanonicalGraph where
  id : String := ""
  name : String := ""
  version : Int64 := 0
  vertices : List CanonicalVertex := []
  edges : List CanonicalEdge := []
  entryPoint : String := ""
  checksum : String := ""

/-- What `buildAgentStateSnapshot` reads of a robot.  The time is in nanoseconds. -/
structure RobotState where
  id : String
  name : String
  currentState : String
  isOnline : Bool
  isExecuting : Bool
  lastSeen : ℤ
  deriving DecidableEq

/-- What the builders meet: the clock, at each place that looks at it, and the library functions on
JSON and on floats. -/
structure Surroundings where
  nowNano : ℤ
  nowMilli : Int64
  wrapperMilli : Int64
  /-- `json.Unmarshal`, `none` when it fails. -/
  unmarshal : Bytes → Option CanonicalGraph
  /-- `float32` of a `float64`. -/
  narrow : UInt64 → UInt32
  /-- `float32(d.Seconds())` of a duration in nanoseconds. -/
  seconds : ℤ → UInt32

/-! ## The wrapper -/

/-- A field that is written unless the text is empty. -/
def nonempty (n : ℕ) (s : String) : List Field := if s = "" then [] else [.text n s]

/-- One field for each text. -/
def each (n : ℕ) (texts : List String) : List Field := texts.map (.text n)

variable (w : Protowire) (now : Surroundings)

def buildServerMessage (messageID : String) (payloadField : ℕ) (payloadData : List Field) :
    List Field :=
  [.text 1 messageID, .varint 3 now.wrapperMilli.toUInt64,
    .bytes payloadField (w.encode payloadData)]

/-! ## Commands about actions -/

/-- One entry of field 10 of the payload of `buildExecuteCommandMessage`. -/
def buildStartCondition (cond : StartCondition) : List Field :=
  nonempty 1 cond.id ++ nonempty 2 cond.operator ++ nonempty 3 cond.quantifier ++
    nonempty 4 cond.targetType ++ nonempty 6 cond.agentID ++ nonempty 7 cond.state ++
    nonempty 8 cond.stateOperator ++ each 9 (cond.allowedStates.filter (· ≠ "")) ++
    (if positive64 cond.maxStalenessSec then [.fixed32 10 (now.narrow cond.maxStalenessSec)]
      else []) ++
    (if cond.requireOnline then [.varint 11 1] else []) ++ nonempty 12 cond.message

/-- The payload of `buildExecuteCommandMessage`. -/
def execCmd (cmd : ExecuteCommandReq) : List Field :=
  [.text 1 cmd.commandID, .text 2 cmd.agentID] ++ nonempty 3 cmd.taskID ++ nonempty 4 cmd.stepID ++
    [.text 5 cmd.actionType, .text 6 cmd.actionServer] ++
    (if cmd.params = [] then [] else [.bytes 7 cmd.params]) ++
    (if positive32 cmd.timeoutSec then [.fixed32 8 cmd.timeoutSec] else []) ++
    (if 0 < cmd.deadlineMs then [.varint 9 cmd.deadlineMs.toUInt64] else []) ++
    cmd.startConditions.map (fun cond ↦ .bytes 10 (w.encode (buildStartCondition now cond))) ++
    each 11 (cmd.duringStates.filter (· ≠ "")) ++ each 12 (cmd.successStates.filter (· ≠ "")) ++
    each 13 (cmd.failureStates.filter (· ≠ ""))

def buildExecuteCommandMessage (cmd : ExecuteCommandReq) : List Field :=
  buildServerMessage w now cmd.commandID 10 (execCmd w now cmd)

def cancelCmd (commandID agentID taskID reason : String) : List Field :=
  [.text 1 commandID, .text 2 agentID] ++ nonempty 3 taskID ++ nonempty 4 reason

def buildCancelCommandMessage (commandID agentID taskID reason : String) : List Field :=
  buildServerMessage w now commandID 11 (cancelCmd commandID agentID taskID reason)

def ping (pingID : String) : List Field :=
  [.text 1 pingID, .varint 2 now.nowMilli.toUInt64]

def buildPingMessage (pingID : String) : List Field :=
  buildServerMessage w now pingID 16 (ping now pingID)

def mapEntry (entry : String × String) : List Field := [.text 1 entry.1, .text 2 entry.2]

def startTaskCmd (taskID graphID robotID : String) (params : List (String × String)) : List Field :=
  [.text 1 taskID, .text 2 graphID, .text 3 robotID] ++
    params.map fun entry ↦ .bytes 4 (w.encode (mapEntry entry))

/-- The parameters are listed in the order in which the map gives them. -/
def buildStartTaskMessage (taskID graphID robotID : String) (params : List (String × String)) :
    List Field :=
  buildServerMessage w now ("task-" ++ taskID) 18 (startTaskCmd w taskID graphID robotID params)

/-! ## Commands about graphs -/

def stepTypeNumber (stepType : String) : UInt64 :=
  if stepType = "wait" then 2 else if stepType = "condition" then 3 else 1

def actionMsg (action : CanonicalAction) : List Field :=
  nonempty 1 action.type ++ nonempty 2 action.server ++
    (if positive64 action.timeoutS then [.fixed32 3 (now.narrow action.timeoutS)] else []) ++
    (action.params.map (Field.bytes 4)).toList

def buildStepVertexMessage (step : CanonicalStep) : List Field :=
  [.varint 1 (stepTypeNumber step.stepType)] ++
    ((step.action.map (actionMsg now)).filter (· ≠ [])).toList.map
      (fun fields ↦ .bytes 2 (w.encode fields)) ++
    step.states.toList.flatMap fun states ↦
      each 15 states.during ++ each 16 states.success ++ each 17 states.failure

/-- The pointers that `buildVertexMessage` compares with `nil` are in interfaces, which never are
`nil`: a terminal without its data is written without it, whether it has a step or not. -/
def buildVertexMessage (vertex : CanonicalVertex) : List Field :=
  [.text 1 vertex.id, .varint 2 (if vertex.type = "terminal" then 2 else 1)] ++
    if vertex.type = "terminal" then
      (vertex.terminal.map fun terminalType ↦
        .bytes 4 (w.encode [.varint 1 (if terminalType = "failure" then 2 else 1)])).toList
    else (vertex.step.map fun step ↦ .bytes 3 (w.encode (buildStepVertexMessage w now step))).toList

def edgeTypeNumber (edgeType : String) : UInt64 :=
  if edgeType = "on_success" then 1
  else if edgeType = "on_failure" then 2
  else if edgeType = "on_timeout" then 3
  else 4

def buildEdgeMessage (source target edgeType condition : String) : List Field :=
  [.text 1 source, .text 2 target, .varint 3 (edgeTypeNumber edgeType)] ++ nonempty 4 condition

/-- The condition that an edge is sent with, before its retries are looked at. -/
def plainCondition (edge : CanonicalEdge) : String :=
  if GoString.trimSpace edge.condition = "" then
    (edge.config.map fun config ↦ GoString.trimSpace config.condition).getD ""
  else GoString.trimSpace edge.condition

/-- The `fallback` of an edge for failures: its target unless it is told otherwise. -/
def fallback (edge : CanonicalEdge) (config : CanonicalConfig) : String :=
  if GoString.trimSpace config.fallback ≠ "" then GoString.trimSpace config.fallback
  else GoString.trimSpace edge.target

/-- The retries as an object, whose keys `json.Marshal` sorts. -/
def retryPayload (edge : CanonicalEdge) (config : CanonicalConfig) : String :=
  "\x7b" ++ ",".intercalate
    ((if 0 < config.backoffMs then ["\"backoff_ms\":" ++ toString config.backoffMs] else []) ++
      (if fallback edge config ≠ "" then
        ["\"fallback\":" ++ String.ofList (JsonText.string (fallback edge config))] else []) ++
      ["\"retry\":" ++ toString config.retry]) ++ "\x7d"

def retries (config : CanonicalConfig) : Prop :=
  0 < config.retry ∨ 0 < config.backoffMs ∨ GoString.trimSpace config.fallback ≠ ""

instance (config : CanonicalConfig) : Decidable (retries config) :=
  inferInstanceAs (Decidable (_ ∨ _ ∨ _))

/-- `strings.EqualFold` with `on_failure`, which has no letter that folds outside of ASCII. -/
def isOnFailure (edgeType : String) : Bool :=
  (GoString.trimSpace edgeType).toList.map Char.toLower = "on_failure".toList

def edgeCondition (edge : CanonicalEdge) : String :=
  match edge.config with
  | some config =>
    if isOnFailure edge.type ∧ retries config then retryPayload edge config else plainCondition edge
  | none => plainCondition edge

def metadata (graph : CanonicalGraph) : List Field :=
  nonempty 1 graph.id ++ nonempty 2 graph.name ++
    if 0 < graph.version then [.varint 3 graph.version.toUInt64] else []

def graphMsg (graph : CanonicalGraph) : List Field :=
  [.text 1 "1.0.0"] ++
    (if metadata graph = [] then [] else [.bytes 2 (w.encode (metadata graph))]) ++
    graph.vertices.map (fun vertex ↦ .bytes 3 (w.encode (buildVertexMessage w now vertex))) ++
    graph.edges.map (fun edge ↦ .bytes 4 (w.encode
      (buildEdgeMessage edge.source edge.target edge.type (edgeCondition edge)))) ++
    nonempty 5 graph.entryPoint ++ nonempty 6 graph.checksum

def deployReq (correlationID : String) (graph : CanonicalGraph) : List Field :=
  [.text 1 correlationID, .bytes 2 (w.encode (graphMsg w now graph)), .varint 3 1]

/-- A graph that cannot be read is sent as an empty message. -/
def buildDeployGraphMessage (correlationID : String) (graphJSON : Bytes) : List Field :=
  match now.unmarshal graphJSON with
  | none => []
  | some graph => buildServerMessage w now correlationID 12 (deployReq w now correlationID graph)

/-- An id for a command that is made when it is sent. -/
def commandID (kind id : String) : String := kind ++ "-" ++ id ++ "-" ++ toString now.nowNano

def actionEnum (action : String) : UInt64 :=
  if action = "MODIFIED" then 1
  else if action = "DELETED" then 2
  else if action = "UNASSIGNED" then 3
  else 0

def notification (agentID graphID : String) (version : Int64) (action : String)
    (graphJSON : Bytes) : List Field :=
  [.text 1 (commandID now "graph-update" graphID), .text 2 agentID, .text 3 graphID,
    .varint 4 (actionEnum action)] ++
    (if 0 < version then [.varint 5 version.toUInt64] else []) ++
    if action = "MODIFIED" ∧ graphJSON ≠ [] then [.bytes 6 graphJSON] else []

/-- The message of `SendGraphUpdateNotification`. -/
def graphUpdateMessage (agentID graphID : String) (version : Int64) (action : String)
    (graphJSON : Bytes) : List Field :=
  buildServerMessage w now (commandID now "graph-update" graphID) 18
    (notification now agentID graphID version action graphJSON)

def deleteGraphCmd (agentID graphID reason : String) : List Field :=
  [.text 1 (commandID now "delete-graph" graphID), .text 2 agentID, .text 3 graphID] ++
    nonempty 4 reason

/-- The message of `SendDeleteGraphCommand`. -/
def deleteGraphMessage (agentID graphID reason : String) : List Field :=
  buildServerMessage w now (commandID now "delete-graph" graphID) 17
    (deleteGraphCmd now agentID graphID reason)

/-! ## Commands about the agent -/

def resetStateCmd (agentID reason : String) : List Field :=
  [.text 1 (commandID now "reset-agent-state" agentID), .text 2 agentID] ++ nonempty 3 reason

/-- The message of `SendResetAgentStateCommand`. -/
def resetStateMessage (agentID reason : String) : List Field :=
  buildServerMessage w now (commandID now "reset-agent-state" agentID) 19
    (resetStateCmd now agentID reason)

def buildAgentStateSnapshot (robot : RobotState) : List Field :=
  [.text 1 robot.id, .text 2 robot.name, .text 5 robot.currentState,
    .varint 6 (if robot.isOnline then 1 else 0), .varint 7 (if robot.isExecuting then 1 else 0),
    .fixed32 8 (now.seconds (now.nowNano - robot.lastSeen))]

def fleetState (robots : List RobotState) : List Field :=
  [.varint 1 now.nowMilli.toUInt64] ++
    robots.map fun robot ↦ .bytes 2 (w.encode (buildAgentStateSnapshot now robot))

/-- The message of `broadcastFleetState`, with the robots in the order in which the snapshot gives
them. -/
def fleetStateMessage (robots : List RobotState) : List Field :=
  buildServerMessage w now ("fleet-state-" ++ toString now.nowNano) 17 (fleetState w now robots)

/-! ## All of them -/

/-- What the server asks of an agent or tells it. -/
inductive ServerCommand
  | execute (cmd : ExecuteCommandReq)
  | cancel (commandID agentID taskID reason : String)
  | deploy (correlationID : String) (graphJSON : Bytes)
  | ping (pingID : String)
  | startTask (taskID graphID robotID : String) (params : List (String × String))
  | graphUpdate (agentID graphID : String) (version : Int64) (action : String) (graphJSON : Bytes)
  | deleteGraph (agentID graphID reason : String)
  | resetState (agentID reason : String)
  | fleetState (robots : List RobotState)
  deriving DecidableEq

/-- The fields of the message that a command is sent as. -/
def ServerCommand.message : ServerCommand → List Field
  | .execute cmd => buildExecuteCommandMessage w now cmd
  | .cancel commandID agentID taskID reason =>
    buildCancelCommandMessage w now commandID agentID taskID reason
  | .deploy correlationID graphJSON => buildDeployGraphMessage w now correlationID graphJSON
  | .ping pingID => buildPingMessage w now pingID
  | .startTask taskID graphID robotID params =>
    buildStartTaskMessage w now taskID graphID robotID params
  | .graphUpdate agentID graphID version action graphJSON =>
    graphUpdateMessage w now agentID graphID version action graphJSON
  | .deleteGraph agentID graphID reason => deleteGraphMessage w now agentID graphID reason
  | .resetState agentID reason => resetStateMessage w now agentID reason
  | .fleetState robots => fleetStateMessage w now robots

def ServerCommand.bytes (cmd : ServerCommand) : Bytes := w.encode (cmd.message w now)

end Wire
end FleetServer
