import FleetServer.Grpc.ServerMessages

/-!
# What an agent reads of the messages of the server

An agent whose code is generated from `fleet.proto` reads a payload by the schema that the number of
its field has there.  Of the server's numbers only those of execute, cancel, delete graph, graph
update and reset state are the numbers of that file; a start task is read as a graph update, a ping
as a start task, a fleet state as a delete graph, and a deploy as an acknowledgement.

`command_comesBack_iff` says which commands an agent reads as they were sent: those of the five
kinds that keep to what the schema can hold.
-/

set_option autoImplicit false

namespace FleetServer
namespace Wire

open ProtoWire

/-! ## The schemas -/

structure ExecuteCommand where
  commandId : String
  agentId : String
  taskId : String
  stepId : String
  actionType : String
  actionServer : String
  params : Bytes
  timeoutSec : UInt32
  deadlineMs : Int64
  deriving DecidableEq

structure CancelCommand where
  commandId : String
  agentId : String
  taskId : String
  reason : String
  deriving DecidableEq

structure ServerAck where
  ackedMessageId : String
  success : Bool
  error : String
  deriving DecidableEq

structure ConfigUpdate where
  agentId : String
  stateDefinition : Bytes
  version : Int32
  deriving DecidableEq

structure AgentStateEntry where
  agentId : String
  stateCode : String
  semanticTags : List String
  currentGraphId : String
  isOnline : Bool
  isExecuting : Bool
  stalenessSec : UInt32
  state : String
  deriving DecidableEq

structure FleetStateUpdate where
  timestampMs : Int64
  agents : List AgentStateEntry
  deriving DecidableEq

structure GraphState where
  code : String
  name : String
  type : String
  stepId : String
  phase : String
  color : String
  description : String
  semanticTags : List String
  deriving DecidableEq

structure DeployGraphCommand where
  commandId : String
  agentId : String
  actionGraphId : String
  version : Int32
  graphJson : Bytes
  states : List GraphState
  checksum : String
  deriving DecidableEq

structure StartTaskCommand where
  taskId : String
  graphId : String
  robotId : String
  params : List (String × String)
  deriving DecidableEq

structure DeleteGraphCommand where
  commandId : String
  agentId : String
  actionGraphId : String
  reason : String
  deriving DecidableEq

/-- The action is the number of the enumeration, also when it is none of them. -/
structure GraphUpdateNotification where
  commandId : String
  agentId : String
  actionGraphId : String
  action : Int32
  newVersion : Int32
  graphJson : Bytes
  deriving DecidableEq

structure ResetAgentStateCommand where
  commandId : String
  agentId : String
  reason : String
  deriving DecidableEq

inductive ServerPayload
  | execute (p : ExecuteCommand)
  | cancel (p : CancelCommand)
  | ack (p : ServerAck)
  | configUpdate (p : ConfigUpdate)
  | fleetStateUpdate (p : FleetStateUpdate)
  | deployGraph (p : DeployGraphCommand)
  | startTask (p : StartTaskCommand)
  | deleteGraph (p : DeleteGraphCommand)
  | graphUpdate (p : GraphUpdateNotification)
  | resetAgentState (p : ResetAgentStateCommand)
  deriving DecidableEq

structure ServerMessage where
  messageId : String
  sequence : Int64
  timestampMs : Int64
  payload : Option ServerPayload
  deriving DecidableEq

/-! ## Reading by the schemas -/

def readExecute (fs : List Field) : ExecuteCommand where
  commandId := textAt 1 fs
  agentId := textAt 2 fs
  taskId := textAt 3 fs
  stepId := textAt 4 fs
  actionType := textAt 5 fs
  actionServer := textAt 6 fs
  params := bytesAt 7 fs
  timeoutSec := fixed32At 8 fs
  deadlineMs := int64At 9 fs

def readCancel (fs : List Field) : CancelCommand where
  commandId := textAt 1 fs
  agentId := textAt 2 fs
  taskId := textAt 3 fs
  reason := textAt 4 fs

def readAck (fs : List Field) : ServerAck where
  ackedMessageId := textAt 1 fs
  success := boolAt 2 fs
  error := textAt 3 fs

def readConfigUpdate (fs : List Field) : ConfigUpdate where
  agentId := textAt 1 fs
  stateDefinition := bytesAt 2 fs
  version := int32At 3 fs

def readAgentStateEntry (fs : List Field) : AgentStateEntry where
  agentId := textAt 1 fs
  stateCode := textAt 2 fs
  semanticTags := textsAt 3 fs
  currentGraphId := textAt 4 fs
  isOnline := boolAt 5 fs
  isExecuting := boolAt 6 fs
  stalenessSec := fixed32At 7 fs
  state := textAt 8 fs

def readGraphState (fs : List Field) : GraphState where
  code := textAt 1 fs
  name := textAt 2 fs
  type := textAt 3 fs
  stepId := textAt 4 fs
  phase := textAt 5 fs
  color := textAt 6 fs
  description := textAt 7 fs
  semanticTags := textsAt 8 fs

def readMapEntry (fs : List Field) : String × String := (textAt 1 fs, textAt 2 fs)

def readDeleteGraph (fs : List Field) : DeleteGraphCommand where
  commandId := textAt 1 fs
  agentId := textAt 2 fs
  actionGraphId := textAt 3 fs
  reason := textAt 4 fs

def readGraphUpdate (fs : List Field) : GraphUpdateNotification where
  commandId := textAt 1 fs
  agentId := textAt 2 fs
  actionGraphId := textAt 3 fs
  action := int32At 4 fs
  newVersion := int32At 5 fs
  graphJson := bytesAt 6 fs

def readResetAgentState (fs : List Field) : ResetAgentStateCommand where
  commandId := textAt 1 fs
  agentId := textAt 2 fs
  reason := textAt 3 fs

variable (w : Protowire)

def readFleetStateUpdate (fs : List Field) : Option FleetStateUpdate :=
  (w.messagesAt (some ∘ readAgentStateEntry) 2 fs).map fun agents ↦
    { timestampMs := int64At 1 fs, agents }

def readDeployGraph (fs : List Field) : Option DeployGraphCommand :=
  (w.messagesAt (some ∘ readGraphState) 6 fs).map fun states ↦
    { commandId := textAt 1 fs, agentId := textAt 2 fs, actionGraphId := textAt 3 fs
      version := int32At 4 fs, graphJson := bytesAt 5 fs, states, checksum := textAt 7 fs }

def readStartTask (fs : List Field) : Option StartTaskCommand :=
  (w.messagesAt (some ∘ readMapEntry) 4 fs).map fun params ↦
    { taskId := textAt 1 fs, graphId := textAt 2 fs, robotId := textAt 3 fs, params }

/-- The payload by the schema of its number in `ServerMessage`. -/
def readPayload (fs : List Field) : ℕ → Option ServerPayload
  | 10 => some (.execute (readExecute fs))
  | 11 => some (.cancel (readCancel fs))
  | 12 => some (.ack (readAck fs))
  | 13 => some (.configUpdate (readConfigUpdate fs))
  | 14 => (readFleetStateUpdate w fs).map .fleetStateUpdate
  | 15 => (readDeployGraph w fs).map .deployGraph
  | 16 => (readStartTask w fs).map .startTask
  | 17 => some (.deleteGraph (readDeleteGraph fs))
  | 18 => some (.graphUpdate (readGraphUpdate fs))
  | 19 => some (.resetAgentState (readResetAgentState fs))
  | _ => none

/-- The number and the bytes of the payload.  Of several the last one counts. -/
def payloadOf (fs : List Field) : Option (ℕ × Bytes) :=
  (fs.filterMap fun f ↦
    if 10 ≤ f.number ∧ f.number ≤ 19 then f.value.bytes?.map (f.number, ·) else none).getLast?

/-- The payload, if there is one; `none` when there is one that cannot be read. -/
def payloadAt (fs : List Field) : Option (Option ServerPayload) :=
  match payloadOf fs with
  | none => some none
  | some (number, body) => ((w.fields body).bind (readPayload w · number)).map some

def decodeServerMessage (b : Bytes) : Option ServerMessage :=
  (w.fields b).bind fun fs ↦ (payloadAt w fs).map fun payload ↦
    { messageId := textAt 1 fs, sequence := int64At 2 fs, timestampMs := int64At 3 fs, payload }

/-! ## What the payload of a command is read as -/

variable {w} {now : Surroundings}

/-- The message around a payload is read as it was built. -/
theorem decode_buildServerMessage (hw : w.Correct) {id : String} {number : ℕ} {body : List Field}
    (hnumber : 10 ≤ number ∧ number ≤ 19) (hbody : Numbered body) :
    decodeServerMessage w (w.encode (buildServerMessage w now id number body)) =
      (readPayload w body number).map fun p ↦
        { messageId := id, sequence := 0, timestampMs := now.wrapperMilli, payload := some p } := by
  have hnumbered : Numbered (buildServerMessage w now id number body) := by
    simp [buildServerMessage, IsNumber]
    omega
  have hpayload : payloadAt w (buildServerMessage w now id number body) =
      (readPayload w body number).map some := by
    have hof : payloadOf (buildServerMessage w now id number body) =
        some (number, w.encode body) := by
      simp [payloadOf, buildServerMessage, hnumber]
    simp only [payloadAt, hof, Protowire.fields_encode hw hbody, Option.bind_some]
  have hid : textAt 1 (buildServerMessage w now id number body) = id := by
    have hne : number ≠ 1 := by omega
    simp [textAt, buildServerMessage, values_cons, hne, last]
  have hsequence : int64At 2 (buildServerMessage w now id number body) = 0 := by
    have hne : number ≠ 2 := by omega
    simp [int64At, varintAt, buildServerMessage, values_cons, hne]
  have htimestamp : int64At 3 (buildServerMessage w now id number body) = now.wrapperMilli := by
    have hne : number ≠ 3 := by omega
    simp [int64At, varintAt, buildServerMessage, values_cons, hne, last]
  simp only [decodeServerMessage, Protowire.fields_encode hw hnumbered, Option.bind_some, hpayload,
    hid, hsequence, htimestamp, Option.map_map]
  rfl

/-! ## The payloads -/

theorem numbered_nonempty {n : ℕ} (hn : IsNumber n) (s : String) : Numbered (nonempty n s) :=
  numbered_ite numbered_nil (by simp [hn])

theorem values_nonempty (n m : ℕ) (s : String) :
    values (nonempty n s) m = if n = m then if s = "" then [] else [.bytes (utf8 s)] else [] := by
  split <;> simp [nonempty, values_ite, values_cons, *]

/-- A text reads the same when it is left out for being empty. -/
@[simp] theorem last_nonempty (s : String) :
    last Value.text? "" (if s = "" then [] else [.bytes (utf8 s)]) = s :=
  last_unless (Value.text?_bytes s) id

@[simp] theorem last_text (s : String) : last Value.text? "" [.bytes (utf8 s)] = s :=
  last_singleton (Value.text?_bytes s)

theorem numbered_execCmd (cmd : ExecuteCommandReq) : Numbered (execCmd w now cmd) := by
  simp only [execCmd, each, numbered_append]
  refine ⟨⟨⟨⟨⟨⟨⟨⟨⟨⟨?_, ?_⟩, ?_⟩, ?_⟩, ?_⟩, ?_⟩, ?_⟩, ?_⟩, ?_⟩, ?_⟩, ?_⟩
  · simp [IsNumber]
  · exact numbered_nonempty (by decide) _
  · exact numbered_nonempty (by decide) _
  · simp [IsNumber]
  · exact numbered_ite (by simp) (by simp [IsNumber])
  · exact numbered_ite (by simp [IsNumber]) (by simp)
  · exact numbered_ite (by simp [IsNumber]) (by simp)
  all_goals exact numbered_map (fun _ ↦ by simp [IsNumber]) _

/-- What an agent reads of an execute command: the last four fields are not in its schema. -/
theorem readExecute_execCmd (cmd : ExecuteCommandReq) :
    readExecute (execCmd w now cmd) =
      { commandId := cmd.commandID, agentId := cmd.agentID, taskId := cmd.taskID
        stepId := cmd.stepID, actionType := cmd.actionType, actionServer := cmd.actionServer
        params := cmd.params
        timeoutSec := if positive32 cmd.timeoutSec then cmd.timeoutSec else 0
        deadlineMs := if 0 < cmd.deadlineMs then cmd.deadlineMs else 0 } := by
  have hparams : last Value.bytes? [] (if cmd.params = [] then [] else [.bytes cmd.params]) =
      cmd.params :=
    last_unless (Value.bytes?_bytes cmd.params) id
  have hdeadline : (if 0 < cmd.deadlineMs then cmd.deadlineMs.toUInt64 else 0).toInt64 =
      if 0 < cmd.deadlineMs then cmd.deadlineMs else 0 := by
    split <;> simp
  simp [readExecute, textAt, bytesAt, fixed32At, int64At, varintAt, execCmd, each, values_append,
    values_cons, values_nonempty, values_ite, values_map, last_ite, last_singleton, hparams,
    hdeadline]

theorem readCancel_cancelCmd (commandID agentID taskID reason : String) :
    readCancel (cancelCmd commandID agentID taskID reason) =
      { commandId := commandID, agentId := agentID, taskId := taskID, reason } := by
  simp [readCancel, textAt, cancelCmd, values_append, values_cons, values_nonempty]

theorem readGraphUpdate_notification (agentID graphID : String) (version : Int64) (action : String)
    (graphJSON : Bytes) :
    readGraphUpdate (notification now agentID graphID version action graphJSON) =
      { commandId := commandID now "graph-update" graphID, agentId := agentID
        actionGraphId := graphID, action := (actionEnum action).toUInt32.toInt32
        newVersion := if 0 < version then version.toUInt64.toUInt32.toInt32 else 0
        graphJson := if action = "MODIFIED" then graphJSON else [] } := by
  simp [readGraphUpdate, textAt, bytesAt, int32At, varintAt, notification, values_append,
    values_cons, values_ite, last_ite, last_singleton]
  constructor
  · split <;> rfl
  · by_cases haction : action = "MODIFIED" <;> by_cases hgraph : graphJSON = [] <;>
      simp [haction, hgraph]

theorem readDeleteGraph_deleteGraphCmd (agentID graphID reason : String) :
    readDeleteGraph (deleteGraphCmd now agentID graphID reason) =
      { commandId := commandID now "delete-graph" graphID, agentId := agentID
        actionGraphId := graphID, reason } := by
  simp [readDeleteGraph, textAt, deleteGraphCmd, values_cons, values_nonempty]

theorem readResetAgentState_resetStateCmd (agentID reason : String) :
    readResetAgentState (resetStateCmd now agentID reason) =
      { commandId := commandID now "reset-agent-state" agentID, agentId := agentID, reason } := by
  simp [readResetAgentState, textAt, resetStateCmd, values_cons, values_nonempty]

/-- **A start task is read as a graph update**: the task is its command, the graph its agent and the
robot its graph. -/
theorem readGraphUpdate_startTaskCmd (taskID graphID robotID : String)
    (params : List (String × String)) :
    readGraphUpdate (startTaskCmd w taskID graphID robotID params) =
      { commandId := taskID, agentId := graphID, actionGraphId := robotID, action := 0
        newVersion := 0, graphJson := [] } := by
  have haction : last Value.varint? 0 (params.map fun entry ↦ .bytes (w.encode (mapEntry entry))) =
      0 :=
    last_of_unreadable fun v hv ↦ by
      obtain ⟨entry, -, rfl⟩ := List.mem_map.mp hv
      rfl
  simp [readGraphUpdate, textAt, bytesAt, int32At, varintAt, startTaskCmd, values_cons, values_map,
    haction]

/-! ## Which commands come back -/

/-- The name by which the server's callers call an action. -/
def actionName (action : Int32) : Option String :=
  if action = 1 then some "MODIFIED"
  else if action = 2 then some "DELETED"
  else if action = 3 then some "UNASSIGNED"
  else none

/-- The payload is of the kind of the command and has its arguments.  An argument for which a schema
has no field is there when it is empty. -/
def ServerPayload.Carries (now : Surroundings) : ServerPayload → ServerCommand → Prop
  | .execute p, .execute cmd =>
    { commandID := p.commandId, agentID := p.agentId, taskID := p.taskId, stepID := p.stepId
      actionType := p.actionType, actionServer := p.actionServer, params := p.params
      timeoutSec := p.timeoutSec, deadlineMs := p.deadlineMs : ExecuteCommandReq } = cmd
  | .cancel p, .cancel commandID agentID taskID reason =>
    p = { commandId := commandID, agentId := agentID, taskId := taskID, reason }
  | .deployGraph p, .deploy correlationID graphJSON =>
    p.commandId = correlationID ∧ p.graphJson = graphJSON
  | .startTask p, .startTask taskID graphID robotID params =>
    p = { taskId := taskID, graphId := graphID, robotId := robotID, params }
  | .graphUpdate p, .graphUpdate agentID graphID version action graphJSON =>
    p.agentId = agentID ∧ p.actionGraphId = graphID ∧ p.newVersion.toInt = version.toInt ∧
      actionName p.action = some action ∧ p.graphJson = graphJSON
  | .deleteGraph p, .deleteGraph agentID graphID reason =>
    p.agentId = agentID ∧ p.actionGraphId = graphID ∧ p.reason = reason
  | .resetAgentState p, .resetState agentID reason => p.agentId = agentID ∧ p.reason = reason
  | .fleetStateUpdate p, .fleetState robots =>
    p.agents.map (fun agent ↦ (agent.agentId, agent.state, agent.isOnline, agent.isExecuting,
      agent.stalenessSec)) =
    robots.map fun robot ↦ (robot.id, robot.currentState, robot.isOnline, robot.isExecuting,
      now.seconds (now.nowNano - robot.lastSeen))
  | _, _ => False

/-- What an agent reads is the command that was sent. -/
def ComesBack (w : Protowire) (now : Surroundings) (cmd : ServerCommand) : Prop :=
  ∃ msg p, decodeServerMessage w (cmd.bytes w now) = some msg ∧ msg.payload = some p ∧
    p.Carries now cmd

/-- The kinds whose number is theirs in the schema, as far as the schema has room for them. -/
def ServerCommand.FollowsSchema : ServerCommand → Prop
  | .execute cmd =>
    cmd.startConditions = [] ∧ cmd.duringStates = [] ∧ cmd.successStates = [] ∧
      cmd.failureStates = [] ∧ (cmd.timeoutSec = 0 ∨ positive32 cmd.timeoutSec) ∧ 0 ≤ cmd.deadlineMs
  | .cancel _ _ _ _ => True
  | .graphUpdate _ _ version action graphJSON =>
    0 ≤ version.toInt ∧ version.toInt < 2 ^ 31 ∧
      (action = "MODIFIED" ∨ (action = "DELETED" ∨ action = "UNASSIGNED") ∧ graphJSON = [])
  | .deleteGraph _ _ _ => True
  | .resetState _ _ => True
  | .deploy _ _ => False
  | .ping _ => False
  | .startTask _ _ _ _ => False
  | .fleetState _ => False

theorem comesBack_of_message (hw : w.Correct) {cmd : ServerCommand} {id : String} {number : ℕ}
    {body : List Field} (hmessage : cmd.message w now = buildServerMessage w now id number body)
    (hnumber : 10 ≤ number ∧ number ≤ 19) (hbody : Numbered body) :
    ComesBack w now cmd ↔ ∃ p, readPayload w body number = some p ∧ p.Carries now cmd := by
  rw [ComesBack, ServerCommand.bytes, hmessage, decode_buildServerMessage hw hnumber hbody]
  constructor
  · rintro ⟨msg, p, hmsg, hp, hcarries⟩
    obtain ⟨q, hq, rfl⟩ := Option.map_eq_some_iff.mp hmsg
    exact ⟨p, hq.trans hp, hcarries⟩
  · rintro ⟨p, hp, hcarries⟩
    exact ⟨_, p, by rw [hp]; rfl, rfl, hcarries⟩

/-! ### Kinds with the number of the schema -/

theorem sentTimeout_eq_iff (bits : UInt32) :
    (if positive32 bits then bits else 0) = bits ↔ bits = 0 ∨ positive32 bits := by
  split
  · rename_i hpositive
    exact ⟨fun _ ↦ Or.inr hpositive, fun _ ↦ rfl⟩
  · rename_i hpositive
    exact ⟨fun h ↦ Or.inl h.symm, fun h ↦ (h.resolve_right hpositive).symm⟩

theorem sentDeadline_eq_iff (ms : Int64) : (if 0 < ms then ms else 0) = ms ↔ 0 ≤ ms := by
  split
  · rename_i hpositive
    exact ⟨fun _ ↦ Int64.le_of_lt hpositive, fun _ ↦ rfl⟩
  · rename_i hpositive
    exact ⟨fun h ↦ h ▸ Int64.le_refl 0, fun h ↦ Int64.le_antisymm h (Int64.not_lt.mp hpositive)⟩

theorem comesBack_execute (hw : w.Correct) (cmd : ExecuteCommandReq) :
    ComesBack w now (.execute cmd) ↔ (ServerCommand.execute cmd).FollowsSchema := by
  rw [comesBack_of_message hw rfl (by decide) (numbered_execCmd cmd)]
  simp only [readPayload, readExecute_execCmd, Option.some.injEq, exists_eq_left',
    ServerPayload.Carries, ServerCommand.FollowsSchema]
  obtain ⟨commandID, agentID, taskID, stepID, actionType, actionServer, params, timeoutSec,
    deadlineMs, startConditions, duringStates, successStates, failureStates⟩ := cmd
  simp only [ExecuteCommandReq.mk.injEq, sentTimeout_eq_iff, sentDeadline_eq_iff, true_and]
  constructor
  · rintro ⟨htimeout, hdeadline, rfl, rfl, rfl, rfl⟩
    exact ⟨rfl, rfl, rfl, rfl, htimeout, hdeadline⟩
  · rintro ⟨rfl, rfl, rfl, rfl, htimeout, hdeadline⟩
    exact ⟨htimeout, hdeadline, rfl, rfl, rfl, rfl⟩

theorem comesBack_cancel (hw : w.Correct) (commandID agentID taskID reason : String) :
    ComesBack w now (.cancel commandID agentID taskID reason) := by
  refine (comesBack_of_message hw rfl (by decide) ?_).mpr ⟨_, rfl, ?_⟩
  · exact numbered_append.mpr ⟨numbered_append.mpr ⟨by simp [IsNumber],
      numbered_nonempty (by decide) taskID⟩, numbered_nonempty (by decide) reason⟩
  · exact readCancel_cancelCmd commandID agentID taskID reason

theorem comesBack_deleteGraph (hw : w.Correct) (agentID graphID reason : String) :
    ComesBack w now (.deleteGraph agentID graphID reason) := by
  refine (comesBack_of_message hw rfl (by decide) ?_).mpr ⟨_, rfl, ?_⟩
  · exact numbered_append.mpr ⟨by simp [IsNumber], numbered_nonempty (by decide) reason⟩
  · rw [readDeleteGraph_deleteGraphCmd]
    exact ⟨rfl, rfl, rfl⟩

theorem comesBack_resetState (hw : w.Correct) (agentID reason : String) :
    ComesBack w now (.resetState agentID reason) := by
  refine (comesBack_of_message hw rfl (by decide) ?_).mpr ⟨_, rfl, ?_⟩
  · exact numbered_append.mpr ⟨by simp [IsNumber], numbered_nonempty (by decide) reason⟩
  · rw [readResetAgentState_resetStateCmd]
    exact ⟨rfl, rfl⟩

theorem actionName_actionEnum (action : String) :
    actionName (actionEnum action).toUInt32.toInt32 = some action ↔
      action = "MODIFIED" ∨ action = "DELETED" ∨ action = "UNASSIGNED" := by
  rw [actionEnum]
  split
  · rename_i hmodified
    simp [hmodified, actionName]
  · split
    · rename_i hdeleted
      simp [hdeleted, actionName]
    · split
      · rename_i hunassigned
        simp [hunassigned, actionName]
      · simp_all [actionName]

/-- The version goes through 32 bits, and only when it is above zero. -/
theorem newVersion_eq_iff (version : Int64) :
    (if 0 < version then version.toUInt64.toUInt32.toInt32 else 0).toInt = version.toInt ↔
      0 ≤ version.toInt ∧ version.toInt < 2 ^ 31 := by
  have hlow : version.toUInt64.toUInt32.toInt32 = version.toInt32 := by
    apply Int32.toBitVec_inj.mp
    exact (BitVec.signExtend_eq_setWidth_of_le version.toBitVec (by decide)).symm
  have hpositive : 0 < version ↔ 0 < version.toInt := Int64.lt_iff_toInt_lt
  split
  · rename_i h
    rw [hlow, Int64.toInt_toInt32]
    have := hpositive.mp h
    constructor
    · intro hmod
      have hbound := Int.bmod_lt (x := version.toInt) (m := 2 ^ 32) (by decide)
      omega
    · intro hbounds
      exact Int.bmod_eq_of_le (by omega) (by omega)
  · rename_i h
    have hle : ¬ 0 < version.toInt := fun h' ↦ h (hpositive.mpr h')
    rw [Int32.toInt_zero]
    omega

theorem numbered_notification (agentID graphID : String) (version : Int64) (action : String)
    (graphJSON : Bytes) : Numbered (notification now agentID graphID version action graphJSON) := by
  simp only [notification, numbered_append]
  exact ⟨⟨by simp [IsNumber], numbered_ite (by simp [IsNumber]) (by simp)⟩,
    numbered_ite (by simp [IsNumber]) (by simp)⟩

theorem comesBack_graphUpdate (hw : w.Correct) (agentID graphID : String) (version : Int64)
    (action : String) (graphJSON : Bytes) :
    ComesBack w now (.graphUpdate agentID graphID version action graphJSON) ↔
      (ServerCommand.graphUpdate agentID graphID version action graphJSON).FollowsSchema := by
  rw [comesBack_of_message hw rfl (by decide) (numbered_notification _ _ _ _ _)]
  simp only [readPayload, readGraphUpdate_notification, Option.some.injEq, exists_eq_left',
    ServerPayload.Carries, ServerCommand.FollowsSchema, newVersion_eq_iff, actionName_actionEnum,
    true_and, and_assoc]
  refine and_congr_right fun _ ↦ and_congr_right fun _ ↦ ?_
  by_cases haction : action = "MODIFIED"
  · simp [haction]
  · simp [haction, eq_comm]

/-! ### Kinds with another number -/

/-- A payload whose number is that of another kind is read as that kind, if it is read at all. -/
theorem not_comesBack (hw : w.Correct) {cmd : ServerCommand} {id : String} {number : ℕ}
    {body : List Field} (hmessage : cmd.message w now = buildServerMessage w now id number body)
    (hnumber : 10 ≤ number ∧ number ≤ 19) (hbody : Numbered body)
    (hother : ∀ p, readPayload w body number = some p → ¬ p.Carries now cmd) :
    ¬ ComesBack w now cmd := by
  rw [comesBack_of_message hw hmessage hnumber hbody]
  rintro ⟨p, hp, hcarries⟩
  exact hother p hp hcarries

theorem not_comesBack_deploy (hw : w.Correct) (correlationID : String) (graphJSON : Bytes) :
    ¬ ComesBack w now (.deploy correlationID graphJSON) := by
  cases hparse : now.unmarshal graphJSON with
  | none =>
    rintro ⟨msg, p, hmsg, hp, -⟩
    have hmessage : (ServerCommand.deploy correlationID graphJSON).bytes w now = [] := by
      simp [ServerCommand.bytes, ServerCommand.message, buildDeployGraphMessage, hparse,
        Protowire.encode]
    rw [hmessage] at hmsg
    obtain rfl := Option.some.inj hmsg
    exact absurd hp (by simp)
  | some graph =>
    have hmessage : (ServerCommand.deploy correlationID graphJSON).message w now =
        buildServerMessage w now correlationID 12 (deployReq w now correlationID graph) := by
      simp only [ServerCommand.message, buildDeployGraphMessage, hparse]
    refine not_comesBack hw hmessage (by decide) (by simp [deployReq, IsNumber]) fun p hp ↦ ?_
    obtain rfl := Option.some.inj hp
    exact id

theorem not_comesBack_startTask (hw : w.Correct) (taskID graphID robotID : String)
    (params : List (String × String)) :
    ¬ ComesBack w now (.startTask taskID graphID robotID params) := by
  have hnumbered : Numbered (startTaskCmd w taskID graphID robotID params) :=
    numbered_append.mpr ⟨by simp [IsNumber], numbered_map (fun _ ↦ by simp [IsNumber]) params⟩
  refine not_comesBack hw rfl (by decide) hnumbered fun p hp ↦ ?_
  obtain rfl := Option.some.inj hp
  exact id

theorem not_comesBack_fleetState (hw : w.Correct) (robots : List RobotState) :
    ¬ ComesBack w now (.fleetState robots) := by
  have hnumbered : Numbered (fleetState w now robots) :=
    numbered_append.mpr ⟨by simp [IsNumber], numbered_map (fun _ ↦ by simp [IsNumber]) robots⟩
  refine not_comesBack hw rfl (by decide) hnumbered fun p hp ↦ ?_
  obtain rfl := Option.some.inj hp
  exact id

theorem not_comesBack_ping (hw : w.Correct) (pingID : String) :
    ¬ ComesBack w now (.ping pingID) := by
  refine not_comesBack hw rfl (by decide) (by simp [ping, IsNumber]) fun p hp ↦ ?_
  have hstart : (readStartTask w (ping now pingID)).map ServerPayload.startTask = some p := hp
  obtain ⟨start, -, rfl⟩ := Option.map_eq_some_iff.mp hstart
  exact id

/-- **An agent that decodes by the schema gets a command as it was sent if and only if the command
is of a kind whose number is its own there, and keeps to what the schema has room for.** -/
theorem command_comesBack_iff (hw : w.Correct) (now : Surroundings) (cmd : ServerCommand) :
    ComesBack w now cmd ↔ cmd.FollowsSchema := by
  cases cmd with
  | execute cmd => exact comesBack_execute hw cmd
  | cancel => exact iff_of_true (comesBack_cancel hw _ _ _ _) trivial
  | deploy => exact iff_of_false (not_comesBack_deploy hw _ _) id
  | ping => exact iff_of_false (not_comesBack_ping hw _) id
  | startTask => exact iff_of_false (not_comesBack_startTask hw _ _ _ _) id
  | graphUpdate => exact comesBack_graphUpdate hw _ _ _ _ _
  | deleteGraph => exact iff_of_true (comesBack_deleteGraph hw _ _ _) trivial
  | resetState => exact iff_of_true (comesBack_resetState hw _ _) trivial
  | fleetState => exact iff_of_false (not_comesBack_fleetState hw _) id

/-- A moment without a graph to send. -/
def quiet : Surroundings where
  nowNano := 0
  nowMilli := 0
  wrapperMilli := 0
  unmarshal := fun _ ↦ none
  narrow := fun _ ↦ 0
  seconds := fun _ ↦ 0

theorem cancel_comesBack :
    ComesBack .standard quiet (.cancel "cmd-1" "agent-1" "task-1" "operator") :=
  (command_comesBack_iff Protowire.standard_correct quiet _).mpr trivial

/-- The task of an agent that is told to patrol: it reads that a graph has changed. -/
theorem startTask_misread :
    (∃ msg, decodeServerMessage .standard
          ((ServerCommand.startTask "task-1" "patrol" "agent-1" []).bytes .standard quiet) =
        some msg ∧
      msg.payload = some (.graphUpdate
        { commandId := "task-1", agentId := "patrol", actionGraphId := "agent-1", action := 0
          newVersion := 0, graphJson := [] })) ∧
    ¬ ComesBack .standard quiet (.startTask "task-1" "patrol" "agent-1" []) := by
  refine ⟨⟨_, decode_buildServerMessage Protowire.standard_correct (by decide)
    (by simp [startTaskCmd, IsNumber]), ?_⟩,
    not_comesBack_startTask Protowire.standard_correct _ _ _ _⟩
  exact congrArg (fun p ↦ some (ServerPayload.graphUpdate p))
    (readGraphUpdate_startTaskCmd "task-1" "patrol" "agent-1" [])

end Wire
end FleetServer
