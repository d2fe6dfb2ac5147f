import FleetServer.Executor.Scheduler
import FleetServer.State.Connections

/-!
# The messages of an agent

The handlers of `internal/grpc/raw_quic_handler.go` for what an agent sends: heartbeats, task state
updates, graph execution statuses and registrations.  Each makes a few calls of the state manager,
one after the other (`Message.calls`).

Three of the four write the execution of the agent's robot.  The heartbeat handler first asks
whether the robot executes a task of the server, the other two do not.  `mark_kept_iff` says which
messages leave a robot with the task the server has started on it.
-/

set_option autoImplicit false

namespace FleetServer
namespace Grpc

open State Executor.SchedulerState

/-! ## Messages -/

/-- What the handler reads of `AgentHeartbeatMsg`; `telemetryRobotID` is the robot its telemetry is
about, if it has any. -/
structure AgentHeartbeatMsg where
  state : String := ""
  isExecuting : Bool := false
  currentTaskID : String := ""
  currentStepID : String := ""
  telemetryRobotID : Option String := none

structure TaskStateUpdateMsg where
  taskID : String
  state : ℤ
  currentStepID : String := ""

structure GraphExecutionStatusMsg where
  executionID : String
  agentID : String
  state : ℤ
  currentVertexID : String := ""
  deriving DecidableEq

/-- A state override that a step of the graph sets or clears while it is executed. -/
inductive DuringState
  | set (order : RangeOrder (String × StateOverride)) (agentID state : String)
  | clear (order : RangeOrder (String × StateOverride)) (agentID : String)

/-- A message, with what the graph and the earlier messages about it make of a graph status: the
overrides to write. -/
inductive Message
  | heartbeat (order : RangeOrder (String × StateOverride)) (hb : AgentHeartbeatMsg)
  | taskStateUpdate (update : TaskStateUpdateMsg)
  | graphStatus (status : GraphExecutionStatusMsg) (overrides : List DuringState)
  | registerAgent

/-! ## Handlers -/

open GlobalStateManager (Op)

def handleHeartbeat (agentID : String) (order : RangeOrder (String × StateOverride))
    (hb : AgentHeartbeatMsg) : List Op :=
  let stateName := if hb.state = "" then "idle" else hb.state
  [.updateAgentHeartbeat agentID, .manager (.updateRobotState order agentID stateName),
    .manager (.tryUpdateRobotExecutionFromHeartbeat agentID hb.isExecuting hb.currentTaskID
      hb.currentStepID)] ++
  match hb.telemetryRobotID with
  | none => []
  | some robotID => [.updateRobotTelemetry (if robotID = "" then agentID else robotID)]

/-- The task has come to its end. -/
def isTerminal (taskStatus : String) : Bool :=
  taskStatus = "completed" || taskStatus = "failed" || taskStatus = "cancelled"

def handleTaskStateUpdate (agentID : String) (update : TaskStateUpdateMsg) : List Op :=
  if update.taskID = "__planning_state__" ∨ update.taskID = "" then []
  else
    let taskStatus := taskStateToString update.state
    let isExecuting : Bool := taskStatus = "running" || taskStatus = "executing"
    .manager (.updateRobotExecution agentID isExecuting update.taskID update.currentStepID) ::
    if isTerminal taskStatus then [.manager (.completeExecution agentID [])] else []

/-- The status a graph execution state stands for. -/
def graphTaskStatus (state : ℤ) : String :=
  if state = 2 then "completed"
  else if state = 3 then "failed"
  else if state = 4 then "cancelled"
  else if state = 5 then "paused"
  else "running"

def DuringState.call (taskID : String) : DuringState → Op
  | set order agentID state => .manager (.setRobotStateOverride order agentID taskID state)
  | clear order agentID => .manager (.clearRobotStateOverride order agentID taskID)

/-- `handleGraphStatus`.  The agent is the one that the message names. -/
def handleGraphStatus (status : GraphExecutionStatusMsg) (overrides : List DuringState) :
    List Op :=
  if status.executionID = "" then []
  else
    let taskStatus := graphTaskStatus status.state
    let isExecuting : Bool := taskStatus = "running" || taskStatus = "paused"
    (if status.agentID ≠ "" then
      [.manager (.updateRobotExecution status.agentID isExecuting status.executionID
        status.currentVertexID)] else []) ++
    overrides.map (DuringState.call status.executionID) ++
    if isTerminal taskStatus ∧ status.agentID ≠ "" then
      [.manager (.completeExecution status.agentID [])] else []

/-- `handleRegisterAgent`, once it has an id for the agent. -/
def handleRegisterAgent (agentID : String) : List Op :=
  [.manager (.registerRobot agentID "idle"), .registerAgent agentID]

/-- The calls of the state manager that a message makes. -/
def Message.calls (agentID : String) : Message → List Op
  | heartbeat order hb => handleHeartbeat agentID order hb
  | taskStateUpdate update => handleTaskStateUpdate agentID update
  | graphStatus status overrides => handleGraphStatus status overrides
  | registerAgent => handleRegisterAgent agentID

/-- A message and the time at which it is handled. -/
structure Received where
  now : ℕ
  message : Message

/-- The manager after a message from the agent. -/
def receive (agentID : String) (g : GlobalStateManager) (r : Received) : GlobalStateManager :=
  (r.message.calls agentID).foldl (fun g op ↦ g.apply r.now op) g

/-! ## What a message reports -/

/-- The task that a message reports to have ended. -/
def Message.endsTask (t : String) : Message → Bool
  | taskStateUpdate update => update.taskID = t && isTerminal (taskStateToString update.state)
  | graphStatus status _ => status.executionID = t && isTerminal (graphTaskStatus status.state)
  | _ => false

/-- The message leaves the agent's robot with the task `t`. -/
def Message.keeps (agentID t : String) : Message → Prop
  | heartbeat _ hb => t ≠ "" ∨ hb.isExecuting = true ∧ hb.currentTaskID = ""
  | taskStateUpdate update => update.taskID = "__planning_state__" ∨ update.taskID = "" ∨
    update.taskID = t ∧ update.state ∈ [2, 4]
  | graphStatus status _ => status.executionID = "" ∨ status.agentID = "" ∨
    status.agentID ≠ agentID ∨ status.executionID = t
  | registerAgent => False

/-! ## What the calls do to the mark -/

variable {m : Manager} {g : GlobalStateManager} {now : ℕ} {a t : String}

/-- A robot written back with its execution has the mark it had. -/
theorem busyWith_setRobot_same {agentID : String} {robot robot' : RobotState}
    (hrobot : m.robots agentID = some robot) (hexec : robot'.isExecuting = robot.isExecuting)
    (htask : robot'.currentTaskID = robot.currentTaskID) (agent : String) :
    (m.setRobot agentID robot').busyWith agent = m.busyWith agent := by
  by_cases h : agent = agentID
  · subst h
    simp [Manager.busyWith, Manager.setRobot, hrobot, hexec, htask]
  · simp [Manager.busyWith, Manager.setRobot, Function.update_of_ne h]

theorem robots_normalizeReportedState (agentID state : String) :
    (m.normalizeReportedStateForManualReset now agentID state).1.robots = m.robots := by
  rw [Manager.normalizeReportedStateForManualReset]
  split
  · rfl
  · split_ifs <;> rfl

/-- A reported state is no execution. -/
theorem busyWith_updateRobotState (order : RangeOrder (String × StateOverride))
    (agentID newState agent : String) :
    (m.apply now (.updateRobotState order agentID newState)).busyWith agent =
      m.busyWith agent := by
  rw [Manager.apply, Manager.updateRobotState]
  split
  · rfl
  · rename_i robot hrobot
    have hrobots : (m.normalizeReportedStateForManualReset now agentID newState).1.robots =
        m.robots := robots_normalizeReportedState agentID newState
    have hkept := (congrFun hrobots agentID).trans hrobot
    rw [← Manager.busyWith_congr hrobots agent]
    refine busyWith_setRobot_same hkept ?_ ?_ agent <;> rfl

/-- Neither is a state override. -/
theorem busyWith_setRobotStateOverride (order : RangeOrder (String × StateOverride))
    (agentID sourceID state agent : String) :
    (m.apply now (.setRobotStateOverride order agentID sourceID state)).busyWith agent =
      m.busyWith agent := by
  rw [Manager.apply, Manager.setRobotStateOverride]
  split
  · rfl
  · split
    · rfl
    · split
      · rfl
      · rename_i robot hrobot
        refine busyWith_setRobot_same (m := { m with stateOverrides := _ }) hrobot ?_ ?_ agent <;>
          rfl

theorem busyWith_clearRobotStateOverride (order : RangeOrder (String × StateOverride))
    (agentID sourceID agent : String) :
    (m.apply now (.clearRobotStateOverride order agentID sourceID)).busyWith agent =
      m.busyWith agent := by
  rw [Manager.apply, Manager.clearRobotStateOverride]
  split
  · rfl
  · split
    · rfl
    · rename_i robot hrobot
      refine busyWith_setRobot_same (m := { m with stateOverrides := _ }) hrobot ?_ ?_ agent <;> rfl

theorem busyWith_duringStates (taskID : String) (overrides : List DuringState) (agent : String) :
    ∀ g : GlobalStateManager, ((overrides.map (DuringState.call taskID)).foldl
      (fun g op ↦ g.apply now op) g).manager.busyWith agent = g.manager.busyWith agent := by
  induction overrides with
  | nil => exact fun g ↦ rfl
  | cons d rest ih =>
    intro g
    rw [List.map_cons, List.foldl_cons, ih]
    cases d with
    | set order agentID state =>
      exact busyWith_setRobotStateOverride order agentID taskID state agent
    | clear order agentID => exact busyWith_clearRobotStateOverride order agentID taskID agent

/-- Telemetry registers a robot, but does not start it. -/
theorem busyWith_updateRobotTelemetry (robotID agent : String) :
    (g.apply now (.updateRobotTelemetry robotID)).manager.busyWith agent =
      g.manager.busyWith agent := by
  rw [GlobalStateManager.apply, GlobalStateManager.updateRobotTelemetry]
  split
  · rfl
  · rename_i hnone
    by_cases h : agent = robotID
    · subst h
      simp [Manager.busyWith, Manager.setRobot, hnone, GlobalStateManager.telemetryRobot]
    · simp [Manager.busyWith, Manager.setRobot, Function.update_of_ne h]

theorem busyWith_updateAgentHeartbeat (agentID agent : String) :
    (g.apply now (.updateAgentHeartbeat agentID)).manager.busyWith agent =
      g.manager.busyWith agent := by
  rw [GlobalStateManager.apply, GlobalStateManager.updateAgentHeartbeat]
  split
  · rfl
  · rfl

theorem busyWith_registerAgent (agentID agent : String) :
    (g.apply now (.registerAgent agentID)).manager.busyWith agent = g.manager.busyWith agent := by
  rw [GlobalStateManager.apply, GlobalStateManager.registerAgent,
    GlobalStateManager.markOnline]
  dsimp only
  split
  · rfl
  · rename_i robot hrobot
    refine busyWith_setRobot_same hrobot ?_ ?_ agent <;> rfl

/-- A registered robot is idle. -/
theorem busyWith_registerRobot (agentID initialState : String) :
    (m.registerRobot now agentID initialState).busyWith agentID = none := by
  simp [Manager.registerRobot, Manager.updateAgentState, Manager.setRobot, Manager.busyWith]

/-- What is reported for a robot that is busy is its mark afterwards. -/
theorem busyWith_updateRobotExecution (h : m.busyWith a = some t) (isExecuting : Bool)
    (taskID stepID : String) : (m.updateRobotExecution now a isExecuting taskID stepID).busyWith a =
      if isExecuting then some taskID else none := by
  obtain ⟨robot, hrobot, -⟩ := Option.bind_eq_some_iff.mp h
  rw [Manager.updateRobotExecution, hrobot]
  dsimp only
  rw [Manager.busyWith, Manager.robots_setAgentExecuting]
  cases isExecuting <;> simp [Manager.setRobot, Manager.clearManualResetGuard]

/-- A task without a name is not one of the server: the heartbeat takes its place. -/
theorem busyWith_heartbeat_unnamed (h : m.busyWith a = some "") (hbIsExecuting : Bool)
    (hbTaskID hbStepID : String) :
    (m.tryUpdateRobotExecutionFromHeartbeat now a hbIsExecuting hbTaskID hbStepID).1.busyWith a =
      if hbIsExecuting then some hbTaskID else none := by
  obtain ⟨robot, hrobot, hbusy⟩ := Option.bind_eq_some_iff.mp h
  obtain ⟨hexec, htask⟩ : robot.isExecuting = true ∧ robot.currentTaskID = "" := by
    simpa [Option.ite_none_right_eq_some] using hbusy
  rw [Manager.tryUpdateRobotExecutionFromHeartbeat, hrobot]
  dsimp only
  rw [if_neg (by simp [htask])]
  dsimp only
  rw [Manager.busyWith, Manager.robots_setAgentExecuting]
  cases hbIsExecuting <;> simp [Manager.setRobot, Manager.clearManualResetGuard]

/-! ## What a message does to the mark -/

theorem executing_iff (state : ℤ) :
    (taskStateToString state = "running" || taskStateToString state = "executing") = true ↔
      state ∈ [(2 : ℤ), 4] := by
  rw [taskStateToString]
  split_ifs <;> simp_all

/-- A graph that has not ended is executed, or paused. -/
theorem executing_of_not_terminal {state : ℤ} (h : isTerminal (graphTaskStatus state) = false) :
    (graphTaskStatus state = "running" || graphTaskStatus state = "paused") = true := by
  rw [graphTaskStatus] at h ⊢
  split_ifs at h ⊢ <;> first | rfl | exact absurd h (by decide)

theorem receive_heartbeat_iff (hbusy : g.manager.busyWith a = some t)
    (order : RangeOrder (String × StateOverride)) (hb : AgentHeartbeatMsg) :
    (receive a g ⟨now, .heartbeat order hb⟩).manager.busyWith a = some t ↔
      (Message.heartbeat order hb).keeps a t := by
  let g' := (g.apply now (.updateAgentHeartbeat a)).apply now
    (.manager (.updateRobotState order a (if hb.state = "" then "idle" else hb.state)))
  have hbusy' : g'.manager.busyWith a = some t :=
    (busyWith_updateRobotState ..).trans ((busyWith_updateAgentHeartbeat ..).trans hbusy)
  have hafter : (receive a g ⟨now, .heartbeat order hb⟩).manager.busyWith a =
      (g'.manager.tryUpdateRobotExecutionFromHeartbeat now a hb.isExecuting hb.currentTaskID
        hb.currentStepID).1.busyWith a := by
    rw [receive, Message.calls, handleHeartbeat]
    dsimp only
    rw [List.foldl_append]
    cases hb.telemetryRobotID with
    | none => rfl
    | some robotID => exact busyWith_updateRobotTelemetry _ a
  rw [hafter, Message.keeps]
  by_cases hname : t = ""
  · subst hname
    rw [busyWith_heartbeat_unnamed hbusy']
    simp
  · rw [Manager.busyWith_heartbeat_self hbusy' hname]
    simp [hname]

theorem receive_taskStateUpdate_iff (hbusy : g.manager.busyWith a = some t)
    (update : TaskStateUpdateMsg)
    (hopen : (Message.taskStateUpdate update).endsTask t = false) :
    (receive a g ⟨now, .taskStateUpdate update⟩).manager.busyWith a = some t ↔
      (Message.taskStateUpdate update).keeps a t := by
  rw [receive, Message.calls, handleTaskStateUpdate, Message.keeps]
  rw [Message.endsTask] at hopen
  split
  · rename_i hskipped
    exact ⟨fun _ ↦ hskipped.imp id Or.inl, fun _ ↦ hbusy⟩
  · rename_i hnamed
    obtain ⟨hplanning, hempty⟩ := not_or.mp hnamed
    dsimp only
    rw [List.foldl_cons]
    split
    · rename_i hterminal
      have hother : update.taskID ≠ t := fun heq ↦ by
        rw [heq, hterminal] at hopen
        exact absurd hopen (by simp)
      rw [List.foldl_cons, List.foldl_nil]
      refine ⟨fun hkept ↦ ?_, fun hkeeps ↦ ?_⟩
      · exact absurd ((Manager.busyWith_completeExecution_self []).symm.trans hkept) (by simp)
      · rcases hkeeps with h | h | ⟨h, -⟩
        · exact absurd h hplanning
        · exact absurd h hempty
        · exact absurd h hother
    · have hiff := executing_iff update.state
      rw [List.foldl_nil]
      refine Iff.trans (iff_of_eq (congrArg (· = some t)
        (busyWith_updateRobotExecution hbusy _ update.taskID _))) ?_
      rw [Option.ite_none_right_eq_some, hiff, Option.some_inj]
      tauto

theorem receive_graphStatus_iff (hbusy : g.manager.busyWith a = some t)
    (status : GraphExecutionStatusMsg) (overrides : List DuringState)
    (hopen : (Message.graphStatus status overrides).endsTask t = false) :
    (receive a g ⟨now, .graphStatus status overrides⟩).manager.busyWith a = some t ↔
      (Message.graphStatus status overrides).keeps a t := by
  rw [receive, Message.calls, handleGraphStatus, Message.keeps]
  rw [Message.endsTask] at hopen
  split
  · rename_i hnone
    exact ⟨fun _ ↦ Or.inl hnone, fun _ ↦ hbusy⟩
  · rename_i htask
    dsimp only
    rw [List.foldl_append, List.foldl_append]
    by_cases hagent : status.agentID = ""
    · rw [if_neg (by simp [hagent]), if_neg (by simp [hagent])]
      exact ⟨fun _ ↦ Or.inr (Or.inl hagent), fun _ ↦ (busyWith_duringStates _ _ a g).trans hbusy⟩
    · let g' := g.apply now (.manager (.updateRobotExecution status.agentID
        (graphTaskStatus status.state = "running" || graphTaskStatus status.state = "paused")
        status.executionID status.currentVertexID))
      have hduring : ((overrides.map (DuringState.call status.executionID)).foldl
          (fun g op ↦ g.apply now op) g').manager.busyWith a = g'.manager.busyWith a :=
        busyWith_duringStates status.executionID overrides a g'
      rw [if_pos hagent, List.foldl_cons, List.foldl_nil]
      by_cases hself : status.agentID = a
      · subst hself
        cases hterminal : isTerminal (graphTaskStatus status.state) with
        | true =>
          have hother : status.executionID ≠ t := fun heq ↦ by
            rw [heq, hterminal] at hopen
            exact absurd hopen (by simp)
          rw [if_pos ⟨rfl, hagent⟩, List.foldl_cons, List.foldl_nil]
          refine ⟨fun hkept ↦ ?_, fun hkeeps ↦ ?_⟩
          · exact absurd ((Manager.busyWith_completeExecution_self []).symm.trans hkept) (by simp)
          · rcases hkeeps with h | h | h | h
            · exact absurd h htask
            · exact absurd h hagent
            · exact absurd rfl h
            · exact absurd h hother
        | false =>
          have hafter := hduring.trans (busyWith_updateRobotExecution hbusy _ status.executionID _)
          rw [executing_of_not_terminal hterminal, if_pos rfl] at hafter
          rw [if_neg (by simp), List.foldl_nil]
          refine Iff.trans (iff_of_eq (congrArg (· = some t) hafter)) ?_
          rw [Option.some_inj]
          tauto
      · have hother : g'.manager.busyWith a = g.manager.busyWith a :=
          Manager.busyWith_updateRobotExecution_of_ne (Ne.symm hself) _
        refine ⟨fun _ ↦ Or.inr (Or.inr (Or.inl hself)), fun _ ↦ ?_⟩
        split
        · exact (Manager.busyWith_completeExecution_of_ne (Ne.symm hself) []).trans
            (hduring.trans (hother.trans hbusy))
        · exact hduring.trans (hother.trans hbusy)

theorem receive_registerAgent :
    (receive a g ⟨now, .registerAgent⟩).manager.busyWith a = none := by
  have hidle : (g.manager.registerRobot now a "idle").busyWith a = none :=
    busyWith_registerRobot a "idle"
  exact (busyWith_registerAgent a a).trans hidle

/-- What a message that does not end the task leaves of the mark. -/
theorem receive_keeps_iff (hbusy : g.manager.busyWith a = some t) (r : Received)
    (hopen : r.message.endsTask t = false) :
    (receive a g r).manager.busyWith a = some t ↔ r.message.keeps a t := by
  obtain ⟨now, message⟩ := r
  cases message with
  | heartbeat order hb => exact receive_heartbeat_iff hbusy order hb
  | taskStateUpdate update => exact receive_taskStateUpdate_iff hbusy update hopen
  | graphStatus status overrides => exact receive_graphStatus_iff hbusy status overrides hopen
  | registerAgent =>
    rw [receive_registerAgent]
    exact ⟨fun h ↦ absurd h (by simp), False.elim⟩

/-! ## Any sequence of messages -/

/-- The robot is executing the task after each of the messages. -/
def StaysMarked (a t : String) (g : GlobalStateManager) (received : List Received) : Prop :=
  ∀ n, ((received.take n).foldl (receive a) g).manager.busyWith a = some t

theorem staysMarked_cons {r : Received} {rest : List Received} :
    StaysMarked a t g (r :: rest) ↔
      g.manager.busyWith a = some t ∧ StaysMarked a t (receive a g r) rest := by
  refine ⟨fun h ↦ ⟨h 0, fun n ↦ h (n + 1)⟩, fun h n ↦ ?_⟩
  cases n with
  | zero => exact h.1
  | succ n => exact h.2 n

theorem staysMarked_iff (received : List Received)
    (hopen : ∀ r ∈ received, r.message.endsTask t = false) :
    ∀ {g : GlobalStateManager}, g.manager.busyWith a = some t →
      (StaysMarked a t g received ↔ ∀ r ∈ received, r.message.keeps a t) := by
  induction received with
  | nil =>
    intro g hbusy
    refine ⟨fun _ r hr ↦ absurd hr List.not_mem_nil, fun _ n ↦ ?_⟩
    rw [List.take_nil]
    exact hbusy
  | cons r rest ih =>
    intro g hbusy
    obtain ⟨hfirst, hrest⟩ := List.forall_mem_cons.mp hopen
    have hiff := receive_keeps_iff hbusy r hfirst
    rw [staysMarked_cons, List.forall_mem_cons]
    refine ⟨fun ⟨_, hstays⟩ ↦ ?_, fun ⟨hkeeps, hall⟩ ↦ ⟨hbusy, ?_⟩⟩
    · have hmarked : (receive a g r).manager.busyWith a = some t := hstays 0
      exact ⟨hiff.mp hmarked, (ih hrest hmarked).mp hstays⟩
    · exact (ih hrest (hiff.mpr hkeeps)).mpr hall

/-- **Which messages leave a started robot with its task**: of those that do not report its end,
heartbeats, updates of the task itself that say it is running, and graph statuses of the task itself
or of another agent. -/
theorem mark_kept_iff {now : ℕ} {a t stepID graphID : String} {zones : List String}
    {preconditions : List Precondition} {g : GlobalStateManager} {m : Manager}
    (hstart : g.manager.tryStartExecution now a t stepID graphID zones preconditions = (m, none))
    (received : List Received) (hopen : ∀ r ∈ received, r.message.endsTask t = false) :
    StaysMarked a t { g with manager := m } received ↔ ∀ r ∈ received, r.message.keeps a t := by
  have hspec := (@Manager.tryStartExecution_spec g.manager now a t stepID graphID zones
    preconditions).2
  rw [hstart] at hspec
  exact staysMarked_iff received hopen (hspec rfl).2.1

/-! ## One robot -/

/-- A robot on which `task` has been started. -/
def startedRobot : GlobalStateManager :=
  { manager := (Executor.oneRobotScheduler.manager.tryStartExecution 0 "robot" "task" "step" "tree"
      [] []).1 }

/-- The robot reports between two steps of its task. -/
theorem ownReports_keep_mark : StaysMarked "robot" "task" startedRobot
    [⟨1, .heartbeat (.asListed _) {}⟩, ⟨2, .taskStateUpdate ⟨"task", 4, "step"⟩⟩,
      ⟨3, .graphStatus ⟨"task", "robot", 5, "step"⟩ []⟩] := by
  have hstart : Executor.oneRobotScheduler.manager.tryStartExecution 0 "robot" "task" "step" "tree"
      [] [] = (startedRobot.manager, none) := rfl
  exact (mark_kept_iff (g := { manager := Executor.oneRobotScheduler.manager }) hstart _
    (by decide)).mpr (by simp [Message.keeps])

/-- A task that waits for its preconditions, late messages about another task, a registration. -/
def lateMessages : List Message :=
  [.taskStateUpdate ⟨"task", 3, "step"⟩, .taskStateUpdate ⟨"old", 2, "step"⟩,
    .taskStateUpdate ⟨"old", 5, "step"⟩, .graphStatus ⟨"old", "robot", 1, "step"⟩ [],
    .registerAgent]

/-- **Each of them takes the task off the robot**, and none reports its end. -/
theorem lateMessages_clear_mark : lateMessages.Forall fun message ↦
    message.endsTask "task" = false ∧
      ¬StaysMarked "robot" "task" startedRobot [⟨1, message⟩] := by
  rw [List.forall_iff_forall_mem]
  simp only [lateMessages, List.forall_mem_cons]
  refine ⟨⟨rfl, ?_⟩, ⟨rfl, ?_⟩, ⟨rfl, ?_⟩, ⟨rfl, ?_⟩, ⟨rfl, ?_⟩, by simp⟩ <;>
    exact fun hstays ↦ absurd (hstays 1) (by decide)

end Grpc
end FleetServer
