import FleetServer.State.Operations

/-!
# The agents of the manager

The agent table of `internal/state/manager.go` beside the robots: an entry for every agent that is
connected, with the time of its last heartbeat.  `RegisterAgent` and `UnregisterAgent` keep it, and
a background worker removes the agents whose heartbeats have stopped (`checkStaleAgents`).  All of
them write the online flag of the agent's robot as well.

`GlobalStateManager` is the manager of the robots together with this table; its runs (`step`) are
those of all operations of both.
-/

set_option autoImplicit false

namespace FleetServer
namespace State

structure AgentConnection where
  id : String
  connectedAt : ℕ
  lastHeartbeat : ℕ
  deriving DecidableEq, Repr

structure GlobalStateManager where
  manager : Manager := {}
  agents : String → Option AgentConnection := fun _ ↦ none
  heartbeatTimeout : ℕ := 15 * 10 ^ 9

namespace GlobalStateManager

open Manager

variable (g : GlobalStateManager) (now : ℕ)

/-! ## Operations on the agents -/

/-- The write of `IsOnline` that is part of several operations: nothing happens when there is no
robot, and the registry is not told. -/
def markOnline (m : Manager) (id : String) (mark : RobotState → RobotState) : Manager :=
  match m.robots id with
  | none => m
  | some robot => m.setRobot id (mark robot)

/-- `RegisterAgent`. -/
def registerAgent (id : String) : GlobalStateManager :=
  let connection : AgentConnection :=
    match g.agents id with
    | some existing => { existing with lastHeartbeat := now }
    | none => { id, connectedAt := now, lastHeartbeat := now }
  { g with
    manager := markOnline g.manager id fun robot ↦ { robot with isOnline := true, lastSeen := now }
    agents := Function.update g.agents id (some connection) }

/-- `UnregisterAgent`: an agent that is not in the table is left alone, and its robot too. -/
def unregisterAgent (id : String) : GlobalStateManager :=
  match g.agents id with
  | none => g
  | some _ =>
    { g with
      manager := markOnline g.manager id fun robot ↦ { robot with isOnline := false }
      agents := Function.update g.agents id none }

/-- `UpdateAgentHeartbeat`. -/
def updateAgentHeartbeat (id : String) : Except String GlobalStateManager :=
  match g.agents id with
  | none => .error ("agent " ++ id ++ " not found")
  | some agent =>
    .ok { g with agents := Function.update g.agents id (some { agent with lastHeartbeat := now }) }

/-- The agent has not sent a heartbeat for too long. -/
def timedOut (id : String) : Bool :=
  (g.agents id).any fun agent ↦ g.heartbeatTimeout < now - agent.lastHeartbeat

/-- `checkStaleAgents`. -/
def checkStaleAgents : GlobalStateManager :=
  { g with
    manager := { g.manager with
      robots := fun id ↦
        if g.timedOut now id then
          (g.manager.robots id).map fun robot ↦ { robot with isOnline := false }
        else g.manager.robots id }
    agents := fun id ↦ if g.timedOut now id then none else g.agents id }

/-- The robot that telemetry registers by itself. -/
def telemetryRobot (robotID : String) : RobotState :=
  { id := robotID, currentState := "idle", reportedState := "idle", currentStateCode := "idle"
    isOnline := true, lastSeen := now }

/-- `UpdateRobotTelemetry`: a robot that is not known yet is registered, but only here. -/
def updateRobotTelemetry (robotID : String) : GlobalStateManager :=
  match g.manager.robots robotID with
  | some _ => g
  | none => { g with manager := g.manager.setRobot robotID (telemetryRobot now robotID) }

/-- The robots that `CleanupStaleAgents` removes. -/
def isStaleRobot (maxOfflineAge : ℕ) (id : String) : Bool :=
  (g.manager.robots id).any (isStale now maxOfflineAge)

/-- What is left of the agent table: `CleanupStaleAgents` takes the agents of the robots it removes
with them, and no other operation on robots touches the table. -/
def agentsAfter : Manager.Op → String → Option AgentConnection
  | .cleanupStaleAgents maxOfflineAge =>
    fun id ↦ if g.isStaleRobot now maxOfflineAge id then none else g.agents id
  | _ => g.agents

/-! ## Calls -/

inductive Op where
  | manager (op : Manager.Op)
  | registerAgent (id : String)
  | unregisterAgent (id : String)
  | updateAgentHeartbeat (id : String)
  | checkStaleAgents
  | updateRobotTelemetry (robotID : String)

/-- An operation that fails leaves the manager as it was. -/
def afterResult (result : Except String GlobalStateManager) : GlobalStateManager :=
  match result with
  | .ok g' => g'
  | .error _ => g

/-- The manager after an operation. -/
def apply : Op → GlobalStateManager
  | .manager op =>
    { g with manager := g.manager.apply now op, agents := g.agentsAfter now op }
  | .registerAgent id => g.registerAgent now id
  | .unregisterAgent id => g.unregisterAgent id
  | .updateAgentHeartbeat id => g.afterResult (g.updateAgentHeartbeat now id)
  | .checkStaleAgents => g.checkStaleAgents now
  | .updateRobotTelemetry robotID => g.updateRobotTelemetry now robotID

/-- The manager and the time of the last call. -/
structure Clocked where
  global : GlobalStateManager
  clock : ℕ

structure Call where
  op : Op
  now : ℕ

/-- One call.  The clock does not go back. -/
def step (s : Clocked) (call : Call) : Option Clocked :=
  if s.clock ≤ call.now then some ⟨s.global.apply call.now call.op, call.now⟩ else none

theorem step_eq_some {s s' : Clocked} {call : Call} (h : step s call = some s') :
    s'.global = s.global.apply call.now call.op := by
  rw [step] at h
  split at h
  · rw [← Option.some.inj h]
  · exact absurd h (by simp)

/-- The server starts with an empty manager. -/
def Initial (s : Clocked) : Prop := s.global = {}

/-! ## The robots and agents afterwards -/

variable {g now} {id : String}

theorem robots_markOnline (m : Manager) (id : String) (mark : RobotState → RobotState) :
    (markOnline m id mark).robots =
      Function.update m.robots id ((m.robots id).map mark) := by
  rw [markOnline]
  split
  · rename_i hnone
    rw [hnone, Option.map_none, eq_comm, Function.update_eq_self_iff, hnone]
  · rename_i robot hrobot
    rw [hrobot]
    rfl

theorem stateRegistry_markOnline (m : Manager) (id : String) (mark : RobotState → RobotState) :
    (markOnline m id mark).stateRegistry = m.stateRegistry := by
  rw [markOnline]
  split <;> rfl

end GlobalStateManager
end State
end FleetServer
