import Mathlib.Data.List.MinMax
import FleetServer.Lib.RangeOrder
import FleetServer.Lib.Run
import FleetServer.State.Manager

/-!
# All the operations of the manager, and its runs

The operations of `internal/state/manager.go` on robots, state overrides and zones that the
scheduler does not need, and the runs of the manager: any sequence of calls, at times that do not
decrease (`step`).

The overrides of a robot are a map from a source to an override.  It is listed here with the
override that was set last in front; the code does not see this order but goes through the map in
some order of its own, which is a parameter of the operations that do.
-/

set_option autoImplicit false

namespace FleetServer
namespace State
namespace Manager

open GoString

variable (m : Manager) (now : ℕ)

/-! ## Parts of the operations -/

/-- `StateRegistry.SetAgentOnline`. -/
def setAgentOnline (agentID : String) (isOnline : Bool) : Manager :=
  match m.stateRegistry agentID with
  | none => m
  | some entry =>
    let entry := { entry with isOnline, updatedAt := now }
    { m with stateRegistry := Function.update m.stateRegistry agentID (some entry) }

/-- `StateRegistry.RemoveAgent`. -/
def removeAgent (agentID : String) : Manager :=
  { m with stateRegistry := Function.update m.stateRegistry agentID none }

def deleteRobot (agentID : String) : Manager :=
  { m with robots := Function.update m.robots agentID none }

def clearStateOverrides (agentID : String) : Manager :=
  { m with stateOverrides := Function.update m.stateOverrides agentID [] }

/-- Delete the reservations of an agent. -/
def deleteZonesOf (agentID : String) : Manager :=
  { m with zones := fun z ↦ (m.zones z).filter (·.agentID ≠ agentID) }

/-! ## Robots -/

/-- `RegisterRobot`: it replaces the robot, if there is one, and looks at nothing else. -/
def registerRobot (id initialState : String) : Manager :=
  let stateCode := if initialState = "" then "idle" else initialState
  let robot : RobotState :=
    { id, currentState := initialState, reportedState := initialState
      currentStateCode := stateCode, isOnline := true, lastSeen := now }
  (m.setRobot id robot).updateAgentState now id stateCode [] "" true false

def unregisterRobot (id : String) : Manager :=
  ((((m.deleteRobot id).clearStateOverrides id).clearManualResetGuard id).deleteZonesOf id
    ).removeAgent id

def robotNotFound (agentID : String) : String := "robot " ++ agentID ++ " not found"

/-- `UpdateRobotEnhancedState`. -/
def updateRobotEnhancedState (agentID stateCode : String) (semanticTags : List String)
    (graphID : String) : Except String Manager :=
  match m.robots agentID with
  | none => .error (robotNotFound agentID)
  | some robot =>
    .ok ((m.setRobot agentID
      { robot with
        currentStateCode := stateCode, semanticTags, currentGraphID := graphID, lastSeen := now }
      ).updateAgentState now agentID stateCode semanticTags graphID robot.isOnline
        robot.isExecuting)

/-- `SetRobotOnline`. -/
def setRobotOnline (agentID : String) (isOnline : Bool) : Except String Manager :=
  match m.robots agentID with
  | none => .error (robotNotFound agentID)
  | some robot =>
    .ok ((m.setRobot agentID { robot with isOnline, lastSeen := now }).setAgentOnline now agentID
      isOnline)

/-- A robot that `CleanupStaleAgents` removes: offline, and not seen for too long. -/
def isStale (maxOfflineAge : ℕ) (robot : RobotState) : Bool :=
  !robot.isOnline && maxOfflineAge < now - robot.lastSeen

/-- `CleanupStaleAgents`: stale robots go, with their overrides and their guards. -/
def cleanupStaleAgents (maxOfflineAge : ℕ) : Manager :=
  let stale (agentID : String) := (m.robots agentID).any (isStale now maxOfflineAge)
  { m with
    robots := fun agentID ↦ if stale agentID then none else m.robots agentID
    stateOverrides := fun agentID ↦ if stale agentID then [] else m.stateOverrides agentID
    manualResetGuardUntil := fun agentID ↦
      if stale agentID then none else m.manualResetGuardUntil agentID }

/-! ## Reported states and overrides -/

def manualResetGuardDuration : ℕ := 45 * 10 ^ 9

def setManualResetGuard (agentID : String) : Manager :=
  let expiry := now + manualResetGuardDuration
  { m with
    manualResetGuardUntil := Function.update m.manualResetGuardUntil agentID (some expiry) }

/-- The states that a robot may go on reporting for a while after a manual reset; they are taken
for idle. -/
def statesTakenForIdle : List String :=
  ["", "error", "warning", "failed", "aborted", "idle", "ready"]

/-- `normalizeReportedStateForManualResetLocked`: the guard may be given up on the way. -/
def normalizeReportedStateForManualReset (agentID state : String) : Manager × String :=
  let normalizedState := toLower (trimSpace state)
  match m.manualResetGuardUntil agentID with
  | none => (m, state)
  | some expiry =>
    if expiry < now then (m.clearManualResetGuard agentID, state)
    else if normalizedState ∈ statesTakenForIdle then (m, "idle")
    else (m.clearManualResetGuard agentID, state)

section Overrides

variable (order : RangeOrder (String × StateOverride))

/-- The state of the override that was set last; when several have the same `SetAt`, of the first of
these that the loop over the map meets.  It is empty when there is no override. -/
def effectiveOverride (agentID : String) : String :=
  match (order.range (m.stateOverrides agentID)).argmax fun entry ↦ entry.2.setAt with
  | none => ""
  | some latest => latest.2.state

/-- `UpdateRobotState`. -/
def updateRobotState (agentID newState : String) : Except String Manager :=
  match m.robots agentID with
  | none => .error (robotNotFound agentID)
  | some robot =>
    let (m, newState) := m.normalizeReportedStateForManualReset now agentID newState
    let currentState :=
      if m.stateOverrides agentID = [] then newState
      else if m.effectiveOverride order agentID ≠ "" then m.effectiveOverride order agentID
      else robot.currentState
    .ok (m.setRobot agentID
      { robot with reportedState := newState, currentState, lastSeen := now })

/-- `SetRobotStateOverride`: each source has at most one override. -/
def setRobotStateOverride (agentID sourceID state : String) : Except String Manager :=
  if state = "" then .error "state override is empty"
  else if sourceID = "" then .error "state override source is empty"
  else match m.robots agentID with
    | none => .error (robotNotFound agentID)
    | some robot =>
      let overrides :=
        (sourceID, ⟨state, now⟩) :: (m.stateOverrides agentID).filter (·.1 ≠ sourceID)
      let m := { m with stateOverrides := Function.update m.stateOverrides agentID overrides }
      .ok (m.setRobot agentID
        { robot with currentState := m.effectiveOverride order agentID, lastSeen := now })

/-- `ClearRobotStateOverride`. -/
def clearRobotStateOverride (agentID sourceID : String) : Except String Manager :=
  if sourceID = "" then .error "state override source is empty"
  else match m.robots agentID with
    | none => .error (robotNotFound agentID)
    | some robot =>
      let overrides := (m.stateOverrides agentID).filter (·.1 ≠ sourceID)
      let m := { m with stateOverrides := Function.update m.stateOverrides agentID overrides }
      let currentState :=
        if overrides ≠ [] then
          if m.effectiveOverride order agentID ≠ "" then m.effectiveOverride order agentID
          else robot.currentState
        else if robot.reportedState ≠ "" then robot.reportedState
        else robot.currentState
      .ok (m.setRobot agentID { robot with currentState, lastSeen := now })

end Overrides

/-- `ResetAgentState`. -/
def resetAgentState (agentID : String) : Except String Manager :=
  match m.robots agentID with
  | none => .error ("agent " ++ agentID ++ " not found")
  | some robot =>
    let m := (m.setRobot agentID
      { robot with
        currentState := "idle", reportedState := "idle", currentStateCode := "idle"
        semanticTags := [], currentGraphID := "", isExecuting := false, currentTaskID := ""
        currentStepID := "", lastSeen := now }).clearStateOverrides agentID
    let m := (m.setManualResetGuard now agentID).deleteZonesOf agentID
    .ok ((m.updateAgentState now agentID "idle" [] "" robot.isOnline false).setAgentExecuting now
      agentID false)

/-! ## Zones -/

/-- `TryReserveZone`: whether the zone was reserved, and otherwise who has it. -/
def tryReserveZone (zoneID agentID : String) : Manager × Option String :=
  match m.zones zoneID with
  | some existing =>
    if now < existing.expiresAt then
      if existing.agentID ≠ agentID then (m, some existing.agentID)
      else
        let extended := { existing with expiresAt := now + m.zoneExpiryDuration }
        ({ m with zones := Function.update m.zones zoneID (some extended) }, none)
    else (m.reserveZone now agentID zoneID, none)
  | none => (m.reserveZone now agentID zoneID, none)

/-- `GetZoneHolder`. -/
def getZoneHolder (zoneID : String) : Option String :=
  match m.zones zoneID with
  | none => none
  | some existing => if existing.expiresAt < now then none else some existing.agentID

/-- `CleanupExpiredZones`. -/
def cleanupExpiredZones : Manager :=
  { m with zones := fun z ↦ (m.zones z).filter fun res ↦ !decide (res.expiresAt < now) }

/-- `CompleteMultiExecution`. -/
def completeMultiExecution (executions : List MultiExecutionRequest) : Manager :=
  executions.foldl (fun m exec ↦ m.completeExecution now exec.agentID exec.requiredZones) m

/-! ## Calls -/

/-- The operations, with what each is called with. -/
inductive Op where
  | registerRobot (id initialState : String)
  | unregisterRobot (id : String)
  | updateRobotState (order : RangeOrder (String × StateOverride)) (agentID newState : String)
  | updateRobotEnhancedState (agentID stateCode : String) (semanticTags : List String)
      (graphID : String)
  | setRobotOnline (agentID : String) (isOnline : Bool)
  | setRobotStateOverride (order : RangeOrder (String × StateOverride))
      (agentID sourceID state : String)
  | clearRobotStateOverride (order : RangeOrder (String × StateOverride))
      (agentID sourceID : String)
  | updateRobotExecution (agentID : String) (isExecuting : Bool) (taskID stepID : String)
  | tryUpdateRobotExecutionFromHeartbeat (agentID : String) (hbIsExecuting : Bool)
      (hbTaskID hbStepID : String)
  | tryReserveZone (zoneID agentID : String)
  | releaseZone (zoneID agentID : String)
  | cleanupExpiredZones
  | tryStartExecution (agentID taskID stepID graphID : String) (requiredZones : List String)
      (preconditions : List Precondition)
  | completeExecution (agentID : String) (releasedZones : List String)
  | resetAgentState (agentID : String)
  | tryStartMultiExecution (executions : List MultiExecutionRequest)
      (preconditions : List Precondition)
  | completeMultiExecution (executions : List MultiExecutionRequest)
  | cleanupStaleAgents (maxOfflineAge : ℕ)

/-- The agents an operation is called for. -/
def Op.agents : Op → List String
  | registerRobot id _ => [id]
  | unregisterRobot id => [id]
  | updateRobotState _ agentID _ => [agentID]
  | updateRobotEnhancedState agentID _ _ _ => [agentID]
  | setRobotOnline agentID _ => [agentID]
  | setRobotStateOverride _ agentID _ _ => [agentID]
  | clearRobotStateOverride _ agentID _ => [agentID]
  | updateRobotExecution agentID _ _ _ => [agentID]
  | tryUpdateRobotExecutionFromHeartbeat agentID _ _ _ => [agentID]
  | tryReserveZone _ agentID => [agentID]
  | releaseZone _ agentID => [agentID]
  | cleanupExpiredZones => []
  | tryStartExecution agentID _ _ _ _ _ => [agentID]
  | completeExecution agentID _ => [agentID]
  | resetAgentState agentID => [agentID]
  | tryStartMultiExecution executions _ => executions.map MultiExecutionRequest.agentID
  | completeMultiExecution executions => executions.map MultiExecutionRequest.agentID
  | cleanupStaleAgents _ => []

/-- An operation that fails leaves the manager as it was. -/
def afterResult (result : Except String Manager) : Manager :=
  match result with
  | .ok m' => m'
  | .error _ => m

/-- The manager after an operation. -/
def apply : Op → Manager
  | .registerRobot id initialState => m.registerRobot now id initialState
  | .unregisterRobot id => m.unregisterRobot id
  | .updateRobotState order agentID newState =>
    m.afterResult (m.updateRobotState now order agentID newState)
  | .updateRobotEnhancedState agentID stateCode semanticTags graphID =>
    m.afterResult (m.updateRobotEnhancedState now agentID stateCode semanticTags graphID)
  | .setRobotOnline agentID isOnline => m.afterResult (m.setRobotOnline now agentID isOnline)
  | .setRobotStateOverride order agentID sourceID state =>
    m.afterResult (m.setRobotStateOverride now order agentID sourceID state)
  | .clearRobotStateOverride order agentID sourceID =>
    m.afterResult (m.clearRobotStateOverride now order agentID sourceID)
  | .updateRobotExecution agentID isExecuting taskID stepID =>
    m.updateRobotExecution now agentID isExecuting taskID stepID
  | .tryUpdateRobotExecutionFromHeartbeat agentID hbIsExecuting hbTaskID hbStepID =>
    (m.tryUpdateRobotExecutionFromHeartbeat now agentID hbIsExecuting hbTaskID hbStepID).1
  | .tryReserveZone zoneID agentID => (m.tryReserveZone now zoneID agentID).1
  | .releaseZone zoneID agentID => releaseZone agentID m zoneID
  | .cleanupExpiredZones => m.cleanupExpiredZones now
  | .tryStartExecution agentID taskID stepID graphID requiredZones preconditions =>
    (m.tryStartExecution now agentID taskID stepID graphID requiredZones preconditions).1
  | .completeExecution agentID releasedZones => m.completeExecution now agentID releasedZones
  | .resetAgentState agentID => m.afterResult (m.resetAgentState now agentID)
  | .tryStartMultiExecution executions preconditions =>
    (m.tryStartMultiExecution now executions preconditions).1
  | .completeMultiExecution executions => m.completeMultiExecution now executions
  | .cleanupStaleAgents maxOfflineAge => m.cleanupStaleAgents now maxOfflineAge

end Manager

/-- The manager and the time of the last call. -/
structure Clocked where
  manager : Manager
  clock : ℕ

/-- An operation and the time it is called at. -/
structure Call where
  op : Manager.Op
  now : ℕ

/-- One call.  The clock does not go back. -/
def step (s : Clocked) (call : Call) : Option Clocked :=
  if s.clock ≤ call.now then some ⟨s.manager.apply call.now call.op, call.now⟩ else none

theorem step_eq_some {s s' : Clocked} {call : Call} (h : step s call = some s') :
    s.clock ≤ s'.clock ∧ s'.clock = call.now ∧ s'.manager = s.manager.apply call.now call.op := by
  rw [step] at h
  split at h
  · rename_i hclock
    obtain rfl := Option.some.inj h
    exact ⟨hclock, rfl, rfl⟩
  · exact absurd h (by simp)

end State
end FleetServer
