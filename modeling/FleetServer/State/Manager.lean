import Mathlib.Logic.Function.Basic
import FleetServer.Lib.GoString

/-!
# The state manager

`GlobalStateManager` of `internal/state/manager.go`: the robots, their state overrides, the zone
reservations and the state registry.  In the 1:1 model a robot is an agent.  Every operation runs
under one lock, so each is a function of the manager; the clock it reads is its argument `now`.

What the scheduler relies on is one flag per robot, `IsExecuting`, with the task it was set for;
`busyWith` reads the two together, and the theorems at the end say what each operation does to it.
-/

set_option autoImplicit false

namespace FleetServer
namespace State

structure RobotState where
  id : String
  currentState : String := ""
  reportedState : String := ""
  isOnline : Bool := true
  isExecuting : Bool := false
  currentTaskID : String := ""
  currentStepID : String := ""
  lastSeen : ℕ := 0
  currentStateCode : String := ""
  semanticTags : List String := []
  currentGraphID : String := ""
  deriving DecidableEq, Repr

structure ZoneReservation where
  zoneID : String
  agentID : String
  reservedAt : ℕ
  expiresAt : ℕ
  deriving DecidableEq, Repr

/-- A temporary coordination state. -/
structure StateOverride where
  state : String
  setAt : ℕ
  deriving DecidableEq, Repr

structure AgentStateEntry where
  agentID : String
  stateCode : String
  semanticTags : List String
  currentGraphID : String
  isOnline : Bool
  isExecuting : Bool
  updatedAt : ℕ
  deriving DecidableEq, Repr

structure Precondition where
  type : String
  condition : String
  message : String
  deriving DecidableEq, Repr

structure Manager where
  robots : String → Option RobotState := fun _ ↦ none
  stateOverrides : String → List (String × StateOverride) := fun _ ↦ []
  manualResetGuardUntil : String → Option ℕ := fun _ ↦ none
  zones : String → Option ZoneReservation := fun _ ↦ none
  zoneExpiryDuration : ℕ := 30 * 10 ^ 9
  stateRegistry : String → Option AgentStateEntry := fun _ ↦ none

namespace Manager

variable (m : Manager) (now : ℕ)

def setRobot (agentID : String) (robot : RobotState) : Manager :=
  { m with robots := Function.update m.robots agentID (some robot) }

/-- `StateRegistry.UpdateAgentState`. -/
def updateAgentState (agentID stateCode : String) (semanticTags : List String) (graphID : String)
    (isOnline isExecuting : Bool) : Manager :=
  let entry : AgentStateEntry :=
    { agentID, stateCode, semanticTags, currentGraphID := graphID, isOnline, isExecuting
      updatedAt := now }
  { m with stateRegistry := Function.update m.stateRegistry agentID (some entry) }

/-- `StateRegistry.SetAgentExecuting`. -/
def setAgentExecuting (agentID : String) (isExecuting : Bool) : Manager :=
  match m.stateRegistry agentID with
  | none => m
  | some entry =>
    let entry := { entry with isExecuting, updatedAt := now }
    { m with stateRegistry := Function.update m.stateRegistry agentID (some entry) }

def clearManualResetGuard (agentID : String) : Manager :=
  { m with manualResetGuardUntil := Function.update m.manualResetGuardUntil agentID none }

/-! ## Starting an execution -/

def evaluateStateCondition (robot : RobotState) (condition : String) : Bool :=
  robot.currentState = condition

/-- Whether a zone is free, expired, or reserved by the agent. -/
def evaluateZoneCondition (agentID zoneID : String) : Bool :=
  match m.zones zoneID with
  | none => true
  | some existing => existing.expiresAt < now || existing.agentID = agentID

/-- The test of one precondition.  A type that is not known passes. -/
def preconditionPasses (agentID : String) (robot : RobotState) (cond : Precondition) : Bool :=
  if cond.type = "agent_state" ∨ cond.type = "robot_state" then
    evaluateStateCondition robot cond.condition
  else if cond.type = "zone_free" then m.evaluateZoneCondition now agentID cond.condition
  else if cond.type = "agent_idle" ∨ cond.type = "robot_idle" then !robot.isExecuting
  else if cond.type = "agent_online" ∨ cond.type = "robot_online" then robot.isOnline
  else true

def reserveZone (agentID zoneID : String) : Manager :=
  let zone : ZoneReservation :=
    { zoneID, agentID, reservedAt := now, expiresAt := now + m.zoneExpiryDuration }
  { m with zones := Function.update m.zones zoneID (some zone) }

def deleteZone (zoneID : String) : Manager :=
  { m with zones := Function.update m.zones zoneID none }

/-- The reservation loop, with the zones it reserved so far.  When a zone is taken these are
deleted again. -/
def reserveZones (agentID : String) :
    Manager → List String → List String → Manager × Option String
  | m, _, [] => (m, none)
  | m, reservedZones, zoneID :: rest =>
    match m.zones zoneID with
    | some existing =>
      if now < existing.expiresAt ∧ existing.agentID ≠ agentID then
        (reservedZones.foldl deleteZone m,
          some ("zone " ++ zoneID ++ " is reserved by agent " ++ existing.agentID))
      else reserveZones agentID (m.reserveZone now agentID zoneID) (reservedZones ++ [zoneID]) rest
    | none =>
      reserveZones agentID (m.reserveZone now agentID zoneID) (reservedZones ++ [zoneID]) rest

/-- The robot once an execution has been started. -/
def started (robot : RobotState) (taskID stepID graphID : String) : RobotState :=
  { robot with
    isExecuting := true, currentTaskID := taskID, currentStepID := stepID
    currentGraphID := graphID, lastSeen := now }

/-- `TryStartExecution`: the manager afterwards, and the error message of a refusal. -/
def tryStartExecution (agentID taskID stepID graphID : String) (requiredZones : List String)
    (preconditions : List Precondition) : Manager × Option String :=
  match m.robots agentID with
  | none => (m, some ("agent " ++ agentID ++ " not found"))
  | some robot =>
    if robot.isExecuting then
      (m, some ("agent " ++ agentID ++ " is already executing task " ++ robot.currentTaskID))
    else match preconditions.find? (!m.preconditionPasses now agentID robot ·) with
      | some cond => (m, some cond.message)
      | none =>
        match reserveZones now agentID m [] requiredZones with
        | (m', some err) => (m', some err)
        | (m', none) =>
          ((m'.setRobot agentID (started now robot taskID stepID graphID)).updateAgentState now
            agentID robot.currentStateCode robot.semanticTags graphID robot.isOnline true, none)

/-! ## Ending an execution -/

def releaseZone (agentID : String) (m : Manager) (zoneID : String) : Manager :=
  match m.zones zoneID with
  | none => m
  | some existing => if existing.agentID = agentID then m.deleteZone zoneID else m

/-- The robot once its execution is complete: not executing, and back in its reported state. -/
def completed (robot : RobotState) : RobotState :=
  { robot with
    isExecuting := false, currentTaskID := "", currentStepID := "", currentGraphID := ""
    lastSeen := now
    currentState := if robot.reportedState ≠ "" then robot.reportedState else robot.currentState }

/-- `CompleteExecution`: it clears the robot's execution, whichever task it was set for. -/
def completeExecution (agentID : String) (releasedZones : List String) : Manager :=
  match m.robots agentID with
  | none => m
  | some robot =>
    let m := { m with stateOverrides := Function.update m.stateOverrides agentID [] }
    let m := (m.setRobot agentID (completed now robot)).updateAgentState now agentID
      robot.currentStateCode robot.semanticTags "" robot.isOnline false
    releasedZones.foldl (releaseZone agentID) m

/-! ## What the agent reports -/

/-- `UpdateRobotExecution`; nothing happens when the robot is unknown. -/
def updateRobotExecution (agentID : String) (isExecuting : Bool) (taskID stepID : String) :
    Manager :=
  match m.robots agentID with
  | none => m
  | some robot =>
    let m := m.setRobot agentID
      { robot with isExecuting, currentTaskID := taskID, currentStepID := stepID, lastSeen := now }
    let m := if isExecuting then m.clearManualResetGuard agentID else m
    m.setAgentExecuting now agentID isExecuting

/-- `TryUpdateRobotExecutionFromHeartbeat`: the manager, and whether the heartbeat was taken over.
While the robot executes a task of the server only the step of that task is. -/
def tryUpdateRobotExecutionFromHeartbeat (agentID : String) (hbIsExecuting : Bool)
    (hbTaskID hbStepID : String) : Manager × Bool :=
  match m.robots agentID with
  | none => (m, false)
  | some robot =>
    if robot.isExecuting && robot.currentTaskID ≠ "" then
      if hbTaskID ≠ robot.currentTaskID ∨ hbIsExecuting = false then (m, false)
      else if hbStepID ≠ "" ∧ hbStepID ≠ robot.currentStepID then
        ((m.setRobot agentID { robot with currentStepID := hbStepID, lastSeen := now }
          ).clearManualResetGuard agentID, true)
      else (m, false)
    else
      -- a task id without execution is stale
      let stale := !hbIsExecuting && hbTaskID ≠ ""
      let robot := { robot with
        isExecuting := !stale && hbIsExecuting
        currentTaskID := if stale then "" else hbTaskID
        currentStepID := if stale then "" else hbStepID
        lastSeen := now }
      let m := m.setRobot agentID robot
      let m := if robot.isExecuting then m.clearManualResetGuard agentID else m
      (m.setAgentExecuting now agentID robot.isExecuting, true)

/-! ## Starting several executions at once -/

structure MultiExecutionRequest where
  agentID : String
  taskID : String
  stepID : String
  graphID : String
  requiredZones : List String
  deriving DecidableEq, Repr

/-- The agent that made a batch fail, and why. -/
structure MultiExecutionFailure where
  failedAgentID : String
  errorMessage : String
  deriving DecidableEq, Repr

def isAgentInBatch (agentID : String) (executions : List MultiExecutionRequest) : Bool :=
  executions.any (·.agentID = agentID)

def evaluateZoneConditionForMulti (agentID zoneID : String)
    (executions : List MultiExecutionRequest) : Bool :=
  match m.zones zoneID with
  | none => true
  | some existing =>
    existing.expiresAt < now || existing.agentID = agentID ||
      isAgentInBatch existing.agentID executions

def preconditionPassesForMulti (executions : List MultiExecutionRequest) (agentID : String)
    (robot : RobotState) (cond : Precondition) : Bool :=
  if cond.type = "zone_free" then
    m.evaluateZoneConditionForMulti now agentID cond.condition executions
  else m.preconditionPasses now agentID robot cond

/-- Phase 1 of `TryStartMultiExecution`: the agent exists, is idle and online. -/
def multiAgentFault (exec : MultiExecutionRequest) : Option MultiExecutionFailure :=
  match m.robots exec.agentID with
  | none => some ⟨exec.agentID, "agent " ++ exec.agentID ++ " not found"⟩
  | some robot =>
    if robot.isExecuting then
      some ⟨exec.agentID,
        "agent " ++ exec.agentID ++ " is already executing task " ++ robot.currentTaskID⟩
    else if !robot.isOnline then some ⟨exec.agentID, "agent " ++ exec.agentID ++ " is offline"⟩
    else none

/-- Phase 2: the preconditions hold for the agent. -/
def multiPreconditionFault (executions : List MultiExecutionRequest)
    (preconditions : List Precondition) (exec : MultiExecutionRequest) :
    Option MultiExecutionFailure :=
  (m.robots exec.agentID).bind fun robot ↦
    (preconditions.find? (!m.preconditionPassesForMulti now executions exec.agentID robot ·)).map
      fun cond ↦ ⟨exec.agentID, cond.message⟩

/-- Phase 3: no zone is requested twice or held outside the batch. -/
def multiZoneFault (executions : List MultiExecutionRequest) :
    List (String × String) → List (MultiExecutionRequest × String) → Option MultiExecutionFailure
  | _, [] => none
  | requested, (exec, zoneID) :: rest =>
    match requested.find? (·.1 = zoneID) with
    | some (_, existingAgent) =>
      some ⟨exec.agentID, "zone " ++ zoneID ++ " is requested by both " ++ existingAgent ++
        " and " ++ exec.agentID⟩
    | none =>
      match m.zones zoneID with
      | some holder =>
        if now < holder.expiresAt ∧ isAgentInBatch holder.agentID executions = false then
          some ⟨exec.agentID, "zone " ++ zoneID ++ " is reserved by agent " ++ holder.agentID⟩
        else multiZoneFault executions ((zoneID, exec.agentID) :: requested) rest
      | none => multiZoneFault executions ((zoneID, exec.agentID) :: requested) rest

/-- Phase 4 for one request. -/
def startOne (m : Manager) (exec : MultiExecutionRequest) : Manager :=
  match m.robots exec.agentID with
  | none => m
  | some robot =>
    let m := m.setRobot exec.agentID (started now robot exec.taskID exec.stepID exec.graphID)
    let m := exec.requiredZones.foldl (fun m zoneID ↦ m.reserveZone now exec.agentID zoneID) m
    m.updateAgentState now exec.agentID robot.currentStateCode robot.semanticTags exec.graphID
      robot.isOnline true

def tryStartMultiExecution (executions : List MultiExecutionRequest)
    (preconditions : List Precondition) : Manager × Option MultiExecutionFailure :=
  let fault := executions.findSome? m.multiAgentFault
    <|> executions.findSome? (m.multiPreconditionFault now executions preconditions)
    <|> m.multiZoneFault now executions []
      (executions.flatMap fun exec ↦ exec.requiredZones.map (exec, ·))
  match fault with
  | some failure => (m, some failure)
  | none => (executions.foldl (startOne now) m, none)

/-! ## Which task a robot is busy with -/

/-- The task a robot's execution flag was set for, `none` when the robot is idle or unknown. -/
def busyWith (agentID : String) : Option String :=
  (m.robots agentID).bind fun robot ↦ if robot.isExecuting then some robot.currentTaskID else none

section Busy

variable {m now} {agentID taskID stepID graphID : String}

/-- Only the robots decide who is busy. -/
theorem busyWith_congr {m' : Manager} (h : m'.robots = m.robots) (agent : String) :
    m'.busyWith agent = m.busyWith agent := by
  rw [busyWith, busyWith, h]

theorem robots_setAgentExecuting (isExecuting : Bool) :
    (m.setAgentExecuting now agentID isExecuting).robots = m.robots := by
  rw [setAgentExecuting]
  split <;> rfl

theorem robots_foldl_deleteZone (zoneIDs : List String) (m : Manager) :
    (zoneIDs.foldl deleteZone m).robots = m.robots := by
  induction zoneIDs generalizing m with
  | nil => rfl
  | cons zoneID rest ih => exact ih (m.deleteZone zoneID)

theorem robots_releaseZones (zoneIDs : List String) (m : Manager) :
    (zoneIDs.foldl (releaseZone agentID) m).robots = m.robots := by
  induction zoneIDs generalizing m with
  | nil => rfl
  | cons zoneID rest ih =>
    rw [List.foldl_cons, ih, releaseZone]
    split
    · rfl
    · split <;> rfl

theorem robots_reserveZones (now : ℕ) (agentID : String) (zoneIDs : List String) :
    ∀ (m : Manager) (reservedZones : List String),
      (reserveZones now agentID m reservedZones zoneIDs).1.robots = m.robots := by
  induction zoneIDs with
  | nil => intro m reservedZones; rfl
  | cons zoneID rest ih =>
    intro m reservedZones
    rw [reserveZones]
    split
    · split
      · exact robots_foldl_deleteZone _ _
      · exact ih _ _
    · exact ih _ _

/-- A refused start leaves every robot as it was; a start takes an idle robot to the task. -/
theorem tryStartExecution_spec (zones : List String) (conds : List Precondition) :
    let out := m.tryStartExecution now agentID taskID stepID graphID zones conds
    (out.2 ≠ none → ∀ agent, out.1.busyWith agent = m.busyWith agent) ∧
    (out.2 = none → m.busyWith agentID = none ∧ out.1.busyWith agentID = some taskID ∧
      ∀ agent, agent ≠ agentID → out.1.busyWith agent = m.busyWith agent) := by
  rw [tryStartExecution]
  split
  · exact ⟨fun _ _ ↦ rfl, fun h ↦ absurd h (by simp)⟩
  · rename_i robot hrobot
    split
    · exact ⟨fun _ _ ↦ rfl, fun h ↦ absurd h (by simp)⟩
    · rename_i hidle
      split
      · exact ⟨fun _ _ ↦ rfl, fun h ↦ absurd h (by simp)⟩
      · have hzones := robots_reserveZones now agentID zones m []
        split
        · rename_i m' err hreserve
          rw [hreserve] at hzones
          exact ⟨fun _ agent ↦ busyWith_congr hzones agent, fun h ↦ absurd h (by simp)⟩
        · rename_i m' hreserve
          replace hzones : m'.robots = m.robots := by rw [← hzones, hreserve]
          refine ⟨fun h ↦ absurd rfl h, fun _ ↦ ⟨?_, ?_, fun agent hne ↦ ?_⟩⟩
          · simp [busyWith, hrobot, hidle]
          · simp [busyWith, setRobot, updateAgentState, started]
          · simp [busyWith, setRobot, updateAgentState, Function.update_of_ne hne, hzones]

theorem busyWith_of_refused {m' : Manager} {zones : List String} {conds : List Precondition}
    {err : String}
    (h : m.tryStartExecution now agentID taskID stepID graphID zones conds = (m', some err))
    (agent : String) : m'.busyWith agent = m.busyWith agent := by
  have hspec := (@tryStartExecution_spec m now agentID taskID stepID graphID zones conds).1
  rw [h] at hspec
  exact hspec (by simp) agent

theorem busyWith_of_started {m' : Manager} {zones : List String} {conds : List Precondition}
    (h : m.tryStartExecution now agentID taskID stepID graphID zones conds = (m', none)) :
    m.busyWith agentID = none ∧
      ∀ agent, agent ≠ agentID → m'.busyWith agent = m.busyWith agent := by
  have hspec := (@tryStartExecution_spec m now agentID taskID stepID graphID zones conds).2
  rw [h] at hspec
  obtain ⟨hidle, -, hothers⟩ := hspec rfl
  exact ⟨hidle, hothers⟩

/-- **Completing an execution clears the flag, whichever task it was set for.** -/
theorem busyWith_completeExecution_self (zones : List String) :
    (m.completeExecution now agentID zones).busyWith agentID = none := by
  rw [completeExecution]
  split
  · rename_i hnone
    simp [busyWith, hnone]
  · rw [busyWith, robots_releaseZones]
    simp [setRobot, updateAgentState, completed]

theorem busyWith_completeExecution_of_ne {agent : String} (h : agent ≠ agentID)
    (zones : List String) :
    (m.completeExecution now agentID zones).busyWith agent = m.busyWith agent := by
  rw [completeExecution]
  split
  · rfl
  · rw [busyWith, robots_releaseZones]
    simp [setRobot, updateAgentState, busyWith, Function.update_of_ne h]

theorem busyWith_updateRobotExecution_of_ne {agent : String} (h : agent ≠ agentID)
    (isExecuting : Bool) : (m.updateRobotExecution now agentID isExecuting taskID stepID).busyWith
      agent = m.busyWith agent := by
  rw [updateRobotExecution]
  split
  · rfl
  · rw [busyWith, robots_setAgentExecuting]
    split <;> simp [setRobot, clearManualResetGuard, busyWith, Function.update_of_ne h]

/-- An execution reported for the task the robot is busy with changes nothing about that. -/
theorem busyWith_updateRobotExecution_self (h : m.busyWith agentID = some taskID) :
    (m.updateRobotExecution now agentID true taskID stepID).busyWith agentID = some taskID := by
  rw [updateRobotExecution]
  split
  · exact h
  · rw [busyWith, robots_setAgentExecuting]
    simp [setRobot, clearManualResetGuard]

theorem busyWith_heartbeat_of_ne {agent : String} (h : agent ≠ agentID) (hbIsExecuting : Bool)
    (hbTaskID hbStepID : String) :
    (m.tryUpdateRobotExecutionFromHeartbeat now agentID hbIsExecuting hbTaskID hbStepID).1.busyWith
      agent = m.busyWith agent := by
  rw [tryUpdateRobotExecutionFromHeartbeat]
  split
  · rfl
  · split
    · split
      · rfl
      · split
        · simp [setRobot, clearManualResetGuard, busyWith, Function.update_of_ne h]
        · rfl
    · dsimp only
      rw [busyWith, robots_setAgentExecuting]
      split <;> simp [setRobot, clearManualResetGuard, busyWith, Function.update_of_ne h]

/-- **A heartbeat never takes a robot away from a task of the server.** -/
theorem busyWith_heartbeat_self (h : m.busyWith agentID = some taskID) (hne : taskID ≠ "")
    (hbIsExecuting : Bool) (hbTaskID hbStepID : String) :
    (m.tryUpdateRobotExecutionFromHeartbeat now agentID hbIsExecuting hbTaskID hbStepID).1.busyWith
      agentID = some taskID := by
  obtain ⟨robot, hrobot, hbusy⟩ := Option.bind_eq_some_iff.mp h
  obtain ⟨hexec, htask⟩ : robot.isExecuting = true ∧ robot.currentTaskID = taskID := by
    simpa [Option.ite_none_right_eq_some] using hbusy
  subst htask
  rw [tryUpdateRobotExecutionFromHeartbeat, hrobot]
  dsimp only
  rw [if_pos (by simp [hexec, hne])]
  split
  · exact h
  · split
    · simp [setRobot, clearManualResetGuard, busyWith, hexec]
    · exact h

theorem busyWith_startOne {agent : String} {exec : MultiExecutionRequest}
    (h : agent ≠ exec.agentID) : (startOne now m exec).busyWith agent = m.busyWith agent := by
  have hzones : ∀ (zoneIDs : List String) (m : Manager),
      (zoneIDs.foldl (fun m zoneID ↦ m.reserveZone now exec.agentID zoneID) m).robots =
        m.robots := by
    intro zoneIDs
    induction zoneIDs with
    | nil => exact fun m ↦ rfl
    | cons zoneID rest ih => exact fun m ↦ ih (m.reserveZone now exec.agentID zoneID)
  rw [startOne]
  split
  · rfl
  · simp [busyWith, updateAgentState, hzones, setRobot, Function.update_of_ne h]

/-- Robots of a batch were idle, so a robot that is busy keeps its task. -/
theorem busyWith_tryStartMultiExecution {m' : Manager} {agent : String}
    {executions : List MultiExecutionRequest} {preconditions : List Precondition}
    (h : m.tryStartMultiExecution now executions preconditions = (m', none))
    (hbusy : m.busyWith agent = some taskID) : m'.busyWith agent = some taskID := by
  have hstart : ∀ (rest : List MultiExecutionRequest) (m₁ : Manager),
      (∀ exec ∈ rest, exec.agentID ≠ agent) →
        (rest.foldl (startOne now) m₁).busyWith agent = m₁.busyWith agent := by
    intro rest
    induction rest with
    | nil => exact fun m₁ _ ↦ rfl
    | cons exec rest ih =>
      intro m₁ hne
      rw [List.foldl_cons, ih _ fun e he ↦ hne e (List.mem_cons_of_mem exec he)]
      exact busyWith_startOne (hne exec List.mem_cons_self).symm
  rw [tryStartMultiExecution] at h
  split at h
  · exact absurd (congrArg Prod.snd h) (by simp)
  · rename_i hfault
    obtain rfl : executions.foldl (startOne now) m = m' := congrArg Prod.fst h
    rw [hstart executions m fun exec hmem ↦ ?_]
    · exact hbusy
    · rintro rfl
      simp only [Option.orElse_eq_orElse, Option.orElse_eq_or, Option.or_eq_none_iff,
        List.findSome?_eq_none_iff] at hfault
      have hidle := hfault.1 exec hmem
      obtain ⟨robot, hrobot, hexec⟩ := Option.bind_eq_some_iff.mp hbusy
      rw [multiAgentFault, hrobot] at hidle
      dsimp only at hidle
      split at hidle
      · exact absurd hidle (by simp)
      · rename_i hnot
        exact absurd hexec (by simp [hnot])

end Busy

end Manager
end State
end FleetServer
