import FleetServer.State.AtomicStart
import FleetServer.State.Connections

/-!
# The state registry and the robots

The state registry is a second copy of the robots: whether each is online and executing, and its
state code.  Every operation that writes these is meant to write the copy as well (`Agrees`).

Five do not: `checkStaleAgents`, `RegisterAgent` and `UnregisterAgent` write `IsOnline` of the robot
only, `CleanupStaleAgents` removes the robot only, and the robot that telemetry registers is
missing from the registry.  `agrees_apply_iff` says that an operation keeps the two in agreement
exactly when it has nothing of this kind to write (`TellsRegistry`), so they agree in every run
whose operations do not (`registry_agrees`).
-/

set_option autoImplicit false

namespace FleetServer
namespace State

/-- What the registry copies: whether the robot is online and executing, and its state code. -/
abbrev Flags := Bool × Bool × String

def RobotState.flags (robot : RobotState) : Flags :=
  (robot.isOnline, robot.isExecuting, robot.currentStateCode)

def AgentStateEntry.flags (entry : AgentStateEntry) : Flags :=
  (entry.isOnline, entry.isExecuting, entry.stateCode)

namespace Manager

variable {m m' : Manager} {now : ℕ} {agentID : String}

def robotFlags (m : Manager) (agentID : String) : Option Flags :=
  (m.robots agentID).map RobotState.flags

def registryFlags (m : Manager) (agentID : String) : Option Flags :=
  (m.stateRegistry agentID).map AgentStateEntry.flags

/-- An agent has an entry exactly when it has a robot, and the entry says what the robot says. -/
def Agrees (m : Manager) : Prop := ∀ agentID, m.registryFlags agentID = m.robotFlags agentID

theorem agrees_iff : m.Agrees ↔ m.registryFlags = m.robotFlags := funext_iff.symm

theorem robotFlags_of_robot {robot : RobotState} (hrobot : m.robots agentID = some robot) :
    m.robotFlags agentID = some robot.flags := by
  rw [robotFlags, hrobot, Option.map_some]

/-! ## The parts of the operations -/

theorem robotFlags_setRobot (robot : RobotState) :
    (m.setRobot agentID robot).robotFlags =
      Function.update m.robotFlags agentID (some robot.flags) := by
  funext agent
  by_cases hagent : agent = agentID
  · simp [robotFlags, setRobot, hagent]
  · simp [robotFlags, setRobot, Function.update_of_ne hagent]

theorem registryFlags_updateAgentState (stateCode graphID : String) (semanticTags : List String)
    (isOnline isExecuting : Bool) :
    (m.updateAgentState now agentID stateCode semanticTags graphID isOnline
      isExecuting).registryFlags =
      Function.update m.registryFlags agentID (some (isOnline, isExecuting, stateCode)) := by
  funext agent
  by_cases hagent : agent = agentID
  · simp [registryFlags, updateAgentState, AgentStateEntry.flags, hagent]
  · simp [registryFlags, updateAgentState, Function.update_of_ne hagent]

theorem registryFlags_setAgentExecuting (isExecuting : Bool) :
    (m.setAgentExecuting now agentID isExecuting).registryFlags =
      Function.update m.registryFlags agentID
        ((m.registryFlags agentID).map fun flags ↦ (flags.1, isExecuting, flags.2.2)) := by
  rw [setAgentExecuting]
  split
  · rename_i hnone
    rw [eq_comm, Function.update_eq_self_iff, registryFlags, hnone]
    rfl
  · rename_i entry hentry
    funext agent
    by_cases hagent : agent = agentID
    · subst hagent
      simp [registryFlags, hentry, AgentStateEntry.flags]
    · simp [registryFlags, Function.update_of_ne hagent]

theorem registryFlags_setAgentOnline (isOnline : Bool) :
    (m.setAgentOnline now agentID isOnline).registryFlags =
      Function.update m.registryFlags agentID
        ((m.registryFlags agentID).map fun flags ↦ (isOnline, flags.2)) := by
  rw [setAgentOnline]
  split
  · rename_i hnone
    rw [eq_comm, Function.update_eq_self_iff, registryFlags, hnone]
    rfl
  · rename_i entry hentry
    funext agent
    by_cases hagent : agent = agentID
    · subst hagent
      simp [registryFlags, hentry, AgentStateEntry.flags]
    · simp [registryFlags, Function.update_of_ne hagent]

/-! ## Operations that touch neither -/

/-- Both managers have the same robots and the same registry. -/
def SameTables (m m' : Manager) : Prop :=
  m'.robots = m.robots ∧ m'.stateRegistry = m.stateRegistry

theorem SameTables.refl (m : Manager) : SameTables m m := ⟨rfl, rfl⟩

theorem SameTables.trans {m'' : Manager} (h : SameTables m m') (h' : SameTables m' m'') :
    SameTables m m'' :=
  ⟨h'.1.trans h.1, h'.2.trans h.2⟩

theorem sameTables_foldl {ι : Type} {f : Manager → ι → Manager}
    (h : ∀ m i, SameTables m (f m i)) (rounds : List ι) (m : Manager) :
    SameTables m (rounds.foldl f m) := by
  induction rounds generalizing m with
  | nil => exact SameTables.refl m
  | cons i rest ih => exact (h m i).trans (ih (f m i))

theorem SameTables.robotFlags_eq (h : SameTables m m') : m'.robotFlags = m.robotFlags := by
  funext agentID
  rw [robotFlags, h.1, robotFlags]

theorem SameTables.registryFlags_eq (h : SameTables m m') :
    m'.registryFlags = m.registryFlags := by
  funext agentID
  rw [registryFlags, h.2, registryFlags]

theorem Agrees.same (hagrees : m.Agrees) (h : SameTables m m') : m'.Agrees := by
  rw [agrees_iff] at hagrees ⊢
  rw [h.registryFlags_eq, h.robotFlags_eq, hagrees]

/-- Something else of a robot is written. -/
theorem Agrees.setRobot {robot robot' : RobotState} (h : m.Agrees)
    (hrobot : m.robots agentID = some robot) (hflags : robot'.flags = robot.flags) :
    (m.setRobot agentID robot').Agrees := by
  rw [agrees_iff] at h ⊢
  rw [robotFlags_setRobot, hflags, ← robotFlags_of_robot hrobot, Function.update_eq_self]
  exact h

/-- A robot is written together with its entry. -/
theorem Agrees.setRobot_updateAgentState {robot : RobotState} {stateCode graphID : String}
    {semanticTags : List String} {isOnline isExecuting : Bool} (h : m.Agrees)
    (hsame : SameTables (m.setRobot agentID robot) m')
    (hflags : robot.flags = (isOnline, isExecuting, stateCode)) :
    (m'.updateAgentState now agentID stateCode semanticTags graphID isOnline
      isExecuting).Agrees := by
  have htables : (m.setRobot agentID robot).registryFlags = m.registryFlags := rfl
  have hrobots : (m'.updateAgentState now agentID stateCode semanticTags graphID isOnline
      isExecuting).robotFlags = m'.robotFlags := rfl
  rw [agrees_iff] at h ⊢
  rw [registryFlags_updateAgentState, hrobots, hsame.registryFlags_eq, hsame.robotFlags_eq,
    htables, robotFlags_setRobot, hflags, h]

theorem robotFlags_setAgentExecuting (isExecuting : Bool) :
    (m.setAgentExecuting now agentID isExecuting).robotFlags = m.robotFlags := by
  funext agent
  rw [robotFlags, robots_setAgentExecuting, robotFlags]

theorem Agrees.setRobot_setAgentExecuting {robot robot' : RobotState} {isExecuting : Bool}
    (h : m.Agrees) (hrobot : m.robots agentID = some robot)
    (hsame : SameTables (m.setRobot agentID robot') m')
    (hflags : robot'.flags = (robot.isOnline, isExecuting, robot.currentStateCode)) :
    (m'.setAgentExecuting now agentID isExecuting).Agrees := by
  have htables : (m.setRobot agentID robot').registryFlags = m.registryFlags := rfl
  rw [agrees_iff] at h ⊢
  rw [registryFlags_setAgentExecuting, robotFlags_setAgentExecuting, hsame.registryFlags_eq,
    hsame.robotFlags_eq, htables, robotFlags_setRobot, hflags, h, robotFlags_of_robot hrobot]
  rfl

/-- The flag is written as the robot has it already. -/
theorem Agrees.setAgentExecuting {robot : RobotState} {isExecuting : Bool} (h : m.Agrees)
    (hrobot : m.robots agentID = some robot) (hexecuting : robot.isExecuting = isExecuting) :
    (m.setAgentExecuting now agentID isExecuting).Agrees := by
  have hsame : SameTables (m.setRobot agentID robot) m :=
    ⟨(Function.update_eq_self_iff.mpr hrobot.symm).symm, rfl⟩
  refine h.setRobot_setAgentExecuting hrobot hsame ?_
  rw [RobotState.flags, hexecuting]

theorem Agrees.foldl {ι : Type} {f : Manager → ι → Manager}
    (hf : ∀ m i, m.Agrees → (f m i).Agrees) (rounds : List ι) (h : m.Agrees) :
    (rounds.foldl f m).Agrees := by
  induction rounds generalizing m with
  | nil => exact h
  | cons i rest ih => exact ih (hf m i h)

/-! ## The operations on robots and zones -/

theorem sameTables_clearManualResetGuard_ite (condition : Prop) [Decidable condition] :
    SameTables m (if condition then m.clearManualResetGuard agentID else m) := by
  split
  · exact ⟨rfl, rfl⟩
  · exact SameTables.refl m

theorem sameTables_normalize (state : String) :
    SameTables m (m.normalizeReportedStateForManualReset now agentID state).1 := by
  rw [normalizeReportedStateForManualReset]
  split
  · exact SameTables.refl m
  · split
    · exact ⟨rfl, rfl⟩
    · split <;> exact ⟨rfl, rfl⟩

theorem sameTables_releaseZone (m : Manager) (zoneID : String) :
    SameTables m (releaseZone agentID m zoneID) := by
  rw [releaseZone]
  split
  · exact SameTables.refl m
  · split <;> exact ⟨rfl, rfl⟩

theorem sameTables_tryReserveZone (zoneID : String) :
    SameTables m (m.tryReserveZone now zoneID agentID).1 := by
  rw [tryReserveZone]
  split
  · split
    · split <;> exact ⟨rfl, rfl⟩
    · exact ⟨rfl, rfl⟩
  · exact ⟨rfl, rfl⟩

theorem sameTables_reserveZones (zoneIDs : List String) (m : Manager)
    (reservedZones : List String) :
    SameTables m (reserveZones now agentID m reservedZones zoneIDs).1 := by
  induction zoneIDs generalizing m reservedZones with
  | nil => exact SameTables.refl m
  | cons zoneID rest ih =>
    have hreserved : SameTables m (m.reserveZone now agentID zoneID) := ⟨rfl, rfl⟩
    rw [reserveZones]
    split
    · split
      · exact sameTables_foldl (f := deleteZone) (fun m z ↦ ⟨rfl, rfl⟩) reservedZones m
      · exact hreserved.trans (ih _ _)
    · exact hreserved.trans (ih _ _)

theorem Agrees.updateRobotState (h : m.Agrees) (order : RangeOrder (String × StateOverride))
    (newState : String) :
    (m.afterResult (m.updateRobotState now order agentID newState)).Agrees := by
  rw [Manager.updateRobotState]
  split
  · exact h
  · rename_i robot hrobot
    have hsame : SameTables m (m.normalizeReportedStateForManualReset now agentID newState).1 :=
      sameTables_normalize newState
    have hkept := (congrFun hsame.1 agentID).trans hrobot
    exact (h.same hsame).setRobot hkept rfl

theorem Agrees.updateRobotEnhancedState (h : m.Agrees) (stateCode : String)
    (semanticTags : List String) (graphID : String) :
    (m.afterResult (m.updateRobotEnhancedState now agentID stateCode semanticTags
      graphID)).Agrees := by
  rw [Manager.updateRobotEnhancedState]
  split
  · exact h
  · exact h.setRobot_updateAgentState (SameTables.refl _) rfl

theorem Agrees.setRobotOnline (h : m.Agrees) (isOnline : Bool) :
    (m.afterResult (m.setRobotOnline now agentID isOnline)).Agrees := by
  rw [Manager.setRobotOnline]
  split
  · exact h
  · rename_i robot hrobot
    have hrobots (m : Manager) : (m.setAgentOnline now agentID isOnline).robotFlags =
        m.robotFlags := by
      rw [setAgentOnline]
      split <;> rfl
    have htables (robot : RobotState) :
        (m.setRobot agentID robot).registryFlags = m.registryFlags := rfl
    rw [agrees_iff] at h ⊢
    rw [afterResult, registryFlags_setAgentOnline, hrobots, htables, robotFlags_setRobot, h,
      robotFlags_of_robot hrobot]
    rfl

theorem Agrees.setRobotStateOverride (h : m.Agrees)
    (order : RangeOrder (String × StateOverride)) (sourceID state : String) :
    (m.afterResult (m.setRobotStateOverride now order agentID sourceID state)).Agrees := by
  rw [Manager.setRobotStateOverride]
  split
  · exact h
  · split
    · exact h
    · split
      · exact h
      · rename_i robot hrobot
        let overrides :=
          (sourceID, ⟨state, now⟩) :: (m.stateOverrides agentID).filter (·.1 ≠ sourceID)
        have hsame : SameTables m { m with
            stateOverrides := Function.update m.stateOverrides agentID overrides } := ⟨rfl, rfl⟩
        have hkept := (congrFun hsame.1 agentID).trans hrobot
        exact (h.same hsame).setRobot hkept rfl

theorem Agrees.clearRobotStateOverride (h : m.Agrees)
    (order : RangeOrder (String × StateOverride)) (sourceID : String) :
    (m.afterResult (m.clearRobotStateOverride now order agentID sourceID)).Agrees := by
  rw [Manager.clearRobotStateOverride]
  split
  · exact h
  · split
    · exact h
    · rename_i robot hrobot
      let overrides := (m.stateOverrides agentID).filter (·.1 ≠ sourceID)
      have hsame : SameTables m { m with
          stateOverrides := Function.update m.stateOverrides agentID overrides } := ⟨rfl, rfl⟩
      have hkept := (congrFun hsame.1 agentID).trans hrobot
      exact (h.same hsame).setRobot hkept rfl

theorem Agrees.updateRobotExecution (h : m.Agrees) (isExecuting : Bool)
    (taskID stepID : String) :
    (m.updateRobotExecution now agentID isExecuting taskID stepID).Agrees := by
  rw [Manager.updateRobotExecution]
  split
  · exact h
  · rename_i robot hrobot
    exact h.setRobot_setAgentExecuting hrobot (sameTables_clearManualResetGuard_ite _) rfl

theorem Agrees.heartbeat (h : m.Agrees) (hbIsExecuting : Bool) (hbTaskID hbStepID : String) :
    (m.tryUpdateRobotExecutionFromHeartbeat now agentID hbIsExecuting hbTaskID
      hbStepID).1.Agrees := by
  rw [tryUpdateRobotExecutionFromHeartbeat]
  split
  · exact h
  · rename_i robot hrobot
    split
    · split
      · exact h
      · split
        · let robot' := { robot with currentStepID := hbStepID, lastSeen := now }
          have hflags : robot'.flags = robot.flags := rfl
          exact (h.setRobot hrobot hflags).same ⟨rfl, rfl⟩
        · exact h
    · exact h.setRobot_setAgentExecuting hrobot (sameTables_clearManualResetGuard_ite _) rfl

theorem Agrees.tryStartExecution (h : m.Agrees) (taskID stepID graphID : String)
    (requiredZones : List String) (preconditions : List Precondition) :
    (m.tryStartExecution now agentID taskID stepID graphID requiredZones
      preconditions).1.Agrees := by
  rw [Manager.tryStartExecution]
  split
  · exact h
  · split
    · exact h
    · split
      · exact h
      · have hsame : SameTables m (reserveZones now agentID m [] requiredZones).1 :=
          sameTables_reserveZones requiredZones m []
        split
        · rename_i hrefused
          rw [hrefused] at hsame
          exact h.same hsame
        · rename_i hreserved
          rw [hreserved] at hsame
          exact (h.same hsame).setRobot_updateAgentState (SameTables.refl _) rfl

theorem Agrees.completeExecution (h : m.Agrees) (releasedZones : List String) :
    (m.completeExecution now agentID releasedZones).Agrees := by
  rw [Manager.completeExecution]
  split
  · exact h
  · have hsame : SameTables m (m.clearStateOverrides agentID) := ⟨rfl, rfl⟩
    refine Agrees.same ?_ (sameTables_foldl sameTables_releaseZone releasedZones _)
    exact (h.same hsame).setRobot_updateAgentState (SameTables.refl _) rfl

theorem Agrees.resetAgentState (h : m.Agrees) :
    (m.afterResult (m.resetAgentState now agentID)).Agrees := by
  rw [Manager.resetAgentState]
  split
  · exact h
  · rename_i robot hrobot
    rw [afterResult]
    refine Agrees.setAgentExecuting ?_ (Function.update_self agentID _ m.robots) rfl
    exact h.setRobot_updateAgentState ⟨rfl, rfl⟩ rfl

theorem Agrees.startOne (h : m.Agrees) (exec : MultiExecutionRequest) :
    (startOne now m exec).Agrees := by
  rw [Manager.startOne]
  split
  · exact h
  · rename_i robot hrobot
    let m' := m.setRobot exec.agentID (started now robot exec.taskID exec.stepID exec.graphID)
    let reserve (m : Manager) (zoneID : String) := m.reserveZone now exec.agentID zoneID
    have hsame : SameTables m' (exec.requiredZones.foldl reserve m') :=
      sameTables_foldl (f := reserve) (fun m zoneID ↦ ⟨rfl, rfl⟩) exec.requiredZones m'
    exact h.setRobot_updateAgentState hsame rfl

theorem Agrees.tryStartMultiExecution (h : m.Agrees) (executions : List MultiExecutionRequest)
    (preconditions : List Precondition) :
    (m.tryStartMultiExecution now executions preconditions).1.Agrees := by
  rw [Manager.tryStartMultiExecution]
  split
  · exact h
  · exact h.foldl (fun m exec hm ↦ hm.startOne exec) executions

theorem Agrees.unregisterRobot (h : m.Agrees) : (m.unregisterRobot agentID).Agrees := by
  intro agent
  have hagent := h agent
  rw [registryFlags, robotFlags] at hagent ⊢
  by_cases hself : agent = agentID
  · subst hself
    simp [Manager.unregisterRobot, removeAgent, deleteZonesOf, clearManualResetGuard,
      clearStateOverrides, deleteRobot]
  · simpa [Manager.unregisterRobot, removeAgent, deleteZonesOf, clearManualResetGuard,
      clearStateOverrides, deleteRobot, Function.update_of_ne hself] using hagent

/-- **Every operation on robots and zones writes the registry with the robots**, but for the
clean-up. -/
theorem Agrees.apply (h : m.Agrees) {op : Op} (hop : ∀ age, op ≠ .cleanupStaleAgents age) :
    (m.apply now op).Agrees := by
  cases op with
  | registerRobot id initialState => exact h.setRobot_updateAgentState (SameTables.refl _) rfl
  | unregisterRobot id => exact h.unregisterRobot
  | updateRobotState order agentID newState => exact h.updateRobotState order newState
  | updateRobotEnhancedState agentID stateCode semanticTags graphID =>
    exact h.updateRobotEnhancedState stateCode semanticTags graphID
  | setRobotOnline agentID isOnline => exact h.setRobotOnline isOnline
  | setRobotStateOverride order agentID sourceID state =>
    exact h.setRobotStateOverride order sourceID state
  | clearRobotStateOverride order agentID sourceID =>
    exact h.clearRobotStateOverride order sourceID
  | updateRobotExecution agentID isExecuting taskID stepID =>
    exact h.updateRobotExecution isExecuting taskID stepID
  | tryUpdateRobotExecutionFromHeartbeat agentID hbIsExecuting hbTaskID hbStepID =>
    exact h.heartbeat hbIsExecuting hbTaskID hbStepID
  | tryReserveZone zoneID agentID => exact h.same (sameTables_tryReserveZone zoneID)
  | releaseZone zoneID agentID => exact h.same (sameTables_releaseZone m zoneID)
  | cleanupExpiredZones => exact h.same ⟨rfl, rfl⟩
  | tryStartExecution agentID taskID stepID graphID requiredZones preconditions =>
    exact h.tryStartExecution taskID stepID graphID requiredZones preconditions
  | completeExecution agentID releasedZones => exact h.completeExecution releasedZones
  | resetAgentState agentID => exact h.resetAgentState
  | tryStartMultiExecution executions preconditions =>
    exact h.tryStartMultiExecution executions preconditions
  | completeMultiExecution executions =>
    exact h.foldl (fun m exec hm ↦ hm.completeExecution exec.requiredZones) executions
  | cleanupStaleAgents maxOfflineAge => exact absurd rfl (hop maxOfflineAge)

/-- Where the registry is not written, the robots must not have changed. -/
theorem Agrees.iff_of_stateRegistry (h : m.Agrees)
    (hregistry : m'.stateRegistry = m.stateRegistry) :
    m'.Agrees ↔ ∀ agentID, m'.robotFlags agentID = m.robotFlags agentID := by
  refine forall_congr' fun agentID ↦ ?_
  rw [← h agentID, registryFlags, hregistry, ← registryFlags]
  exact eq_comm

end Manager

namespace GlobalStateManager

open Manager

variable {g : GlobalStateManager} {now : ℕ}

/-! ## The operations that write only the robots -/

/-- An operation has nothing to write that the registry would not be told: no robot to remove
(`cleanupStaleAgents`), no flag to change, and no robot to register from telemetry. -/
def TellsRegistry (g : GlobalStateManager) (now : ℕ) : Op → Prop
  | .manager (.cleanupStaleAgents maxOfflineAge) =>
    ∀ id, g.isStaleRobot now maxOfflineAge id = false
  | .manager _ => True
  | .registerAgent id => ∀ robot, g.manager.robots id = some robot → robot.isOnline = true
  | .unregisterAgent id =>
    g.agents id = none ∨ ∀ robot, g.manager.robots id = some robot → robot.isOnline = false
  | .updateAgentHeartbeat _ => True
  | .checkStaleAgents =>
    ∀ id, g.timedOut now id = true →
      ∀ robot, g.manager.robots id = some robot → robot.isOnline = false
  | .updateRobotTelemetry robotID => g.manager.robots robotID ≠ none

theorem robotFlags_setOnline {robot? : Option RobotState} {mark : RobotState → RobotState}
    {isOnline : Bool}
    (hmark : ∀ robot, (mark robot).flags = (isOnline, robot.isExecuting, robot.currentStateCode)) :
    (robot?.map mark).map RobotState.flags = robot?.map RobotState.flags ↔
      ∀ robot, robot? = some robot → robot.isOnline = isOnline := by
  cases robot? with
  | none => simp
  | some robot =>
    rw [Option.map_some, Option.map_some, Option.map_some, hmark, RobotState.flags]
    simp [eq_comm]

theorem agrees_markOnline_iff {m : Manager} (h : m.Agrees) {id : String}
    {mark : RobotState → RobotState} {isOnline : Bool}
    (hmark : ∀ robot, (mark robot).flags = (isOnline, robot.isExecuting, robot.currentStateCode)) :
    (markOnline m id mark).Agrees ↔
      ∀ robot, m.robots id = some robot → robot.isOnline = isOnline := by
  rw [h.iff_of_stateRegistry (stateRegistry_markOnline m id mark), ← robotFlags_setOnline hmark]
  refine ⟨fun hall ↦ ?_, fun hid agent ↦ ?_⟩
  · have hid := hall id
    rwa [robotFlags, robotFlags, robots_markOnline, Function.update_self] at hid
  · rw [robotFlags, robotFlags, robots_markOnline]
    by_cases hagent : agent = id
    · rw [hagent, Function.update_self, hid]
    · rw [Function.update_of_ne hagent]

theorem agrees_cleanupStaleAgents_iff (h : g.manager.Agrees) (maxOfflineAge : ℕ) :
    (g.manager.cleanupStaleAgents now maxOfflineAge).Agrees ↔
      ∀ id, g.isStaleRobot now maxOfflineAge id = false := by
  have hregistry : (g.manager.cleanupStaleAgents now maxOfflineAge).stateRegistry =
      g.manager.stateRegistry :=
    rfl
  rw [h.iff_of_stateRegistry hregistry]
  refine forall_congr' fun id ↦ ?_
  rw [robotFlags, robotFlags, cleanupStaleAgents, isStaleRobot]
  cases hrobot : g.manager.robots id with
  | none => simp [hrobot]
  | some robot => simp [hrobot]

theorem agrees_manager_iff (h : g.manager.Agrees) (op : Manager.Op) :
    (g.manager.apply now op).Agrees ↔ g.TellsRegistry now (.manager op) := by
  cases op with
  | cleanupStaleAgents maxOfflineAge => exact agrees_cleanupStaleAgents_iff h maxOfflineAge
  | _ => exact iff_of_true (h.apply (by simp)) trivial

theorem agrees_checkStaleAgents_iff (h : g.manager.Agrees) :
    (g.checkStaleAgents now).manager.Agrees ↔ g.TellsRegistry now .checkStaleAgents := by
  have hregistry : (g.checkStaleAgents now).manager.stateRegistry = g.manager.stateRegistry := rfl
  rw [h.iff_of_stateRegistry hregistry]
  refine forall_congr' fun id ↦ ?_
  rw [robotFlags, robotFlags, checkStaleAgents]
  by_cases hout : g.timedOut now id = true
  · have hmark : ∀ robot : RobotState, ({ robot with isOnline := false } : RobotState).flags =
        (false, robot.isExecuting, robot.currentStateCode) := fun robot ↦ rfl
    rw [← robotFlags_setOnline hmark]
    simp [hout]
  · simp [hout]

theorem agrees_updateRobotTelemetry_iff (h : g.manager.Agrees) (robotID : String) :
    (g.updateRobotTelemetry now robotID).manager.Agrees ↔ g.manager.robots robotID ≠ none := by
  rw [updateRobotTelemetry]
  split
  · rename_i robot hrobot
    simp [h, hrobot]
  · rename_i hnone
    have hregistry : (g.manager.setRobot robotID (telemetryRobot now robotID)).stateRegistry =
        g.manager.stateRegistry := rfl
    rw [h.iff_of_stateRegistry hregistry]
    refine ⟨fun hall ↦ ?_, fun hne ↦ absurd hnone hne⟩
    have hid := hall robotID
    rw [robotFlags_setRobot, Function.update_self, robotFlags, hnone] at hid
    exact absurd hid (by simp)

/-- **An operation keeps the registry in agreement exactly when it has nothing to write that the
registry is not told.** -/
theorem agrees_apply_iff (h : g.manager.Agrees) (op : Op) :
    (g.apply now op).manager.Agrees ↔ g.TellsRegistry now op := by
  cases op with
  | manager op => exact agrees_manager_iff h op
  | registerAgent id => exact agrees_markOnline_iff h fun robot ↦ rfl
  | unregisterAgent id =>
    rw [GlobalStateManager.apply, unregisterAgent, TellsRegistry]
    split
    · rename_i hnone
      exact iff_of_true h (.inl hnone)
    · rename_i agent hagent
      rw [agrees_markOnline_iff h fun robot ↦ rfl]
      simp [hagent]
  | updateAgentHeartbeat id =>
    have hsame : (g.apply now (.updateAgentHeartbeat id)).manager = g.manager := by
      rw [GlobalStateManager.apply, updateAgentHeartbeat]
      split <;> rfl
    rw [hsame]
    exact iff_of_true h trivial
  | checkStaleAgents => exact agrees_checkStaleAgents_iff h
  | updateRobotTelemetry robotID => exact agrees_updateRobotTelemetry_iff h robotID

/-! ## Whole runs -/

/-- The condition on a call. -/
def CallTellsRegistry (s : Clocked) (call : Call) : Prop :=
  s.global.TellsRegistry call.now call.op

/-- **Where no call leaves the registry untold, it agrees with the robots in every state.** -/
theorem registry_agrees {s : Clocked}
    (h : GuardedRun.Reachable step CallTellsRegistry Initial s) : s.global.manager.Agrees := by
  refine h.invariant (I := fun s ↦ s.global.manager.Agrees) ?_ ?_
  · intro s hinit agentID
    rw [hinit]
    rfl
  · intro s call s' _ hagrees htells hstep
    rw [step_eq_some hstep]
    exact (agrees_apply_iff hagrees call.op).mpr htells

/-! ## A robot whose agent leaves -/

def emptyServer : Clocked := ⟨{}, 0⟩

theorem initial_emptyServer : Initial emptyServer := rfl

/-- Registering a robot and its agent, and starting a task on it. -/
def startedCalls : List Call :=
  [⟨.manager (.registerRobot "robot" ""), 1⟩, ⟨.registerAgent "robot", 2⟩,
    ⟨.manager (.tryStartExecution "robot" "task" "step" "graph" [] []), 3⟩]

/-- The agent leaves, or its heartbeats stop. -/
def leavingCalls : List Call := [⟨.unregisterAgent "robot", 4⟩]

def silentCalls : List Call := [⟨.checkStaleAgents, 20 * 10 ^ 9⟩]

/-- What the registry and the robot say. -/
def sides (s : Clocked) : Option Flags × Option Flags :=
  (s.global.manager.registryFlags "robot", s.global.manager.robotFlags "robot")

theorem startedRobot_agrees : ∃ s, GuardedRun.Reachable step CallTellsRegistry Initial s ∧
    sides s = (some (true, true, "idle"), some (true, true, "idle")) ∧
    s.global.manager.Agrees := by
  have hempty : GuardedRun.Reachable step CallTellsRegistry Initial emptyServer :=
    .start initial_emptyServer
  have hregistered := hempty.next (a := startedCalls[0]) trivial rfl
  have hconnected := hregistered.next (a := startedCalls[1])
    (fun robot hrobot ↦ by obtain rfl := Option.some.inj hrobot; rfl) rfl
  have hstarted := hconnected.next (a := startedCalls[2]) trivial rfl
  exact ⟨_, hstarted, by decide, registry_agrees hstarted⟩

/-- **An agent that leaves, and one that falls silent, stay online in the registry.** -/
theorem agentGone_still_online :
    (∃ s, GuardedRun.Reachable step (fun _ _ ↦ True) Initial s ∧
      sides s = (some (true, true, "idle"), some (false, true, "idle")) ∧
      ¬ s.global.manager.Agrees) ∧
    ∃ s, GuardedRun.Reachable step (fun _ _ ↦ True) Initial s ∧
      sides s = (some (true, true, "idle"), some (false, true, "idle")) ∧
      ¬ s.global.manager.Agrees := by
  have hdiffers {s : Clocked}
      (h : sides s = (some (true, true, "idle"), some (false, true, "idle"))) :
      ¬ s.global.manager.Agrees := by
    intro hagrees
    obtain ⟨hregistry, hrobot⟩ := Prod.mk.inj h
    exact absurd (hregistry.symm.trans ((hagrees "robot").trans hrobot)) (by decide)
  refine ⟨?_, ?_⟩
  · obtain ⟨s, hs, hsides⟩ := GuardedRun.exists_reachable_of_run step (fun _ _ ↦ True)
      initial_emptyServer (startedCalls ++ leavingCalls)
      (P := fun s ↦ sides s = (some (true, true, "idle"), some (false, true, "idle"))) (by decide)
    exact ⟨s, hs, hsides, hdiffers hsides⟩
  · obtain ⟨s, hs, hsides⟩ := GuardedRun.exists_reachable_of_run step (fun _ _ ↦ True)
      initial_emptyServer (startedCalls ++ silentCalls)
      (P := fun s ↦ sides s = (some (true, true, "idle"), some (false, true, "idle"))) (by decide)
    exact ⟨s, hs, hsides, hdiffers hsides⟩

end GlobalStateManager
end State
end FleetServer
