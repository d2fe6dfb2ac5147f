import FleetServer.State.Operations
import FleetServer.State.AtomicStart

/-!
# The state a robot shows

`CurrentState` of a robot is a copy: of the state of its latest override while it has overrides, and
of the state it reported last otherwise (`shownState`).  The operations that change overrides or the
reported state are meant to renew the copy.

Three of them may not.  `RegisterRobot` writes both states and does not look at the overrides, which
stay; an operation that clears the last override keeps the copy of it when the reported state is
empty; and when two overrides were set at the same time, the loop over the map decides which of the
two is the latest.  `currentState_shown` says that in a run without these (`RenewsState`) every
robot shows the state it should.
-/

set_option autoImplicit false

namespace FleetServer
namespace State
namespace Manager

/-- The state a robot should show, with the override set last in front. -/
def shownState (reportedState : String) : List (String × StateOverride) → String
  | [] => reportedState
  | latest :: _ => latest.2.state

/-- The two states of a robot: the current and the reported one. -/
def states (m : Manager) (agentID : String) : Option (String × String) :=
  (m.robots agentID).map fun robot ↦ (robot.currentState, robot.reportedState)

/-- Of overrides set at the same time it does not matter which comes first; apart from that they
are listed with the latest in front. -/
def LatestFirst (overrides : List (String × StateOverride)) : Prop :=
  overrides.Pairwise fun x y ↦
    y.2.setAt ≤ x.2.setAt ∧ (y.2.setAt = x.2.setAt → y.2.state = x.2.state)

/-- A robot, registered or not, shows what it should at a time. -/
structure Shows (now : ℕ) (states : Option (String × String))
    (overrides : List (String × StateOverride)) : Prop where
  shown : ∀ current reported, states = some (current, reported) →
    current = shownState reported overrides
  latestFirst : LatestFirst overrides
  set : ∀ entry ∈ overrides, entry.2.state ≠ "" ∧ entry.2.setAt ≤ now

/-- Every robot shows what it should. -/
def ShowsAll (m : Manager) (now : ℕ) : Prop :=
  ∀ agentID, Shows now (m.states agentID) (m.stateOverrides agentID)

variable {m m' : Manager} {now now' : ℕ} {agentID : String}
  {overrides : List (String × StateOverride)}

/-! ## The latest override -/

/-- **Whatever the order of the loop, it finds the override set last.** -/
theorem effectiveOverride_eq (order : RangeOrder (String × StateOverride))
    (hoverrides : m.stateOverrides agentID = overrides) (h : LatestFirst overrides) :
    m.effectiveOverride order agentID = shownState "" overrides := by
  rw [effectiveOverride, hoverrides]
  cases overrides with
  | nil =>
    have hempty : order.range [] = [] := (order.perm []).eq_nil
    rw [hempty]
    rfl
  | cons first rest =>
    split
    · rename_i hnone
      have hempty := List.argmax_eq_none.mp hnone
      have hmem : first ∈ order.range (first :: rest) := order.mem_range.mpr List.mem_cons_self
      rw [hempty] at hmem
      exact absurd hmem List.not_mem_nil
    · rename_i latest hlatest
      have hmem := (order.mem_range).mp (List.argmax_mem hlatest)
      rcases List.mem_cons.mp hmem with rfl | hmem
      · rfl
      · obtain ⟨hle, htie⟩ := (List.pairwise_cons.mp h).1 latest hmem
        have hge := List.le_of_mem_argmax ((order.mem_range).mpr List.mem_cons_self) hlatest
        exact htie (by omega)

theorem Shows.mono {states : Option (String × String)} (h : Shows now states overrides)
    (hle : now ≤ now') : Shows now' states overrides := by
  refine ⟨h.shown, h.latestFirst, fun entry hentry ↦ ?_⟩
  obtain ⟨hstate, hset⟩ := h.set entry hentry
  exact ⟨hstate, hset.trans hle⟩

/-- A robot without overrides shows what it reported. -/
theorem shows_nil {reported : String} : Shows now (some (reported, reported)) [] := by
  refine ⟨?_, List.Pairwise.nil, by simp⟩
  rintro current reported h
  obtain ⟨rfl, rfl⟩ := Prod.mk.inj (Option.some.inj h)
  rfl

theorem Shows.head_ne {latest : String × StateOverride} {rest : List (String × StateOverride)}
    {states : Option (String × String)} (h : Shows now states (latest :: rest)) :
    latest.2.state ≠ "" :=
  (h.set latest List.mem_cons_self).1

/-! ## Operations that touch neither the states nor the overrides -/

/-- Both managers have the same states and overrides. -/
def SameStates (m m' : Manager) : Prop :=
  m'.states = m.states ∧ m'.stateOverrides = m.stateOverrides

theorem SameStates.refl (m : Manager) : SameStates m m := ⟨rfl, rfl⟩

theorem SameStates.trans {m'' : Manager} (h : SameStates m m') (h' : SameStates m' m'') :
    SameStates m m'' :=
  ⟨h'.1.trans h.1, h'.2.trans h.2⟩

theorem sameStates_of_eq (hrobots : m'.robots = m.robots)
    (hoverrides : m'.stateOverrides = m.stateOverrides) : SameStates m m' := by
  refine ⟨?_, hoverrides⟩
  funext agentID
  rw [states, states, hrobots]

theorem sameStates_foldl {ι : Type} {f : Manager → ι → Manager} {rounds : List ι}
    (h : ∀ m, ∀ i ∈ rounds, SameStates m (f m i)) (m : Manager) :
    SameStates m (rounds.foldl f m) := by
  induction rounds generalizing m with
  | nil => exact SameStates.refl m
  | cons i rest ih =>
    exact (h m i List.mem_cons_self).trans
      (ih (fun m j hj ↦ h m j (List.mem_cons_of_mem _ hj)) (f m i))

theorem states_setRobot (robot : RobotState) :
    (m.setRobot agentID robot).states =
      Function.update m.states agentID (some (robot.currentState, robot.reportedState)) := by
  funext agent
  by_cases hagent : agent = agentID
  · simp [states, setRobot, hagent]
  · simp [states, setRobot, Function.update_of_ne hagent]

/-- Changing something else of a robot. -/
theorem sameStates_setRobot {robot robot' : RobotState} (hrobot : m.robots agentID = some robot)
    (hcurrent : robot'.currentState = robot.currentState)
    (hreported : robot'.reportedState = robot.reportedState) :
    SameStates m (m.setRobot agentID robot') := by
  refine ⟨?_, rfl⟩
  rw [states_setRobot, hcurrent, hreported, Function.update_eq_self_iff, states, hrobot]
  rfl

theorem sameStates_updateAgentState (stateCode : String) (semanticTags : List String)
    (graphID : String) (isOnline isExecuting : Bool) :
    SameStates m
      (m.updateAgentState now agentID stateCode semanticTags graphID isOnline isExecuting) :=
  sameStates_of_eq (by rfl) (by rfl)

theorem sameStates_setAgentExecuting (isExecuting : Bool) :
    SameStates m (m.setAgentExecuting now agentID isExecuting) := by
  rw [setAgentExecuting]
  split <;> exact sameStates_of_eq (by rfl) (by rfl)

theorem sameStates_setAgentOnline (isOnline : Bool) :
    SameStates m (m.setAgentOnline now agentID isOnline) := by
  rw [setAgentOnline]
  split <;> exact sameStates_of_eq (by rfl) (by rfl)

theorem sameStates_releaseZone (zoneID : String) : SameStates m (releaseZone agentID m zoneID) := by
  rw [releaseZone]
  split
  · exact SameStates.refl m
  · split <;> exact sameStates_of_eq (by rfl) (by rfl)

theorem sameStates_reserveZones (zoneIDs : List String) :
    SameStates m (reserveZones now agentID m [] zoneIDs).1 := by
  rw [(@reserveZones_eq now agentID zoneIDs m []).1]
  split
  · rw [List.nil_append, rollback_eq, foldl_deleteZone]
    exact sameStates_of_eq (by rfl) (by rfl)
  · rw [foldl_reserveZone]
    exact sameStates_of_eq (by rfl) (by rfl)

theorem sameStates_tryReserveZone (zoneID : String) :
    SameStates m (m.tryReserveZone now zoneID agentID).1 := by
  rw [tryReserveZone]
  split
  · split
    · split <;> exact sameStates_of_eq (by rfl) (by rfl)
    · exact sameStates_of_eq (by rfl) (by rfl)
  · exact sameStates_of_eq (by rfl) (by rfl)

theorem sameStates_tryStartExecution {taskID stepID graphID : String} (requiredZones : List String)
    (preconditions : List Precondition) :
    SameStates m
      (m.tryStartExecution now agentID taskID stepID graphID requiredZones preconditions).1 := by
  have hreserve := @sameStates_reserveZones m now agentID requiredZones
  rw [tryStartExecution]
  split
  · exact SameStates.refl m
  · rename_i robot hrobot
    split
    · exact SameStates.refl m
    · split
      · exact SameStates.refl m
      · have hrobots := robots_reserveZones now agentID requiredZones m []
        split
        · rename_i heq
          rw [heq] at hreserve
          exact hreserve
        · rename_i m' heq
          rw [heq] at hreserve hrobots
          refine hreserve.trans (SameStates.trans ?_ (sameStates_updateAgentState _ _ _ _ _))
          exact sameStates_setRobot ((congrFun hrobots agentID).trans hrobot) (by rfl) (by rfl)

theorem sameStates_startOne (exec : MultiExecutionRequest) :
    SameStates m (startOne now m exec) := by
  rw [startOne]
  split
  · exact SameStates.refl m
  · rename_i robot hrobot
    have hstart : SameStates m
        (m.setRobot exec.agentID (started now robot exec.taskID exec.stepID exec.graphID)) :=
      sameStates_setRobot hrobot (by rfl) (by rfl)
    refine hstart.trans ?_
    dsimp only
    rw [foldl_reserveZone]
    exact sameStates_of_eq (by rfl) (by rfl)

theorem sameStates_tryStartMultiExecution (executions : List MultiExecutionRequest)
    (preconditions : List Precondition) :
    SameStates m (m.tryStartMultiExecution now executions preconditions).1 := by
  obtain ⟨hrefused, hstarted⟩ := @tryStartMultiExecution_spec m now executions preconditions
  by_cases hout : (m.tryStartMultiExecution now executions preconditions).2 = none
  · rw [(hstarted hout).1]
    exact sameStates_foldl (fun m exec _ ↦ sameStates_startOne exec) m
  · rw [hrefused hout]
    exact SameStates.refl m

/-- What an execution update writes: the robot, the reset guard and the registry. -/
theorem sameStates_setExecuting {robot robot' : RobotState} (hrobot : m.robots agentID = some robot)
    (hcurrent : robot'.currentState = robot.currentState)
    (hreported : robot'.reportedState = robot.reportedState) (isExecuting : Bool) :
    SameStates m ((if isExecuting then (m.setRobot agentID robot').clearManualResetGuard agentID
      else m.setRobot agentID robot').setAgentExecuting now agentID isExecuting) := by
  have hset := sameStates_setRobot hrobot hcurrent hreported
  refine SameStates.trans ?_ (sameStates_setAgentExecuting isExecuting)
  split
  · exact hset.trans (sameStates_of_eq (by rfl) (by rfl))
  · exact hset

theorem sameStates_updateRobotExecution (isExecuting : Bool) (taskID stepID : String) :
    SameStates m (m.updateRobotExecution now agentID isExecuting taskID stepID) := by
  rw [updateRobotExecution]
  split
  · exact SameStates.refl m
  · rename_i robot hrobot
    exact sameStates_setExecuting hrobot (by rfl) (by rfl) _

theorem sameStates_tryUpdateRobotExecutionFromHeartbeat (hbIsExecuting : Bool)
    (hbTaskID hbStepID : String) :
    SameStates m (m.tryUpdateRobotExecutionFromHeartbeat now agentID hbIsExecuting hbTaskID
      hbStepID).1 := by
  rw [tryUpdateRobotExecutionFromHeartbeat]
  split
  · exact SameStates.refl m
  · rename_i robot hrobot
    split
    · split
      · exact SameStates.refl m
      · split
        · refine SameStates.trans (sameStates_setRobot hrobot ?_ ?_)
            (sameStates_of_eq (by rfl) (by rfl)) <;> rfl
        · exact SameStates.refl m
    · exact sameStates_setExecuting hrobot (by rfl) (by rfl) _

theorem sameStates_updateRobotEnhancedState (stateCode graphID : String)
    (semanticTags : List String) :
    SameStates m (m.afterResult
      (m.updateRobotEnhancedState now agentID stateCode semanticTags graphID)) := by
  rw [updateRobotEnhancedState]
  split
  · exact SameStates.refl m
  · rename_i robot hrobot
    refine SameStates.trans (sameStates_setRobot hrobot ?_ ?_)
      (sameStates_updateAgentState _ _ _ _ _) <;> rfl

theorem sameStates_setRobotOnline (isOnline : Bool) :
    SameStates m (m.afterResult (m.setRobotOnline now agentID isOnline)) := by
  rw [setRobotOnline]
  split
  · exact SameStates.refl m
  · rename_i robot hrobot
    refine SameStates.trans (sameStates_setRobot hrobot ?_ ?_)
      (sameStates_setAgentOnline isOnline) <;> rfl

/-! ## Operations that change one robot -/

theorem ShowsAll.same (h : ShowsAll m now) (hle : now ≤ now') (hsame : SameStates m m') :
    ShowsAll m' now' := by
  intro agent
  rw [hsame.1, hsame.2]
  exact (h agent).mono hle

/-- The other robots, and the other overrides, are as they were. -/
def SameElsewhere (agentID : String) (m m' : Manager) : Prop :=
  ∀ agent, agent ≠ agentID →
    m'.states agent = m.states agent ∧ m'.stateOverrides agent = m.stateOverrides agent

theorem ShowsAll.change (h : ShowsAll m now) (hle : now ≤ now') (helse : SameElsewhere agentID m m')
    (hself : Shows now' (m'.states agentID) (m'.stateOverrides agentID)) : ShowsAll m' now' := by
  intro agent
  by_cases hagent : agent = agentID
  · rw [hagent]
    exact hself
  · obtain ⟨hstates, hoverrides⟩ := helse agent hagent
    rw [hstates, hoverrides]
    exact (h agent).mono hle

theorem sameElsewhere_of_update {states : Option (String × String)}
    (hstates : m'.states = Function.update m.states agentID states)
    (hoverrides : m'.stateOverrides = Function.update m.stateOverrides agentID overrides) :
    SameElsewhere agentID m m' := by
  intro agent hagent
  rw [hstates, hoverrides, Function.update_of_ne hagent, Function.update_of_ne hagent]
  exact ⟨rfl, rfl⟩

/-- One robot gets new states and overrides. -/
theorem ShowsAll.write {states : Option (String × String)} (h : ShowsAll m now) (hle : now ≤ now')
    (hstates : m'.states = Function.update m.states agentID states)
    (hoverrides : m'.stateOverrides = Function.update m.stateOverrides agentID overrides)
    (hself : Shows now' states overrides) : ShowsAll m' now' := by
  refine h.change hle (sameElsewhere_of_update hstates hoverrides) ?_
  rw [hstates, hoverrides, Function.update_self, Function.update_self]
  exact hself

theorem states_of_robot {robot : RobotState} (h : m.robots agentID = some robot) :
    m.states agentID = some (robot.currentState, robot.reportedState) := by
  rw [states, h, Option.map_some]

theorem stateOverrides_normalizeReportedStateForManualReset (state : String) :
    (m.normalizeReportedStateForManualReset now agentID state).1.stateOverrides =
        m.stateOverrides ∧
      (m.normalizeReportedStateForManualReset now agentID state).1.states = m.states := by
  rw [normalizeReportedStateForManualReset]
  split
  · exact ⟨rfl, rfl⟩
  · split
    · exact ⟨rfl, rfl⟩
    · split <;> exact ⟨rfl, rfl⟩

/-- A registration writes both states and leaves the overrides: the robot shows what it should if
the latest of them, if there is one, has the state that is written. -/
theorem ShowsAll.registerRobot {initialState : String} (h : ShowsAll m now) (hle : now ≤ now')
    (hlatest : shownState initialState (m.stateOverrides agentID) = initialState) :
    ShowsAll (m.registerRobot now' agentID initialState) now' := by
  refine h.write hle (states_setRobot _) (Function.update_eq_self _ _).symm ⟨?_, ?_, ?_⟩
  · intro current reported heq
    obtain ⟨rfl, rfl⟩ := Prod.mk.inj (Option.some.inj heq)
    exact hlatest.symm
  · exact (h agentID).latestFirst
  · exact ((h agentID).mono hle).set

theorem ShowsAll.unregisterRobot (h : ShowsAll m now) (hle : now ≤ now') :
    ShowsAll (m.unregisterRobot agentID) now' := by
  have hstates : (m.unregisterRobot agentID).states = Function.update m.states agentID none := by
    funext agent
    by_cases hagent : agent = agentID
    · simp [states, Manager.unregisterRobot, deleteRobot, clearStateOverrides,
        clearManualResetGuard, deleteZonesOf, removeAgent, hagent]
    · simp [states, Manager.unregisterRobot, deleteRobot, clearStateOverrides,
        clearManualResetGuard, deleteZonesOf, removeAgent, Function.update_of_ne hagent]
  exact h.write hle hstates (by rfl) ⟨by simp, List.Pairwise.nil, by simp⟩

theorem ShowsAll.updateRobotState {order : RangeOrder (String × StateOverride)}
    {newState : String} (h : ShowsAll m now) (hle : now ≤ now')
    (hok : m.updateRobotState now' order agentID newState = .ok m') : ShowsAll m' now' := by
  have hshows := (h agentID).mono hle
  obtain ⟨hsame, hstates⟩ :=
    @stateOverrides_normalizeReportedStateForManualReset m now' agentID newState
  cases hrobot : m.robots agentID with
  | none =>
    rw [Manager.updateRobotState, hrobot] at hok
    exact absurd hok (by simp)
  | some robot =>
    rw [Manager.updateRobotState, hrobot] at hok
    obtain ⟨m₁, reported⟩ := m.normalizeReportedStateForManualReset now' agentID newState
    dsimp only at hok hsame hstates
    obtain rfl := Except.ok.inj hok
    refine h.write hle ((states_setRobot _).trans (by rw [hstates]))
      (hsame.trans (Function.update_eq_self agentID _).symm) ⟨?_, hshows.latestFirst, hshows.set⟩
    intro current reported heq
    obtain ⟨rfl, rfl⟩ := Prod.mk.inj (Option.some.inj heq)
    dsimp only
    rw [effectiveOverride_eq order (congrFun hsame agentID) hshows.latestFirst, hsame]
    cases hoverrides : m.stateOverrides agentID with
    | nil => rfl
    | cons latest rest =>
      rw [hoverrides] at hshows
      simp [shownState, hshows.head_ne]

/-- The overrides of the agent can be dropped: it has none, or its reported state is not empty. -/
def CanDrop (m : Manager) (agentID : String) : Prop :=
  m.stateOverrides agentID = [] ∨
    ∀ robot, m.robots agentID = some robot → robot.reportedState ≠ ""

/-- A new override shows, unless another one with another state was set at the same time. -/
theorem ShowsAll.setRobotStateOverride {order : RangeOrder (String × StateOverride)}
    {sourceID state : String} (h : ShowsAll m now) (hle : now ≤ now')
    (htie : ∀ entry ∈ m.stateOverrides agentID, entry.1 ≠ sourceID → entry.2.setAt = now' →
      entry.2.state = state)
    (hok : m.setRobotStateOverride now' order agentID sourceID state = .ok m') :
    ShowsAll m' now' := by
  rw [Manager.setRobotStateOverride] at hok
  split at hok
  · exact absurd hok (by simp)
  · rename_i hstate
    split at hok
    · exact absurd hok (by simp)
    · split at hok
      · exact absurd hok (by simp)
      · obtain rfl := Except.ok.inj hok
        have hlatest : LatestFirst ((sourceID, ⟨state, now'⟩) ::
            (m.stateOverrides agentID).filter (·.1 ≠ sourceID)) := by
          refine List.pairwise_cons.mpr ⟨fun entry hentry ↦ ?_, (h agentID).latestFirst.filter _⟩
          obtain ⟨hmem, hsource⟩ := List.mem_filter.mp hentry
          have hset := ((h agentID).set entry hmem).2
          exact ⟨hset.trans hle, fun heq ↦ htie entry hmem (by simpa using hsource) heq⟩
        refine h.write hle (states_setRobot _) (by rfl) ⟨?_, hlatest, ?_⟩
        · intro current reported heq
          obtain ⟨rfl, rfl⟩ := Prod.mk.inj (Option.some.inj heq)
          dsimp only
          rw [effectiveOverride_eq order (Function.update_self ..) hlatest]
          rfl
        · refine List.forall_mem_cons.mpr ⟨⟨hstate, le_rfl⟩, fun entry hentry ↦ ?_⟩
          exact ((h agentID).mono hle).set entry (List.mem_filter.mp hentry).1

/-- Clearing an override shows the next one, or the reported state if that is not empty. -/
theorem ShowsAll.clearRobotStateOverride {order : RangeOrder (String × StateOverride)}
    {sourceID : String} (h : ShowsAll m now) (hle : now ≤ now')
    (hlast : (m.stateOverrides agentID).filter (·.1 ≠ sourceID) = [] → m.CanDrop agentID)
    (hok : m.clearRobotStateOverride now' order agentID sourceID = .ok m') :
    ShowsAll m' now' := by
  rw [Manager.clearRobotStateOverride] at hok
  split at hok
  · exact absurd hok (by simp)
  · split at hok
    · exact absurd hok (by simp)
    · rename_i robot hrobot
      obtain rfl := Except.ok.inj hok
      have hfirst : LatestFirst ((m.stateOverrides agentID).filter (·.1 ≠ sourceID)) :=
        (h agentID).latestFirst.filter _
      have hset : ∀ entry ∈ (m.stateOverrides agentID).filter (·.1 ≠ sourceID),
          entry.2.state ≠ "" ∧ entry.2.setAt ≤ now' := fun entry hentry ↦
        ((h agentID).mono hle).set entry (List.mem_filter.mp hentry).1
      refine h.write hle (states_setRobot _) (by rfl) ⟨?_, hfirst, hset⟩
      intro current reported heq
      obtain ⟨rfl, rfl⟩ := Prod.mk.inj (Option.some.inj heq)
      dsimp only
      rw [effectiveOverride_eq order (Function.update_self ..) hfirst]
      cases hoverrides : (m.stateOverrides agentID).filter (·.1 ≠ sourceID) with
      | cons latest rest =>
        have hne := (hset latest (by rw [hoverrides]; exact List.mem_cons_self)).1
        simp [shownState, hne]
      | nil =>
        by_cases hreported : robot.reportedState = ""
        · have hnone : m.stateOverrides agentID = [] :=
            (hlast hoverrides).resolve_right fun hne ↦ hne robot hrobot hreported
          have hshown := (h agentID).shown _ _ (states_of_robot hrobot)
          rw [hnone] at hshown
          simpa [shownState, hreported] using hshown
        · simp [shownState, hreported]

/-- What completing an execution does to the states: the overrides go. -/
theorem states_completeExecution {robot : RobotState} (releasedZones : List String)
    (hrobot : m.robots agentID = some robot) :
    (m.completeExecution now agentID releasedZones).states = Function.update m.states agentID
        (some (if robot.reportedState ≠ "" then robot.reportedState else robot.currentState,
          robot.reportedState)) ∧
      (m.completeExecution now agentID releasedZones).stateOverrides =
        Function.update m.stateOverrides agentID [] := by
  have hrelease : ∀ m : Manager, SameStates m (releasedZones.foldl (releaseZone agentID) m) :=
    sameStates_foldl fun _ zoneID _ ↦ sameStates_releaseZone zoneID
  rw [completeExecution, hrobot]
  exact ⟨(hrelease _).1.trans (states_setRobot _), (hrelease _).2⟩

theorem ShowsAll.completeExecution {releasedZones : List String} (h : ShowsAll m now)
    (hle : now ≤ now') (hdrop : m.CanDrop agentID) :
    ShowsAll (m.completeExecution now' agentID releasedZones) now' := by
  cases hrobot : m.robots agentID with
  | none =>
    rw [Manager.completeExecution, hrobot]
    exact h.same hle (SameStates.refl m)
  | some robot =>
    obtain ⟨hstates, hoverrides⟩ := @states_completeExecution m now' agentID _ releasedZones hrobot
    refine h.write hle hstates hoverrides ?_
    by_cases hreported : robot.reportedState = ""
    · have hnone := hdrop.resolve_right fun hne ↦ hne robot hrobot hreported
      have hshown := (h agentID).shown _ _ (states_of_robot hrobot)
      rw [hnone] at hshown
      rw [if_neg (by simpa using hreported), hshown]
      exact shows_nil
    · rw [if_pos hreported]
      exact shows_nil

theorem canDrop_iff : m.CanDrop agentID ↔ m.stateOverrides agentID = [] ∨
    ∀ current reported, m.states agentID = some (current, reported) → reported ≠ "" := by
  rw [CanDrop, states]
  cases m.robots agentID with
  | none => simp
  | some robot => simp

/-- Completing one execution leaves what can be dropped. -/
theorem CanDrop.completeExecution {agent : String} {releasedZones : List String}
    (h : m.CanDrop agent) : (m.completeExecution now agentID releasedZones).CanDrop agent := by
  cases hrobot : m.robots agentID with
  | none =>
    rw [Manager.completeExecution, hrobot]
    exact h
  | some robot =>
    obtain ⟨hstates, hoverrides⟩ := @states_completeExecution m now agentID _ releasedZones hrobot
    rw [canDrop_iff] at h ⊢
    rw [hstates, hoverrides]
    by_cases hagent : agent = agentID
    · rw [hagent, Function.update_self]
      exact Or.inl rfl
    · rw [Function.update_of_ne hagent, Function.update_of_ne hagent]
      exact h

theorem ShowsAll.completeMultiExecution {executions : List MultiExecutionRequest}
    (h : ShowsAll m now) (hle : now ≤ now') (hdrop : ∀ exec ∈ executions, m.CanDrop exec.agentID) :
    ShowsAll (m.completeMultiExecution now' executions) now' := by
  rw [Manager.completeMultiExecution]
  induction executions generalizing m now with
  | nil => exact h.same hle (SameStates.refl m)
  | cons exec rest ih =>
    refine ih (h.completeExecution hle (hdrop exec List.mem_cons_self)) le_rfl fun e he ↦ ?_
    exact (hdrop e (List.mem_cons_of_mem _ he)).completeExecution

theorem ShowsAll.resetAgentState (h : ShowsAll m now) (hle : now ≤ now')
    (hok : m.resetAgentState now' agentID = .ok m') : ShowsAll m' now' := by
  rw [Manager.resetAgentState] at hok
  split at hok
  · exact absurd hok (by simp)
  · obtain rfl := Except.ok.inj hok
    obtain ⟨hstates, hoverrides⟩ :=
      (sameStates_updateAgentState "idle" [] "" _ false).trans (sameStates_setAgentExecuting false)
    exact h.write hle (hstates.trans (states_setRobot _)) hoverrides shows_nil

theorem ShowsAll.cleanupStaleAgents {maxOfflineAge : ℕ} (h : ShowsAll m now) (hle : now ≤ now') :
    ShowsAll (m.cleanupStaleAgents now' maxOfflineAge) now' := by
  intro agent
  rw [states, Manager.cleanupStaleAgents]
  dsimp only
  split
  · exact ⟨by simp, List.Pairwise.nil, by simp⟩
  · exact (h agent).mono hle

end Manager

/-! ## Runs -/

open GuardedRun Manager

/-- The call is none of those that leave a robot with a state that is not renewed: a robot that has
overrides is not registered again with another state, two overrides with different states are not
set at one time, and overrides are dropped only when the reported state is not empty. -/
def RenewsState (s : Clocked) (call : Call) : Prop :=
  match call.op with
  | .registerRobot id initialState =>
    shownState initialState (s.manager.stateOverrides id) = initialState
  | .setRobotStateOverride _ agentID sourceID state =>
    ∀ entry ∈ s.manager.stateOverrides agentID, entry.1 ≠ sourceID →
      entry.2.setAt = call.now → entry.2.state = state
  | .clearRobotStateOverride _ agentID sourceID =>
    (s.manager.stateOverrides agentID).filter (·.1 ≠ sourceID) = [] → s.manager.CanDrop agentID
  | .completeExecution agentID _ => s.manager.CanDrop agentID
  | .completeMultiExecution executions => ∀ exec ∈ executions, s.manager.CanDrop exec.agentID
  | _ => True

theorem showsAll_afterResult {m : Manager} {now now' : ℕ} {result : Except String Manager}
    (h : m.ShowsAll now) (hle : now ≤ now') (hok : ∀ m', result = .ok m' → m'.ShowsAll now') :
    (m.afterResult result).ShowsAll now' := by
  cases result with
  | error err => exact h.same hle (SameStates.refl m)
  | ok m' => exact hok m' rfl

theorem showsAll_step {s s' : Clocked} {call : Call} (h : s.manager.ShowsAll s.clock)
    (hrenews : RenewsState s call) (hstep : step s call = some s') :
    s'.manager.ShowsAll s'.clock := by
  obtain ⟨hle, hnow, hmanager⟩ := step_eq_some hstep
  rw [hmanager, hnow]
  rw [hnow] at hle
  obtain ⟨op, now⟩ := call
  cases op with
  | registerRobot id initialState => exact h.registerRobot hle hrenews
  | unregisterRobot id => exact h.unregisterRobot hle
  | updateRobotState order agentID newState =>
    exact showsAll_afterResult h hle fun _ ↦ h.updateRobotState hle
  | updateRobotEnhancedState agentID stateCode semanticTags graphID =>
    exact h.same hle (sameStates_updateRobotEnhancedState stateCode graphID semanticTags)
  | setRobotOnline agentID isOnline => exact h.same hle (sameStates_setRobotOnline isOnline)
  | setRobotStateOverride order agentID sourceID state =>
    exact showsAll_afterResult h hle fun _ ↦ h.setRobotStateOverride hle hrenews
  | clearRobotStateOverride order agentID sourceID =>
    exact showsAll_afterResult h hle fun _ ↦ h.clearRobotStateOverride hle hrenews
  | updateRobotExecution agentID isExecuting taskID stepID =>
    exact h.same hle (sameStates_updateRobotExecution isExecuting taskID stepID)
  | tryUpdateRobotExecutionFromHeartbeat agentID hbIsExecuting hbTaskID hbStepID =>
    exact h.same hle
      (sameStates_tryUpdateRobotExecutionFromHeartbeat hbIsExecuting hbTaskID hbStepID)
  | tryReserveZone zoneID agentID => exact h.same hle (sameStates_tryReserveZone zoneID)
  | releaseZone zoneID agentID => exact h.same hle (sameStates_releaseZone zoneID)
  | cleanupExpiredZones => exact h.same hle (sameStates_of_eq (by rfl) (by rfl))
  | tryStartExecution agentID taskID stepID graphID requiredZones preconditions =>
    exact h.same hle (sameStates_tryStartExecution requiredZones preconditions)
  | completeExecution agentID releasedZones => exact h.completeExecution hle hrenews
  | resetAgentState agentID => exact showsAll_afterResult h hle fun _ ↦ h.resetAgentState hle
  | tryStartMultiExecution executions preconditions =>
    exact h.same hle (sameStates_tryStartMultiExecution executions preconditions)
  | completeMultiExecution executions => exact h.completeMultiExecution hle hrenews
  | cleanupStaleAgents maxOfflineAge => exact h.cleanupStaleAgents hle

theorem showsAll_start (now : ℕ) : ({} : Manager).ShowsAll now :=
  fun _ ↦ ⟨by simp [states], List.Pairwise.nil, by simp⟩

/-- **In a run that renews the states every robot shows the state of its latest override, or its
reported state when it has none**, and the loop over the overrides finds the same one in every
order. -/
theorem currentState_shown {s : Clocked} (h : Reachable step RenewsState (·.manager = {}) s)
    {agentID : String} {robot : RobotState} (hrobot : s.manager.robots agentID = some robot) :
    robot.currentState = shownState robot.reportedState (s.manager.stateOverrides agentID) ∧
      (s.manager.stateOverrides agentID ≠ [] →
        ∀ order, s.manager.effectiveOverride order agentID = robot.currentState) := by
  have hshows : s.manager.ShowsAll s.clock := by
    refine h.invariant (I := fun s ↦ s.manager.ShowsAll s.clock) (fun s hs ↦ ?_)
      fun _ _ _ _ ih hrenews hstep ↦ showsAll_step ih hrenews hstep
    rw [hs]
    exact showsAll_start s.clock
  have hshown := (hshows agentID).shown _ _ (states_of_robot hrobot)
  refine ⟨hshown, fun hne order ↦ ?_⟩
  rw [effectiveOverride_eq order rfl (hshows agentID).latestFirst, hshown]
  cases hoverrides : s.manager.stateOverrides agentID with
  | nil => exact absurd hoverrides hne
  | cons latest rest => rfl

/-- Registering a robot and giving it an override. -/
def movingCalls : List Call :=
  [⟨.registerRobot "r1" "idle", 0⟩,
    ⟨.setRobotStateOverride (.asListed _) "r1" "a" "moving", 1⟩]

/-- The override shows. -/
theorem override_shown :
    ∃ s robot, Reachable step RenewsState (·.manager = {}) s ∧
      s.manager.robots "r1" = some robot ∧ robot.currentState = "moving" ∧
      robot.currentState = shownState robot.reportedState (s.manager.stateOverrides "r1") ∧
      (s.manager.stateOverrides "r1" ≠ [] →
        ∀ order, s.manager.effectiveOverride order "r1" = robot.currentState) := by
  have h₀ : Reachable step RenewsState (·.manager = {}) ⟨{}, 0⟩ := .start rfl
  have h₁ := h₀.next (a := movingCalls[0]) (show shownState "idle" [] = "idle" by rfl) (by rfl)
  have h₂ := h₁.next (a := movingCalls[1])
    (show ∀ entry ∈ ([] : List (String × StateOverride)), entry.1 ≠ "a" → entry.2.setAt = 1 →
      entry.2.state = "moving" by simp) (by rfl)
  exact ⟨_, _, h₂, by rfl, by rfl, currentState_shown h₂ (by rfl)⟩

/-- **A robot that has an override registers again, and no longer shows it.** -/
theorem registeredAgain_hides_override :
    ∃ s robot, Reachable step (fun _ _ ↦ True) (·.manager = {}) s ∧
      s.manager.robots "r1" = some robot ∧ robot.currentState = "idle" ∧
      shownState robot.reportedState (s.manager.stateOverrides "r1") = "moving" := by
  have h₀ : Reachable step (fun _ _ ↦ True) (·.manager = {}) ⟨{}, 0⟩ := .start rfl
  have h₁ := h₀.next (a := movingCalls[0]) trivial (by rfl)
  have h₂ := h₁.next (a := movingCalls[1]) trivial (by rfl)
  have h₃ := h₂.next (a := ⟨.registerRobot "r1" "idle", 2⟩) trivial (by rfl)
  exact ⟨_, _, h₃, by rfl, by rfl, by rfl⟩

end State
end FleetServer
