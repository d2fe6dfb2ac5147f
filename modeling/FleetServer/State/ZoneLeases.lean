import Mathlib.Data.List.TakeWhile
import FleetServer.Lib.Leases
import FleetServer.State.Operations
import FleetServer.State.AtomicStart

/-!
# A zone has one holder

A reservation of a zone is a lease: it has a holder and it expires.  Every operation of the manager
respects the leases of the agents it is not called for (`respects_apply`): it writes a zone only
where it has found the zone free, expired, or reserved by an agent it is called for.  So for as long
as the reservation of an agent has not expired, no sequence of operations for other agents removes
or reassigns it, in whatever order and at whatever times they come (`reservation_kept`).
-/

set_option autoImplicit false

namespace FleetServer
namespace State
namespace Manager

open Leases

/-- How a reservation is read as a lease. -/
def zoneLease : Reading String ZoneReservation where
  holder := ZoneReservation.agentID
  expires := ZoneReservation.expiresAt

/-- From one manager to the other the zones reserved by agents outside the list are left alone. -/
abbrev RespectsZones (agents : List String) (now : ℕ) (m m' : Manager) : Prop :=
  Respects zoneLease {agent | agent ∈ agents} now m.zones m'.zones

variable {m m' : Manager} {now : ℕ} {agentID zoneID : String} {agents : List String}

/-- An operation that writes no zone. -/
theorem respectsZones_of_eq (h : m'.zones = m.zones) : RespectsZones agents now m m' := by
  rw [RespectsZones, h]
  exact Respects.refl _

/-- A loop over operations. -/
theorem respectsZones_foldl {ι : Type} {f : Manager → ι → Manager} {rounds : List ι}
    (h : ∀ m, ∀ i ∈ rounds, RespectsZones agents now m (f m i)) (m : Manager) :
    RespectsZones agents now m (rounds.foldl f m) :=
  respects_foldl h m

@[simp] theorem zones_setRobot (robot : RobotState) :
    (m.setRobot agentID robot).zones = m.zones := by rfl

@[simp] theorem zones_updateAgentState (stateCode : String) (semanticTags : List String)
    (graphID : String) (isOnline isExecuting : Bool) :
    (m.updateAgentState now agentID stateCode semanticTags graphID isOnline isExecuting).zones =
      m.zones := by rfl

@[simp] theorem zones_setAgentExecuting (isExecuting : Bool) :
    (m.setAgentExecuting now agentID isExecuting).zones = m.zones := by
  rw [setAgentExecuting]
  split <;> rfl

@[simp] theorem zones_setAgentOnline (isOnline : Bool) :
    (m.setAgentOnline now agentID isOnline).zones = m.zones := by
  rw [setAgentOnline]
  split <;> rfl

@[simp] theorem zones_clearManualResetGuard :
    (m.clearManualResetGuard agentID).zones = m.zones := by rfl

theorem zones_normalizeReportedStateForManualReset (state : String) :
    (m.normalizeReportedStateForManualReset now agentID state).1.zones = m.zones := by
  rw [normalizeReportedStateForManualReset]
  split
  · rfl
  · split
    · rfl
    · split <;> rfl

/-! ## Single writes -/

/-- A zone that is free, expired, or reserved by one of the agents. -/
theorem not_heldOutside_iff :
    ¬HeldOutside zoneLease {agent | agent ∈ agents} now m.zones zoneID ↔
      ∀ res, m.zones zoneID = some res → res.agentID ∈ agents ∨ res.expiresAt ≤ now := by
  constructor
  · intro h res hres
    by_cases hmem : res.agentID ∈ agents
    · exact Or.inl hmem
    · by_contra hnot
      exact h ⟨res, hres, hmem, show now < res.expiresAt by omega⟩
  · rintro h ⟨res, hres, hout, hlive⟩
    rcases h res hres with hmem | hended
    · exact hout hmem
    · exact absurd (show now < res.expiresAt from hlive) (by omega)

theorem respectsZones_deleteZonesOf : RespectsZones [agentID] now m (m.deleteZonesOf agentID) := by
  refine respects_filter fun res hres ↦ Or.inl ?_
  simpa [zoneLease] using hres

theorem respectsZones_cleanupExpiredZones :
    RespectsZones agents now m (m.cleanupExpiredZones now) := by
  refine respects_filter fun res hres ↦ Or.inr ?_
  have hended : res.expiresAt < now := by simpa using hres
  exact hended.le

theorem respectsZones_releaseZone :
    RespectsZones [agentID] now m (releaseZone agentID m zoneID) := by
  rw [releaseZone]
  split
  · exact Respects.refl _
  · rename_i existing hzone
    split
    · rename_i hown
      refine respects_update (not_heldOutside_iff.mpr fun res hres ↦ Or.inl ?_) none
      obtain rfl := Option.some.inj (hzone.symm.trans hres)
      exact List.mem_singleton.mpr hown
    · exact Respects.refl _

theorem respectsZones_tryReserveZone :
    RespectsZones [agentID] now m (m.tryReserveZone now zoneID agentID).1 := by
  rw [tryReserveZone]
  split
  · rename_i existing hzone
    have hfree : existing.agentID = agentID ∨ existing.expiresAt ≤ now →
        ¬HeldOutside zoneLease {agent | agent ∈ [agentID]} now m.zones zoneID := by
      refine fun h ↦ not_heldOutside_iff.mpr fun res hres ↦ ?_
      obtain rfl := Option.some.inj (hzone.symm.trans hres)
      exact h.imp_left List.mem_singleton.mpr
    split
    · split
      · exact Respects.refl _
      · rename_i hown
        exact respects_update (hfree (Or.inl (not_not.mp hown))) _
    · rename_i hended
      exact respects_update (hfree (Or.inr (not_lt.mp hended))) _
  · rename_i hzone
    refine respects_update (not_heldOutside_iff.mpr fun res hres ↦ ?_) _
    exact absurd (hzone.symm.trans hres) (by simp)

/-! ## Starting and completing executions -/

theorem respectsZones_completeExecution (releasedZones : List String) :
    RespectsZones [agentID] now m (m.completeExecution now agentID releasedZones) := by
  have hrelease : ∀ m : Manager, RespectsZones [agentID] now m
      (releasedZones.foldl (releaseZone agentID) m) :=
    respectsZones_foldl fun _ _ _ ↦ respectsZones_releaseZone
  rw [completeExecution]
  split
  · exact Respects.refl _
  · exact Respects.trans (respectsZones_of_eq (by rfl)) (hrelease _)

/-- A zone that is not taken by another agent is not held outside. -/
theorem not_heldOutside_of_not_taken (h : m.takenByOther now agentID zoneID = false) :
    ¬HeldOutside zoneLease {agent | agent ∈ [agentID]} now m.zones zoneID := by
  refine not_heldOutside_iff.mpr fun res hres ↦ ?_
  rw [takenByOther, hres] at h
  by_cases hlive : now < res.expiresAt
  · exact Or.inl (by simpa [hlive] using h)
  · exact Or.inr (not_lt.mp hlive)

/-- Writing some zones, none of which another agent has. -/
theorem respectsZones_of_writes (zoneIDs : List String)
    (hfree : ∀ z ∈ zoneIDs, ¬HeldOutside zoneLease {agent | agent ∈ agents} now m.zones z)
    (hsame : ∀ z, z ∉ zoneIDs → m'.zones z = m.zones z) : RespectsZones agents now m m' :=
  fun z hz ↦ hsame z fun hmem ↦ hfree z hmem hz

/-- A start reserves zones that nobody else has; the roll back deletes no others. -/
theorem respectsZones_reserveZones (requiredZones : List String) :
    RespectsZones [agentID] now m (reserveZones now agentID m [] requiredZones).1 := by
  obtain ⟨heq, -⟩ := @reserveZones_eq now agentID requiredZones m []
  rw [heq]
  have hbefore : ∀ z ∈ m.zonesBeforeTaken now agentID requiredZones,
      ¬HeldOutside zoneLease {agent | agent ∈ [agentID]} now m.zones z := by
    intro z hz
    have hfree := List.mem_takeWhile_imp hz
    exact not_heldOutside_of_not_taken (by simpa using hfree)
  split
  · rw [List.nil_append, rollback_eq, foldl_deleteZone]
    exact respectsZones_of_writes _ hbefore fun z hz ↦ if_neg hz
  · rename_i hnone
    rw [foldl_reserveZone]
    refine respectsZones_of_writes requiredZones (fun z hz ↦ ?_) fun z hz ↦ if_neg hz
    have hfree := List.any_eq_false.mp (Bool.eq_false_of_not_eq_true hnone) z hz
    exact not_heldOutside_of_not_taken (Bool.eq_false_of_not_eq_true hfree)

theorem respectsZones_tryStartExecution {taskID stepID graphID : String}
    (requiredZones : List String) (preconditions : List Precondition) :
    RespectsZones [agentID] now m
      (m.tryStartExecution now agentID taskID stepID graphID requiredZones preconditions).1 := by
  have hreserve := @respectsZones_reserveZones m now agentID requiredZones
  rw [tryStartExecution]
  split
  · exact Respects.refl _
  · split
    · exact Respects.refl _
    · split
      · exact Respects.refl _
      · split
        · rename_i heq
          rw [heq] at hreserve
          exact hreserve
        · rename_i heq
          rw [heq] at hreserve
          exact hreserve

theorem respectsZones_tryStartMultiExecution (executions : List MultiExecutionRequest)
    (preconditions : List Precondition) :
    RespectsZones (executions.map MultiExecutionRequest.agentID) now m
      (m.tryStartMultiExecution now executions preconditions).1 := by
  obtain ⟨hrefused, hstarted⟩ := @tryStartMultiExecution_spec m now executions preconditions
  by_cases hout : (m.tryStartMultiExecution now executions preconditions).2 = none
  · obtain ⟨heq, hpasses⟩ := hstarted hout
    rw [heq]
    refine respectsZones_of_writes (executions.flatMap MultiExecutionRequest.requiredZones)
      (fun z hz ↦ ?_) fun z hz ↦ zones_foldl_startOne_of_not_mem _ _ fun exec hexec hz' ↦
        hz (List.mem_flatMap.mpr ⟨exec, hexec, hz'⟩)
    obtain ⟨exec, hexec, hz⟩ := List.mem_flatMap.mp hz
    have hfree := hpasses.free exec hexec z hz
    refine not_heldOutside_iff.mpr fun res hres ↦ ?_
    rw [heldOutside, hres] at hfree
    by_cases hlive : now < res.expiresAt
    · refine Or.inl ?_
      have hbatch : isAgentInBatch res.agentID executions = true := by simpa [hlive] using hfree
      obtain ⟨e, he, heq⟩ := List.any_eq_true.mp hbatch
      exact List.mem_map.mpr ⟨e, he, of_decide_eq_true heq⟩
    · exact Or.inr (not_lt.mp hlive)
  · rw [hrefused hout]
    exact Respects.refl _

theorem respectsZones_completeMultiExecution (executions : List MultiExecutionRequest) :
    RespectsZones (executions.map MultiExecutionRequest.agentID) now m
      (m.completeMultiExecution now executions) := by
  refine respectsZones_foldl (fun m exec hexec ↦ ?_) m
  refine Respects.mono ?_ (respectsZones_completeExecution exec.requiredZones)
  intro agent hagent
  obtain rfl := List.mem_singleton.mp hagent
  exact List.mem_map_of_mem hexec

/-! ## Every operation -/

theorem zones_afterResult {result : Except String Manager}
    (h : ∀ m', result = .ok m' → m'.zones = m.zones) : (m.afterResult result).zones = m.zones := by
  cases result with
  | error err => rfl
  | ok m' => exact h m' rfl

theorem zones_updateRobotState {order : RangeOrder (String × StateOverride)} {newState : String}
    (h : m.updateRobotState now order agentID newState = .ok m') : m'.zones = m.zones := by
  rw [updateRobotState] at h
  split at h
  · exact absurd h (by simp)
  · obtain rfl := Except.ok.inj h
    exact zones_normalizeReportedStateForManualReset newState

theorem zones_updateRobotEnhancedState {stateCode graphID : String} {semanticTags : List String}
    (h : m.updateRobotEnhancedState now agentID stateCode semanticTags graphID = .ok m') :
    m'.zones = m.zones := by
  rw [updateRobotEnhancedState] at h
  split at h
  · exact absurd h (by simp)
  · obtain rfl := Except.ok.inj h
    rfl

theorem zones_setRobotOnline {isOnline : Bool}
    (h : m.setRobotOnline now agentID isOnline = .ok m') : m'.zones = m.zones := by
  rw [setRobotOnline] at h
  split at h
  · exact absurd h (by simp)
  · obtain rfl := Except.ok.inj h
    simp

theorem zones_setRobotStateOverride {order : RangeOrder (String × StateOverride)}
    {sourceID state : String}
    (h : m.setRobotStateOverride now order agentID sourceID state = .ok m') :
    m'.zones = m.zones := by
  rw [setRobotStateOverride] at h
  split at h
  · exact absurd h (by simp)
  · split at h
    · exact absurd h (by simp)
    · split at h
      · exact absurd h (by simp)
      · obtain rfl := Except.ok.inj h
        rfl

theorem zones_clearRobotStateOverride {order : RangeOrder (String × StateOverride)}
    {sourceID : String}
    (h : m.clearRobotStateOverride now order agentID sourceID = .ok m') : m'.zones = m.zones := by
  rw [clearRobotStateOverride] at h
  split at h
  · exact absurd h (by simp)
  · split at h
    · exact absurd h (by simp)
    · obtain rfl := Except.ok.inj h
      rfl

theorem zones_updateRobotExecution (isExecuting : Bool) (taskID stepID : String) :
    (m.updateRobotExecution now agentID isExecuting taskID stepID).zones = m.zones := by
  rw [updateRobotExecution]
  split
  · rfl
  · dsimp only
    split <;> simp

theorem zones_tryUpdateRobotExecutionFromHeartbeat (hbIsExecuting : Bool)
    (hbTaskID hbStepID : String) :
    (m.tryUpdateRobotExecutionFromHeartbeat now agentID hbIsExecuting hbTaskID hbStepID).1.zones =
      m.zones := by
  rw [tryUpdateRobotExecutionFromHeartbeat]
  split
  · rfl
  · split
    · split
      · rfl
      · split <;> rfl
    · dsimp only
      split <;> simp

theorem respectsZones_resetAgentState :
    RespectsZones [agentID] now m (m.afterResult (m.resetAgentState now agentID)) := by
  rw [resetAgentState]
  split
  · exact Respects.refl _
  · refine Respects.trans respectsZones_deleteZonesOf (respectsZones_of_eq ?_)
    simp only [afterResult, zones_setAgentExecuting]
    rfl

theorem respectsZones_unregisterRobot :
    RespectsZones [agentID] now m (m.unregisterRobot agentID) :=
  Respects.trans (respectsZones_of_eq (by rfl)) respectsZones_deleteZonesOf

/-- **An operation respects the reservations of the agents it is not called for.** -/
theorem respectsZones_apply (m : Manager) (now : ℕ) (op : Op) :
    RespectsZones op.agents now m (m.apply now op) := by
  cases op with
  | registerRobot id initialState => exact respectsZones_of_eq (by rfl)
  | unregisterRobot id => exact respectsZones_unregisterRobot
  | updateRobotState order agentID newState =>
    exact respectsZones_of_eq (zones_afterResult fun _ ↦ zones_updateRobotState)
  | updateRobotEnhancedState agentID stateCode semanticTags graphID =>
    exact respectsZones_of_eq (zones_afterResult fun _ ↦ zones_updateRobotEnhancedState)
  | setRobotOnline agentID isOnline =>
    exact respectsZones_of_eq (zones_afterResult fun _ ↦ zones_setRobotOnline)
  | setRobotStateOverride order agentID sourceID state =>
    exact respectsZones_of_eq (zones_afterResult fun _ ↦ zones_setRobotStateOverride)
  | clearRobotStateOverride order agentID sourceID =>
    exact respectsZones_of_eq (zones_afterResult fun _ ↦ zones_clearRobotStateOverride)
  | updateRobotExecution agentID isExecuting taskID stepID =>
    exact respectsZones_of_eq (zones_updateRobotExecution isExecuting taskID stepID)
  | tryUpdateRobotExecutionFromHeartbeat agentID hbIsExecuting hbTaskID hbStepID =>
    exact respectsZones_of_eq
      (zones_tryUpdateRobotExecutionFromHeartbeat hbIsExecuting hbTaskID hbStepID)
  | tryReserveZone zoneID agentID => exact respectsZones_tryReserveZone
  | releaseZone zoneID agentID => exact respectsZones_releaseZone
  | cleanupExpiredZones => exact respectsZones_cleanupExpiredZones
  | tryStartExecution agentID taskID stepID graphID requiredZones preconditions =>
    exact respectsZones_tryStartExecution requiredZones preconditions
  | completeExecution agentID releasedZones => exact respectsZones_completeExecution releasedZones
  | resetAgentState agentID => exact respectsZones_resetAgentState
  | tryStartMultiExecution executions preconditions =>
    exact respectsZones_tryStartMultiExecution executions preconditions
  | completeMultiExecution executions => exact respectsZones_completeMultiExecution executions
  | cleanupStaleAgents maxOfflineAge => exact respectsZones_of_eq (by rfl)

/-- The agent that holds a zone is the one that is shown. -/
theorem getZoneHolder_of_holds (h : Holds zoneLease now m.zones agentID zoneID) :
    m.getZoneHolder now zoneID = some agentID := by
  obtain ⟨res, hzone, rfl, hlive⟩ := h
  have hnot : ¬res.expiresAt < now := by
    simp only [zoneLease] at hlive
    omega
  rw [getZoneHolder, hzone]
  exact if_neg hnot

end Manager

/-! ## Runs -/

open Leases GuardedRun Manager

/-- **A reservation is kept.**  In every run of operations for other agents a reservation stays as
it is until it expires, and until then its agent is the only one that holds the zone. -/
theorem reservation_kept {s s' : Clocked} {zoneID : String} {res : ZoneReservation}
    (hzone : s.manager.zones zoneID = some res)
    (hrun : Reachable step (fun _ call ↦ res.agentID ∉ call.op.agents) (· = s) s')
    (hclock : s'.clock < res.expiresAt) :
    s'.manager.zones zoneID = some res ∧
      ∀ agentID, Holds zoneLease s'.clock s'.manager.zones agentID zoneID ↔
        agentID = res.agentID := by
  have hstep : ∀ (s : Clocked) (call : Call) (s' : Clocked), step s call = some s' →
      s.clock ≤ s'.clock ∧ Respects zoneLease {agent | agent ∈ call.op.agents} s'.clock
        s.manager.zones s'.manager.zones := by
    intro s call s' h
    obtain ⟨hle, hnow, hmanager⟩ := step_eq_some h
    rw [hmanager, hnow]
    exact ⟨hnow ▸ hle, respectsZones_apply s.manager call.now call.op⟩
  have hkept : s'.manager.zones zoneID = some res :=
    lease_kept hstep hrun hzone hclock
  have hholds : Holds zoneLease s'.clock s'.manager.zones res.agentID zoneID :=
    ⟨res, hkept, rfl, hclock⟩
  refine ⟨hkept, fun agentID ↦ ⟨fun h ↦ h.unique hholds, ?_⟩⟩
  rintro rfl
  exact hholds

/-- Two robots; the first has reserved the aisle. -/
def aisleReserved : Clocked where
  manager :=
    { robots := fun id ↦ if id = "r1" ∨ id = "r2" then some { id } else none
      zones := fun z ↦ if z = "aisle" then some ⟨"aisle", "r1", 0, 30⟩ else none }
  clock := 0

/-- The second robot asks for the aisle, starts a task there and is removed. -/
def callsForSecond : List Call :=
  [⟨.tryReserveZone "aisle" "r2", 1⟩, ⟨.tryStartExecution "r2" "t" "s" "g" ["aisle"] [], 2⟩,
    ⟨.cleanupExpiredZones, 3⟩, ⟨.unregisterRobot "r2", 29⟩]

/-- Through all of it the first robot keeps the aisle. -/
theorem aisleReserved_kept :
    ∃ s', run step (fun _ call ↦ "r1" ∉ call.op.agents) aisleReserved callsForSecond = some s' ∧
      s'.manager.zones "aisle" = some ⟨"aisle", "r1", 0, 30⟩ ∧
      ∀ agentID, Holds zoneLease s'.clock s'.manager.zones agentID "aisle" ↔ agentID = "r1" := by
  obtain ⟨s', hrun, hclock⟩ : ∃ s', run step (fun _ call ↦ "r1" ∉ call.op.agents) aisleReserved
      callsForSecond = some s' ∧ s'.clock = 29 := ⟨_, rfl, rfl⟩
  exact ⟨s', hrun, @reservation_kept aisleReserved s' "aisle" ⟨"aisle", "r1", 0, 30⟩ (by rfl)
    (Reachable.of_run (.start rfl) hrun) (by rw [hclock]; decide)⟩

end State
end FleetServer
