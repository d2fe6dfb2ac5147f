import Mathlib.Data.List.Nodup
import FleetServer.State.Operations
import FleetServer.State.AtomicStart

/-!
# The gates of a start

The manager asks in several places whether an agent may have a zone, and whether it may start.

`TryReserveZone`, `GetZoneHolder` and `evaluateZoneCondition` each look at the expiry of a
reservation themselves.  The first takes a reservation for ended from its last instant on, the
others only after it, so they agree except at that instant (`zonePredicates_agree_iff`).

`EvaluatePreconditions` is written a second time in `TryStartExecution` and a third time in
`TryStartMultiExecution`.  It knows fewer types of preconditions and refuses those it does not know;
a batch also refuses a zone that one request names twice.  `startGates_agree_iff` says when the
three give one verdict.
-/

set_option autoImplicit false

namespace FleetServer
namespace State
namespace Manager

variable (m : Manager) (now : ℕ)

/-- The types of preconditions `EvaluatePreconditions` knows. -/
def preconditionTypes : List String := ["robot_state", "zone_free", "robot_idle", "robot_online"]

/-- What `EvaluatePreconditions` says against one condition. -/
def preconditionFault (agentID : String) (robot : RobotState) (cond : Precondition) :
    Option String :=
  if cond.type = "robot_state" then
    if !evaluateStateCondition robot cond.condition then some cond.message else none
  else if cond.type = "zone_free" then
    if !m.evaluateZoneCondition now agentID cond.condition then some cond.message else none
  else if cond.type = "robot_idle" then
    if robot.isExecuting then some cond.message else none
  else if cond.type = "robot_online" then
    if !robot.isOnline then some cond.message else none
  else
    -- an unknown type fails, for safety
    some ("unknown precondition type: " ++ cond.type)

/-- `EvaluatePreconditions`: the error message, when the preconditions fail. -/
def evaluatePreconditions (agentID : String) (conditions : List Precondition) : Option String :=
  match m.robots agentID with
  | none => some ("robot " ++ agentID ++ " not found")
  | some robot => conditions.findSome? (m.preconditionFault now agentID robot)

/-- A zone that is free, has expired or is held by the agent. -/
def ZoneOpen (agentID zoneID : String) : Prop :=
  ∀ res, m.zones zoneID = some res → res.expiresAt ≤ now ∨ res.agentID = agentID

variable {m now} {agentID zoneID : String} {robot : RobotState}

/-! ## The predicates on zones -/

theorem tryReserveZone_iff :
    (m.tryReserveZone now zoneID agentID).2 = none ↔ m.ZoneOpen now agentID zoneID := by
  rw [tryReserveZone, ZoneOpen]
  cases hzone : m.zones zoneID with
  | none => simp
  | some res =>
    dsimp only
    simp only [Option.some.injEq, forall_eq']
    by_cases hlive : now < res.expiresAt
    · have hnot : ¬res.expiresAt ≤ now := by omega
      rw [if_pos hlive]
      by_cases hown : res.agentID = agentID
      · simp [hown]
      · simp [hown, hnot]
    · have hended : res.expiresAt ≤ now := by omega
      rw [if_neg hlive]
      simp [hended]

theorem evaluateZoneCondition_iff :
    m.evaluateZoneCondition now agentID zoneID = true ↔
      ∀ res, m.zones zoneID = some res → res.expiresAt < now ∨ res.agentID = agentID := by
  rw [evaluateZoneCondition]
  cases hzone : m.zones zoneID with
  | none => simp
  | some res => simp

theorem getZoneHolder_iff :
    m.getZoneHolder now zoneID = none ∨ m.getZoneHolder now zoneID = some agentID ↔
      ∀ res, m.zones zoneID = some res → res.expiresAt < now ∨ res.agentID = agentID := by
  rw [getZoneHolder]
  cases hzone : m.zones zoneID with
  | none => simp
  | some res =>
    by_cases hended : res.expiresAt < now
    · simp [hended]
    · simp [hended]

/-- The two ways to read the end of a reservation differ at its last instant. -/
theorem zoneOpen_iff_evaluateZoneCondition :
    (m.ZoneOpen now agentID zoneID ↔ m.evaluateZoneCondition now agentID zoneID = true) ↔
      ∀ res, m.zones zoneID = some res → res.agentID = agentID ∨ res.expiresAt ≠ now := by
  rw [evaluateZoneCondition_iff, ZoneOpen]
  cases hzone : m.zones zoneID with
  | none => simp
  | some res =>
    simp only [Option.some.injEq, forall_eq']
    by_cases hown : res.agentID = agentID
    · simp [hown]
    · simp only [hown, or_false, false_or]
      omega

/-- **`TryReserveZone` agrees with `evaluateZoneCondition` and with `GetZoneHolder` on a zone
exactly when it is not the last instant of another agent's reservation.** -/
theorem zonePredicates_agree_iff (m : Manager) (zoneID agentID : String) (now : ℕ) :
    ((m.tryReserveZone now zoneID agentID).2 = none ↔
        m.evaluateZoneCondition now agentID zoneID = true) ∧
      ((m.tryReserveZone now zoneID agentID).2 = none ↔
        m.getZoneHolder now zoneID = none ∨ m.getZoneHolder now zoneID = some agentID) ↔
    ∀ res, m.zones zoneID = some res → res.agentID = agentID ∨ res.expiresAt ≠ now := by
  rw [tryReserveZone_iff, getZoneHolder_iff, ← evaluateZoneCondition_iff, and_self_iff,
    zoneOpen_iff_evaluateZoneCondition]

/-- At the last instant of the reservation of another robot the zone can be reserved, while that
robot is still shown as its holder. -/
theorem lastInstant_disagrees :
    (aisleAndDock.tryReserveZone 30 "aisle" "r2").2 = none ∧
      aisleAndDock.evaluateZoneCondition 30 "r2" "aisle" = false ∧
      aisleAndDock.getZoneHolder 30 "aisle" = some "r1" := by
  decide

/-! ## Preconditions -/

/-- A condition passes `EvaluatePreconditions` when its type is known there and the start gate lets
it pass. -/
theorem preconditionFault_eq_none_iff {cond : Precondition} :
    m.preconditionFault now agentID robot cond = none ↔
      cond.type ∈ preconditionTypes ∧ m.preconditionPasses now agentID robot cond = true := by
  rw [preconditionFault, preconditionPasses, preconditionTypes]
  by_cases hstate : cond.type = "robot_state"
  · simp [hstate]
  · by_cases hzone : cond.type = "zone_free"
    · simp [hzone]
    · by_cases hidle : cond.type = "robot_idle"
      · simp [hidle]
      · by_cases honline : cond.type = "robot_online"
        · simp [honline]
        · simp [hstate, hzone, hidle, honline]

theorem evaluatePreconditions_eq_none_iff (hrobot : m.robots agentID = some robot)
    {conditions : List Precondition} :
    m.evaluatePreconditions now agentID conditions = none ↔
      ∀ cond ∈ conditions, cond.type ∈ preconditionTypes ∧
        m.preconditionPasses now agentID robot cond = true := by
  rw [evaluatePreconditions, hrobot]
  dsimp only
  rw [List.findSome?_eq_none_iff]
  exact forall₂_congr fun _ _ ↦ preconditionFault_eq_none_iff

/-- In a batch of one request the holder of a zone is in the batch only if it is the agent. -/
theorem preconditionPassesForMulti_singleton {exec : MultiExecutionRequest} {cond : Precondition} :
    m.preconditionPassesForMulti now [exec] exec.agentID robot cond =
      m.preconditionPasses now exec.agentID robot cond := by
  rw [preconditionPassesForMulti]
  split
  · rename_i hzone
    rw [preconditionPasses, if_neg (by simp [hzone]), if_pos hzone, evaluateZoneConditionForMulti,
      evaluateZoneCondition]
    cases m.zones cond.condition with
    | none => rfl
    | some existing => simp [isAgentInBatch, eq_comm]
  · rfl

/-! ## Zones -/

theorem takenByOther_eq_false_iff :
    m.takenByOther now agentID zoneID = false ↔ m.ZoneOpen now agentID zoneID := by
  rw [takenByOther, ZoneOpen]
  cases m.zones zoneID with
  | none => simp
  | some existing => simp [or_iff_not_imp_left]

theorem heldOutside_singleton {exec : MultiExecutionRequest} :
    m.heldOutside now [exec] zoneID = m.takenByOther now exec.agentID zoneID := by
  rw [heldOutside, takenByOther]
  cases m.zones zoneID with
  | none => rfl
  | some existing => simp [isAgentInBatch, eq_comm]

/-! ## What each gate lets pass -/

variable {exec : MultiExecutionRequest} {preconditions : List Precondition}

/-- `TryStartExecution` for a request. -/
def startAlone (m : Manager) (now : ℕ) (exec : MultiExecutionRequest)
    (preconditions : List Precondition) : Manager × Option String :=
  m.tryStartExecution now exec.agentID exec.taskID exec.stepID exec.graphID exec.requiredZones
    preconditions

/-- The agent is idle, its preconditions pass the start gate, and its zones are open. -/
structure MayStart (m : Manager) (now : ℕ) (exec : MultiExecutionRequest) (robot : RobotState)
    (preconditions : List Precondition) : Prop where
  idle : robot.isExecuting = false
  passes : ∀ cond ∈ preconditions, m.preconditionPasses now exec.agentID robot cond = true
  zones : ∀ z ∈ exec.requiredZones, m.ZoneOpen now exec.agentID z

theorem startAlone_iff (hrobot : m.robots exec.agentID = some robot) :
    (m.startAlone now exec preconditions).2 = none ↔ MayStart m now exec robot preconditions := by
  rw [startAlone, tryStartExecution, hrobot]
  dsimp only
  split
  · rename_i hbusy
    simp only [reduceCtorEq, false_iff]
    exact fun h ↦ absurd (hbusy.symm.trans h.idle) (by decide)
  · rename_i hidle
    split
    · rename_i cond hfind
      have hfails := List.find?_some (p := (!m.preconditionPasses now exec.agentID robot ·)) hfind
      simp only [reduceCtorEq, false_iff]
      intro h
      rw [h.passes cond (List.mem_of_find?_eq_some hfind)] at hfails
      exact absurd hfails (by decide)
    · rename_i hfind
      have hpasses : ∀ cond ∈ preconditions,
          m.preconditionPasses now exec.agentID robot cond = true := by simpa using hfind
      have hzones : (reserveZones now exec.agentID m [] exec.requiredZones).2 = none ↔
          ∀ z ∈ exec.requiredZones, m.ZoneOpen now exec.agentID z := by
        rw [(reserveZones_eq exec.requiredZones m []).2, List.any_eq_false]
        exact forall₂_congr fun z _ ↦ by
          rw [Bool.not_eq_true]
          exact takenByOther_eq_false_iff
      have hout : MayStart m now exec robot preconditions ↔
          (reserveZones now exec.agentID m [] exec.requiredZones).2 = none := by
        rw [hzones]
        exact ⟨fun h ↦ h.zones, fun h ↦ ⟨by simpa using hidle, hpasses, h⟩⟩
      rw [hout]
      split
      · rename_i hreserve
        simp [hreserve]
      · rename_i hreserve
        simp [hreserve]

/-- What is left of the manager by a start that succeeds. -/
theorem startAlone_fst (hrobot : m.robots exec.agentID = some robot)
    (h : (m.startAlone now exec preconditions).2 = none) :
    (m.startAlone now exec preconditions).1 = startOne now m exec := by
  have hmay := (startAlone_iff hrobot).mp h
  have hopen : exec.requiredZones.any (m.takenByOther now exec.agentID) = false :=
    List.any_eq_false.mpr fun z hz ↦ by
      rw [Bool.not_eq_true]
      exact takenByOther_eq_false_iff.mpr (hmay.zones z hz)
  obtain ⟨hzones, hout⟩ := @reserveZones_eq now exec.agentID exec.requiredZones m []
  rw [hopen, if_neg (by decide), foldl_reserveZone] at hzones
  have hfind : preconditions.find? (!m.preconditionPasses now exec.agentID robot ·) = none := by
    simpa using hmay.passes
  rw [startAlone, tryStartExecution, hrobot]
  dsimp only
  rw [if_neg (by simp [hmay.idle]), hfind]
  dsimp only
  split
  · rename_i hreserve
    rw [hreserve] at hout
    exact absurd (hout.mpr hopen) (by simp)
  · rename_i hreserve
    rw [hreserve] at hzones
    subst hzones
    rw [startOne, hrobot]
    dsimp only
    rw [foldl_reserveZone]
    rfl

/-- A batch is started when none of the three checks finds a fault. -/
theorem tryStartMultiExecution_eq_none_iff {executions : List MultiExecutionRequest} :
    (m.tryStartMultiExecution now executions preconditions).2 = none ↔
      executions.findSome? m.multiAgentFault = none ∧
        executions.findSome? (m.multiPreconditionFault now executions preconditions) = none ∧
          m.multiZoneFault now executions []
            (executions.flatMap fun exec ↦ exec.requiredZones.map (exec, ·)) = none := by
  rw [tryStartMultiExecution, ← Option.or_eq_none_iff, ← Option.or_eq_none_iff]
  split
  · rename_i hfault
    simp only [Option.orElse_eq_orElse, Option.orElse_eq_or] at hfault
    simp [hfault]
  · rename_i hfault
    simp only [Option.orElse_eq_orElse, Option.orElse_eq_or] at hfault
    simp [hfault]

/-- A batch of one request also asks that it names no zone twice. -/
theorem tryStartMultiExecution_singleton_iff (hrobot : m.robots exec.agentID = some robot)
    (honline : robot.isOnline = true) :
    (m.tryStartMultiExecution now [exec] preconditions).2 = none ↔
      MayStart m now exec robot preconditions ∧ exec.requiredZones.Nodup := by
  have hagent : m.multiAgentFault exec = none ↔ robot.isExecuting = false := by
    rw [multiAgentFault, hrobot]
    simp [honline]
  have hpasses : m.multiPreconditionFault now [exec] preconditions exec = none ↔
      ∀ cond ∈ preconditions, m.preconditionPasses now exec.agentID robot cond = true := by
    rw [multiPreconditionFault, hrobot]
    simp [preconditionPassesForMulti_singleton]
  have hzones : m.multiZoneFault now [exec] []
      ([exec].flatMap fun exec ↦ exec.requiredZones.map (exec, ·)) = none ↔
      exec.requiredZones.Nodup ∧ ∀ z ∈ exec.requiredZones, m.ZoneOpen now exec.agentID z := by
    rw [multiZoneFault_eq_none_iff]
    simp [Function.comp_def, heldOutside_singleton, takenByOther_eq_false_iff]
  rw [tryStartMultiExecution_eq_none_iff, hzones, List.findSome?_singleton,
    List.findSome?_singleton, hagent, hpasses]
  constructor
  · rintro ⟨hidle, hpass, hnodup, hopen⟩
    exact ⟨⟨hidle, hpass, hopen⟩, hnodup⟩
  · rintro ⟨hstart, hnodup⟩
    exact ⟨hstart.idle, hstart.passes, hnodup, hstart.zones⟩

/-! ## The three gates -/

/-- The three gates give one verdict on a request, and the two that start it leave the same
manager. -/
structure GatesAgree (m : Manager) (now : ℕ) (exec : MultiExecutionRequest) (robot : RobotState)
    (preconditions : List Precondition) : Prop where
  alone : (m.startAlone now exec preconditions).2 = none ↔
    robot.isExecuting = false ∧ m.evaluatePreconditions now exec.agentID preconditions = none ∧
      ∀ z ∈ exec.requiredZones, m.ZoneOpen now exec.agentID z
  batch : (m.tryStartMultiExecution now [exec] preconditions).2 = none ↔
    (m.startAlone now exec preconditions).2 = none
  started : (m.startAlone now exec preconditions).2 = none →
    (m.tryStartMultiExecution now [exec] preconditions).1 =
      (m.startAlone now exec preconditions).1

/-- **The three gates agree on a request of an online agent exactly when it may not start at all,
or `EvaluatePreconditions` knows the types of all its preconditions and it names no zone
twice.** -/
theorem startGates_agree_iff (hrobot : m.robots exec.agentID = some robot)
    (honline : robot.isOnline = true) (preconditions : List Precondition) :
    GatesAgree m now exec robot preconditions ↔
      ¬MayStart m now exec robot preconditions ∨
        (∀ cond ∈ preconditions, cond.type ∈ preconditionTypes) ∧ exec.requiredZones.Nodup := by
  have halone := @startAlone_iff m now robot exec preconditions hrobot
  have hbatch := @tryStartMultiExecution_singleton_iff m now robot exec preconditions hrobot honline
  have hconds : m.evaluatePreconditions now exec.agentID preconditions = none ↔
      (∀ cond ∈ preconditions, cond.type ∈ preconditionTypes) ∧
        ∀ cond ∈ preconditions, m.preconditionPasses now exec.agentID robot cond = true := by
    rw [evaluatePreconditions_eq_none_iff hrobot]
    exact forall₂_and
  constructor
  · intro h
    by_cases hmay : MayStart m now exec robot preconditions
    · have hsingle := halone.mpr hmay
      exact Or.inr ⟨(hconds.mp (h.alone.mp hsingle).2.1).1, (hbatch.mp (h.batch.mpr hsingle)).2⟩
    · exact Or.inl hmay
  · intro h
    refine ⟨?_, ?_, fun hsingle ↦ ?_⟩
    · rw [halone, hconds]
      constructor
      · intro hmay
        obtain ⟨htypes, -⟩ := h.resolve_left (not_not.mpr hmay)
        exact ⟨hmay.idle, ⟨htypes, hmay.passes⟩, hmay.zones⟩
      · rintro ⟨hidle, ⟨-, hpasses⟩, hzones⟩
        exact ⟨hidle, hpasses, hzones⟩
    · rw [halone, hbatch]
      exact ⟨And.left, fun hmay ↦ ⟨hmay, (h.resolve_left (not_not.mpr hmay)).2⟩⟩
    · have hmay := halone.mp hsingle
      have hmulti := hbatch.mpr ⟨hmay, (h.resolve_left (not_not.mpr hmay)).2⟩
      rw [startAlone_fst hrobot hsingle]
      exact (tryStartMultiExecution_spec preconditions).2 hmulti |>.1

/-- The robot that has the aisle asks for it again, and for the hall. -/
def aisleAndHall : MultiExecutionRequest := ⟨"r1", "t", "s", "g", ["aisle", "hall"]⟩

theorem aisleAndHall_agrees :
    GatesAgree aisleAndDock 5 aisleAndHall { id := "r1" } [⟨"robot_idle", "", "busy"⟩] :=
  (startGates_agree_iff (by decide) (by rfl) _).mpr (Or.inr ⟨by decide, by decide⟩)

/-- **A zone that is named twice starts alone but not in a batch, and an `agent_idle` precondition
passes both starts but not `EvaluatePreconditions`.** -/
theorem zoneTwice_agentIdle_disagree :
    ¬GatesAgree aisleAndDock 5 ⟨"r1", "t", "s", "g", ["hall", "hall"]⟩ { id := "r1" } [] ∧
      ¬GatesAgree aisleAndDock 5 aisleAndHall { id := "r1" } [⟨"agent_idle", "", "busy"⟩] := by
  refine ⟨fun h ↦ ?_, fun h ↦ ?_⟩
  · have hstarts : (aisleAndDock.startAlone 5 ⟨"r1", "t", "s", "g", ["hall", "hall"]⟩ []).2 =
        none := by decide
    exact absurd (h.batch.mpr hstarts) (by decide)
  · have hstarts : (aisleAndDock.startAlone 5 aisleAndHall [⟨"agent_idle", "", "busy"⟩]).2 =
        none := by decide
    exact absurd (h.alone.mp hstarts).2.1 (by decide)

end Manager
end State
end FleetServer
