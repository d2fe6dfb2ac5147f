import Mathlib.Data.List.Nodup
import FleetServer.State.Manager

/-!
# Starting an execution is not all or nothing

Two operations of the manager are meant to do everything or nothing.

`TryStartExecution` reserves the zones of a task one by one and, when it meets one that another
agent has, deletes the zones it has reserved so far.  A zone the agent had before the call is
deleted with them, and so is an expired reservation; `tryStartExecution_unchanged_iff` says that a
refused start leaves the manager as it was exactly when none of the zones before the taken one had
a reservation.

`TryStartMultiExecution` validates a whole batch before it changes anything, so a refused batch
changes nothing.  It looks at the manager only, though, and not at the batch, when it asks whether
an agent is free: `tryStartMultiExecution_allOrNothing_iff` says that a batch that is started runs
as a whole exactly when it has no two tasks for one agent.
-/

set_option autoImplicit false

namespace FleetServer
namespace State
namespace Manager

variable {m : Manager} {now : ℕ} {agentID taskID stepID graphID : String}

/-! ## Loops over zones -/

/-- Reserving zones one after the other. -/
theorem foldl_reserveZone (zoneIDs : List String) (m : Manager) :
    zoneIDs.foldl (fun m zoneID ↦ m.reserveZone now agentID zoneID) m =
      { m with
        zones := fun z ↦
          if z ∈ zoneIDs then some (ZoneReservation.mk z agentID now (now + m.zoneExpiryDuration))
          else m.zones z } := by
  induction zoneIDs generalizing m with
  | nil => simp
  | cons zoneID rest ih =>
    rw [List.foldl_cons, ih]
    simp only [reserveZone, Manager.mk.injEq, true_and, and_true]
    funext z
    by_cases hz : z = zoneID
    · simp [hz]
    · simp [hz]

theorem foldl_deleteZone (zoneIDs : List String) (m : Manager) :
    zoneIDs.foldl deleteZone m =
      { m with zones := fun z ↦ if z ∈ zoneIDs then none else m.zones z } := by
  induction zoneIDs generalizing m with
  | nil => simp
  | cons zoneID rest ih =>
    rw [List.foldl_cons, ih]
    simp only [deleteZone, Manager.mk.injEq, true_and, and_true]
    funext z
    by_cases hz : z = zoneID
    · simp [hz]
    · simp [hz]

/-! ## The rollback of a single start -/

section Rollback

variable (m now)

/-- Another agent has a reservation of the zone that has not expired. -/
def takenByOther (agentID zoneID : String) : Bool :=
  match m.zones zoneID with
  | none => false
  | some existing => now < existing.expiresAt && existing.agentID ≠ agentID

/-- The zones of a list that come before the first one another agent has. -/
def zonesBeforeTaken (agentID : String) (requiredZones : List String) : List String :=
  requiredZones.takeWhile (!m.takenByOther now agentID ·)

/-- A start that is refused before any zone is looked at: the agent is unknown or busy, or a
precondition fails. -/
def refusedBeforeZones (agentID : String) (preconditions : List Precondition) : Bool :=
  match m.robots agentID with
  | none => true
  | some robot =>
    robot.isExecuting || preconditions.any (!m.preconditionPasses now agentID robot ·)

end Rollback

/-- Reserving a zone that is not taken does not change which zones are. -/
theorem takenByOther_reserveZone {zoneID : String} (h : m.takenByOther now agentID zoneID = false) :
    (m.reserveZone now agentID zoneID).takenByOther now agentID = m.takenByOther now agentID := by
  funext z
  by_cases hz : z = zoneID
  · subst hz
    rw [h]
    simp [takenByOther, reserveZone]
  · simp [takenByOther, reserveZone, Function.update_of_ne hz]

/-- What the reservation loop does: it reserves everything, or it reserves the zones before the
first one taken and then deletes all it has reserved. -/
theorem reserveZones_eq (zoneIDs : List String) (m : Manager) (reservedZones : List String) :
    (reserveZones now agentID m reservedZones zoneIDs).1 =
        (if zoneIDs.any (m.takenByOther now agentID) then
          (reservedZones ++ m.zonesBeforeTaken now agentID zoneIDs).foldl deleteZone
            ((m.zonesBeforeTaken now agentID zoneIDs).foldl
              (fun m zoneID ↦ m.reserveZone now agentID zoneID) m)
        else zoneIDs.foldl (fun m zoneID ↦ m.reserveZone now agentID zoneID) m) ∧
      ((reserveZones now agentID m reservedZones zoneIDs).2 = none ↔
        zoneIDs.any (m.takenByOther now agentID) = false) := by
  induction zoneIDs generalizing m reservedZones with
  | nil => simp [reserveZones]
  | cons zoneID rest ih =>
    cases htaken : m.takenByOther now agentID zoneID with
    | true =>
      obtain ⟨existing, hzone, hlive⟩ : ∃ existing, m.zones zoneID = some existing ∧
          (now < existing.expiresAt ∧ existing.agentID ≠ agentID) := by
        rw [takenByOther] at htaken
        split at htaken
        · exact absurd htaken (by simp)
        · rename_i existing hzone
          exact ⟨existing, hzone, by simpa using htaken⟩
      rw [reserveZones, hzone]
      simp [hlive, htaken, zonesBeforeTaken]
    | false =>
      have hstep : reserveZones now agentID m reservedZones (zoneID :: rest) =
          reserveZones now agentID (m.reserveZone now agentID zoneID)
            (reservedZones ++ [zoneID]) rest := by
        rw [reserveZones]
        split
        · rename_i existing hzone
          rw [if_neg]
          simpa [takenByOther, hzone] using htaken
        · rfl
      have hrest := ih (m.reserveZone now agentID zoneID) (reservedZones ++ [zoneID])
      have hbefore : m.zonesBeforeTaken now agentID (zoneID :: rest) =
          zoneID :: (m.reserveZone now agentID zoneID).zonesBeforeTaken now agentID rest := by
        simp [zonesBeforeTaken, takenByOther_reserveZone htaken, htaken]
      rw [takenByOther_reserveZone htaken] at hrest
      rw [hstep, hbefore, List.any_cons, htaken, Bool.false_or]
      simpa using hrest

/-- After the rollback the zones before the taken one have no reservation; nothing else changed. -/
theorem rollback_eq (zoneIDs : List String) (m : Manager) :
    zoneIDs.foldl deleteZone (zoneIDs.foldl (fun m zoneID ↦ m.reserveZone now agentID zoneID) m) =
      zoneIDs.foldl deleteZone m := by
  rw [foldl_reserveZone, foldl_deleteZone, foldl_deleteZone]
  simp only [Manager.mk.injEq, true_and, and_true]
  funext z
  by_cases hz : z ∈ zoneIDs
  · simp [hz]
  · simp [hz]

theorem foldl_deleteZone_eq_self_iff {zoneIDs : List String} :
    zoneIDs.foldl deleteZone m = m ↔ ∀ z ∈ zoneIDs, m.zones z = none := by
  rw [foldl_deleteZone]
  constructor
  · intro h z hz
    have hzone := congrFun (congrArg Manager.zones h) z
    simpa [hz] using hzone.symm
  · intro h
    have hzones : (fun z ↦ if z ∈ zoneIDs then none else m.zones z) = m.zones := by
      funext z
      split
      · rename_i hz
        exact (h z hz).symm
      · rfl
    rw [hzones]

/-- What is left of the manager by a start that is refused. -/
theorem tryStartExecution_refused {zones : List String} {preconditions : List Precondition}
    (h : (m.tryStartExecution now agentID taskID stepID graphID zones preconditions).2 ≠ none) :
    (m.tryStartExecution now agentID taskID stepID graphID zones preconditions).1 =
      if m.refusedBeforeZones now agentID preconditions then m
      else (m.zonesBeforeTaken now agentID zones).foldl deleteZone m := by
  rw [tryStartExecution] at h ⊢
  rw [refusedBeforeZones]
  cases hrobot : m.robots agentID with
  | none => simp
  | some robot =>
    rw [hrobot] at h
    dsimp only at h ⊢
    by_cases hexec : robot.isExecuting = true
    · simp [hexec]
    · rw [if_neg hexec] at h ⊢
      cases hfind : preconditions.find? (!m.preconditionPasses now agentID robot ·) with
      | some cond =>
        have hfails := List.find?_some (p := (!m.preconditionPasses now agentID robot ·)) hfind
        have hany : preconditions.any (!m.preconditionPasses now agentID robot ·) = true :=
          List.any_eq_true.mpr ⟨cond, List.mem_of_find?_eq_some hfind, hfails⟩
        simp [hany]
      | none =>
        have hany : preconditions.any (!m.preconditionPasses now agentID robot ·) = false := by
          simpa using hfind
        obtain ⟨hzones, hout⟩ := @reserveZones_eq now agentID zones m []
        rw [hfind] at h
        dsimp only at h ⊢
        simp only [hexec, hany, Bool.or_self, Bool.false_eq_true, if_false]
        split
        · rename_i m' err hreserve
          rw [hreserve] at hzones hout
          have htaken : zones.any (m.takenByOther now agentID) = true := by
            simpa using hout
          rw [if_pos htaken, List.nil_append, rollback_eq] at hzones
          simpa [hexec] using hzones
        · rename_i m' hreserve
          rw [hreserve] at h
          exact absurd rfl h

/-- **A refused start leaves the manager as it was exactly when it was refused before the zones
were looked at, or none of the zones before the one that was taken had a reservation.** -/
theorem tryStartExecution_unchanged_iff {zones : List String} {preconditions : List Precondition}
    (h : (m.tryStartExecution now agentID taskID stepID graphID zones preconditions).2 ≠ none) :
    (m.tryStartExecution now agentID taskID stepID graphID zones preconditions).1 = m ↔
      m.refusedBeforeZones now agentID preconditions = true ∨
        ∀ z ∈ m.zonesBeforeTaken now agentID zones, m.zones z = none := by
  rw [tryStartExecution_refused h]
  cases hrefused : m.refusedBeforeZones now agentID preconditions with
  | true => simp
  | false => simp [foldl_deleteZone_eq_self_iff]

/-- Two idle robots; the first has the aisle, the second has the dock. -/
def aisleAndDock : Manager where
  robots id := if id = "r1" ∨ id = "r2" then some { id } else none
  zones z :=
    if z = "aisle" then some ⟨"aisle", "r1", 0, 30⟩
    else if z = "dock" then some ⟨"dock", "r2", 0, 30⟩
    else none

/-- The dock first: the start is refused and nothing changes. -/
theorem dockFirst_unchanged :
    (aisleAndDock.tryStartExecution 5 "r1" "t" "s" "g" ["dock", "aisle"] []).1 = aisleAndDock :=
  (tryStartExecution_unchanged_iff (by decide)).mpr (Or.inr (by decide))

/-- **The aisle first: the start is refused, and the robot no longer has the aisle.** -/
theorem aisleFirst_loses_aisle :
    (aisleAndDock.tryStartExecution 5 "r1" "t" "s" "g" ["aisle", "dock"] []).2 ≠ none ∧
      (aisleAndDock.zones "aisle").map ZoneReservation.agentID = some "r1" ∧
      (aisleAndDock.tryStartExecution 5 "r1" "t" "s" "g" ["aisle", "dock"] []).1.zones "aisle" =
        none := by
  decide

/-! ## Starting a batch -/

section Batch

variable (m now)

/-- The zone has a reservation that has not expired, of an agent outside the batch. -/
def heldOutside (executions : List MultiExecutionRequest) (zoneID : String) : Bool :=
  match m.zones zoneID with
  | none => false
  | some holder => now < holder.expiresAt && !isAgentInBatch holder.agentID executions

/-- Every request of the batch is running: its agent executes its task and has its zones. -/
def AllRunning (executions : List MultiExecutionRequest) : Prop :=
  ∀ exec ∈ executions,
    (∃ robot, m.robots exec.agentID = some robot ∧ robot.isExecuting = true ∧
      robot.currentTaskID = exec.taskID) ∧
    ∀ z ∈ exec.requiredZones, ∃ zone, m.zones z = some zone ∧ zone.agentID = exec.agentID ∧
      zone.expiresAt = now + m.zoneExpiryDuration

end Batch

/-- No two requests of a batch want one agent for different tasks. -/
def OneTaskPerAgent (executions : List MultiExecutionRequest) : Prop :=
  ∀ exec ∈ executions, ∀ exec' ∈ executions,
    exec.agentID = exec'.agentID → exec.taskID = exec'.taskID

instance (executions : List MultiExecutionRequest) : Decidable (OneTaskPerAgent executions) :=
  inferInstanceAs (Decidable (∀ exec ∈ executions, ∀ exec' ∈ executions, _ → _))

variable {executions : List MultiExecutionRequest}

/-- The zones of a batch pass exactly when it names no zone twice, and none that is held outside. -/
theorem multiZoneFault_eq_none_iff {pairs : List (MultiExecutionRequest × String)} :
    ∀ {requested : List (String × String)},
      m.multiZoneFault now executions requested pairs = none ↔
      (pairs.map Prod.snd).Nodup ∧ ∀ p ∈ pairs, (∀ r ∈ requested, r.1 ≠ p.2) ∧
        m.heldOutside now executions p.2 = false := by
  induction pairs with
  | nil => simp [multiZoneFault]
  | cons p rest ih =>
    obtain ⟨exec, zoneID⟩ := p
    intro requested
    have hstep : m.multiZoneFault now executions requested ((exec, zoneID) :: rest) = none ↔
        ((∀ r ∈ requested, r.1 ≠ zoneID) ∧ m.heldOutside now executions zoneID = false) ∧
          m.multiZoneFault now executions ((zoneID, exec.agentID) :: requested) rest = none := by
      rw [multiZoneFault, heldOutside]
      split
      · rename_i r existingAgent hfind
        have hmem := List.mem_of_find?_eq_some hfind
        have heq := List.find?_some hfind
        simp only [reduceCtorEq, false_iff]
        exact fun h ↦ h.1.1 _ hmem (of_decide_eq_true heq)
      · rename_i hfresh
        have hhead : ∀ r ∈ requested, r.1 ≠ zoneID := by simpa using hfresh
        cases hzone : m.zones zoneID with
        | none => simpa using fun _ ↦ hhead
        | some holder =>
          dsimp only
          split
          · rename_i hheld
            simp [hheld]
          · rename_i hfree
            have hfree : (decide (now < holder.expiresAt) &&
                !isAgentInBatch holder.agentID executions) = false := by simpa using hfree
            simpa [hfree] using fun _ ↦ hhead
    rw [hstep, ih, List.map_cons, List.nodup_cons, List.forall_mem_cons]
    constructor
    · rintro ⟨hhead, hnodup, hrest⟩
      refine ⟨⟨fun hmem ↦ ?_, hnodup⟩, hhead, fun p hp ↦
        ⟨fun r hr ↦ (hrest p hp).1 r (List.mem_cons_of_mem _ hr), (hrest p hp).2⟩⟩
      obtain ⟨p, hp, heq⟩ := List.mem_map.mp hmem
      exact (hrest p hp).1 _ List.mem_cons_self heq.symm
    · rintro ⟨⟨hfresh, hnodup⟩, hhead, hrest⟩
      refine ⟨hhead, hnodup, fun p hp ↦ ⟨fun r hr ↦ ?_, (hrest p hp).2⟩⟩
      rcases List.mem_cons.mp hr with rfl | hr
      · exact fun heq ↦ hfresh (List.mem_map.mpr ⟨p, hp, heq.symm⟩)
      · exact (hrest p hp).1 r hr

/-- What a batch that is started has passed. -/
structure BatchPasses (m : Manager) (now : ℕ) (executions : List MultiExecutionRequest) : Prop where
  idle : ∀ exec ∈ executions, ∃ robot, m.robots exec.agentID = some robot ∧
    robot.isExecuting = false
  nodup : (executions.flatMap MultiExecutionRequest.requiredZones).Nodup
  free : ∀ exec ∈ executions, ∀ z ∈ exec.requiredZones, m.heldOutside now executions z = false

/-- A refused batch changes nothing; a batch that is started has passed and is started in turn. -/
theorem tryStartMultiExecution_spec (preconditions : List Precondition) :
    let out := m.tryStartMultiExecution now executions preconditions
    (out.2 ≠ none → out.1 = m) ∧
    (out.2 = none → out.1 = executions.foldl (startOne now) m ∧ BatchPasses m now executions) := by
  rw [tryStartMultiExecution]
  dsimp only
  split
  · exact ⟨fun _ ↦ rfl, fun h ↦ absurd h (by simp)⟩
  · rename_i hfault
    refine ⟨fun h ↦ absurd rfl h, fun _ ↦ ⟨rfl, ?_⟩⟩
    simp only [Option.orElse_eq_orElse, Option.orElse_eq_or, Option.or_eq_none_iff,
      List.findSome?_eq_none_iff] at hfault
    obtain ⟨hagents, -, hzones⟩ := hfault
    obtain ⟨hnodup, hfree⟩ := multiZoneFault_eq_none_iff.mp hzones
    have hsnd : (executions.flatMap fun exec ↦ exec.requiredZones.map (exec, ·)).map Prod.snd =
        executions.flatMap MultiExecutionRequest.requiredZones := by
      rw [List.map_flatMap]
      congr 1
      funext exec
      rw [List.map_map]
      exact List.map_id _
    refine ⟨fun exec hexec ↦ ?_, hsnd ▸ hnodup, fun exec hexec z hz ↦ ?_⟩
    · have hnone := hagents exec hexec
      rw [multiAgentFault] at hnone
      split at hnone
      · exact absurd hnone (by simp)
      · rename_i robot hrobot
        split at hnone
        · exact absurd hnone (by simp)
        · rename_i hidle
          exact ⟨robot, hrobot, by simpa using hidle⟩
    · exact (hfree (exec, z) (List.mem_flatMap.mpr
        ⟨exec, hexec, List.mem_map.mpr ⟨z, hz, rfl⟩⟩)).2

/-- One request of the batch: its robot is started, its zones are reserved. -/
theorem startOne_eq {exec : MultiExecutionRequest} {robot : RobotState}
    (h : m.robots exec.agentID = some robot) :
    (startOne now m exec).robots = Function.update m.robots exec.agentID
        (some (started now robot exec.taskID exec.stepID exec.graphID)) ∧
      (startOne now m exec).zones = (fun z ↦ if z ∈ exec.requiredZones then
        some ⟨z, exec.agentID, now, now + m.zoneExpiryDuration⟩ else m.zones z) ∧
      (startOne now m exec).zoneExpiryDuration = m.zoneExpiryDuration := by
  rw [startOne, h]
  simp [foldl_reserveZone, setRobot, updateAgentState]

/-- Starting requests keeps every robot known. -/
theorem isSome_robots_startOne (exec : MultiExecutionRequest) {agent : String}
    (h : (m.robots agent).isSome) : ((startOne now m exec).robots agent).isSome := by
  cases hrobot : m.robots exec.agentID with
  | none => simpa [startOne, hrobot] using h
  | some robot =>
    rw [(startOne_eq hrobot).1]
    by_cases hagent : agent = exec.agentID
    · simp [hagent]
    · simpa [Function.update_of_ne hagent] using h

theorem zoneExpiryDuration_startOne (exec : MultiExecutionRequest) :
    (startOne now m exec).zoneExpiryDuration = m.zoneExpiryDuration := by
  cases hrobot : m.robots exec.agentID with
  | none => simp [startOne, hrobot]
  | some robot => exact (startOne_eq hrobot).2.2

theorem zoneExpiryDuration_foldl_startOne (executions : List MultiExecutionRequest)
    (m : Manager) :
    (executions.foldl (startOne now) m).zoneExpiryDuration = m.zoneExpiryDuration := by
  induction executions generalizing m with
  | nil => rfl
  | cons exec rest ih => rw [List.foldl_cons, ih, zoneExpiryDuration_startOne]

/-- An agent that executes a task goes on with it when the other requests for it, if there are
any, are for the same task. -/
theorem executing_foldl_startOne {agent task : String} (rest : List MultiExecutionRequest) :
    ∀ (m : Manager), (∀ exec ∈ rest, (m.robots exec.agentID).isSome) →
      (∀ exec ∈ rest, exec.agentID = agent → exec.taskID = task) →
      ((∃ exec ∈ rest, exec.agentID = agent) ∨ ∃ robot, m.robots agent = some robot ∧
        robot.isExecuting = true ∧ robot.currentTaskID = task) →
      ∃ robot, (rest.foldl (startOne now) m).robots agent = some robot ∧
        robot.isExecuting = true ∧ robot.currentTaskID = task := by
  induction rest with
  | nil => exact fun m _ _ h ↦ h.resolve_left (by simp)
  | cons exec rest ih =>
    intro m hknown htask h
    obtain ⟨robot, hrobot⟩ := Option.isSome_iff_exists.mp (hknown exec List.mem_cons_self)
    have hstart := (@startOne_eq m now exec robot hrobot).1
    refine ih (startOne now m exec)
      (fun e he ↦ isSome_robots_startOne exec (hknown e (List.mem_cons_of_mem _ he)))
      (fun e he ↦ htask e (List.mem_cons_of_mem _ he)) ?_
    by_cases hagent : exec.agentID = agent
    · refine Or.inr ⟨started now robot exec.taskID exec.stepID exec.graphID, ?_, rfl,
        htask exec List.mem_cons_self hagent⟩
      rw [hstart, hagent, Function.update_self]
    · rw [hstart, Function.update_of_ne (Ne.symm hagent)]
      rcases h with ⟨e, he, heq⟩ | h
      · rcases List.mem_cons.mp he with rfl | he
        · exact absurd heq hagent
        · exact Or.inl ⟨e, he, heq⟩
      · exact Or.inr h

/-- A zone that no request names keeps its reservation. -/
theorem zones_foldl_startOne_of_not_mem {z : String} (rest : List MultiExecutionRequest) :
    ∀ (m : Manager), (∀ exec ∈ rest, z ∉ exec.requiredZones) →
      (rest.foldl (startOne now) m).zones z = m.zones z := by
  induction rest with
  | nil => exact fun m _ ↦ rfl
  | cons exec rest ih =>
    intro m h
    rw [List.foldl_cons, ih _ fun e he ↦ h e (List.mem_cons_of_mem _ he)]
    cases hrobot : m.robots exec.agentID with
    | none => simp [startOne, hrobot]
    | some robot => simp [(startOne_eq hrobot).2.1, h exec List.mem_cons_self]

/-- A zone that one request names is reserved by its agent. -/
theorem zones_foldl_startOne {exec : MultiExecutionRequest} {z : String}
    (hz : z ∈ exec.requiredZones) (rest : List MultiExecutionRequest) :
    ∀ (m : Manager), (∀ e ∈ rest, (m.robots e.agentID).isSome) →
      (rest.flatMap MultiExecutionRequest.requiredZones).Nodup → exec ∈ rest →
      (rest.foldl (startOne now) m).zones z =
        some ⟨z, exec.agentID, now, now + m.zoneExpiryDuration⟩ := by
  induction rest with
  | nil => exact fun m _ _ h ↦ absurd h (by simp)
  | cons e rest ih =>
    intro m hknown hnodup hmem
    rw [List.flatMap_cons, List.nodup_append] at hnodup
    obtain ⟨-, hrest, hdisjoint⟩ := hnodup
    obtain ⟨robot, hrobot⟩ := Option.isSome_iff_exists.mp (hknown e List.mem_cons_self)
    rw [List.foldl_cons]
    rcases List.mem_cons.mp hmem with rfl | hmem
    · rw [zones_foldl_startOne_of_not_mem rest _ fun e' he' hz' ↦
        hdisjoint z hz z (List.mem_flatMap.mpr ⟨e', he', hz'⟩) rfl]
      simp [(startOne_eq hrobot).2.1, hz]
    · rw [ih _ (fun e' he' ↦ isSome_robots_startOne e (hknown e' (List.mem_cons_of_mem _ he')))
        hrest hmem, zoneExpiryDuration_startOne]

/-- **A batch is all or nothing, except that one agent can be wanted for two tasks**: a refused
batch changes nothing, and a batch that is started runs as a whole exactly when no two of its
requests want one agent for different tasks. -/
theorem tryStartMultiExecution_allOrNothing_iff (m : Manager) (now : ℕ)
    (executions : List MultiExecutionRequest) (preconditions : List Precondition) :
    let out := m.tryStartMultiExecution now executions preconditions
    (out.2 ≠ none → out.1 = m) ∧
    (out.2 = none → (AllRunning out.1 now executions ↔ OneTaskPerAgent executions)) := by
  obtain ⟨hrefused, hstarted⟩ := @tryStartMultiExecution_spec m now executions preconditions
  refine ⟨hrefused, fun h ↦ ?_⟩
  obtain ⟨heq, hpasses⟩ := hstarted h
  have hknown : ∀ exec ∈ executions, (m.robots exec.agentID).isSome := fun exec hexec ↦ by
    obtain ⟨robot, hrobot, -⟩ := hpasses.idle exec hexec
    simp [hrobot]
  rw [heq]
  constructor
  · intro hall exec hexec exec' hexec' hagent
    obtain ⟨robot, hrobot, -, htask⟩ := (hall exec hexec).1
    obtain ⟨robot', hrobot', -, htask'⟩ := (hall exec' hexec').1
    rw [← hagent, hrobot] at hrobot'
    obtain rfl := Option.some.inj hrobot'
    exact htask.symm.trans htask'
  · intro hone exec hexec
    refine ⟨executing_foldl_startOne executions m hknown
      (fun e he hagent ↦ hone e he exec hexec hagent) (Or.inl ⟨exec, hexec, rfl⟩),
      fun z hz ↦ ⟨_, zones_foldl_startOne hz executions m hknown hpasses.nodup hexec, rfl, ?_⟩⟩
    rw [zoneExpiryDuration_foldl_startOne]

/-- **A batch that names a robot twice is started, and only one of its two tasks runs.** -/
theorem robotTwice_runs_one :
    let m : Manager := { robots := fun id ↦ if id = "r1" then some { id } else none }
    let batch : List MultiExecutionRequest :=
      [⟨"r1", "t1", "s", "g", []⟩, ⟨"r1", "t2", "s", "g", []⟩]
    (m.tryStartMultiExecution 5 batch []).2 = none ∧
      ¬AllRunning (m.tryStartMultiExecution 5 batch []).1 5 batch := by
  intro m batch
  refine ⟨by decide, fun hall ↦ ?_⟩
  obtain ⟨robot, hrobot, -, htask⟩ := (hall ⟨"r1", "t1", "s", "g", []⟩ List.mem_cons_self).1
  have hsecond : ((m.tryStartMultiExecution 5 batch []).1.robots "r1").map
      RobotState.currentTaskID = some "t2" := by decide
  rw [hrobot, Option.map_some, htask] at hsecond
  exact absurd hsecond (by decide)

end Manager
end State
end FleetServer
