import FleetServer.Executor.RuntimeResources
import FleetServer.Executor.Scheduler
import FleetServer.State.PlanHolds

/-!
# The holds of a task that is dispatched

`dispatchQueuedTaskLocked` (`internal/executor/scheduler.go`) takes the resources of a task one
after the other, starts the execution in the manager and sends the task to its agent.  Whatever goes
wrong on the way, what the call took is released again by the runtime context it has registered for
the task (`dispatch_holds`).  A hold from before the call is not among the held resources of that
context and stays, even one of the task itself.

The row of the task in the database is written on the way; a failure of that is only logged.
-/

set_option autoImplicit false

namespace FleetServer
namespace Executor

open GoString State PlanStore SchedulerState

/-! ## The code -/

/-- A task with what `dispatchQueuedTaskLocked` reads of it besides. -/
structure QueuedTask extends RunningTask where
  planProblemID : String := ""
  planExecutionID : String := ""
  logicalTaskID : String := ""
  logicalTaskName : String := ""
  taskDistributorID : String := ""
  runtimeGraphID : String := ""
  requiredResources : List String := []
  bindings : StringMap := ∅
  params : StringMap := ∅

/-- The arguments of `SendStartTask`. -/
structure StartTaskMessage where
  agentID : String
  taskID : String
  graphID : String
  robotID : String
  params : StringMap

/-- What the call depends on besides the state.  A handler that loses the connection to the agent
marks the robot in the manager; of plans and resources it changes nothing. -/
structure DispatchEnv where
  quicHandler : Option (Manager → StartTaskMessage → Manager × Option String)
  listTaskDistributorResources : String → Except String (List Pddl.ResourceInfo)
  marshalBindings : StringMap → Except String String
  bindingOrder : RangeOrder (Σ _ : String, String)
  heldOrder : RangeOrder String
  /-- When a resource is acquired, when the execution is started, and when it is undone. -/
  acquiredAt : String → ℕ
  startsAt : ℕ
  completesAt : ℕ

/-- `GetAllResourceHolds`: the holds in some order. -/
structure HoldListing (plans : PlanStore) where
  holds : List PlanResourceHold
  mem_iff : ∀ hold, hold ∈ holds ↔ ∃ resourceID, plans.resourceHolds resourceID = some hold

def taskParamResourceBindings : String := "__fleet_resource_bindings"

section Code

variable (env : DispatchEnv)

/-- The loop over the bindings: it stops at the first resource that is not to be had. -/
def acquireBindings (task : QueuedTask) : PlanStore → List (Σ _ : String, String) → PlanStore × Bool
  | plans, [] => (plans, true)
  | plans, binding :: rest =>
    let logicalTaskID := if task.logicalTaskID = "" then task.id else task.logicalTaskID
    match plans.tryAcquirePlanResource (env.acquiredAt binding.2) task.planProblemID binding.2
        task.agentID task.id logicalTaskID task.entryStepID with
    | (plans, true, _) => acquireBindings task plans rest
    | (plans, false, _) => (plans, false)

/-- What every failure of a dispatch begins with. -/
def releaseRuntime (plans : PlanStore) (task : QueuedTask) : PlanStore :=
  (plans.releaseTaskResources env.heldOrder task.id task.agentID).1.unregisterTaskRuntime task.id

def runtimeContext (task : QueuedTask) (bindings : StringMap) : TaskRuntimeContext :=
  { planID := task.planProblemID
    planExecutionID := task.planExecutionID
    logicalTaskID := task.logicalTaskID
    logicalTaskName := task.logicalTaskName
    behaviorTreeID := task.behaviorTreeID
    agentID := task.agentID
    bindings := some bindings
    heldResources := some [] }

def reserveTaskResourcesForDispatch (plans : PlanStore) (listing : HoldListing plans)
    (task : QueuedTask) : PlanStore × QueuedTask × Reservation :=
  if task.requiredResources = [] then
    (plans.registerTaskRuntime task.id (runtimeContext task ∅), { task with bindings := ∅ }, .ready)
  else
    match loadRuntimeResourceCatalog env.listTaskDistributorResources task.taskDistributorID with
    | .error err => (plans, task, .error err)
    | .ok catalog =>
      match resolveRuntimeBindings catalog task.requiredResources listing.holds [] with
      | .error err =>
        (plans, task, if contains err "no free instance" then .notReady else .error err)
      | .ok bindings =>
        let bindings := bindings.getD ∅
        let plans := plans.registerTaskRuntime task.id (runtimeContext task bindings)
        match acquireBindings env task plans (env.bindingOrder.range bindings.entries) with
        | (plans, true) => (plans, { task with bindings }, .ready)
        | (plans, false) => (releaseRuntime env plans task, { task with bindings := ∅ }, .notReady)

structure DispatchResult where
  manager : Manager
  plans : PlanStore
  task : QueuedTask
  err : Option String := none
  /-- The message that was sent. -/
  sent : Option StartTaskMessage := none

/-- A failure after the execution was started. -/
def undoDispatch (manager : Manager) (plans : PlanStore) (task : QueuedTask) (err : String) :
    DispatchResult :=
  { manager := manager.completeExecution env.completesAt task.agentID task.reservedZones
    plans := releaseRuntime env plans task
    task := { task with dispatchLeaseUntil := none, dispatchSent := false, bindings := ∅ }
    err := some err }

/-- The parameters that are sent: those of the task, and its bindings if there are any. -/
def sendParams (task : QueuedTask) : Except String StringMap :=
  if task.bindings.entries = [] then .ok task.params
  else (env.marshalBindings task.bindings).map fun bindingJSON ↦
    task.params.insert taskParamResourceBindings bindingJSON

/-- `dispatchQueuedTaskLocked`, once the execution is started. -/
def sendQueuedTask (handler : Manager → StartTaskMessage → Manager × Option String)
    (manager : Manager) (plans : PlanStore) (task : QueuedTask) : DispatchResult :=
  match sendParams env task with
  | .error err =>
    undoDispatch env manager plans task
      ("marshal resource bindings for " ++ task.id ++ ": " ++ err)
  | .ok params =>
    let graphID :=
      if trimSpace task.runtimeGraphID = "" then task.behaviorTreeID else task.runtimeGraphID
    let message : StartTaskMessage :=
      { agentID := task.agentID, taskID := task.id, graphID, robotID := task.agentID, params }
    match handler manager message with
    | (manager, some err) =>
      undoDispatch env manager plans task ("send start_task failed for " ++ task.id ++ ": " ++ err)
    | (manager, none) =>
      { manager, plans, task := { task with dispatchSent := true }, sent := some message }

def dispatchQueuedTaskLocked (manager : Manager) (plans : PlanStore) (listing : HoldListing plans)
    (task : QueuedTask) (now : ℕ) : DispatchResult :=
  match env.quicHandler with
  | none => { manager, plans, task, err := some "raw QUIC handler is not configured" }
  | some handler =>
    match reserveTaskResourcesForDispatch env plans listing task with
    | (plans, task, .error err) => { manager, plans, task, err := some err }
    | (plans, task, .notReady) => { manager, plans, task }
    | (plans, task, .ready) =>
      match manager.tryStartExecution env.startsAt task.agentID task.id task.entryStepID
          task.behaviorTreeID task.reservedZones task.preconditions with
      | (manager, some _) =>
        { manager, plans := releaseRuntime env plans task, task := { task with bindings := ∅ } }
      | (manager, none) =>
        sendQueuedTask env handler manager plans
          { task with
            dispatchLeaseUntil := some (now + taskDispatchLease)
            dispatchAttempts := task.dispatchAttempts + 1
            startedAt := some now }

end Code

/-! ## What is taken and given back -/

section Holds

variable {env : DispatchEnv} {before plans : PlanStore} {task : QueuedTask}
  {agentID taskID resourceID : String}

/-- The hold is one of the task, for its agent. -/
def IsHoldOf (agentID taskID : String) (hold : PlanResourceHold) : Prop :=
  hold.agentID = agentID ∧ hold.runtimeTaskID = taskID

/-- The task has a hold of the resource. -/
def HasHold (plans : PlanStore) (agentID taskID resourceID : String) : Prop :=
  ∃ hold, plans.resourceHolds resourceID = some hold ∧ IsHoldOf agentID taskID hold

/-- The held resources of the task are those it has taken since, and nothing else is different. -/
structure TakenSince (before plans : PlanStore) (agentID taskID : String) : Prop where
  registered : (plans.taskRuntimeScopes taskID).isSome
  taken : ∀ {k : String}, k ∈ plans.held taskID →
    before.resourceHolds k = none ∧ HasHold plans agentID taskID k
  kept : ∀ {k : String}, k ∉ plans.held taskID → plans.resourceHolds k = before.resourceHolds k

theorem takenSince_registerTaskRuntime (hid : trimSpace task.id ≠ "") (bindings : StringMap) :
    TakenSince plans (plans.registerTaskRuntime task.id (runtimeContext task bindings))
      task.agentID task.id := by
  have hscope : ∃ ctx, (plans.registerTaskRuntime task.id
      (runtimeContext task bindings)).taskRuntimeScopes task.id = some ctx ∧
      ctx.heldResources = some [] := by
    rw [registerTaskRuntime, if_neg hid]
    exact ⟨_, Function.update_self .., rfl⟩
  obtain ⟨ctx, hctx, hnone⟩ := hscope
  have hheld : (plans.registerTaskRuntime task.id (runtimeContext task bindings)).held task.id =
      [] := by
    rw [held, hctx, Option.bind_some, hnone]
    rfl
  refine ⟨by rw [hctx]; rfl, fun hmem ↦ ?_, fun _ ↦ ?_⟩
  · rw [hheld] at hmem
    exact absurd hmem List.not_mem_nil
  · rw [registerTaskRuntime, if_neg hid]
    rfl

/-- A hold that is taken is among the held resources of its task, if the task is registered. -/
theorem mem_held_takeHold_self {hold : PlanResourceHold}
    (hregistered : (plans.taskRuntimeScopes hold.runtimeTaskID).isSome) {k : String} :
    k ∈ (plans.takeHold resourceID hold).held hold.runtimeTaskID ↔
      k ∈ plans.held hold.runtimeTaskID ∨ k = resourceID := by
  obtain ⟨ctx, hctx⟩ := Option.isSome_iff_exists.mp hregistered
  rw [takeHold, held_congr (taskRuntimeScopes_updatePlanningOccupancyState _), modifyRuntime,
    taskRuntimeScopes_listHold, taskRuntimeScopes_setHold, hctx]
  dsimp only
  rw [held_setRuntime, if_pos rfl, held, hctx]
  simp [TaskRuntimeContext.addHeld, or_comm]

/-- What an acquisition comes to. -/
theorem acquire_cases (plans : PlanStore) (now : ℕ)
    (planID resourceID agentID taskID logicalTaskID stepID : String) :
    (∃ ok holder, plans.tryAcquirePlanResource now planID resourceID agentID taskID
          logicalTaskID stepID = (plans, ok, holder) ∧
        (ok = true → HasHold plans agentID taskID (trimSpace resourceID))) ∨
      ∃ hold, plans.resourceHolds (trimSpace resourceID) = none ∧ IsHoldOf agentID taskID hold ∧
        plans.tryAcquirePlanResource now planID resourceID agentID taskID logicalTaskID
          stepID = (plans.takeHold (trimSpace resourceID) hold, true, "") := by
  rw [tryAcquirePlanResource]
  generalize trimSpace resourceID = resourceID
  dsimp only
  split
  · exact .inl ⟨false, "", rfl, fun h ↦ absurd h (by simp)⟩
  · split
    · rename_i hold hhold
      split
      · rename_i hmine
        exact .inl ⟨true, "", rfl, fun _ ↦ ⟨hold, hhold, hmine⟩⟩
      · exact .inl ⟨false, hold.agentID, rfl, fun h ↦ absurd h (by simp)⟩
    · rename_i hfree
      exact .inr ⟨_, hfree, ⟨rfl, rfl⟩, rfl⟩

theorem HasHold.takeHold {k : String} (h : HasHold plans agentID taskID k) {hold : PlanResourceHold}
    (hmine : IsHoldOf agentID taskID hold) :
    HasHold (plans.takeHold resourceID hold) agentID taskID k := by
  rw [HasHold, resourceHolds_takeHold]
  by_cases hk : k = resourceID
  · subst hk
    exact ⟨hold, Function.update_self .., hmine⟩
  · rwa [Function.update_of_ne hk]

theorem TakenSince.takeHold (h : TakenSince before plans agentID taskID) {hold : PlanResourceHold}
    (hfree : plans.resourceHolds resourceID = none) (hmine : IsHoldOf agentID taskID hold) :
    TakenSince before (plans.takeHold resourceID hold) agentID taskID := by
  have hmem : ∀ {k : String}, k ∈ (plans.takeHold resourceID hold).held taskID ↔
      k ∈ plans.held taskID ∨ k = resourceID := by
    intro k
    rw [← hmine.2]
    exact mem_held_takeHold_self (by rw [hmine.2]; exact h.registered)
  have hbefore : before.resourceHolds resourceID = none := by
    by_cases hheld : resourceID ∈ plans.held taskID
    · exact (h.taken hheld).1
    · rw [← h.kept hheld, hfree]
  refine ⟨?_, fun {k} hk ↦ ?_, fun {k} hk ↦ ?_⟩
  · have := h.registered
    rw [← hmine.2] at this ⊢
    obtain ⟨ctx, hctx⟩ := Option.isSome_iff_exists.mp this
    simp [PlanStore.takeHold, modifyRuntime, hctx, setRuntime]
  · rcases hmem.mp hk with hheld | rfl
    · exact ⟨(h.taken hheld).1, (h.taken hheld).2.takeHold hmine⟩
    · refine ⟨hbefore, hold, ?_, hmine⟩
      rw [resourceHolds_takeHold, Function.update_self]
  · rw [hmem, not_or] at hk
    rw [resourceHolds_takeHold, Function.update_of_ne hk.2, h.kept hk.1]

/-- **The loop over the bindings takes what it is asked for**, or some of it. -/
theorem acquireBindings_spec (env : DispatchEnv) :
    ∀ (bindings : List (Σ _ : String, String)) {plans : PlanStore},
    TakenSince before plans task.agentID task.id →
      TakenSince before (acquireBindings env task plans bindings).1 task.agentID task.id ∧
        (∀ {k : String}, HasHold plans task.agentID task.id k →
          HasHold (acquireBindings env task plans bindings).1 task.agentID task.id k) ∧
        ((acquireBindings env task plans bindings).2 = true → ∀ binding ∈ bindings,
          HasHold (acquireBindings env task plans bindings).1 task.agentID task.id
            (trimSpace binding.2)) := by
  intro bindings
  induction bindings with
  | nil => exact fun h ↦ ⟨h, id, fun _ binding hmem ↦ absurd hmem List.not_mem_nil⟩
  | cons binding rest ih =>
    intro plans h
    rw [acquireBindings]
    obtain ⟨ok, holder, hacquire, hheld⟩ | ⟨hold, hfree, hmine, hacquire⟩ :=
      acquire_cases plans (env.acquiredAt binding.2) task.planProblemID binding.2 task.agentID
        task.id (if task.logicalTaskID = "" then task.id else task.logicalTaskID) task.entryStepID
    · rw [hacquire]
      cases ok with
      | false => exact ⟨h, id, fun hok ↦ absurd hok (by simp)⟩
      | true =>
        obtain ⟨htaken, hkept, hall⟩ := ih h
        refine ⟨htaken, hkept, fun hok later hlater ↦ ?_⟩
        rcases List.mem_cons.mp hlater with rfl | hlater
        · exact hkept (hheld rfl)
        · exact hall hok later hlater
    · rw [hacquire]
      obtain ⟨htaken, hkept, hall⟩ := ih (h.takeHold hfree hmine)
      refine ⟨htaken, fun hk ↦ hkept (hk.takeHold hmine), fun hok later hlater ↦ ?_⟩
      rcases List.mem_cons.mp hlater with rfl | hlater
      · refine hkept ⟨hold, ?_, hmine⟩
        rw [resourceHolds_takeHold, Function.update_self]
      · exact hall hok later hlater

/-- **Releasing the runtime of the task undoes what was taken.** -/
theorem resourceHolds_releaseRuntime (task : QueuedTask)
    (h : TakenSince before plans task.agentID task.id) :
    (releaseRuntime env plans task).resourceHolds = before.resourceHolds := by
  funext k
  obtain ⟨hholds, -, -⟩ :=
    releaseTaskResources_spec plans env.heldOrder task.id task.agentID
  change (plans.releaseTaskResources env.heldOrder task.id task.agentID).1.resourceHolds k = _
  by_cases hk : k ∈ plans.held task.id
  · obtain ⟨hbefore, hold, hhold, hmine⟩ := h.taken hk
    rw [hbefore, Option.eq_none_iff_forall_ne_some]
    intro v hv
    obtain ⟨hv, hnot⟩ := (hholds k v).mp hv
    obtain rfl : hold = v := Option.some.inj (hhold.symm.trans hv)
    exact hnot ⟨hk, hv, by simp [releasable, hmine.1]⟩
  · rw [← h.kept hk]
    refine Option.ext fun v ↦ ?_
    rw [hholds]
    exact ⟨And.left, fun hv ↦ ⟨hv, fun hreleased ↦ hk hreleased.1⟩⟩

end Holds

/-! ## What a dispatch leaves -/

section Dispatch

variable {env : DispatchEnv} {manager : Manager} {before plans : PlanStore}
  {listing : HoldListing plans} {task : QueuedTask} {now : ℕ}

/-- The task holds all that is bound. -/
def HoldsBindings (plans : PlanStore) (agentID taskID : String) (bindings : StringMap) : Prop :=
  ∀ binding ∈ bindings.entries, HasHold plans agentID taskID (trimSpace binding.2)

/-- What the reservation leaves: the resources of the task, or nothing that was not there before. -/
theorem reserve_spec (hid : trimSpace task.id ≠ "") {plans' : PlanStore} {task' : QueuedTask}
    {outcome : Reservation}
    (h : reserveTaskResourcesForDispatch env plans listing task = (plans', task', outcome)) :
    (∃ bindings, task' = { task with bindings }) ∧
      (outcome = .ready → TakenSince plans plans' task.agentID task.id ∧
        HoldsBindings plans' task.agentID task.id task'.bindings) ∧
      (outcome ≠ .ready → plans'.resourceHolds = plans.resourceHolds) := by
  rw [reserveTaskResourcesForDispatch] at h
  split at h
  · obtain ⟨rfl, rfl, rfl⟩ := h
    exact ⟨⟨_, rfl⟩, fun _ ↦ ⟨takenSince_registerTaskRuntime hid ∅,
      fun binding hmem ↦ absurd hmem List.not_mem_nil⟩, fun hne ↦ absurd rfl hne⟩
  · split at h
    · obtain ⟨rfl, rfl, rfl⟩ := h
      exact ⟨⟨_, rfl⟩, fun hready ↦ absurd hready (by simp), fun _ ↦ rfl⟩
    · split at h
      · rename_i err _
        obtain ⟨rfl, rfl, rfl⟩ := h
        refine ⟨⟨_, rfl⟩, fun hready ↦ ?_, fun _ ↦ rfl⟩
        split at hready <;> exact absurd hready (by simp)
      · rename_i bindings _
        have htaken : TakenSince plans (plans.registerTaskRuntime task.id
            (runtimeContext task (bindings.getD ∅))) task.agentID task.id :=
          takenSince_registerTaskRuntime hid (bindings.getD ∅)
        have hspec := acquireBindings_spec env (env.bindingOrder.range (bindings.getD ∅).entries)
          htaken
        dsimp only at h
        split at h
        · rename_i heq
          rw [heq] at hspec
          obtain ⟨rfl, rfl, rfl⟩ := h
          obtain ⟨htaken, -, hall⟩ := hspec
          exact ⟨⟨_, rfl⟩, fun _ ↦ ⟨htaken, fun binding hmem ↦
            hall rfl binding (env.bindingOrder.mem_range.mpr hmem)⟩, fun hne ↦ absurd rfl hne⟩
        · rename_i heq
          rw [heq] at hspec
          obtain ⟨rfl, rfl, rfl⟩ := h
          exact ⟨⟨_, rfl⟩, fun hready ↦ absurd hready (by simp),
            fun _ ↦ resourceHolds_releaseRuntime task hspec.1⟩

/-- A task that is sent keeps its holds, and one that is not gives back what it took. -/
structure LeavesHolds (before : PlanStore) (agentID taskID : String) (result : DispatchResult) :
    Prop where
  notSent : result.sent = none → result.plans.resourceHolds = before.resourceHolds
  sent : result.sent ≠ none → TakenSince before result.plans agentID taskID ∧
    HoldsBindings result.plans agentID taskID result.task.bindings

theorem leavesHolds_undoDispatch (htaken : TakenSince before plans task.agentID task.id)
    (err : String) :
    LeavesHolds before task.agentID task.id (undoDispatch env manager plans task err) :=
  ⟨fun _ ↦ resourceHolds_releaseRuntime task htaken, fun hsent ↦ absurd rfl hsent⟩

theorem leavesHolds_sendQueuedTask (task : QueuedTask)
    {handler : Manager → StartTaskMessage → Manager × Option String}
    (htaken : TakenSince before plans task.agentID task.id)
    (hbindings : HoldsBindings plans task.agentID task.id task.bindings) :
    LeavesHolds before task.agentID task.id
      (sendQueuedTask env handler manager plans task) := by
  rw [sendQueuedTask]
  split
  · exact leavesHolds_undoDispatch htaken _
  · dsimp only
    split
    · exact leavesHolds_undoDispatch htaken _
    · exact ⟨fun hnone ↦ absurd hnone (by simp), fun _ ↦ ⟨htaken, hbindings⟩⟩

theorem leavesHolds_dispatch (hid : trimSpace task.id ≠ "") :
    LeavesHolds plans task.agentID task.id
      (dispatchQueuedTaskLocked env manager plans listing task now) := by
  rw [dispatchQueuedTaskLocked]
  split
  · exact ⟨fun _ ↦ rfl, fun hsent ↦ absurd rfl hsent⟩
  · split
    · rename_i hreserve
      exact ⟨fun _ ↦ (reserve_spec hid hreserve).2.2 (by simp), fun hsent ↦ absurd rfl hsent⟩
    · rename_i hreserve
      exact ⟨fun _ ↦ (reserve_spec hid hreserve).2.2 (by simp), fun hsent ↦ absurd rfl hsent⟩
    · rename_i hreserve
      obtain ⟨⟨bindings, rfl⟩, hready, -⟩ := reserve_spec hid hreserve
      obtain ⟨htaken, hbindings⟩ := hready rfl
      split
      · refine ⟨fun _ ↦ ?_, fun hsent ↦ absurd rfl hsent⟩
        exact resourceHolds_releaseRuntime { task with bindings } htaken
      · exact leavesHolds_sendQueuedTask { task with
          bindings
          dispatchLeaseUntil := some (now + taskDispatchLease)
          dispatchAttempts := task.dispatchAttempts + 1
          startedAt := some now } htaken hbindings

/-- **A call that does not send the task leaves the holds as they were; one that does leaves the
task with all it is bound to**, and every other resource with the hold it had. -/
theorem dispatch_holds (env : DispatchEnv) (manager : Manager) (listing : HoldListing plans)
    (now : ℕ) (hid : trimSpace task.id ≠ "") :
    let result := dispatchQueuedTaskLocked env manager plans listing task now
    (result.sent = none → result.plans.resourceHolds = plans.resourceHolds) ∧
      (result.sent ≠ none →
        HoldsBindings result.plans task.agentID task.id result.task.bindings ∧
          ∀ k, result.plans.resourceHolds k = plans.resourceHolds k ∨
            plans.resourceHolds k = none ∧ HasHold result.plans task.agentID task.id k) := by
  have hleaves : LeavesHolds plans task.agentID task.id
      (dispatchQueuedTaskLocked env manager plans listing task now) :=
    leavesHolds_dispatch hid
  refine ⟨hleaves.notSent, fun hsent ↦ ?_⟩
  obtain ⟨htaken, hbindings⟩ := hleaves.sent hsent
  refine ⟨hbindings, fun k ↦ ?_⟩
  by_cases hk : k ∈ (dispatchQueuedTaskLocked env manager plans listing task now).plans.held task.id
  · exact .inr (htaken.taken hk)
  · exact .inl (htaken.kept hk)

end Dispatch

/-! ## A dock -/

def dockHold : PlanResourceHold :=
  { planID := "", resourceID := "dock", agentID := "robot", taskID := "t1", runtimeTaskID := "t1"
    stepID := "step", acquiredAt := 0 }

/-- The dock is held for a task that is not registered. -/
def dockHeld : PlanStore :=
  { resourceHolds := Function.update (fun _ ↦ none) "dock" (some dockHold) }

def noHolds : HoldListing {} := ⟨[], fun hold ↦ by simp⟩

def dockHolds : HoldListing dockHeld :=
  ⟨[dockHold], fun hold ↦ by
    rw [List.mem_singleton, dockHeld]
    constructor
    · rintro rfl
      exact ⟨"dock", rfl⟩
    · rintro ⟨k, hk⟩
      dsimp only at hk
      by_cases hdock : k = "dock"
      · rw [hdock, Function.update_self] at hk
        exact (Option.some.inj hk).symm
      · rw [Function.update_of_ne hdock] at hk
        exact absurd hk (by simp)⟩

def dockTask (token : String) : QueuedTask :=
  { id := "t1", behaviorTreeID := "tree", agentID := "robot", entryStepID := "step"
    taskDistributorID := "hall", requiredResources := [token] }

/-- The hall has a dock with a blank at the end of its name, and sending always succeeds. -/
def dockEnv : DispatchEnv where
  quicHandler := some fun manager _ ↦ (manager, none)
  listTaskDistributorResources _ :=
    .ok [{ id := "d1", name := "dock ", kind := "instance", parentResourceID := "" }]
  marshalBindings _ := .ok "{}"
  bindingOrder := .asListed _
  heldOrder := .asListed _
  acquiredAt _ := 1
  startsAt := 1
  completesAt := 2

def robotManager (isExecuting : Bool) : Manager :=
  { robots := Function.update (fun _ ↦ none) "robot" (some { id := "robot", isExecuting }) }

def dispatchDock (isExecuting : Bool) : DispatchResult :=
  dispatchQueuedTaskLocked dockEnv (robotManager isExecuting) {} noHolds (dockTask "dock") 1

/-- The dock is held once the task is sent. -/
theorem dock_taken : HasHold (dispatchDock false).plans "robot" "t1" "dock" :=
  ((dispatch_holds dockEnv (robotManager false) noHolds 1
    (show trimSpace (dockTask "dock").id ≠ "" by decide)).2
      (fun h ↦ absurd (congrArg Option.isSome h) (by decide))).1 ⟨"dock", "dock"⟩ (by decide)

/-- A task that holds the dock already and that is not started goes on holding it; and a dock with a
blank in its name is held without it. -/
theorem dock_stays :
    (dispatchQueuedTaskLocked dockEnv (robotManager true) dockHeld dockHolds (dockTask "dock")
        1).sent.isNone = true ∧
      (dispatchQueuedTaskLocked dockEnv (robotManager true) dockHeld dockHolds (dockTask "dock")
        1).plans.resourceHolds "dock" = some dockHold ∧
      dockHold.runtimeTaskID = (dockTask "dock").id ∧
      (dispatchQueuedTaskLocked dockEnv (robotManager false) {} noHolds (dockTask "instance:d1")
        1).sent.isSome = true ∧
      (dispatchQueuedTaskLocked dockEnv (robotManager false) {} noHolds (dockTask "instance:d1")
        1).task.bindings.lookup "instance:d1" = some "dock " ∧
      (dispatchQueuedTaskLocked dockEnv (robotManager false) {} noHolds (dockTask "instance:d1")
        1).plans.resourceHolds "dock " = none := by
  decide

end Executor
end FleetServer
