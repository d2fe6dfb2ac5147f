import FleetServer.Lib.RangeOrder
import FleetServer.Pddl.Types

/-!
# The resources held by plans

The part of `internal/state/manager.go` that keeps track of who holds which resource.  One fact is
recorded three times: `resourceHolds` has the hold of a resource, `planResources` lists it under the
plan of the hold, and the runtime context of its task has the resource among `HeldResources`.  Every
operation writes the three one after the other; here is what each writes.

The maps are values: a context is registered with a map of its own.
-/

set_option autoImplicit false

namespace FleetServer
namespace State

open GoString

structure PlanResourceHold where
  planID : String
  resourceID : String
  agentID : String
  taskID : String
  runtimeTaskID : String
  stepID : String
  acquiredAt : ℕ
  deriving DecidableEq, Repr

/-- `HeldResources` is the list of its keys. -/
structure TaskRuntimeContext where
  planID : String := ""
  planExecutionID : String := ""
  logicalTaskID : String := ""
  logicalTaskName : String := ""
  behaviorTreeID : String := ""
  agentID : String := ""
  bindings : Option StringMap := none
  heldResources : Option (List String) := none

def TaskRuntimeContext.addHeld (ctx : TaskRuntimeContext) (resourceID : String) :
    TaskRuntimeContext :=
  { ctx with heldResources := some ((ctx.heldResources.getD []).insert resourceID) }

def TaskRuntimeContext.deleteHeld (ctx : TaskRuntimeContext) (resourceID : String) :
    TaskRuntimeContext :=
  { ctx with heldResources := ctx.heldResources.map (·.filter (· ≠ resourceID)) }

/-- A `map[string]PlanResourceHold`. -/
abbrev HoldMap := AList fun _ : String ↦ PlanResourceHold

structure PlanStore where
  planningStates : String → Option StringMap := fun _ ↦ none
  planResources : String → Option HoldMap := fun _ ↦ none
  resourceHolds : String → Option PlanResourceHold := fun _ ↦ none
  taskRuntimeScopes : String → Option TaskRuntimeContext := fun _ ↦ none

namespace PlanStore

variable (s : PlanStore) (now : ℕ)

/-! ## Parts of the operations -/

def occupancyStateCandidates (resourceID : String) : List String :=
  let trimmed := trimSpace resourceID
  if trimmed = "" then []
  else [trimmed ++ " 점유", trimmed ++ " Occupied", trimmed ++ " occupied", trimmed ++ "_occupied",
    trimmed ++ ".occupied"]

/-- `updatePlanningOccupancyStateLocked`: the first of the candidates that is a variable of the
plan is set. -/
def updatePlanningOccupancyState (planID resourceID : String) (occupied : Bool) : PlanStore :=
  if planID = "" then s
  else match s.planningStates planID with
    | none => s
    | some state =>
      match (occupancyStateCandidates resourceID).find? (· ∈ state.keys) with
      | none => s
      | some candidate =>
        let state := state.insert candidate (if occupied then "true" else "false")
        { s with planningStates := Function.update s.planningStates planID (some state) }

def setHold (resourceID : String) (hold : Option PlanResourceHold) : PlanStore :=
  { s with resourceHolds := Function.update s.resourceHolds resourceID hold }

/-- List a hold under its plan, if it has one. -/
def listHold (planID resourceID : String) (hold : PlanResourceHold) : PlanStore :=
  if planID = "" then s
  else
    let resources := ((s.planResources planID).getD ∅).insert resourceID hold
    { s with planResources := Function.update s.planResources planID (some resources) }

/-- Take a resource off the list of a plan. -/
def unlistHold (planID resourceID : String) : PlanStore :=
  if planID = "" then s
  else match s.planResources planID with
    | none => s
    | some resources =>
      { s with
        planResources :=
          Function.update s.planResources planID (some (resources.erase resourceID)) }

def setRuntime (runtimeTaskID : String) (ctx : Option TaskRuntimeContext) : PlanStore :=
  { s with taskRuntimeScopes := Function.update s.taskRuntimeScopes runtimeTaskID ctx }

/-- Change the context of a task, if it is registered. -/
def modifyRuntime (runtimeTaskID : String) (f : TaskRuntimeContext → TaskRuntimeContext) :
    PlanStore :=
  match s.taskRuntimeScopes runtimeTaskID with
  | none => s
  | some ctx => s.setRuntime runtimeTaskID (some (f ctx))

/-! ## Plans and tasks -/

/-- `InitPlanningState`: whatever was listed under the plan no longer is. -/
def initPlanningState (planID : String) (initial : StringMap) : PlanStore :=
  { s with
    planningStates := Function.update s.planningStates planID (some initial)
    planResources := Function.update s.planResources planID (some ∅) }

def clearPlanningState (planID : String) : PlanStore :=
  { s with
    planningStates := Function.update s.planningStates planID none
    planResources := Function.update s.planResources planID none }

/-- `RegisterTaskRuntime`: what the context leaves out is taken from the one before. -/
def registerTaskRuntime (runtimeTaskID : String) (ctx : TaskRuntimeContext) : PlanStore :=
  if trimSpace runtimeTaskID = "" then s
  else
    let existing := (s.taskRuntimeScopes runtimeTaskID).getD {}
    s.setRuntime runtimeTaskID (some { ctx with
      heldResources := some ((ctx.heldResources.or existing.heldResources).getD [])
      bindings := ctx.bindings.or existing.bindings })

def unregisterTaskRuntime (runtimeTaskID : String) : PlanStore := s.setRuntime runtimeTaskID none

/-! ## Acquiring -/

/-- `TryAcquirePlanResource`: whether the resource is held for the task now, and otherwise which
agent holds it. -/
def tryAcquirePlanResource (planID resourceID agentID runtimeTaskID logicalTaskID stepID : String) :
    PlanStore × Bool × String :=
  let resourceID := trimSpace resourceID
  if resourceID = "" then (s, false, "")
  else match s.resourceHolds resourceID with
    | some hold =>
      if hold.agentID = agentID ∧ hold.runtimeTaskID = runtimeTaskID then (s, true, "")
      else (s, false, hold.agentID)
    | none =>
      let taskID := if logicalTaskID = "" then runtimeTaskID else logicalTaskID
      let hold : PlanResourceHold :=
        { planID, resourceID, agentID, taskID, runtimeTaskID, stepID, acquiredAt := now }
      let s := (s.setHold resourceID (some hold)).listHold planID resourceID hold
      let s := s.modifyRuntime runtimeTaskID (·.addHeld resourceID)
      (s.updatePlanningOccupancyState planID resourceID true, true, "")

/-- `HandleTaskResourceEvent`, for an acquisition.  A hold whose resource id is empty is taken for
no hold. -/
def handleAcquired (ctx : TaskRuntimeContext) (runtimeTaskID agentID stepID resourceID : String) :
    Except String PlanStore :=
  match (s.resourceHolds resourceID).filter (·.resourceID ≠ "") with
  | some hold =>
    if hold.agentID = agentID ∧ hold.runtimeTaskID = runtimeTaskID then .ok s
    else .error ("resource " ++ resourceID ++ " already held by " ++ hold.agentID)
  | none =>
    let taskID := if ctx.logicalTaskID = "" then runtimeTaskID else ctx.logicalTaskID
    let hold : PlanResourceHold :=
      { planID := ctx.planID, resourceID, agentID, taskID, runtimeTaskID, stepID
        acquiredAt := now }
    let s := (s.setHold resourceID (some hold)).listHold ctx.planID resourceID hold
    let s := s.setRuntime runtimeTaskID (some (ctx.addHeld resourceID))
    .ok (s.updatePlanningOccupancyState ctx.planID resourceID true)

/-! ## Releasing -/

/-- `HandleTaskResourceEvent`, for a release. -/
def handleReleased (ctx : TaskRuntimeContext) (runtimeTaskID agentID resourceID : String) :
    Except String PlanStore :=
  match s.resourceHolds resourceID with
  | none => .ok s
  | some hold =>
    if hold.agentID ≠ agentID ∨ hold.runtimeTaskID ≠ runtimeTaskID then
      .error ("resource " ++ resourceID ++ " is held by " ++ hold.agentID ++ "/" ++
        hold.runtimeTaskID)
    else
      let s := (s.setHold resourceID none).unlistHold hold.planID resourceID
      let s := s.setRuntime runtimeTaskID (some (ctx.deleteHeld resourceID))
      .ok (s.updatePlanningOccupancyState hold.planID resourceID false)

def handleTaskResourceEvent (runtimeTaskID agentID stepID resourceID : String) (acquired : Bool) :
    Except String PlanStore :=
  match s.taskRuntimeScopes runtimeTaskID with
  | none => .error ("task runtime " ++ runtimeTaskID ++ " is not registered")
  | some ctx =>
    if acquired then s.handleAcquired now ctx runtimeTaskID agentID stepID resourceID
    else s.handleReleased ctx runtimeTaskID agentID resourceID

/-- `ReleasePlanResource`.  The resource is taken off the list of the plan that is *given*. -/
def releasePlanResource (planID resourceID agentID : String) : PlanStore × Bool :=
  match s.resourceHolds resourceID with
  | none => (s, false)
  | some hold =>
    if hold.agentID ≠ agentID then (s, false)
    else
      let s := (s.setHold resourceID none).unlistHold planID resourceID
      let s := s.modifyRuntime hold.runtimeTaskID (·.deleteHeld resourceID)
      (s.updatePlanningOccupancyState planID resourceID false, true)

/-- Whether `ReleaseTaskResources` for the agent releases a hold; an empty agent id is any agent. -/
def releasable (agentID : String) (hold : PlanResourceHold) : Bool :=
  agentID = "" || hold.agentID = agentID

/-- One round of `ReleaseTaskResources`, with the resources released so far. -/
def releaseHeld (agentID : String) (acc : PlanStore × List String) (resourceID : String) :
    PlanStore × List String :=
  match (acc.1.resourceHolds resourceID).filter (releasable agentID) with
  | none => acc
  | some hold =>
    let s := (acc.1.setHold resourceID none).unlistHold hold.planID resourceID
    (s.updatePlanningOccupancyState hold.planID resourceID false, acc.2 ++ [resourceID])

/-- `ReleaseTaskResources`: afterwards the task has no held resources, released or not. -/
def releaseTaskResources (order : RangeOrder String) (runtimeTaskID agentID : String) :
    PlanStore × List String :=
  match s.taskRuntimeScopes runtimeTaskID with
  | none => (s, [])
  | some ctx =>
    let held := ctx.heldResources.getD []
    if held = [] then (s, [])
    else
      let (s, released) := (order.range held).foldl (releaseHeld agentID) (s, [])
      (s.setRuntime runtimeTaskID (some { ctx with heldResources := some [] }), released)

/-- One round of `ReleaseAllPlanResources`: the hold of the resource is deleted, whatever it is. -/
def releaseListed (planID : String) (s : PlanStore) (entry : Σ _ : String, PlanResourceHold) :
    PlanStore :=
  ((s.setHold entry.1 none).modifyRuntime entry.2.runtimeTaskID (·.deleteHeld entry.1)
    ).updatePlanningOccupancyState planID entry.1 false

/-- `ReleaseAllPlanResources`. -/
def releaseAllPlanResources (order : RangeOrder (Σ _ : String, PlanResourceHold))
    (planID : String) : PlanStore :=
  let s := (order.range ((s.planResources planID).getD ∅).entries).foldl (releaseListed planID) s
  { s with planResources := Function.update s.planResources planID none }

end PlanStore
end State
end FleetServer
