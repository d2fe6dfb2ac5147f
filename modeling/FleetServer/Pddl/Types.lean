import Mathlib.Data.List.AList
import FleetServer.Lib.GoString

/-!
# The data of a planning problem

The records of `internal/pddl/types.go`, and the three records of `internal/db/models.go` that a
planning task is made of.  A `map[string]string` whose keys are iterated over is an association
list without repeated keys (`AList`); the planner's *current state* is only ever read at a key,
and a missing key reads as the empty string, so it is a function.
-/

set_option autoImplicit false

namespace FleetServer

/-- A `map[string]string`. -/
abbrev StringMap := AList fun _ : String ↦ String

/-- A condition on a planning variable.  The operator is `==` (also the default) or `!=`. -/
structure PlanningCondition where
  var : String
  operator : String
  value : String
  deriving DecidableEq, Repr

/-- An assignment to a planning variable. -/
structure PlanningEffect where
  var : String
  value : String
  deriving DecidableEq, Repr

/-- A declared planning variable. -/
structure PlanningStateVar where
  name : String
  initialValue : String
  deriving DecidableEq, Repr

namespace Pddl

structure ResourceInfo where
  id : String
  name : String
  kind : String
  parentResourceID : String
  deriving DecidableEq, Repr

/-- A single plannable task: a behavior tree with its planning data. -/
structure PlanTask where
  taskID : String
  taskName : String := ""
  behaviorTreeID : String := ""
  requiredActionTypes : List String := []
  preconditions : List PlanningCondition := []
  requiredResources : List String := []
  resultStates : List PlanningEffect := []
  warningResultStates : List PlanningEffect := []
  errorResultStates : List PlanningEffect := []
  duringState : List PlanningEffect := []
  warningMessageVariable : String := ""
  errorMessageVariable : String := ""
  runtimeParams : StringMap := ∅
  boundAgentID : String := ""
  boundAgentName : String := ""

/-- The zero task, which a lookup of an unknown task id yields. -/
instance : Inhabited PlanTask := ⟨{ taskID := "" }⟩

structure AgentInfo where
  id : String
  name : String
  capabilities : List String
  isOnline : Bool
  deriving DecidableEq, Repr

structure PlanProblem where
  stateVars : List PlanningStateVar
  initialState : StringMap
  goalState : StringMap
  tasks : List PlanTask
  agents : List AgentInfo
  resources : List ResourceInfo

/-- A task given to an agent, with the group it runs in. -/
structure TaskAssignment where
  taskID : String
  taskName : String
  behaviorTreeID : String
  stepID : String
  stepName : String
  agentID : String
  agentName : String
  order : ℕ
  reason : String
  runtimeParams : StringMap
  resultStates : List PlanningEffect
  warningResultStates : List PlanningEffect
  errorResultStates : List PlanningEffect
  warningMessageVariable : String
  errorMessageVariable : String

structure Plan where
  assignments : List TaskAssignment := []
  isValid : Bool
  errorMessage : String := ""
  totalTasks : ℕ := 0
  totalSteps : ℕ := 0
  parallelGroups : ℕ := 0

end Pddl
end FleetServer
