import FleetServer.Pddl.Resources

/-!
# Validation of a planning problem

`ValidateProblem` returns the text of the first fault it finds, `none` when there is none.  The
loops over the goal and the initial state run over maps; the order of their entries only decides
which of several faults is reported.
-/

set_option autoImplicit false

namespace FleetServer
namespace Pddl

open GoString

def agentCanRunTask (agent : AgentInfo) (task : PlanTask) : Bool :=
  agent.isOnline && task.requiredActionTypes.all (agent.capabilities.contains ·)

def capableAgentIDs (task : PlanTask) (agents : List AgentInfo) : List String :=
  (agents.filter fun agent ↦ agent.isOnline && agentCanRunTask agent task).map AgentInfo.id

/-- The check of one required-resource token. -/
def validateToken (catalog : ResourceCatalog) (task : PlanTask) (token : String) : Option String :=
  let ref := resolveResourceToken token catalog
  match ref.kind with
  | .typeRef =>
    if (catalog.typeByID ref.key).isNone then
      some ("task " ++ quote task.taskID ++ " references unknown resource type " ++ quote token)
    else if catalog.typeCapacity ref.key = 0 then
      some ("task " ++ quote task.taskID ++ " references resource type " ++ quote token ++
        " but it has no instances")
    else none
  | _ =>
    if hasPrefix token "instance:" && (catalog.instanceByID ref.key).isNone then
      some ("task " ++ quote task.taskID ++ " references unknown resource instance " ++ quote token)
    else none

/-- The check that some agent can run the task. -/
def validateAgent (agents : List AgentInfo) (task : PlanTask) : Option String :=
  if task.boundAgentID ≠ "" then
    match agents.find? (·.id = task.boundAgentID) with
    | none =>
      some ("task " ++ quote task.taskID ++ " is bound to unknown agent " ++
        quote task.boundAgentID)
    | some boundAgent =>
      if agentCanRunTask boundAgent task then none
      else
        some ("task " ++ quote task.taskID ++ " is bound to agent " ++ quote task.boundAgentID ++
          " but it is offline or missing required capabilities")
  else if capableAgentIDs task agents = [] then
    some ("no online agent satisfies capabilities required by task " ++ quote task.taskID)
  else none

/-- The checks of one task, in the order of the source. -/
def validateTask (problem : PlanProblem) (catalog : ResourceCatalog) (varNames : List String)
    (task : PlanTask) : Option String :=
  if trimSpace task.taskID = "" then some "planning task has empty id"
  else
    (task.resultStates.findSome? fun eff ↦
      if varNames.contains eff.var then none
      else some ("task " ++ quote task.taskID ++ " result variable " ++ quote eff.var ++
        " is not declared in planning_states"))
    <|> (task.duringState.findSome? fun dur ↦
      if varNames.contains dur.var then none
      else some ("task " ++ quote task.taskID ++ " during variable " ++ quote dur.var ++
        " is not declared in planning_states"))
    <|> task.requiredResources.findSome? (validateToken catalog task)
    <|> validateAgent problem.agents task

/-- `ValidateProblem`: the first fault of the problem. -/
def validateProblem (problem : PlanProblem) : Option String :=
  let catalog := buildResourceCatalog problem.resources
  let varNames := problem.stateVars.map PlanningStateVar.name
  if problem.goalState.entries = [] then some "goal state is empty"
  else
    (if varNames.contains "" then some "state variable has empty name" else none)
    <|> (problem.goalState.keys.findSome? fun varName ↦
      if varNames.contains varName then none
      else some ("goal variable " ++ quote varName ++ " is not declared in planning_states"))
    <|> (problem.initialState.keys.findSome? fun varName ↦
      if varNames.contains varName then none
      else some ("initial state variable " ++ quote varName ++
        " is not declared in planning_states"))
    <|> (if problem.tasks = [] then
      some "no planning task is defined for the selected behavior tree" else none)
    <|> problem.tasks.findSome? (validateTask problem catalog varNames)

end Pddl
end FleetServer
