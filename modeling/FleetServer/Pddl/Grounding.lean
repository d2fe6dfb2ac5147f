import Mathlib.Data.List.Sort
import FleetServer.Lib.RangeOrder
import FleetServer.Pddl.Validator

/-!
# Grounding task templates

`GroundTasks` turns each task into the tasks it stands for: one for each way to bind its resource
tokens to instances, no instance twice, and of these one for each capable agent where the task
speaks of *the agent*.  The first token in alphabetical order is the **primary** one; its resource
is what the placeholders in the texts of the task are replaced by.

The placeholders of a text are replaced in a loop over a map.  Its order is a parameter: a function
of the text the loop starts from, so two calls on the same arguments agree.
-/

set_option autoImplicit false

namespace FleetServer
namespace Pddl

open GoString

/-- A token and the resource it is bound to. -/
structure GroundedResource where
  token : String
  resource : ResourceInfo
  typeID : String := ""
  typeName : String := ""
  deriving DecidableEq, Repr

/-- The resources that the tokens of a task are bound to, by token. -/
abbrev Bindings := AList fun _ : String ↦ GroundedResource

/-- A token that stands for any one instance of a type. -/
structure CandidateSet where
  token : String
  instances : List String
  deriving DecidableEq, Repr

/-! ## The texts of a task -/

/-- Every text of a task in which a placeholder may stand. -/
def PlanTask.texts (task : PlanTask) : List String :=
  (task.preconditions.flatMap fun cond ↦ [cond.var, cond.value]) ++
  ([task.resultStates, task.warningResultStates, task.errorResultStates,
    task.duringState].flatten.flatMap fun effect ↦ [effect.var, effect.value]) ++
  [task.warningMessageVariable, task.errorMessageVariable]

def usesGenericResourcePlaceholderTask (task : PlanTask) : Bool :=
  task.texts.any fun value ↦ contains value "\x7b\x7bresource."

def usesGenericAgentPlaceholderTask (task : PlanTask) : Bool :=
  task.texts.any fun value ↦
    contains value "\x7b\x7bagent." || contains value "\x7b\x7bagent\x7d\x7d"

/-- A task with every text rewritten.  The two message variables lose their outer white space
first. -/
def PlanTask.mapTexts (f : String → String) (task : PlanTask) : PlanTask :=
  let condition (cond : PlanningCondition) : PlanningCondition :=
    { cond with var := f cond.var, value := f cond.value }
  let effect (eff : PlanningEffect) : PlanningEffect := { var := f eff.var, value := f eff.value }
  { task with
    preconditions := task.preconditions.map condition
    resultStates := task.resultStates.map effect
    warningResultStates := task.warningResultStates.map effect
    errorResultStates := task.errorResultStates.map effect
    duringState := task.duringState.map effect
    warningMessageVariable := f (trimSpace task.warningMessageVariable)
    errorMessageVariable := f (trimSpace task.errorMessageVariable) }

/-! ## Placeholders -/

/-- The order in which the placeholders of a text are replaced. -/
abbrev SubstitutionOrder := String → RangeOrder (String × String)

/-- The loop over the replacements of a text. -/
def substitute (order : SubstitutionOrder) (replacements : List (String × String))
    (value : String) : String :=
  ((order value).range replacements).foldl
    (fun result replacement ↦ replaceAll result replacement.1 replacement.2) value

def substituteResourcePlaceholders (order : SubstitutionOrder) (value : String)
    (primary : Option GroundedResource) : String :=
  match primary with
  | none => value
  | some primary =>
    if value = "" then value
    else substitute order
      [("\x7b\x7bresource\x7d\x7d", primary.resource.name),
        ("\x7b\x7bresource.id\x7d\x7d", primary.resource.id),
        ("\x7b\x7bresource.name\x7d\x7d", primary.resource.name),
        ("\x7b\x7bresource.kind\x7d\x7d", primary.resource.kind),
        ("\x7b\x7bresource.type_id\x7d\x7d", primary.typeID),
        ("\x7b\x7bresource.type_name\x7d\x7d", primary.typeName)] value

/-- The name an agent goes by: its id if it has no other. -/
def AgentInfo.shownName (agent : AgentInfo) : String :=
  let agentName := trimSpace agent.name
  if agentName = "" then agent.id else agentName

def substituteAgentPlaceholders (order : SubstitutionOrder) (value : String) (agent : AgentInfo) :
    String :=
  if value = "" then value
  else substitute order
    [("\x7b\x7bagent\x7d\x7d", agent.shownName), ("\x7b\x7bagent.id\x7d\x7d", agent.id),
      ("\x7b\x7bagent.name\x7d\x7d", agent.shownName)] value

/-! ## Binding the resources of a task -/

def buildRuntimeParams (primary : Option GroundedResource) : StringMap :=
  match primary with
  | none => ∅
  | some primary =>
    let params : StringMap :=
      ((((((((((∅ : StringMap).insert "resource" primary.resource.name).insert
        "resource_id" primary.resource.id).insert "resource_name" primary.resource.name).insert
        "resource_kind" primary.resource.kind).insert "resource.id" primary.resource.id).insert
        "resource.name" primary.resource.name).insert "resource.kind" primary.resource.kind).insert
        "resource.type_id" primary.typeID).insert "resource.type_name" primary.typeName)
    let params := if primary.typeID ≠ "" then params.insert "resource_type_id" primary.typeID
      else params
    if primary.typeName ≠ "" then params.insert "resource_type_name" primary.typeName else params

/-- The first of the bindings in the order of their tokens. -/
def primaryBinding (bindings : Bindings) : Option GroundedResource :=
  ((bindings.entries.map Sigma.snd).insertionSort fun a b ↦ a.token ≤ b.token).head?

/-- The part of `instantiateGroundTask` after the check. -/
def bindResources (order : SubstitutionOrder) (task : PlanTask) (bindings : Bindings)
    (primary : Option GroundedResource) : PlanTask :=
  let grounded := task.mapTexts (substituteResourcePlaceholders order · primary)
  { grounded with
    requiredResources := task.requiredResources.map fun token ↦
      match bindings.lookup token with
      | some binding => "instance:" ++ binding.resource.id
      | none => token
    runtimeParams := buildRuntimeParams primary
    taskID := match primary with
      | some primary => task.taskID ++ "::" ++ primary.resource.id
      | none => task.taskID
    taskName := match primary with
      | some primary => trimSpace (task.taskName ++ " [" ++ primary.resource.name ++ "]")
      | none => task.taskName }

def instantiateGroundTask (order : SubstitutionOrder) (task : PlanTask) (bindings : Bindings) :
    Except String PlanTask :=
  let primary := primaryBinding bindings
  if primary.isNone && usesGenericResourcePlaceholderTask task then
    .error ("task " ++ quote task.taskID ++
      " uses \x7b\x7bresource.*\x7d\x7d placeholders but has no bound resource")
  else .ok (bindResources order task bindings primary)

/-! ## Binding the agent of a task -/

def instantiateAgentTask (order : SubstitutionOrder) (task : PlanTask) (agent : AgentInfo) :
    PlanTask :=
  let bound := task.mapTexts (substituteAgentPlaceholders order · agent)
  let agentName := agent.shownName
  { bound with
    runtimeParams :=
      ((((task.runtimeParams.insert "agent" agentName).insert "agent_id" agent.id).insert
        "agent_name" agentName).insert "agent.id" agent.id).insert "agent.name" agentName
    boundAgentID := agent.id
    boundAgentName := agentName
    taskID := task.taskID ++ "::" ++ agent.id
    taskName := trimSpace (task.taskName ++ " [" ++ agentName ++ "]") }

/-- The loop body of `groundTaskByAgent`. -/
def agentTasks (order : SubstitutionOrder) (agents : List AgentInfo) (task : PlanTask) :
    Except String (List PlanTask) :=
  if !usesGenericAgentPlaceholderTask task then .ok [task]
  else if agents = [] then
    .error ("task " ++ quote task.taskID ++
      " uses \x7b\x7bagent.*\x7d\x7d placeholders but no agent was provided")
  else
    let candidateAgents := agents.filter (agentCanRunTask · task)
    if candidateAgents = [] then
      .error ("task " ++ quote task.taskID ++
        " uses \x7b\x7bagent.*\x7d\x7d placeholders but no capable online agent is available")
    else .ok (candidateAgents.map (instantiateAgentTask order task))

def groundTaskByAgent (order : SubstitutionOrder) (tasks : List PlanTask)
    (agents : List AgentInfo) : Except String (List PlanTask) :=
  (tasks.mapM (agentTasks order agents)).map List.flatten

/-! ## Binding the tokens of a task -/

/-- A token bound to a resource, with the type that the catalog has for an instance id. -/
def ResourceCatalog.bind (catalog : ResourceCatalog) (token instanceID : String)
    (resource : ResourceInfo) : GroundedResource :=
  let typeID := (catalog.instanceToType instanceID).getD ""
  { token, resource, typeID
    typeName := ((catalog.typeByID typeID).map ResourceInfo.name).getD "" }

/-- What the catalog has for an instance id; the zero resource when it has none. -/
def ResourceCatalog.instanceOf (catalog : ResourceCatalog) (instanceID : String) : ResourceInfo :=
  (catalog.instanceByID instanceID).getD
    { id := "", name := "", kind := "", parentResourceID := "" }

/-- The tokens of a task that are bound to one resource, and those that range over a type. -/
structure TokenBindings where
  fixed : Bindings := ∅
  dynamic : List CandidateSet := []

/-- The loop body over the tokens of a task. -/
def TokenBindings.add (task : PlanTask) (catalog : ResourceCatalog) (acc : TokenBindings)
    (token : String) : Except String TokenBindings :=
  let ref := resolveResourceToken token catalog
  match ref.kind with
  | .typeRef =>
    let instances := catalog.typeInstances ref.key
    if instances = [] then
      .error ("task " ++ quote task.taskID ++ " references resource type " ++ quote token ++
        " but it has no instances")
    else .ok { acc with dynamic := acc.dynamic ++ [{ token, instances }] }
  | .instanceRef =>
    match catalog.instanceByID ref.key with
    | none =>
      .error ("task " ++ quote task.taskID ++ " references unknown resource instance " ++
        quote token)
    | some resource =>
      .ok { acc with fixed := acc.fixed.insert token (catalog.bind token resource.id resource) }
  | .noRef =>
    let name := trimSpace token
    .ok { acc with
      fixed := acc.fixed.insert token
        { token, resource := { id := name, name, kind := "instance", parentResourceID := "" } } }

def tokenBindings (task : PlanTask) (catalog : ResourceCatalog) : Except String TokenBindings :=
  task.requiredResources.foldlM (TokenBindings.add task catalog) {}

/-- The search for the bindings of the candidate sets that are left.  `used` are the instances
bound already; a token that is listed twice keeps what it was bound to last. -/
def expand (instantiate : Bindings → Except String PlanTask) (catalog : ResourceCatalog) :
    List CandidateSet → Bindings → List String → Except String (List PlanTask)
  | [], bindings, _ => (instantiate bindings).map fun grounded ↦ [grounded]
  | set :: rest, bindings, used =>
    (set.instances.mapM fun instanceID ↦
      if instanceID ∈ used then .ok []
      else
        expand instantiate catalog rest
          (bindings.insert set.token
            (catalog.bind set.token instanceID (catalog.instanceOf instanceID)))
          (instanceID :: used)).map List.flatten

def groundTask (order : SubstitutionOrder) (catalog : ResourceCatalog) (agents : List AgentInfo)
    (task : PlanTask) : Except String (List PlanTask) := do
  let tokens ← tokenBindings task catalog
  if tokens.dynamic = [] then
    let grounded ← instantiateGroundTask order task tokens.fixed
    groundTaskByAgent order [grounded] agents
  else
    let dynamic := tokens.dynamic.insertionSort fun a b ↦ a.token ≤ b.token
    let results ← expand (fun bindings ↦ instantiateGroundTask order task (bindings ∪ tokens.fixed))
      catalog dynamic ∅ []
    groundTaskByAgent order results agents

def groundTasks (order : SubstitutionOrder) (tasks : List PlanTask) (resources : List ResourceInfo)
    (agents : List AgentInfo) : Except String (List PlanTask) :=
  (tasks.mapM (groundTask order (buildResourceCatalog resources) agents)).map List.flatten

end Pddl
end FleetServer
