import FleetServer.Api.GoalActivation
import FleetServer.Lib.Fallible
import FleetServer.Pddl.Execution

/-!
# Solving for a goal

`solveProblemSpec` (`internal/api/realtime_pddl.go`) puts together the planning problem of a goal of
a realtime session and has it solved (`solveProblem`, `internal/api/pddl.go`).  What it reads of the
repository and of the agents is a parameter, read afresh in every call.  A session always has a task
distributor, so the state variables and the resources are those of the distributor.

The value is `none` where the planner does not come to an end within its fuel, and where the code
panics.
-/

set_option autoImplicit false

namespace FleetServer
namespace Api

open GoString Pddl

/-- The planning metadata of a behavior tree. -/
structure PlanningTaskSpec where
  preconditions : List PlanningCondition := []
  requiredResources : List String := []
  duringState : List PlanningEffect := []
  resultStates : List PlanningEffect := []
  warningResultStates : List PlanningEffect := []
  errorResultStates : List PlanningEffect := []
  warningMessageVariable : String := ""
  errorMessageVariable : String := ""
  deriving DecidableEq, Repr

def PlanningTaskSpec.hasData (spec : PlanningTaskSpec) : Bool := spec ≠ {}

/-- What planning reads of a behavior tree.  The stored metadata may fail to decode. -/
structure PlanningTree where
  id : String
  name : String
  requiredActionTypes : List String := []
  planningTask : Except String PlanningTaskSpec

/-- What the repository and the agent registry return during a call. -/
structure PlanningSources where
  getBehaviorTree : String → Except String (Option PlanningTree)
  listTaskDistributorStates : String → Except String (List PlanningStateVar)
  listTaskDistributorResources : String → Except String (List ResourceInfo)
  getAgentCapabilities : String → Except String (List String)
  /-- The name of the agent. -/
  getAgent : String → Except String (Option String)
  isAgentOnline : String → Bool

/-- The orders of the loops over maps during a call. -/
structure LoopOrders where
  substitution : SubstitutionOrder
  goalState : RangeOrder (Σ _ : String, String)

/-- The ids without blanks and repetitions. -/
def normalizeBehaviorTreeIDs (primary : String) (ids : List String) : List String :=
  (primary :: ids).foldl
    (fun normalized id ↦ if id = "" ∨ id ∈ normalized then normalized else normalized ++ [id]) []

/-! ## The goal state -/

/-- A call that replaces the placeholders of a text: the variable of the entry, whether the text is
the value, and the rounds of the loops over instances and agents. -/
structure GoalCall where
  goal : String
  ofValue : Bool
  resourceRound : ℕ
  agentRound : Option ℕ

/-- An entry of a goal state speaks of a resource. -/
def needsResource (entry : Σ _ : String, String) : Bool :=
  containsResourcePlaceholder entry.1 || containsResourcePlaceholder entry.2

/-- An entry of a goal state speaks of an agent. -/
def needsAgent (entry : Σ _ : String, String) : Bool :=
  containsAgentPlaceholder entry.1 || containsAgentPlaceholder entry.2

/-- The entries one entry of a goal state stands for. -/
def goalExpansions (calls : GoalCall → SubstitutionOrder) (instances : List ResourceInfo)
    (agents : List AgentInfo) (entry : Σ _ : String, String) : List (String × String) :=
  let order (ofValue : Bool) (resourceRound : ℕ) (agentRound : Option ℕ) : SubstitutionOrder :=
    calls { goal := entry.1, ofValue, resourceRound, agentRound }
  let entries :=
    if needsResource entry then instances.mapIdx fun i resource ↦
      (applyResourcePlaceholders (order false i none) entry.1 resource,
        applyResourcePlaceholders (order true i none) entry.2 resource)
    else [(entry.1, entry.2)]
  if needsAgent entry then
    (entries.mapIdx fun i entry ↦ agents.mapIdx fun j agent ↦
      (applyAgentPlaceholders (order false i (some j)) entry.1 agent,
        applyAgentPlaceholders (order true i (some j)) entry.2 agent)).flatten
  else entries

def expandGoalEntry (calls : GoalCall → SubstitutionOrder) (instances : List ResourceInfo)
    (agents : List AgentInfo) (entry : Σ _ : String, String) :
    Except String (List (String × String)) :=
  if needsResource entry ∧ instances = [] then
    .error ("goal " ++ quote entry.1 ++
      " uses \x7b\x7bresource.*\x7d\x7d placeholders but no resource instance is available")
  else if needsAgent entry ∧ agents = [] then
    .error ("goal " ++ quote entry.1 ++
      " uses \x7b\x7bagent.*\x7d\x7d placeholders but no agent is selected")
  else .ok (goalExpansions calls instances agents entry)

/-- An entry is added to the expanded goal state. -/
def addGoalEntry (expanded : StringMap) (entry : String × String) : Except String StringMap :=
  if containsResourcePlaceholder entry.1 || containsAgentPlaceholder entry.1 then
    .error ("goal variable " ++ quote entry.1 ++ " has unresolved placeholder")
  else if containsResourcePlaceholder entry.2 || containsAgentPlaceholder entry.2 then
    .error ("goal value " ++ quote entry.2 ++ " has unresolved placeholder")
  else
    let goalKey := trimSpace entry.1
    if goalKey = "" then .ok expanded
    else match expanded.lookup goalKey with
      | none => .ok (expanded.insert goalKey entry.2)
      | some existing =>
        if existing = entry.2 then .ok expanded
        else .error ("goal variable " ++ quote goalKey ++ " has conflicting values (" ++
          quote existing ++ " vs " ++ quote entry.2 ++ ")")

def expandGoalStatePlaceholders (goalOrder : RangeOrder (Σ _ : String, String))
    (calls : GoalCall → SubstitutionOrder) (goalState : StringMap)
    (resources : List ResourceInfo) (agents : List AgentInfo) : Except String StringMap :=
  (goalOrder.range goalState.entries).foldlM (fun expanded entry ↦ do
    let entries ← expandGoalEntry calls (resourceInstances resources) agents entry
    entries.foldlM addGoalEntry expanded) ∅

/-! ## `solveProblem` -/

section Load

variable (sources : PlanningSources)

def loadBehaviorTree (btID : String) : Except String PlanningTree :=
  match sources.getBehaviorTree btID with
  | .error err => .error ("failed to get behavior tree " ++ quote btID ++ ": " ++ err)
  | .ok none => .error ("behavior tree " ++ quote btID ++ " not found")
  | .ok (some bt) => .ok bt

def loadAgent (agentID : String) : Except String AgentInfo :=
  match sources.getAgentCapabilities agentID with
  | .error err => .error ("failed to get capabilities for agent " ++ agentID ++ ": " ++ err)
  | .ok capabilities =>
    match sources.getAgent agentID with
    | .error err => .error ("failed to get agent " ++ agentID ++ ": " ++ err)
    | .ok none => .error ("agent " ++ agentID ++ " not found")
    | .ok (some name) =>
      .ok { id := agentID, name, capabilities, isOnline := sources.isAgentOnline agentID }

/-- The task template of a behavior tree. -/
def planTaskOf (bt : PlanningTree) : Except String PlanTask :=
  match bt.planningTask with
  | .error err =>
    .error ("failed to parse task planning metadata for " ++ quote bt.id ++ ": " ++ err)
  | .ok spec =>
    if !spec.hasData then
      .error ("behavior tree " ++ quote bt.id ++ " does not define task planning metadata")
    else if spec.resultStates = [] then
      .error ("behavior tree " ++ quote bt.id ++ " does not define task result states")
    else .ok
      { taskID := bt.id
        taskName := bt.name
        behaviorTreeID := bt.id
        requiredActionTypes := bt.requiredActionTypes
        preconditions := spec.preconditions
        requiredResources := spec.requiredResources
        resultStates := spec.resultStates
        warningResultStates := spec.warningResultStates
        errorResultStates := spec.errorResultStates
        duringState := spec.duringState
        warningMessageVariable := spec.warningMessageVariable
        errorMessageVariable := spec.errorMessageVariable }

/-- What a problem is made of, before its tasks are grounded. -/
structure LoadedProblem where
  stateVars : List PlanningStateVar
  resources : List ResourceInfo
  agents : List AgentInfo
  tasks : List PlanTask

def loadProblem (behaviorTreeIDs : List String) (taskDistributorID : String)
    (agentIDs : List String) : Except String LoadedProblem :=
  if behaviorTreeIDs = [] then .error "no behavior trees selected"
  else do
    let behaviorTrees ← behaviorTreeIDs.mapM (loadBehaviorTree sources)
    -- a problem whose state variables cannot be read is solved without them
    let stateVars := (sources.listTaskDistributorStates taskDistributorID).toOption.getD []
    let resources ← (sources.listTaskDistributorResources taskDistributorID).mapError
      ("failed to load task distributor resources: " ++ ·)
    let agents ← agentIDs.mapM (loadAgent sources)
    let tasks ← behaviorTrees.mapM planTaskOf
    return { stateVars, resources, agents, tasks }

end Load

def groundProblem (orders : LoopOrders) (loaded : LoadedProblem)
    (initialState goalState : StringMap) : Except String PlanProblem := do
  let tasks ← (groundTasks orders.substitution loaded.tasks loaded.resources loaded.agents).mapError
    ("failed to ground planning tasks: " ++ ·)
  let goalState ← (expandGoalStatePlaceholders orders.goalState (fun _ ↦ orders.substitution)
    goalState loaded.resources loaded.agents).mapError
      ("failed to expand goal state placeholders: " ++ ·)
  return { stateVars := loaded.stateVars, initialState, goalState, tasks
           agents := loaded.agents, resources := loaded.resources }

/-- A plan, with the grounded tasks the planner chose for it.  The latter are kept for the
statements and read by no step. -/
structure SolvedPlan where
  plan : Plan
  tasks : List PlanTask

def solveLoaded (fuel : ℕ) (problem : Except String PlanProblem) :
    Option (Except String SolvedPlan) :=
  match problem with
  | .error err => some (.error err)
  | .ok problem => (solve fuel problem).map fun plan ↦ .ok { plan, tasks := chosenTasks problem }

/-! ## `solveProblemSpec` -/

structure PlanningSolveSpec where
  behaviorTreeIDs : List String
  taskDistributorID : String
  initialState : StringMap
  goalState : StringMap
  goalBinding : RealtimeGoalBinding
  agentIDs : List String

def filterInitialStateByTaskDistributor (sources : PlanningSources) (taskDistributorID : String)
    (initial : StringMap) : Except String StringMap :=
  if trimSpace taskDistributorID = "" then .ok initial
  else match sources.listTaskDistributorStates taskDistributorID with
    | .error err =>
      .error ("failed to load task distributor states for realtime solve: " ++ err)
    | .ok states =>
      let allowed := (states.map (trimSpace ·.name)).filter (· ≠ "")
      .ok ⟨initial.entries.filter (·.1 ∈ allowed),
        initial.nodupKeys.sublist List.filter_sublist⟩

/-- The goal state as it is solved for: bound once more, with no placeholder left. -/
def boundGoalState (orders : LoopOrders) (spec : PlanningSolveSpec) : Except String StringMap :=
  let binding := spec.goalBinding
  let goalState :=
    if trimSpace binding.agentID ≠ "" ∨ trimSpace binding.agentName ≠ "" ∨
        trimSpace binding.resourceID ≠ "" ∨ trimSpace binding.resourceName ≠ "" then
      applyRealtimeGoalBinding orders.substitution orders.goalState spec.goalState binding
    else spec.goalState
  match (orders.goalState.range goalState.entries).find? fun entry ↦
      containsAgentPlaceholder entry.1 || containsAgentPlaceholder entry.2 ||
        (containsResourcePlaceholder entry.1 || containsResourcePlaceholder entry.2) with
  | some entry =>
    .error ("realtime solve received unresolved goal placeholder after binding (goal=" ++
      quote entry.1 ++ " value=" ++ quote entry.2 ++ " agent=" ++
      quote (trimSpace binding.agentName) ++ " resource=" ++
      quote (trimSpace binding.resourceName) ++ ")")
  | none => .ok goalState

def solveProblemSpec (fuel : ℕ) (orders : LoopOrders) (sources : PlanningSources)
    (spec : PlanningSolveSpec) : Option (Except String SolvedPlan) :=
  match filterInitialStateByTaskDistributor sources spec.taskDistributorID spec.initialState with
  | .error err => some (.error err)
  | .ok initialState =>
    match boundGoalState orders spec with
    | .error err => some (.error err)
    | .ok goalState =>
      match normalizeBehaviorTreeIDs "" spec.behaviorTreeIDs with
      -- the first of the ids is read without a test
      | [] => none
      | primary :: rest => solveLoaded fuel do
          let loaded ← loadProblem sources (normalizeBehaviorTreeIDs primary (primary :: rest))
            spec.taskDistributorID spec.agentIDs
          groundProblem orders loaded initialState goalState

/-! ## What a plan was made from -/

theorem mem_normalizeBehaviorTreeIDs {primary id : String} {ids : List String}
    (h : id ∈ normalizeBehaviorTreeIDs primary ids) : id ≠ "" ∧ (id = primary ∨ id ∈ ids) := by
  have hrun : ∀ (ids normalized : List String),
      id ∈ ids.foldl (fun normalized id ↦
        if id = "" ∨ id ∈ normalized then normalized else normalized ++ [id]) normalized →
      id ∈ normalized ∨ id ≠ "" ∧ id ∈ ids := by
    intro ids
    induction ids with
    | nil => exact fun _ h ↦ .inl h
    | cons first rest ih =>
      intro normalized h
      rw [List.foldl_cons] at h
      rcases ih _ h with h | ⟨hblank, h⟩
      · split at h
        · exact .inl h
        · rename_i hfirst
          rcases List.mem_append.mp h with h | h
          · exact .inl h
          · obtain rfl := List.mem_singleton.mp h
            exact .inr ⟨fun hblank ↦ hfirst (.inl hblank), List.mem_cons_self⟩
      · exact .inr ⟨hblank, List.mem_cons_of_mem first h⟩
  obtain ⟨hblank, hmem⟩ := (hrun _ _ h).resolve_left List.not_mem_nil
  exact ⟨hblank, List.mem_cons.mp hmem⟩

open Fallible

theorem eq_ok_of_mapError {α : Type} {f : String → String} {x : Except String α} {a : α}
    (h : x.mapError f = .ok a) : x = .ok a := by
  cases x with
  | error err => exact absurd h (by simp [Except.mapError])
  | ok b => exact congrArg Except.ok (Except.ok.inj h)

theorem loadBehaviorTree_ok {sources : PlanningSources} {btID : String} {bt : PlanningTree}
    (h : loadBehaviorTree sources btID = .ok bt) :
    sources.getBehaviorTree btID = .ok (some bt) := by
  rw [loadBehaviorTree] at h
  split at h
  · exact absurd h (by simp)
  · exact absurd h (by simp)
  · rename_i found hfound
    rw [hfound, Except.ok.inj h]

/-- **What is loaded for a problem**: the resources of the distributor, and a template for each
behavior tree. -/
theorem loadProblem_spec {sources : PlanningSources} {behaviorTreeIDs agentIDs : List String}
    {taskDistributorID : String} {loaded : LoadedProblem}
    (h : loadProblem sources behaviorTreeIDs taskDistributorID agentIDs = .ok loaded) :
    sources.listTaskDistributorResources taskDistributorID = .ok loaded.resources ∧
      ∀ task ∈ loaded.tasks, ∃ btID ∈ behaviorTreeIDs, ∃ bt,
        sources.getBehaviorTree btID = .ok (some bt) ∧ planTaskOf bt = .ok task := by
  rw [loadProblem] at h
  split at h
  · exact absurd h (by simp)
  · obtain ⟨behaviorTrees, htrees, h⟩ := exists_of_bind_eq_ok h
    obtain ⟨resources, hresources, h⟩ := exists_of_bind_eq_ok h
    obtain ⟨agents, -, h⟩ := exists_of_bind_eq_ok h
    obtain ⟨tasks, htasks, h⟩ := exists_of_bind_eq_ok h
    obtain rfl := Except.ok.inj h
    refine ⟨eq_ok_of_mapError hresources, fun task htask ↦ ?_⟩
    obtain ⟨bt, hbt, htemplate⟩ := exists_of_mem_right (forall₂_of_mapM htasks) htask
    obtain ⟨btID, hbtID, hloaded⟩ := exists_of_mem_right (forall₂_of_mapM htrees) hbt
    exact ⟨btID, hbtID, bt, loadBehaviorTree_ok hloaded, htemplate⟩

theorem solveLoaded_ok {fuel : ℕ} {problem : Except String PlanProblem} {solved : SolvedPlan}
    (h : solveLoaded fuel problem = some (.ok solved)) :
    ∃ loaded, problem = .ok loaded ∧ solve fuel loaded = some solved.plan ∧
      solved.tasks = chosenTasks loaded := by
  cases problem with
  | error err => exact absurd h (by simp [solveLoaded])
  | ok loaded =>
    obtain ⟨plan, hplan, heq⟩ := Option.map_eq_some_iff.mp h
    obtain rfl := Except.ok.inj heq
    exact ⟨loaded, rfl, hplan, rfl⟩

/-- **Where a plan comes from**: the problem it solves was grounded from the templates of the
behavior trees. -/
theorem solveProblemSpec_spec {fuel : ℕ} {orders : LoopOrders} {sources : PlanningSources}
    {spec : PlanningSolveSpec} {solved : SolvedPlan}
    (h : solveProblemSpec fuel orders sources spec = some (.ok solved)) :
    ∃ (loaded : LoadedProblem) (problem : PlanProblem),
      sources.listTaskDistributorResources spec.taskDistributorID = .ok loaded.resources ∧
      (∀ task ∈ loaded.tasks, ∃ btID ∈ spec.behaviorTreeIDs, ∃ bt,
        sources.getBehaviorTree btID = .ok (some bt) ∧ planTaskOf bt = .ok task) ∧
      groundTasks orders.substitution loaded.tasks loaded.resources loaded.agents =
        .ok problem.tasks ∧
      solve fuel problem = some solved.plan ∧ solved.tasks = chosenTasks problem := by
  rw [solveProblemSpec] at h
  split at h
  · exact absurd h (by simp)
  · split at h
    · exact absurd h (by simp)
    · split at h
      · exact absurd h (by simp)
      · rename_i primary rest hids
        obtain ⟨problem, hproblem, hplan, hchosen⟩ := solveLoaded_ok h
        obtain ⟨loaded, hloaded, hground⟩ := exists_of_bind_eq_ok hproblem
        obtain ⟨tasks, htasks, hgoal⟩ := exists_of_bind_eq_ok hground
        obtain ⟨goalState, -, hdone⟩ := exists_of_bind_eq_ok hgoal
        obtain rfl := Except.ok.inj hdone
        obtain ⟨hresources, htemplates⟩ := loadProblem_spec hloaded
        refine ⟨loaded, _, hresources, fun task htask ↦ ?_, eq_ok_of_mapError htasks, hplan,
          hchosen⟩
        obtain ⟨btID, hbtID, hbt⟩ := htemplates task htask
        have hmem : btID ∈ normalizeBehaviorTreeIDs "" spec.behaviorTreeIDs := by
          rw [hids]
          rcases (mem_normalizeBehaviorTreeIDs hbtID).2 with rfl | hmem
          · exact List.mem_cons_self
          · exact hmem
        obtain ⟨hblank, hspec⟩ := mem_normalizeBehaviorTreeIDs hmem
        exact ⟨btID, hspec.resolve_left hblank, hbt⟩

end Api
end FleetServer
