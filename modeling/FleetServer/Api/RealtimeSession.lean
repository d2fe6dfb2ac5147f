import FleetServer.Api.RealtimeSolve
import FleetServer.Executor.PlanExecutor
import FleetServer.Lib.JsonText

/-!
# A realtime session

A session of `internal/api/realtime_pddl.go` as `Start` creates it, and what the tick reads off it:
whether an agent is idle, which resources are free, and which resources the plans of the session
keep busy.

A plan keeps busy what the runtime parameters of its assignments name (`planResourceKeys`) and what
its goal is bound to (`RealtimeGoalBinding.resourceKeys`).
-/

set_option autoImplicit false

namespace FleetServer
namespace Api

open GoString Pddl Executor

/-- Library functions that are not computed here: the lower case of a text in any script, and
decoding a JSON object of strings. -/
structure LibraryFunctions where
  toLower : String → String
  decodeStringMap : String → Option StringMap

/-- The functions on ASCII texts, none of which is an object. -/
def asciiLibrary : LibraryFunctions := { toLower, decodeStringMap := fun _ ↦ none }

/-! ## The data -/

/-- An execution the session has started.  The status is the executor's. -/
structure RealtimeExecution where
  executionID : String
  solved : SolvedPlan
  goal : RealtimeGoal
  binding : RealtimeGoalBinding

/-- Of the agent, the source keeps the id. -/
structure RealtimeDispatchCandidate where
  agent : AgentInfo
  goal : RealtimeGoal
  binding : RealtimeGoalBinding
  solved : SolvedPlan
  failureKey : String

/-- A goal, with the agent, the binding and the state it is tried with. -/
structure GoalAttempt where
  goal : RealtimeGoal
  agent : AgentInfo
  binding : RealtimeGoalBinding
  state : StringMap

inductive GoalEvent
  /-- Solving for the goal, or starting its plan, has failed. -/
  | failed (attempt : GoalAttempt)
  /-- The goal is not tried, because of `failedStateKey`. -/
  | suppressed (attempt : GoalAttempt)

/-- What the choice of candidates works with: the merged state, and the agents and resources that
are taken already. -/
structure TickContext where
  currentState : StringMap
  busyAgents : List String
  busyResources : List String

/-- Where `tick` is. -/
inductive TickPC
  | idle
  /-- The executions are synchronised. -/
  | synced
  /-- At the head of the loop over the agents, with the candidates so far. -/
  | choosing (ctx : TickContext) (agents : List AgentInfo)
    (selected : List RealtimeDispatchCandidate)
  /-- In `buildDispatchCandidateForAgent`, with the goals that are left. -/
  | trying (ctx : TickContext) (agent : AgentInfo) (goals : List RealtimeGoal)
    (agents : List AgentInfo) (selected : List RealtimeDispatchCandidate)
  /-- The candidates are being started. -/
  | starting (ctx : TickContext) (candidates : List RealtimeDispatchCandidate)

/-- A session, with the statuses its plan executor has for executions.  `dispatched` are the
executions started since the tick began, and `events` what became of the goals so far, the latest
first; neither is read by a step. -/
structure RealtimeSession where
  behaviorTreeIDs : List String
  taskDistributorID : String
  agents : List AgentInfo
  resources : List ResourceInfo
  goals : List RealtimeGoal
  lastSelectedAgentID : String := ""
  activeExecutions : List RealtimeExecution := []
  failedStateKey : String → Option String := fun _ ↦ none
  lastError : String := ""
  status : String → Option PlanExecutionStatus := fun _ ↦ none
  tick : TickPC := .idle
  dispatched : List RealtimeExecution := []
  events : List GoalEvent := []

/-! ## `Start` -/

structure RealtimeGoalRequest where
  id : String := ""
  name : String := ""
  priority : ℤ := 0
  enabled : Bool := true
  activationConditions : List PlanningCondition := []
  resourceTypeID : String := ""
  resourceTypeIDs : List String := []
  goalState : StringMap := ∅

structure RealtimeSessionRequest where
  behaviorTreeID : String := ""
  behaviorTreeIDs : List String
  taskDistributorID : String
  agentIDs : List String
  goals : List RealtimeGoalRequest

/-- The texts, trimmed, without blanks and repetitions. -/
def uniqueNonEmptyStrings (values : List String) : List String :=
  values.foldl (fun result value ↦
    let trimmed := trimSpace value
    if trimmed = "" ∨ trimmed ∈ result then result else result ++ [trimmed]) []

def normalizeRealtimeResourceTypeIDs (primary : String) (extras : List String) : List String :=
  uniqueNonEmptyStrings (primary :: extras)

/-- The order of the goals: by priority, then by name. -/
def goalBefore (a b : RealtimeGoal) : Prop :=
  a.priority < b.priority ∨ a.priority = b.priority ∧ a.name ≤ b.name

instance (a b : RealtimeGoal) : Decidable (goalBefore a b) :=
  inferInstanceAs (Decidable (_ ∨ _ ∧ _))

def normalizeRealtimeGoals (requests : List RealtimeGoalRequest) : List RealtimeGoal :=
  (requests.zipIdx.map fun (request, index) ↦
    ({ id := if trimSpace request.id = "" then "goal_" ++ toString (index + 1)
        else trimSpace request.id
       name := trimSpace request.name
       priority := request.priority
       enabled := request.enabled
       activationConditions := request.activationConditions
       resourceTypeIDs :=
        normalizeRealtimeResourceTypeIDs request.resourceTypeID request.resourceTypeIDs
       goalState := request.goalState } : RealtimeGoal)).insertionSort goalBefore

/-- The loop body of `loadRealtimeAgents`. -/
def loadRealtimeAgent (sources : PlanningSources) (agents : List AgentInfo) (rawID : String) :
    Except String (List AgentInfo) :=
  let agentID := trimSpace rawID
  if agentID = "" ∨ agentID ∈ agents.map AgentInfo.id then .ok agents
  else match sources.getAgent agentID with
    | .error err => .error ("failed to get agent " ++ agentID ++ ": " ++ err)
    | .ok none => .error ("agent " ++ agentID ++ " not found")
    | .ok (some name) => .ok (agents ++ [{ noAgent with id := agentID, name := trimSpace name }])

def loadRealtimeAgents (sources : PlanningSources) (agentIDs : List String) :
    Except String (List AgentInfo) :=
  agentIDs.foldlM (loadRealtimeAgent sources) []

def loadRealtimeResources (sources : PlanningSources) (taskDistributorID : String) :
    Except String (List ResourceInfo) :=
  (sources.listTaskDistributorResources (trimSpace taskDistributorID)).mapError
    ("failed to load task distributor resources: " ++ ·)

def RealtimeSession.start (sources : PlanningSources) (request : RealtimeSessionRequest) :
    Except String RealtimeSession :=
  let behaviorTreeIDs := normalizeBehaviorTreeIDs request.behaviorTreeID request.behaviorTreeIDs
  if behaviorTreeIDs = [] then .error "behavior_tree_id or behavior_tree_ids is required"
  else if trimSpace request.taskDistributorID = "" then .error "task_distributor_id is required"
  else if request.agentIDs = [] then .error "agent_ids is required"
  else if request.goals = [] then .error "at least one realtime goal is required"
  else do
    let _ ← behaviorTreeIDs.mapM (loadBehaviorTree sources)
    let _ ← (sources.listTaskDistributorStates request.taskDistributorID).mapError
      ("failed to load task distributor states: " ++ ·)
    let agents ← loadRealtimeAgents sources request.agentIDs
    let resources ← loadRealtimeResources sources request.taskDistributorID
    return { behaviorTreeIDs, taskDistributorID := trimSpace request.taskDistributorID, agents
             resources, goals := normalizeRealtimeGoals request.goals }

/-! ## Idle agents -/

def isExecutingText (raw : String) : Bool :=
  toLower (trimSpace raw) ∈ ["true", "1", "yes", "executing", "running"]

def isIdleText (raw : String) : Bool := toLower (trimSpace raw) ∈ ["", "idle", "ready"]

/-- The flags of an agent that say whether it executes are read first; only without them does the
first group of its status variables count. -/
def isRealtimeAgentIdle (current : StringMap) (agent : AgentInfo) : Bool :=
  let agentID := trimSpace agent.id
  let agentName := trimSpace agent.name
  let normalizedID := replaceAll agentID "-" "_"
  let execFlags := (uniqueNonEmptyStrings [agentName ++ "_is_executing",
    agentID ++ "_is_executing", normalizedID ++ "_is_executing"]).filterMap current.lookup
  if execFlags ≠ [] then !execFlags.any isExecutingText
  else
    let groups := [agentName, normalizedID, agentID].map fun owner ↦
      (uniqueNonEmptyStrings [owner ++ "_status", owner ++ "_mode"]).filterMap current.lookup
    match groups.find? (· ≠ []) with
    | none => true
    | some values => values.all isIdleText

/-! ## Free resources -/

def filterRealtimeAvailableResources (resources : List ResourceInfo)
    (busyResources : List String) : List ResourceInfo :=
  resources.filter fun resource ↦ isResourceType resource ||
    !(trimSpace resource.id ≠ "" && trimSpace resource.id ∈ busyResources ||
      trimSpace resource.name ≠ "" && trimSpace resource.name ∈ busyResources)

def reservationStateKeyForResource (resource : ResourceInfo) (current : StringMap) :
    Option String :=
  (uniqueNonEmptyStrings [trimSpace resource.name ++ "_reserved_by",
    trimSpace resource.id ++ "_reserved_by"]).find? fun candidate ↦
      (current.lookup candidate).isSome

section Reservations

variable (lib : LibraryFunctions)

def normalizeReservationHolder (value : String) : String :=
  let normalized := lib.toLower (trimSpace value)
  if normalized ∈ ["", "none", "null", "nil", "-", "na", "n/a", "false"] then "" else normalized

def reservationHolderTokens (agent : AgentInfo) : List String :=
  let agentID := trimSpace agent.id
  let agentName := bindingName agent.id agent.name
  uniqueNonEmptyStrings [lib.toLower agentID, lib.toLower agentName,
    lib.toLower (replaceAll agentID "-" "_"), lib.toLower (replaceAll agentName "-" "_")]

def reservationHolderMatchesAgent (holder : String) (agent : AgentInfo) : Bool :=
  let holder := normalizeReservationHolder lib holder
  holder = "" || holder ∈ reservationHolderTokens lib agent

/-- The resources that nobody else has reserved. -/
def filterRealtimeAvailableResourcesByReservation (current : StringMap)
    (resources : List ResourceInfo) (agent : AgentInfo) : List ResourceInfo :=
  resources.filter fun resource ↦ isResourceType resource ||
    match reservationStateKeyForResource resource current with
    | none => true
    | some stateKey =>
      let holder := normalizeReservationHolder lib (readKey current stateKey)
      holder = "" || reservationHolderMatchesAgent lib holder agent

end Reservations

/-! ## Busy resources -/

/-- What `addBusyResourceValue` adds for each of the values. -/
def busyKeys (values : List String) : List String := (values.map trimSpace).filter (· ≠ "")

theorem mem_busyKeys {values : List String} {key : String} :
    key ∈ busyKeys values ↔ key ≠ "" ∧ ∃ value ∈ values, trimSpace value = key := by
  rw [busyKeys, List.mem_filter, List.mem_map, decide_eq_true_eq, and_comm]

def RealtimeGoalBinding.resourceKeys (binding : RealtimeGoalBinding) : List String :=
  busyKeys [binding.resourceID, binding.resourceName]

section Busy

variable (lib : LibraryFunctions)

/-- The runtime parameters of an assignment that name a resource. -/
def assignmentResources (assignment : TaskAssignment) : List String :=
  let params := assignment.runtimeParams
  let rawBindings := trimSpace (readKey params "__fleet_resource_bindings")
  let named := [readKey params "resource_id", readKey params "resource_name",
    readKey params "resource.id", readKey params "resource.name"]
  if rawBindings = "" then named
  else match lib.decodeStringMap rawBindings with
    | none => named
    | some bindings => named ++ bindings.entries.map Sigma.snd

def planResourceKeys (plan : Plan) : List String :=
  busyKeys (plan.assignments.flatMap (assignmentResources lib))

def planAgentIDs (plan : Plan) : List String := busyKeys (plan.assignments.map (·.agentID))

/-- `markBusyAgentsAndResourcesFromPlan`, after the binding of the goal was marked. -/
def TickContext.mark (ctx : TickContext) (plan : Plan) (binding : RealtimeGoalBinding)
    (agentID : String) : TickContext :=
  { ctx with
    busyAgents := planAgentIDs plan ++ busyKeys [agentID] ++ ctx.busyAgents
    busyResources := planResourceKeys lib plan ++ binding.resourceKeys ++ ctx.busyResources }

def planBusyResourceConflicts (plan : Plan) (busyResources : List String) : List String :=
  (((planResourceKeys lib plan).filter (· ∈ busyResources)).dedup).insertionSort (· ≤ ·)

/-- **A plan without conflicts names no busy resource.** -/
theorem disjoint_of_no_conflicts {plan : Plan} {busyResources : List String}
    (h : planBusyResourceConflicts lib plan busyResources = []) :
    (planResourceKeys lib plan).Disjoint busyResources := by
  intro key hplan hbusy
  have hmem : key ∈ planBusyResourceConflicts lib plan busyResources := by
    rw [planBusyResourceConflicts, List.mem_insertionSort, List.mem_dedup, List.mem_filter,
      decide_eq_true_eq]
    exact ⟨hplan, hbusy⟩
  rw [h] at hmem
  exact List.not_mem_nil hmem

end Busy

/-! ## Failures -/

/-- The key under which a failure is remembered: the goal, its binding and the state as JSON. -/
def goalFailureKey (goalID : String) (state : StringMap) (binding : RealtimeGoalBinding) : String :=
  goalID ++ "::" ++ String.ofList (JsonText.object [("AgentID", binding.agentID),
    ("AgentName", binding.agentName), ("ResourceID", binding.resourceID),
    ("ResourceName", binding.resourceName)]) ++ "::" ++
    String.ofList (JsonText.map (state.entries.map fun entry ↦ (entry.1, entry.2)))

def RealtimeSession.recordRealtimeGoalFailure (s : RealtimeSession) (attempt : GoalAttempt)
    (failureKey errMsg : String) : RealtimeSession :=
  { s with
    failedStateKey := Function.update s.failedStateKey attempt.goal.id (some failureKey)
    lastError := errMsg
    events := .failed attempt :: s.events }

/-! ## The session as it is created -/

section Start

open Fallible

variable {sources : PlanningSources}

/-- Agents with trimmed ids that are not blank, and no id twice. -/
def AgentsDistinct (agents : List AgentInfo) : Prop :=
  (agents.map AgentInfo.id).Nodup ∧ ∀ agent ∈ agents, trimSpace agent.id = agent.id

theorem loadRealtimeAgents_distinct {agentIDs : List String} {agents : List AgentInfo}
    (h : loadRealtimeAgents sources agentIDs = .ok agents) : AgentsDistinct agents := by
  have hrun : ∀ (agentIDs : List String) (before after : List AgentInfo), AgentsDistinct before →
      agentIDs.foldlM (loadRealtimeAgent sources) before = .ok after → AgentsDistinct after := by
    intro agentIDs
    induction agentIDs with
    | nil =>
      intro before after hbefore hrun
      rw [← Except.ok.inj hrun]
      exact hbefore
    | cons rawID rest ih =>
      intro before after hbefore hrun
      obtain ⟨next, hnext, hrest⟩ := exists_of_bind_eq_ok hrun
      refine ih next after ?_ hrest
      simp only [loadRealtimeAgent] at hnext
      split at hnext
      · rw [← Except.ok.inj hnext]
        exact hbefore
      · rename_i hnew
        split at hnext
        · exact absurd hnext (by simp)
        · exact absurd hnext (by simp)
        · rw [← Except.ok.inj hnext]
          refine ⟨?_, fun agent hagent ↦ ?_⟩
          · rw [List.map_append, List.nodup_append]
            refine ⟨hbefore.1, List.nodup_singleton _, fun a ha b hb ↦ ?_⟩
            rw [List.mem_singleton.mp hb]
            rintro rfl
            exact hnew (.inr ha)
          · rcases List.mem_append.mp hagent with hold | hlast
            · exact hbefore.2 agent hold
            · rw [List.mem_singleton.mp hlast]
              exact trimSpace_trimSpace rawID
  exact hrun agentIDs [] agents ⟨List.nodup_nil, by simp⟩ h

/-- **A session is created idle, with distinct agents, and nothing has happened to its goals.** -/
theorem start_spec {request : RealtimeSessionRequest} {s : RealtimeSession}
    (h : RealtimeSession.start sources request = .ok s) :
    AgentsDistinct s.agents ∧ s.tick = .idle ∧ s.activeExecutions = [] ∧ s.dispatched = [] ∧
      s.events = [] ∧ s.failedStateKey = fun _ ↦ none := by
  simp only [RealtimeSession.start] at h
  split_ifs at h
  obtain ⟨-, -, h⟩ := exists_of_bind_eq_ok h
  obtain ⟨-, -, h⟩ := exists_of_bind_eq_ok h
  obtain ⟨agents, hagents, h⟩ := exists_of_bind_eq_ok h
  obtain ⟨resources, -, h⟩ := exists_of_bind_eq_ok h
  obtain rfl := Except.ok.inj h
  exact ⟨loadRealtimeAgents_distinct hagents, rfl, rfl, rfl, rfl, rfl⟩

end Start

end Api
end FleetServer
