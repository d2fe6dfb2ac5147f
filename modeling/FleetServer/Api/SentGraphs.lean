import FleetServer.Graph.SchemaConverter

/-!
# The graphs the server sends

Four paths convert a stored tree and send the graph to an agent: `ensureGraphDeployed` of
`internal/executor/scheduler.go` before a task, and `deployBehaviorTreeToAgentSync`,
`DeployBehaviorTreeToAgent` and `UpdateBehaviorTree` of `internal/api`.  Two of them check the graph
first.  `sent_passes_iff` says for each path and each tree whether what is sent can fail the checks.
-/

set_option autoImplicit false

namespace FleetServer
namespace Api

open Db Schema

/-! ## The paths -/

/-- What is read of an agent, and the types of the actions it is capable of. -/
structure DeployTarget where
  id : String
  status : String
  capabilities : List String
  deriving DecidableEq

/-- The types that the agent does not support, in the order in which the tree lists them. -/
def DeployTarget.missingTypes (agent : DeployTarget) (graph : BehaviorTree) : List String :=
  graph.requiredActionTypes.filter (· ∉ agent.capabilities)

def unsupported (missingTypes : List String) : String :=
  "Agent does not support required action types: [" ++ " ".intercalate missingTypes ++ "]"

/-- `ensureGraphDeployed`, when what is recorded of the assignment is out of date. -/
def graphForExecution (codec : Schema.Codec) (agentID : String) (dbGraph : BehaviorTree) :
    Except String CanonicalGraph :=
  match fromDBModel codec dbGraph with
  | .error err => .error ("convert graph to canonical: " ++ err)
  | .ok canonicalGraph =>
    match canonicalGraph.validate with
    | .error err => .error ("graph validation failed before deploy: " ++ err)
    | .ok () =>
      if canonicalGraph.hasCycle then .error "cannot deploy graph with cycles"
      else .ok (deployedGraph agentID canonicalGraph)

/-- What `deployBehaviorTreeToAgentSync` does with an assignment before it sends anything. -/
inductive SyncDeploy
  | failed (error : String)
  | queued
  | send (canonicalGraph : CanonicalGraph)

/-- `deployBehaviorTreeToAgentSync`, for an assignment that was found. -/
def graphForAssignment (codec : Schema.Codec) (graph : Option BehaviorTree)
    (agent : Option DeployTarget) : SyncDeploy :=
  match graph, agent with
  | none, _ => .failed "Behavior tree not found"
  | _, none => .failed "Agent not found"
  | some graph, some agent =>
    if agent.missingTypes graph ≠ [] then .failed (unsupported (agent.missingTypes graph))
    else if agent.status ≠ "online" then .queued
    else match fromDBModel codec graph with
      | .error err => .failed ("Failed to convert to canonical format: " ++ err)
      | .ok canonicalGraph => .send (deployedGraph agent.id canonicalGraph)

/-- `DeployBehaviorTreeToAgent`: the graph, or the status and the text of an error. -/
def graphForDeployment (codec : Schema.Codec) (dbGraph : Option BehaviorTree)
    (agent : Option DeployTarget) : Except (ℕ × String) CanonicalGraph :=
  match dbGraph, agent with
  | none, _ => .error (404, "Behavior Tree not found")
  | _, none => .error (404, "Agent not found")
  | some dbGraph, some agent =>
    if agent.missingTypes dbGraph ≠ [] then .error (400, unsupported (agent.missingTypes dbGraph))
    else match fromDBModel codec dbGraph with
      | .error err => .error (500, "Failed to convert to canonical format: " ++ err)
      | .ok canonicalGraph =>
        match canonicalGraph.validate with
        | .error err => .error (400, "Graph validation failed: " ++ err)
        | .ok () =>
          if canonicalGraph.hasCycle then .error (400, "Cannot deploy graph with cycles")
          else .ok (deployedGraph agent.id canonicalGraph)

/-- The notifications of `UpdateBehaviorTree` about the tree it has stored, to the agents that had
the graph in the cache, as far as they exist. -/
def graphsForUpdate (codec : Schema.Codec) (graph : BehaviorTree) (affectedAgents : List String)
    (agentExists : String → Bool) : List (String × CanonicalGraph) :=
  match fromDBModel codec graph with
  | .error _ => []
  | .ok canonicalGraph =>
    (affectedAgents.filter agentExists).map fun agentID ↦
      (agentID, substituteServerPatterns "" canonicalGraph)

inductive SendPath
  | ensureGraphDeployed
  | deployBehaviorTreeToAgentSync
  | deployBehaviorTreeToAgent
  | updateBehaviorTree
  deriving DecidableEq

/-- What the paths read besides the tree. -/
structure SendContext where
  agent : Option DeployTarget
  affectedAgents : List String := []
  agentExists : String → Bool := fun _ ↦ true

/-- The graphs that a path sends for a stored tree. -/
def SendPath.sent (codec : Schema.Codec) (context : SendContext) (graph : BehaviorTree) :
    SendPath → List CanonicalGraph
  | .ensureGraphDeployed =>
    context.agent.toList.flatMap fun agent ↦
      (graphForExecution codec agent.id graph).toOption.toList
  | .deployBehaviorTreeToAgentSync =>
    match graphForAssignment codec (some graph) context.agent with
    | .send canonicalGraph => [canonicalGraph]
    | _ => []
  | .deployBehaviorTreeToAgent =>
    (graphForDeployment codec (some graph) context.agent).toOption.toList
  | .updateBehaviorTree =>
    (graphsForUpdate codec graph context.affectedAgents context.agentExists).map (·.2)

/-- The path checks the graph before it sends it. -/
def SendPath.checks : SendPath → Bool
  | .ensureGraphDeployed => true
  | .deployBehaviorTreeToAgentSync => false
  | .deployBehaviorTreeToAgent => true
  | .updateBehaviorTree => false

/-- The graph passes both checks. -/
def Passes (g : CanonicalGraph) : Prop := g.validate = .ok () ∧ g.hasCycle = false

/-- The steps of the tree can be told apart, their transitions lead to steps, and never back. -/
def SoundTree (codec : Schema.Codec) (graph : BehaviorTree) : Prop :=
  ∀ steps, storedSteps codec graph = .ok steps →
    graph.id ≠ "" ∧ ClosedSteps steps ∧ ∀ id, ¬Relation.TransGen (LeadsTo steps) id id

/-! ## What is checked -/

variable {codec : Schema.Codec} {context : SendContext} {graph : BehaviorTree} {g : CanonicalGraph}

theorem passes_iff : Passes g ↔ g.Valid ∧ ¬∃ id, Relation.TransGen g.Linked id id := by
  rw [Passes, validate_iff]
  refine and_congr_right fun hvalid ↦ ?_
  rw [← hasCycle_iff hvalid, Bool.not_eq_true]

theorem passes_deployedGraph (agentID : String) : Passes (deployedGraph agentID g) ↔ Passes g := by
  rw [passes_iff, passes_iff, valid_deployedGraph]
  exact Iff.rfl

/-- A graph without its placeholders passes as it did with them. -/
theorem passes_substituteServerPatterns :
    Passes (substituteServerPatterns "" g) ↔ Passes g := by
  have hsame : substituteServerPatterns "" g = deployedGraph g.behaviorTree.agentID g := rfl
  rw [hsame, passes_deployedGraph]

/-- **The graph of a tree passes when the tree is sound.** -/
theorem passes_fromDBModel (h : fromDBModel codec graph = .ok g) :
    Passes g ↔ SoundTree codec graph := by
  rw [fromDBModel] at h
  split at h
  · exact absurd h (by simp)
  · rename_i steps hsteps
    obtain rfl := Except.ok.inj h
    have hgraph : Passes { graphOf graph steps with
        checksum := computeChecksum codec (graphOf graph steps) } ↔ Passes (graphOf graph steps) :=
      Iff.rfl
    rw [hgraph, passes_iff, passes_graphOf_iff, SoundTree]
    constructor
    · intro hsound steps' hsteps'
      obtain rfl := Except.ok.inj (hsteps.symm.trans hsteps')
      exact hsound
    · intro hsound
      exact hsound steps hsteps

theorem soundTree_of_error {err : String} (h : fromDBModel codec graph = .error err) :
    SoundTree codec graph := by
  intro steps hsteps
  rw [fromDBModel, hsteps] at h
  exact absurd h (by simp)

/-! ## Each path -/

theorem passes_graphForExecution {agentID : String}
    (h : graphForExecution codec agentID graph = .ok g) : Passes g := by
  rw [graphForExecution] at h
  split at h
  · exact absurd h (by simp)
  split at h
  · exact absurd h (by simp)
  split at h
  · exact absurd h (by simp)
  · obtain rfl := Except.ok.inj h
    exact (passes_deployedGraph agentID).mpr ⟨‹_›, Bool.eq_false_iff.mpr ‹_›⟩

theorem passes_graphForDeployment {agent : Option DeployTarget}
    (h : graphForDeployment codec (some graph) agent = .ok g) : Passes g := by
  cases agent with
  | none => exact absurd h (by simp [graphForDeployment])
  | some agent =>
    simp only [graphForDeployment] at h
    split at h
    · exact absurd h (by simp)
    split at h
    · exact absurd h (by simp)
    split at h
    · exact absurd h (by simp)
    split at h
    · exact absurd h (by simp)
    · obtain rfl := Except.ok.inj h
      exact (passes_deployedGraph agent.id).mpr ⟨‹_›, Bool.eq_false_iff.mpr ‹_›⟩

theorem mem_toOption {err α : Type} {result : Except err α} {a : α}
    (h : a ∈ result.toOption.toList) : result = .ok a := by
  cases result with
  | error e => exact absurd h List.not_mem_nil
  | ok b => rw [List.mem_singleton.mp h]

/-- **What the other two paths send has been checked.** -/
theorem passes_sent_of_checks {path : SendPath} (hpath : path.checks = true)
    (hg : g ∈ path.sent codec context graph) : Passes g := by
  cases path with
  | ensureGraphDeployed =>
    obtain ⟨agent, -, hg⟩ := List.mem_flatMap.mp hg
    exact passes_graphForExecution (mem_toOption hg)
  | deployBehaviorTreeToAgent =>
    exact passes_graphForDeployment (mem_toOption hg)
  | deployBehaviorTreeToAgentSync => exact absurd hpath (by simp [SendPath.checks])
  | updateBehaviorTree => exact absurd hpath (by simp [SendPath.checks])

/-- What is sent for an assignment is the graph of the tree, for its agent. -/
theorem graphForAssignment_eq_send {agent : Option DeployTarget}
    (h : graphForAssignment codec (some graph) agent = .send g) :
    ∃ agentID canonicalGraph, fromDBModel codec graph = .ok canonicalGraph ∧
      g = deployedGraph agentID canonicalGraph := by
  cases agent with
  | none => exact absurd h (by simp [graphForAssignment])
  | some agent =>
    simp only [graphForAssignment] at h
    split at h
    · exact absurd h (by simp)
    split at h
    · exact absurd h (by simp)
    split at h
    · exact absurd h (by simp)
    · rename_i canonicalGraph hconvert
      exact ⟨agent.id, canonicalGraph, hconvert, (SyncDeploy.send.inj h).symm⟩

/-- What the two paths without a check send is the graph of the tree, as it is. -/
theorem passes_sent_of_sound {path : SendPath} (hsound : SoundTree codec graph)
    (hpath : path.checks = false) (hg : g ∈ path.sent codec context graph) : Passes g := by
  cases path with
  | ensureGraphDeployed => exact absurd hpath (by simp [SendPath.checks])
  | deployBehaviorTreeToAgent => exact absurd hpath (by simp [SendPath.checks])
  | deployBehaviorTreeToAgentSync =>
    rw [SendPath.sent] at hg
    split at hg
    · rename_i canonicalGraph hsend
      obtain rfl := List.mem_singleton.mp hg
      obtain ⟨agentID, canonicalGraph, hconvert, rfl⟩ := graphForAssignment_eq_send hsend
      exact (passes_deployedGraph agentID).mpr ((passes_fromDBModel hconvert).mpr hsound)
    · exact absurd hg List.not_mem_nil
  | updateBehaviorTree =>
    obtain ⟨⟨agentID, sent⟩, hsent, rfl⟩ := List.mem_map.mp hg
    rw [graphsForUpdate] at hsent
    split at hsent
    · exact absurd hsent List.not_mem_nil
    · rename_i canonicalGraph hconvert
      obtain ⟨_, -, hpair⟩ := List.mem_map.mp hsent
      obtain ⟨-, rfl⟩ := Prod.mk.inj hpair
      exact passes_substituteServerPatterns.mpr ((passes_fromDBModel hconvert).mpr hsound)

/-- An agent that is online, supports the tree and has its graph is sent what the tree converts
to. -/
theorem sent_unchecked {path : SendPath} (hpath : path.checks = false)
    (hconvert : fromDBModel codec graph = .ok g) :
    ∃ context : SendContext, ∃ sent ∈ path.sent codec context graph, Passes sent ↔ Passes g := by
  cases path with
  | ensureGraphDeployed => exact absurd hpath (by simp [SendPath.checks])
  | deployBehaviorTreeToAgent => exact absurd hpath (by simp [SendPath.checks])
  | deployBehaviorTreeToAgentSync =>
    let agent : DeployTarget :=
      { id := "", status := "online", capabilities := graph.requiredActionTypes }
    have hmissing : agent.missingTypes graph = [] := by simp [DeployTarget.missingTypes, agent]
    refine ⟨{ agent := some agent }, deployedGraph "" g, ?_, passes_deployedGraph ""⟩
    simp only [SendPath.sent, graphForAssignment, hmissing, hconvert]
    simp [agent]
  | updateBehaviorTree =>
    refine ⟨{ agent := none, affectedAgents := [""] }, substituteServerPatterns "" g, ?_,
      passes_substituteServerPatterns⟩
    simp [SendPath.sent, graphsForUpdate, hconvert]

/-- **What a path sends for a tree passes the checks, whatever else there is, when the path makes
them or the tree is sound.** -/
theorem sent_passes_iff (codec : Schema.Codec) (path : SendPath) (graph : BehaviorTree) :
    (∀ context : SendContext, ∀ g ∈ path.sent codec context graph,
      g.validate = .ok () ∧ g.hasCycle = false) ↔
    path.checks = true ∨ SoundTree codec graph := by
  constructor
  · intro hall
    rw [or_iff_not_imp_left, Bool.not_eq_true]
    intro hpath
    cases hconvert : fromDBModel codec graph with
    | error err => exact soundTree_of_error hconvert
    | ok g =>
      obtain ⟨context, sent, hsent, hsame⟩ := sent_unchecked hpath hconvert
      exact (passes_fromDBModel hconvert).mp (hsame.mp (hall context sent hsent))
  · intro hcase context g hg
    cases hpath : path.checks with
    | true => exact passes_sent_of_checks hpath hg
    | false =>
      have hsound : SoundTree codec graph := hcase.resolve_left (by simp [hpath])
      exact passes_sent_of_sound hsound hpath hg

/-- A step whose success leads back to it. -/
def restless : Step where
  id := "patrol"
  action := some { type := "nav2_msgs/action/NavigateToPose", server := "/navigate_to_pose" }
  transition := some { onSuccess := .string "patrol" }

def patrolTree : BehaviorTree where
  id := "patrol_tree"
  name := "Patrol"
  steps := "[\x7b\"id\":\"patrol\",\"action\":\x7b\"type\":\"nav2_msgs/action/NavigateToPose\"," ++
    "\"server\":\"/navigate_to_pose\"\x7d,\"transition\":\x7b\"on_success\":\"patrol\"\x7d\x7d]"
  requiredActionTypes := ["nav2_msgs/action/NavigateToPose"]

/-- Decodes one text. -/
def patrolCodec : Schema.Codec where
  unmarshalSteps text :=
    if text = patrolTree.steps then .ok [restless] else .error "unexpected text"
  marshalSteps _ := patrolTree.steps
  unmarshalStrings _ := none
  marshalGraph _ := ""
  sha256 _ := ""

/-- **An assigned tree with a cycle is sent as it is.** -/
theorem cycle_sent : ¬∀ (path : SendPath) (graph : BehaviorTree) (context : SendContext),
    ∀ g ∈ path.sent patrolCodec context graph, g.validate = .ok () ∧ g.hasCycle = false := by
  intro hall
  let robot : DeployTarget :=
    { id := "robot", status := "online", capabilities := ["nav2_msgs/action/NavigateToPose"] }
  have hsent : ∃ g ∈ SendPath.sent patrolCodec { agent := some robot } patrolTree
      .deployBehaviorTreeToAgentSync, g.hasCycle = true := by decide +kernel
  obtain ⟨g, hg, hcycle⟩ := hsent
  have hpasses := (hall _ patrolTree { agent := some robot } g hg).2
  exact absurd (hcycle.symm.trans hpasses) (by simp)

end Api
end FleetServer
