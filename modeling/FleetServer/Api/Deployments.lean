import FleetServer.Api.SentGraphs
import FleetServer.Lib.Run

/-!
# Deployments of a tree to an agent

What is recorded of one tree on one agent: the rows of `AgentBehaviorTree`, the entry of the graph
cache, and the graph that the agent itself accepted last.  `ensureGraphDeployed`,
`deployBehaviorTreeToAgentSync` and `DeployBehaviorTreeToAgent` read a row, send the graph, wait for
the answer and write the row and the cache; `UpdateBehaviorTree` changes the tree and the row
meanwhile.  Every call of the database, of the cache and of the transport is a step of its own.

The time in a correlation id is taken to tell the deployments apart: a call is named by a number.
-/

set_option autoImplicit false

namespace FleetServer
namespace Api

open GuardedRun Db Schema

/-! ## Rows -/

structure AgentBehaviorTree where
  id : String
  serverVersion : ℤ
  deployedVersion : ℤ := 0
  deploymentStatus : String
  deploymentError : Option String := none
  deployedAt : Option Time := none
  deriving DecidableEq

namespace AgentBehaviorTree

variable (assignment : AgentBehaviorTree)

/-- What is read back of the row: an empty error is none, and so is the time 0; times have
milliseconds. -/
def stored : AgentBehaviorTree :=
  { assignment with
    deploymentError := assignment.deploymentError.bind toNullString
    deployedAt := assignment.deployedAt.bind fun t ↦
      if unixMilli t = 0 then none else some (ofUnixMilli (unixMilli t)) }

/-- The row of a deployment that has been begun. -/
def deploying (graph : BehaviorTree) : AgentBehaviorTree :=
  { assignment with
    serverVersion := graph.version, deploymentStatus := "deploying", deploymentError := none }

/-- The row of an assignment that did not exist. -/
def new (id : String) (graph : BehaviorTree) : AgentBehaviorTree :=
  { id, serverVersion := graph.version, deploymentStatus := "deploying" }

def deployed (graph : BehaviorTree) (now : Time) : AgentBehaviorTree :=
  { assignment with
    serverVersion := graph.version, deployedVersion := graph.version
    deploymentStatus := "deployed", deploymentError := none, deployedAt := some now }

def failed (err : String) : AgentBehaviorTree :=
  { assignment with deploymentStatus := "failed", deploymentError := some err }

def pending (graph : BehaviorTree) : AgentBehaviorTree :=
  { assignment with
    serverVersion := graph.version, deploymentStatus := "pending", deploymentError := none }

/-- The row after an update of the tree. -/
def outdated (graph : BehaviorTree) : AgentBehaviorTree :=
  { assignment with
    serverVersion := graph.version
    deploymentStatus :=
      if assignment.deployedVersion > 0 ∧ assignment.deployedVersion < graph.version then "outdated"
      else assignment.deploymentStatus }

/-- The version that the agent has, according to the row. -/
def claimed : Option ℤ :=
  if assignment.deploymentStatus = "deployed" then some assignment.deployedVersion else none

end AgentBehaviorTree

/-- The row as a deployment has it in hand: the one found, or a new one. -/
def beginRow (found : Option AgentBehaviorTree) (newID : String) (graph : BehaviorTree) :
    AgentBehaviorTree :=
  match found with
  | some assignment => assignment.deploying graph
  | none => .new newID graph

theorem status_beginRow (found : Option AgentBehaviorTree) (newID : String)
    (graph : BehaviorTree) : (beginRow found newID graph).deploymentStatus = "deploying" := by
  cases found <;> rfl

/-! ## Calls -/

/-- A tree, its graph, and the row as the deployment has it in hand. -/
structure Deployment where
  graph : BehaviorTree
  canonicalGraph : CanonicalGraph
  assignment : AgentBehaviorTree
  version_eq : canonicalGraph.behaviorTree.version = graph.version
  status_eq : assignment.deploymentStatus = "deploying"
  deriving DecidableEq

def Deployment.deployed (d : Deployment) (now : Time) : AgentBehaviorTree :=
  d.assignment.deployed d.graph now

inductive DeployKind
  | ensureGraphDeployed (force : Bool) (dbGraph : BehaviorTree)
  | deployBehaviorTreeToAgentSync (assignmentID : String)
  | deployBehaviorTreeToAgent
  | updateBehaviorTree
  deriving DecidableEq

inductive DeployWrite
  | assignment (row : AgentBehaviorTree)
  | cache (canonicalGraph : CanonicalGraph)
  deriving DecidableEq

/-- What a call does next: with `compare` it looks at the cache and decides, with `upToDate` it
returns without having sent anything. -/
inductive DeployStage
  | start
  | compare (found : Option AgentBehaviorTree)
  | upToDate
  | loadTree (assignment : AgentBehaviorTree)
  | loadAssignment (graph : BehaviorTree) (agent : Option DeployTarget)
  | unsent (graph : BehaviorTree) (assignment : AgentBehaviorTree)
  | mark (d : Deployment) (create : Bool)
  | send (d : Deployment)
  | wait (d : Deployment)
  | finish (todo : List DeployWrite)
  | store (graph : BehaviorTree)
  | refresh (graph : BehaviorTree)
  | loadUpdated (graph : BehaviorTree)
  deriving DecidableEq

structure DeployCall where
  kind : DeployKind
  stage : DeployStage := .start
  deriving DecidableEq

/-- The agent may have accepted the graph of the call. -/
def DeployStage.sent : DeployStage → Bool
  | .wait _ => true
  | .finish _ => true
  | _ => false

def DeployWrite.claimed : DeployWrite → Option ℤ
  | .assignment row => row.claimed
  | .cache _ => none

/-- The versions that the call takes the agent to have. -/
def DeployCall.claimed (call : DeployCall) : List ℤ :=
  match call.kind, call.stage with
  | .ensureGraphDeployed _ dbGraph, .compare (some assignment) =>
    if assignment.claimed = some dbGraph.version then [dbGraph.version] else []
  | .ensureGraphDeployed _ dbGraph, .upToDate => [dbGraph.version]
  | _, .finish todo => todo.filterMap (·.claimed)
  | _, _ => []

/-- The version that the call waits to be accepted. -/
def DeployCall.awaited (call : DeployCall) : Option ℤ :=
  match call.stage with
  | .wait d => some d.graph.version
  | _ => none

/-- The graphs sent that the agent has not got yet are `inFlight`, its answers are `replies`: no
error when it has accepted the graph. -/
structure DeployState where
  tree : BehaviorTree
  hasHandler : Bool := true
  rows : List AgentBehaviorTree := []
  cached : Option CanonicalGraph := none
  calls : ℕ → Option DeployCall := fun _ ↦ none
  count : ℕ := 0
  inFlight : List (ℕ × CanonicalGraph) := []
  replies : List (ℕ × Option String) := []
  accepted : Option CanonicalGraph := none

inductive DeployAction
  | begin (kind : DeployKind)
  | findAssignment (k : ℕ) (found : Option AgentBehaviorTree) (newID : String)
  | compare (k : ℕ) (newID : String)
  | loadTree (k : ℕ) (agent : Option DeployTarget)
  | mark (k : ℕ) (saved : Bool)
  | send (k : ℕ)
  | simulate (k : ℕ) (now : Time)
  | giveUp (k : ℕ) (err : String)
  | accept (k : ℕ) (g : CanonicalGraph)
  | reject (k : ℕ) (g : CanonicalGraph) (err : String)
  | lose (k : ℕ) (g : CanonicalGraph)
  | answer (k : ℕ) (err : Option String) (now : Time)
  | write (k : ℕ) (saved : Bool)
  | edit (k : ℕ) (edited : BehaviorTree) (now : Time)
  | store (k : ℕ)
  | refresh (k : ℕ)
  | recache (canonicalGraph : Option CanonicalGraph)

namespace DeployState

variable (h : DeployState)

def setCall (k : ℕ) (next : Option DeployCall) : DeployState :=
  { h with calls := Function.update h.calls k next }

def goOn (k : ℕ) (call : DeployCall) (stage : DeployStage) : DeployState :=
  h.setCall k (some { call with stage })

def saveRow (row : AgentBehaviorTree) : DeployState :=
  { h with rows := h.rows.map fun r ↦ if r.id = row.id then row.stored else r }

def createRow (row : AgentBehaviorTree) : DeployState := { h with rows := h.rows ++ [row.stored] }

/-- `GetAgentBehaviorTree` returns some row of the agent and the tree, if there is one. -/
def mayFind : Option AgentBehaviorTree → Bool
  | none => h.rows = []
  | some assignment => assignment ∈ h.rows

/-- The test of `ensureGraphDeployed`. -/
def isUpToDate (force : Bool) (dbGraph : BehaviorTree) : Option AgentBehaviorTree → Bool
  | none => false
  | some assignment =>
    !force && h.cached.any (·.behaviorTree.version = dbGraph.version) &&
      assignment.deployedVersion = dbGraph.version && assignment.deploymentStatus = "deployed" &&
      assignment.deployedAt.any (dbGraph.updatedAt ≤ ·)

end DeployState

/-! ## Versions -/

section

variable {codec : Schema.Codec} {graph : BehaviorTree} {g : CanonicalGraph}

theorem version_fromDBModel (h : fromDBModel codec graph = .ok g) :
    g.behaviorTree.version = graph.version := by
  rw [fromDBModel] at h
  split at h
  · exact absurd h (by simp)
  · obtain rfl := Except.ok.inj h
    rfl

theorem version_graphForExecution {agentID : String}
    (h : graphForExecution codec agentID graph = .ok g) :
    g.behaviorTree.version = graph.version := by
  rw [graphForExecution] at h
  split at h
  · exact absurd h (by simp)
  split at h
  · exact absurd h (by simp)
  split at h
  · exact absurd h (by simp)
  · rename_i canonicalGraph hconvert _ _ _
    obtain rfl := Except.ok.inj h
    show canonicalGraph.behaviorTree.version = graph.version
    exact version_fromDBModel hconvert

theorem version_graphForAssignment {agent : Option DeployTarget}
    (h : graphForAssignment codec (some graph) agent = .send g) :
    g.behaviorTree.version = graph.version := by
  obtain ⟨agentID, canonicalGraph, hconvert, rfl⟩ := graphForAssignment_eq_send h
  show canonicalGraph.behaviorTree.version = graph.version
  exact version_fromDBModel hconvert

theorem version_graphForDeployment {agent : Option DeployTarget}
    (h : graphForDeployment codec (some graph) agent = .ok g) :
    g.behaviorTree.version = graph.version := by
  cases agent with
  | none => exact absurd h (by simp [graphForDeployment])
  | some agent =>
    simp only [graphForDeployment] at h
    split at h
    · exact absurd h (by simp)
    split at h
    · exact absurd h (by simp)
    split at h
    · exact absurd h (by simp)
    split at h
    · exact absurd h (by simp)
    · rename_i canonicalGraph hconvert _ _ _
      obtain rfl := Except.ok.inj h
      show canonicalGraph.behaviorTree.version = graph.version
      exact version_fromDBModel hconvert

end

/-! ## Steps -/

/-- The rest of `ensureGraphDeployed` before the graph is sent, when the row is out of date. -/
def beginExecution (codec : Schema.Codec) (agentID newID : String) (dbGraph : BehaviorTree)
    (found : Option AgentBehaviorTree) : Option DeployStage :=
  match hconvert : graphForExecution codec agentID dbGraph with
  | .error _ => none
  | .ok canonicalGraph =>
    some (.mark ⟨dbGraph, canonicalGraph, beginRow found newID dbGraph,
      version_graphForExecution hconvert, status_beginRow found newID dbGraph⟩ found.isNone)

/-- What `deployBehaviorTreeToAgentSync` does once it has loaded the tree and the agent.  The tree
is converted only when there is a QUIC handler to send it. -/
def beginAssignment (codec : Schema.Codec) (hasHandler : Bool) (graph : BehaviorTree)
    (agent : Option DeployTarget) (assignment : AgentBehaviorTree) : Option DeployStage :=
  match hconvert : graphForAssignment codec (some graph) agent with
  | .queued => some (.finish [.assignment (assignment.pending graph)])
  | .failed err =>
    agent.map fun agent ↦
      if agent.missingTypes graph ≠ [] then .finish [.assignment (assignment.failed err)]
      else if !hasHandler then .unsent graph assignment
      else .finish [.assignment (assignment.deploying graph),
        .assignment ((assignment.deploying graph).failed err)]
  | .send canonicalGraph =>
    if !hasHandler then some (.unsent graph assignment)
    else some (.mark ⟨graph, canonicalGraph, assignment.deploying graph,
      version_graphForAssignment hconvert, rfl⟩ false)

/-- The rest of `DeployBehaviorTreeToAgent` before the graph is sent. -/
def beginDeployment (codec : Schema.Codec) (newID : String) (graph : BehaviorTree)
    (agent : Option DeployTarget) (found : Option AgentBehaviorTree) : Option DeployStage :=
  match hconvert : graphForDeployment codec (some graph) agent with
  | .error _ => none
  | .ok canonicalGraph =>
    some (.mark ⟨graph, canonicalGraph, beginRow found newID graph,
      version_graphForDeployment hconvert, status_beginRow found newID graph⟩ found.isNone)

/-- The writes after the agent has accepted the graph: `ensureGraphDeployed` writes the row first,
the others the cache. -/
def successWrites (kind : DeployKind) (d : Deployment) (now : Time) : List DeployWrite :=
  match kind with
  | .ensureGraphDeployed .. => [.assignment (d.deployed now), .cache d.canonicalGraph]
  | _ => [.cache d.canonicalGraph, .assignment (d.deployed now)]

namespace DeployState

variable (codec : Schema.Codec) (agentID : String) (h : DeployState)

/-- The call loads the row. -/
def findAssignment (k : ℕ) (found : Option AgentBehaviorTree) (newID : String)
    (call : DeployCall) : Option DeployState :=
  match call.kind, call.stage with
  | .ensureGraphDeployed .., .start =>
    if h.mayFind found then some (h.goOn k call (.compare found)) else none
  | .deployBehaviorTreeToAgentSync assignmentID, .start =>
    some (h.setCall k ((h.rows.find? (·.id = assignmentID)).map fun assignment ↦
      { call with stage := .loadTree assignment }))
  | .deployBehaviorTreeToAgent, .loadAssignment graph agent =>
    -- an error is taken for a row that does not exist
    if h.mayFind found || found = none then
      some (h.setCall k ((beginDeployment codec newID graph agent found).map fun stage ↦
        { call with stage }))
    else none
  | .updateBehaviorTree, .loadUpdated graph =>
    if h.mayFind found || found = none then
      some (h.setCall k (found.map fun assignment ↦
        { call with stage := .finish [.assignment (assignment.outdated graph)] }))
    else none
  | _, _ => none

/-- `ensureGraphDeployed` looks at the cache and decides. -/
def compare (k : ℕ) (newID : String) (call : DeployCall) : Option DeployState :=
  match call.kind, call.stage with
  | .ensureGraphDeployed force dbGraph, .compare found =>
    if h.isUpToDate force dbGraph found then some (h.goOn k call .upToDate)
    else if !h.hasHandler then some (h.setCall k none)
    else some (h.setCall k ((beginExecution codec agentID newID dbGraph found).map fun stage ↦
      { call with stage }))
  | _, _ => none

def loadTree (k : ℕ) (agent : Option DeployTarget) (call : DeployCall) : Option DeployState :=
  match call.kind, call.stage with
  | .deployBehaviorTreeToAgentSync _, .loadTree assignment =>
    some (h.setCall k ((beginAssignment codec h.hasHandler h.tree agent assignment).map
      fun stage ↦ { call with stage }))
  | .deployBehaviorTreeToAgent, .start =>
    match graphForDeployment codec (some h.tree) agent with
    | .error _ => some (h.setCall k none)
    | .ok _ =>
      if !h.hasHandler then some (h.setCall k none)
      else some (h.goOn k call (.loadAssignment h.tree agent))
  | _, _ => none

/-- The row is written before the graph is sent.  Only `ensureGraphDeployed` minds when it is not
saved. -/
def mark (k : ℕ) (saved : Bool) (call : DeployCall) : Option DeployState :=
  match call.stage with
  | .mark d create =>
    if saved then
      if create then some ((h.createRow d.assignment).goOn k call (.send d))
      else some ((h.saveRow d.assignment).goOn k call (.send d))
    else match call.kind with
      | .ensureGraphDeployed .. => some (h.setCall k none)
      | _ => some (h.goOn k call (.send d))
  | _ => none

def send (k : ℕ) (call : DeployCall) : Option DeployState :=
  match call.stage with
  | .send d => some { h.goOn k call (.wait d) with inFlight := (k, d.canonicalGraph) :: h.inFlight }
  | _ => none

/-- Without a QUIC handler `deployBehaviorTreeToAgentSync` records a success. -/
def simulate (k : ℕ) (now : Time) (call : DeployCall) : Option DeployState :=
  match call.stage with
  | .unsent graph assignment =>
    some (h.goOn k call (.finish [.assignment (assignment.deploying graph),
      .assignment ((assignment.deploying graph).deployed graph now)]))
  | _ => none

/-- The graph is not sent, or the answer does not come in time. -/
def giveUp (k : ℕ) (err : String) (call : DeployCall) : Option DeployState :=
  match call.stage with
  | .send d => some (h.goOn k call (.finish [.assignment (d.assignment.failed err)]))
  | .wait d => some (h.goOn k call (.finish [.assignment (d.assignment.failed err)]))
  | _ => none

/-- The answer is taken off the stream.  A call that no longer waits does not see it. -/
def answer (k : ℕ) (err : Option String) (now : Time) : DeployState :=
  let h' := { h with replies := h.replies.erase (k, err) }
  match h.calls k with
  | some call =>
    match call.stage, err with
    | .wait d, none => h'.goOn k call (.finish (successWrites call.kind d now))
    | .wait d, some err => h'.goOn k call (.finish [.assignment (d.assignment.failed err)])
    | _, _ => h'
  | none => h'

/-- One write after the answer. -/
def write (k : ℕ) (saved : Bool) (call : DeployCall) : Option DeployState :=
  match call.stage with
  | .finish [] => some (h.setCall k none)
  | .finish (.cache canonicalGraph :: rest) =>
    some { h.goOn k call (.finish rest) with cached := some canonicalGraph }
  | .finish (.assignment row :: rest) =>
    if saved then some ((h.saveRow row).goOn k call (.finish rest))
    else match call.kind with
      | .ensureGraphDeployed .. => some (h.setCall k none)
      | _ => some (h.goOn k call (.finish rest))
  | _ => none

/-- `UpdateBehaviorTree` has read the tree and edits its copy. -/
def edit (k : ℕ) (edited : BehaviorTree) (now : Time) (call : DeployCall) : Option DeployState :=
  match call.kind, call.stage with
  | .updateBehaviorTree, .start =>
    some (h.goOn k call (.store { edited with
      id := h.tree.id, version := h.tree.version + 1, updatedAt := now }))
  | _, _ => none

def store (k : ℕ) (call : DeployCall) : Option DeployState :=
  match call.stage with
  | .store graph => some { h.goOn k call (.refresh graph) with tree := graph }
  | _ => none

/-- The entry is dropped, and put back for a tree that belongs to the agent. -/
def refresh (k : ℕ) (call : DeployCall) : Option DeployState :=
  match call.stage with
  | .refresh graph =>
    if graph.agentID = some agentID then
      some { h.goOn k call (.loadUpdated graph) with
        cached := (fromDBModel codec graph).toOption }
    else some { h.setCall k none with cached := none }
  | _ => none

/-- One step of a call, of the agent or of the network, or another path that changes the cache. -/
def step : DeployAction → Option DeployState
  | .begin kind =>
    some { h with calls := Function.update h.calls h.count (some { kind }), count := h.count + 1 }
  | .findAssignment k found newID => (h.calls k).bind (h.findAssignment codec k found newID)
  | .compare k newID => (h.calls k).bind (h.compare codec agentID k newID)
  | .loadTree k agent => (h.calls k).bind (h.loadTree codec k agent)
  | .mark k saved => (h.calls k).bind (h.mark k saved)
  | .send k => (h.calls k).bind (h.send k)
  | .simulate k now => (h.calls k).bind (h.simulate k now)
  | .giveUp k err => (h.calls k).bind (h.giveUp k err)
  | .accept k g =>
    if (k, g) ∈ h.inFlight then some { h with
      inFlight := h.inFlight.erase (k, g), replies := (k, none) :: h.replies, accepted := some g }
    else none
  | .reject k g err =>
    if (k, g) ∈ h.inFlight then some { h with
      inFlight := h.inFlight.erase (k, g), replies := (k, some err) :: h.replies }
    else none
  | .lose k g => some { h with inFlight := h.inFlight.erase (k, g) }
  | .answer k err now => if (k, err) ∈ h.replies then some (h.answer k err now) else none
  | .write k saved => (h.calls k).bind (h.write k saved)
  | .edit k edited now => (h.calls k).bind (h.edit k edited now)
  | .store k => (h.calls k).bind (h.store k)
  | .refresh k => (h.calls k).bind (h.refresh codec agentID k)
  | .recache canonicalGraph => some { h with cached := canonicalGraph }

/-- No deployment has been begun, and no row says that the tree is deployed. -/
def Initial : Prop := ∃ tree hasHandler rows cached accepted,
  (∀ row ∈ rows, AgentBehaviorTree.claimed row = none) ∧
    h = { tree, hasHandler, rows, cached, accepted }

/-! ## What should hold -/

/-- The version of the graph that the agent accepted last. -/
def acceptedVersion : Option ℤ := h.accepted.map (·.behaviorTree.version)

/-- Whenever `ensureGraphDeployed` is about to return without having sent anything, the agent has
the version that was passed to it. -/
def Faithful : Prop := ∀ k force dbGraph,
  h.calls k = some ⟨.ensureGraphDeployed force dbGraph, .upToDate⟩ →
    h.acceptedVersion = some dbGraph.version

/-- The versions that a row, a call that compares or is about to write a row, or an answer to a call
that waits for it, takes the agent to have. -/
def claimed : List ℤ :=
  h.rows.filterMap (·.claimed) ++
    (List.range h.count).flatMap (fun k ↦ ((h.calls k).map (·.claimed)).getD []) ++
    h.replies.filterMap fun reply ↦
      if reply.2 = none then (h.calls reply.1).bind (·.awaited) else none

/-- The agent accepts no other version than the one it is taken to have, and no deployment is
recorded that was not sent. -/
def inOrder : DeployAction → Bool
  | .accept _ g => h.claimed.all (· = g.behaviorTree.version)
  | .simulate .. => false
  | _ => true

end DeployState

end Api
end FleetServer
