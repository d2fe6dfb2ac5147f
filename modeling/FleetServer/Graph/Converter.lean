import FleetServer.Db.Models

/-!
# Canonical graphs

The canonical form of a behavior tree (`internal/graph/schema.go`) and the conversion of a database
row into it (`FromDBModel` of `internal/graph/converter.go`).  A canonical graph has a vertex for
each step, in the order of the steps, and an entry point that names one of them; it has no
preconditions.

Left out are the edges, the end states and planning fields of a vertex, and the checksum.
-/

set_option autoImplicit false

namespace FleetServer
namespace Graph

open Db

/-! ## The schema -/

inductive VertexType
  | step
  | terminal
  deriving DecidableEq, Repr

inductive StepType
  | action
  | wait
  deriving DecidableEq, Repr

structure TerminalData where
  terminalType : String
  alert : Bool
  message : String
  deriving DecidableEq, Repr

structure StateConfig where
  pre : List String
  during : List String
  success : List String
  failure : List String
  deriving DecidableEq, Repr

structure ActionConfig where
  type : String
  server : String
  params : String
  timeoutSec : String
  deriving DecidableEq, Repr

structure WaitConfig where
  type : String
  message : String
  timeoutSec : String
  deriving DecidableEq, Repr

structure StepData where
  stepType : Option StepType := none
  jobName : String
  action : Option ActionConfig := none
  wait : Option WaitConfig := none
  states : StateConfig
  deriving DecidableEq, Repr

structure Vertex where
  id : String
  type : VertexType
  name : String
  step : Option StepData := none
  terminal : Option TerminalData := none
  deriving DecidableEq, Repr

structure BehaviorTreeMeta where
  id : String
  name : String
  version : ℤ
  description : String
  agentID : String
  taskDistributorID : String
  createdAt : Time
  updatedAt : Time
  deriving DecidableEq, Repr

structure CanonicalGraph where
  schemaVersion : String := "1.0.0"
  behaviorTree : BehaviorTreeMeta
  vertices : List Vertex
  entryPoint : String
  deriving DecidableEq, Repr

def CanonicalGraph.getVertex (g : CanonicalGraph) (id : String) : Option Vertex :=
  g.vertices.find? fun v ↦ v.id = id

/-! ## From a database row -/

/-- A wait takes precedence over an action. -/
def stepToVertex (step : BehaviorTreeStep) : Vertex :=
  if step.type = "terminal" then
    { id := step.id, name := step.name, type := .terminal
      terminal := some
        { terminalType := step.terminalType, alert := step.alert, message := step.message } }
  else
    let states : StateConfig :=
      { pre := step.preStates, during := step.duringStates, success := step.successStates
        failure := step.failureStates }
    let data : StepData :=
      match step.waitFor, step.action with
      | some wait, _ =>
        { jobName := step.jobName, states := states, stepType := some .wait
          wait := some
            { type := wait.type, message := wait.message, timeoutSec := wait.timeoutSec } }
      | none, some action =>
        { jobName := step.jobName, states := states, stepType := some .action
          action := some
            { type := action.type, server := action.server, params := action.params
              timeoutSec := action.timeoutSec } }
      | none, none => { jobName := step.jobName, states := states }
    { id := step.id, name := step.name, type := .step, step := some data }

/-- An entry point that names no vertex is replaced by the first step. -/
def repairEntryPoint (graph : CanonicalGraph) : List BehaviorTreeStep → CanonicalGraph
  | [] => graph
  | first :: _ =>
    if graph.entryPoint ≠ "" ∧ (graph.getVertex graph.entryPoint).isNone then
      { graph with entryPoint := first.id }
    else graph

def graphOf (bt : BehaviorTree) (steps : List BehaviorTreeStep) : CanonicalGraph :=
  repairEntryPoint
    { behaviorTree :=
        { id := bt.id, name := bt.name, version := bt.version
          description := nullString bt.description, agentID := nullString bt.agentID
          taskDistributorID := nullString bt.taskDistributorID
          createdAt := bt.createdAt, updatedAt := bt.updatedAt }
      vertices := steps.map stepToVertex
      entryPoint := resolveEntryPoint (nullString bt.entryPoint) steps } steps

/-- The preconditions are decoded as well, and then dropped. -/
def fromDBModel (codec : Codec) (bt : BehaviorTree) : Except String CanonicalGraph :=
  if bt.steps = "" then .ok (graphOf bt [])
  else
    match codec.unmarshalSteps bt.steps with
    | .error err => .error ("failed to parse steps: " ++ err)
    | .ok steps => .ok (graphOf bt steps)

/-! ## Deployment -/

/-- The placeholder is replaced, and then double slashes are made single until none is left: every
round makes the name shorter or leaves it. -/
def substituteServerPattern (ns server : String) : String :=
  let replaced := GoString.replaceAll server "\x7bnamespace\x7d" ns
  (fun s ↦ GoString.replaceAll s "//" "/")^[replaced.length] replaced

example : substituteServerPattern "" "/\x7bnamespace\x7d//dock" = "/dock" := by
  decide +kernel

def substituteServerPatterns (ns : String) (g : CanonicalGraph) : CanonicalGraph :=
  { g with
    vertices := g.vertices.map fun v ↦
      { v with
        step := v.step.map fun data ↦
          { data with
            action := data.action.map fun action ↦
              if action.server ≠ "" then
                { action with server := substituteServerPattern ns action.server }
              else action } } }

/-- The graph that a deployment to the agent sends and caches. -/
def deployedGraph (agentID : String) (g : CanonicalGraph) : CanonicalGraph :=
  substituteServerPatterns "" { g with behaviorTree := { g.behaviorTree with agentID := agentID } }

/-! ## What a conversion keeps -/

variable {codec : Codec} {bt : BehaviorTree}

@[simp] theorem id_stepToVertex (step : BehaviorTreeStep) : (stepToVertex step).id = step.id := by
  rw [stepToVertex]
  split <;> rfl

theorem vertices_repairEntryPoint (graph : CanonicalGraph) (steps : List BehaviorTreeStep) :
    (repairEntryPoint graph steps).vertices = graph.vertices := by
  simp only [repairEntryPoint]
  split
  · rfl
  · split <;> rfl

/-- The vertices have the ids of the steps, in the same order. -/
theorem ids_graphOf (steps : List BehaviorTreeStep) :
    (graphOf bt steps).vertices.map (·.id) = steps.map (·.id) := by
  rw [graphOf, vertices_repairEntryPoint, List.map_map]
  exact List.map_congr_left fun step _ ↦ id_stepToVertex step

theorem isNone_getVertex_iff {g : CanonicalGraph} {id : String} :
    (g.getVertex id).isNone = true ↔ id ∉ g.vertices.map (·.id) := by
  rw [Option.isNone_iff_eq_none, CanonicalGraph.getVertex, List.find?_eq_none, List.mem_map]
  simp

/-- **The entry point of a converted graph is that of the tree when it names a step, and else the
first step.** -/
theorem entryPoint_graphOf (first : BehaviorTreeStep) (rest : List BehaviorTreeStep) :
    (graphOf bt (first :: rest)).entryPoint =
      if nullString bt.entryPoint ≠ "" ∧
          nullString bt.entryPoint ∈ (first :: rest).map (·.id) then
        nullString bt.entryPoint
      else first.id := by
  have hids : ((first :: rest).map stepToVertex).map (·.id) = (first :: rest).map (·.id) := by
    rw [List.map_map]
    exact List.map_congr_left fun step _ ↦ id_stepToVertex step
  rw [graphOf, repairEntryPoint]
  dsimp only
  simp only [isNone_getVertex_iff, hids]
  by_cases he : nullString bt.entryPoint = ""
  · -- without an entry point the first step is taken, whatever its name
    have hresolved : resolveEntryPoint (nullString bt.entryPoint) (first :: rest) = first.id := by
      rw [resolveEntryPoint, if_pos he]
      rfl
    rw [hresolved, if_neg fun h ↦ h.2 (List.mem_map_of_mem List.mem_cons_self),
      if_neg fun h ↦ h.1 he]
  · have hresolved : resolveEntryPoint (nullString bt.entryPoint) (first :: rest) =
        nullString bt.entryPoint := by
      rw [resolveEntryPoint, if_neg he]
    rw [hresolved]
    by_cases hmem : nullString bt.entryPoint ∈ (first :: rest).map (·.id)
    · rw [if_neg fun h ↦ h.2 hmem, if_pos ⟨he, hmem⟩]
    · rw [if_pos ⟨he, hmem⟩, if_neg fun h ↦ hmem h.2]

theorem ids_deployedGraph (agentID : String) (g : CanonicalGraph) :
    (deployedGraph agentID g).vertices.map (·.id) = g.vertices.map (·.id) := by
  rw [deployedGraph, substituteServerPatterns]
  rw [List.map_map]
  rfl

theorem entryPoint_deployedGraph (agentID : String) (g : CanonicalGraph) :
    (deployedGraph agentID g).entryPoint = g.entryPoint := rfl

/-- What a tree that converts has decoded to. -/
theorem fromDBModel_eq_ok {g : CanonicalGraph} (h : fromDBModel codec bt = .ok g) :
    (bt.steps = "" ∧ g = graphOf bt []) ∨
      ∃ steps, bt.steps ≠ "" ∧ codec.unmarshalSteps bt.steps = .ok steps ∧
        g = graphOf bt steps := by
  rw [fromDBModel] at h
  split at h
  · rename_i hnil
    exact .inl ⟨hnil, (Except.ok.inj h).symm⟩
  · rename_i hne
    split at h
    · exact absurd h (by simp)
    · rename_i steps hsteps
      exact .inr ⟨steps, hne, hsteps, (Except.ok.inj h).symm⟩

end Graph
end FleetServer
