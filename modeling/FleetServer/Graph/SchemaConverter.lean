import FleetServer.Graph.Schema
import FleetServer.Lib.JsonText
import Mathlib.Data.Rat.Defs

/-!
# From a stored tree to the whole canonical graph

`FromDBModel` of `internal/graph/converter.go` with the transitions of the steps, which become the
edges, and with the fields of a step that `Graph.fromDBModel` leaves out.  `outline` forgets them
again: `outline_fromDBModel` says that the two agree.

`valid_fromDBModel_iff` says of the steps alone when the graph of a tree validates.
-/

set_option autoImplicit false

namespace FleetServer
namespace Schema

open FleetServer.Graph Db GoString

/-! ## Steps -/

structure StepAction where
  type : String
  server : String
  params : Option ActionParams := none
  timeoutSec : String := ""
  deriving DecidableEq, Repr

/-- What is looked up in an object under `on_success` or `on_failure`: a member is there when it has
the type that is asked for. -/
structure TransitionFields where
  next : Option String := none
  fallback : Option String := none
  retry : Option ℚ := none
  backoffMs : Option ℚ := none
  deriving DecidableEq, Repr

/-- A value that was read from JSON into an `interface{}`: none, a string, an object, or something
the conversion does not look at.  It never has the struct type `TransitionOnFailure`. -/
inductive TransitionValue
  | null
  | string (next : String)
  | object (fields : TransitionFields)
  | other
  deriving DecidableEq, Repr

structure OutcomeTransition where
  outcome : String
  next : String := ""
  state : String := ""
  deriving DecidableEq, Repr

structure StepTransition where
  onSuccess : TransitionValue := .null
  onFailure : TransitionValue := .null
  onConfirm : String := ""
  onCancel : String := ""
  onTimeout : String := ""
  onOutcomes : List OutcomeTransition := []
  deriving DecidableEq, Repr

structure Step where
  id : String
  name : String := ""
  jobName : String := ""
  type : String := ""
  terminalType : String := ""
  alert : Bool := false
  message : String := ""
  preStates : List String := []
  duringStates : List String := []
  successStates : List String := []
  failureStates : List String := []
  endStates : List EndState := []
  action : Option StepAction := none
  waitFor : Option WaitFor := none
  transition : Option StepTransition := none
  resourceAcquire : List String := []
  resourceRelease : List String := []
  planningPreconditions : List PlanningCondition := []
  planningEffects : List PlanningEffect := []
  planningDuring : List PlanningEffect := []
  deriving DecidableEq, Repr

/-- What the conversions take from the JSON library and the hash library. -/
structure Codec where
  unmarshalSteps : String → Except String (List Step)
  marshalSteps : List Step → String
  unmarshalStrings : String → Option (List (String × String))
  marshalGraph : CanonicalGraph → String
  sha256 : String → String

/-! ## Vertices -/

def stepToVertex (step : Step) : Vertex :=
  if step.type = "terminal" then
    { id := step.id, name := step.name, type := .terminal
      terminal := some
        { terminalType := step.terminalType, alert := step.alert, message := step.message } }
  else
    let data : StepData :=
      { jobName := step.jobName
        states :=
          { pre := step.preStates, during := step.duringStates, success := step.successStates
            failure := step.failureStates }
        endStates := step.endStates
        resourceAcquire := step.resourceAcquire
        resourceRelease := step.resourceRelease
        planningPreconditions := step.planningPreconditions
        planningEffects := step.planningEffects
        planningDuring := step.planningDuring }
    let data : StepData :=
      match step.waitFor, step.action with
      | some wait, _ =>
        { data with
          stepType := some .wait
          wait := some
            { type := wait.type, message := wait.message, timeoutSec := wait.timeoutSec } }
      | none, some action =>
        { data with
          stepType := some .action
          action := some
            { type := action.type, server := action.server, params := action.params
              timeoutSec := action.timeoutSec } }
      | none, none => data
    { id := step.id, name := step.name, type := .step, step := some data }

/-! ## Edges -/

/-- The text of a condition on an outcome: a JSON object of strings. -/
def encodeOutcomeCondition (outcome state : String) : String :=
  let payload := (if trimSpace outcome ≠ "" then [("outcome", trimSpace outcome)] else []) ++
    if trimSpace state ≠ "" then [("state", trimSpace state)] else []
  if payload = [] then "" else String.ofList (JsonText.object payload)

/-- `int(v)` of a `float64`.  Out of range it is the least `int`, as it is on the 64-bit machines
that the server is built for. -/
def truncate (v : ℚ) : ℤ :=
  let n := v.num.tdiv v.den
  if -2 ^ 63 ≤ n ∧ n < 2 ^ 63 then n else -2 ^ 63

def OutcomeTransition.isSuccess (transition : OutcomeTransition) : Bool :=
  toLower (trimSpace transition.outcome) ∈ ["success", "succeeded", "done"]

namespace StepTransition

variable (t : StepTransition)

/-- The outcomes that lead somewhere. -/
def outcomes : List OutcomeTransition := t.onOutcomes.filter (·.next ≠ "")

def hasOutcomes : Bool := t.onOutcomes ≠ []

def hasSuccessOutcome : Bool := t.outcomes.any (·.isSuccess)

def hasFailureLikeOutcome : Bool := t.outcomes.any (!·.isSuccess)

end StepTransition

def outcomeEdge (stepID : String) (transition : OutcomeTransition) : Edge where
  fromID := stepID
  toID := transition.next
  type := .conditional
  config := some { condition := encodeOutcomeCondition transition.outcome transition.state }

def successEdges (stepID : String) : TransitionValue → List Edge
  | .string next => [{ fromID := stepID, toID := next, type := .onSuccess }]
  | .object fields =>
    (fields.next.map fun next ↦ { fromID := stepID, toID := next, type := .onSuccess }).toList
  | _ => []

def failureEdges (stepID : String) : TransitionValue → List Edge
  | .string next => [{ fromID := stepID, toID := next, type := .onFailure }]
  | .object fields =>
    let cfg : EdgeConfig :=
      { retry := (fields.retry.map truncate).getD 0
        backoffMs := (fields.backoffMs.map truncate).getD 0 }
    match fields.fallback, fields.next with
    | some fallback, _ =>
      [{ fromID := stepID, toID := fallback, type := .onFailure
         config := some { cfg with fallback } }]
    | none, some next =>
      [{ fromID := stepID, toID := next, type := .onFailure, config := some cfg }]
    | none, none => []
  | _ => []

/-- The edge of a transition that is a step id, or empty. -/
def namedEdge (stepID : String) (type : EdgeType) (next : String) : List Edge :=
  if next ≠ "" then [{ fromID := stepID, toID := next, type }] else []

def StepTransition.edges (stepID : String) (t : StepTransition) : List Edge :=
  t.outcomes.map (outcomeEdge stepID) ++
    (if !t.hasOutcomes || !t.hasSuccessOutcome then successEdges stepID t.onSuccess else []) ++
    (if !t.hasOutcomes || !t.hasFailureLikeOutcome then failureEdges stepID t.onFailure else []) ++
    namedEdge stepID .onTimeout t.onTimeout ++ namedEdge stepID .onConfirm t.onConfirm ++
    namedEdge stepID .onCancel t.onCancel

def extractEdges (step : Step) : List Edge :=
  match step.transition with
  | none => []
  | some t => t.edges step.id

/-! ## Trees -/

/-- An entry point that names no vertex is replaced by the first step. -/
def entryPointOf (entryPoint : String) (steps : List Step) : String :=
  let chosen := if entryPoint ≠ "" then entryPoint else (steps.head?.map (·.id)).getD ""
  if chosen ≠ "" ∧ chosen ∉ steps.map (·.id) then (steps.head?.map (·.id)).getD chosen else chosen

def computeChecksum (codec : Codec) (g : CanonicalGraph) : String :=
  "sha256:" ++ codec.sha256 (codec.marshalGraph { g with checksum := "" })

/-- The graph without its checksum. -/
def graphOf (bt : BehaviorTree) (steps : List Step) : CanonicalGraph where
  behaviorTree :=
    { id := bt.id, name := bt.name, version := bt.version
      description := nullString bt.description, agentID := nullString bt.agentID
      taskDistributorID := nullString bt.taskDistributorID
      createdAt := bt.createdAt, updatedAt := bt.updatedAt }
  vertices := steps.map stepToVertex
  edges := steps.flatMap extractEdges
  entryPoint := entryPointOf (nullString bt.entryPoint) steps

def storedSteps (codec : Codec) (bt : BehaviorTree) : Except String (List Step) :=
  if bt.steps = "" then .ok [] else codec.unmarshalSteps bt.steps

/-- The preconditions are decoded as well, and then dropped. -/
def fromDBModel (codec : Codec) (bt : BehaviorTree) : Except String CanonicalGraph :=
  match storedSteps codec bt with
  | .error err => .error ("failed to parse steps: " ++ err)
  | .ok steps =>
    let graph := graphOf bt steps
    .ok { graph with checksum := computeChecksum codec graph }

/-! ## Deployment -/

def substituteServerPatterns (ns : String) (g : CanonicalGraph) : CanonicalGraph :=
  { g with
    vertices := g.vertices.map fun v ↦
      { v with
        step := v.step.map fun data ↦
          { data with
            action := data.action.map fun action ↦
              if action.server ≠ "" then
                { action with server := substituteServerPattern ns action.server }
              else action } } }

/-- The graph that a deployment to the agent sends and caches. -/
def deployedGraph (agentID : String) (g : CanonicalGraph) : CanonicalGraph :=
  substituteServerPatterns "" { g with behaviorTree := { g.behaviorTree with agentID := agentID } }

/-! ## The graph of a list of steps -/

variable {codec : Codec} {bt : BehaviorTree} {steps : List Step} {g : CanonicalGraph}

/-- The transitions of some step lead from the one step to the other. -/
def LeadsTo (steps : List Step) (source target : String) : Prop :=
  ∃ step ∈ steps, step.id = source ∧ ∃ e ∈ extractEdges step, e.toID = target

/-- Steps that can be told apart, and whose transitions lead to steps. -/
structure ClosedSteps (steps : List Step) : Prop where
  nonempty : steps ≠ []
  named : "" ∉ steps.map (·.id)
  distinct : (steps.map (·.id)).Nodup
  closed : ∀ step ∈ steps, ∀ e ∈ extractEdges step, e.toID ∈ steps.map (·.id)

@[simp] theorem id_stepToVertex (step : Step) : (stepToVertex step).id = step.id := by
  rw [stepToVertex]
  split <;> rfl

@[simp] theorem ids_graphOf : (graphOf bt steps).ids = steps.map (·.id) := by
  rw [CanonicalGraph.ids, graphOf, List.map_map]
  exact List.map_congr_left fun step _ ↦ id_stepToVertex step

/-- **The edges of a step start from it.** -/
theorem fromID_extractEdges {step : Step} {e : Edge} (he : e ∈ extractEdges step) :
    e.fromID = step.id := by
  have hnamed : ∀ {type : EdgeType} {next : String}, e ∈ namedEdge step.id type next →
      e.fromID = step.id := by
    intro type next h
    rw [namedEdge] at h
    split at h
    · rw [List.mem_singleton.mp h]
    · exact absurd h List.not_mem_nil
  rw [extractEdges] at he
  split at he
  · exact absurd he List.not_mem_nil
  rename_i t _
  simp only [StepTransition.edges, List.mem_append] at he
  rcases he with ((((he | he) | he) | he) | he) | he
  · obtain ⟨transition, -, rfl⟩ := List.mem_map.mp he
    rfl
  · split at he
    · cases hvalue : t.onSuccess with
      | object fields =>
        rw [hvalue, successEdges, Option.mem_toList] at he
        obtain ⟨next, -, rfl⟩ := Option.mem_map.mp he
        rfl
      | _ => simp_all [successEdges]
    · exact absurd he List.not_mem_nil
  · split at he
    · cases hvalue : t.onFailure with
      | object fields =>
        rw [hvalue, failureEdges] at he
        dsimp only at he
        split at he <;> simp_all
      | _ => simp_all [failureEdges]
    · exact absurd he List.not_mem_nil
  · exact hnamed he
  · exact hnamed he
  · exact hnamed he

theorem linked_graphOf (source target : String) :
    (graphOf bt steps).Linked source target ↔ LeadsTo steps source target := by
  constructor
  · rintro ⟨e, he, hfrom, hto⟩
    obtain ⟨step, hstep, he⟩ := List.mem_flatMap.mp he
    exact ⟨step, hstep, (fromID_extractEdges he).symm.trans hfrom, e, he, hto⟩
  · rintro ⟨step, hstep, hfrom, e, he, hto⟩
    exact ⟨e, List.mem_flatMap.mpr ⟨step, hstep, he⟩, (fromID_extractEdges he).trans hfrom, hto⟩

/-- **The entry point is the one of the tree when it names a step, and else the first step.** -/
theorem entryPointOf_cons (entryPoint : String) (first : Step) (rest : List Step) :
    entryPointOf entryPoint (first :: rest) =
      if entryPoint ≠ "" ∧ entryPoint ∈ (first :: rest).map (·.id) then entryPoint
      else first.id := by
  have hfirst : first.id ∈ (first :: rest).map (·.id) := List.mem_cons_self
  rw [entryPointOf]
  by_cases hempty : entryPoint = ""
  · simp only [hempty, ne_eq, not_true_eq_false, if_false, false_and]
    exact if_neg fun h ↦ h.2 hfirst
  · rw [if_pos hempty]
    by_cases hmem : entryPoint ∈ (first :: rest).map (·.id)
    · rw [if_neg fun h ↦ h.2 hmem, if_pos ⟨hempty, hmem⟩]
    · rw [if_pos ⟨hempty, hmem⟩, if_neg fun h ↦ hmem h.2]
      rfl

theorem entryPointOf_mem (entryPoint : String) (hsteps : steps ≠ []) :
    entryPointOf entryPoint steps ∈ steps.map (·.id) := by
  obtain ⟨first, rest, rfl⟩ := List.exists_cons_of_ne_nil hsteps
  rw [entryPointOf_cons]
  split
  · rename_i h
    exact h.2
  · exact List.mem_cons_self

/-- **When the graph of a tree validates.** -/
theorem valid_graphOf_iff : (graphOf bt steps).Valid ↔ bt.id ≠ "" ∧ ClosedSteps steps := by
  constructor
  · intro h
    have hids : (graphOf bt steps).ids = steps.map (·.id) := ids_graphOf
    refine ⟨h.id, fun hnil ↦ ?_, hids ▸ h.named, hids ▸ h.distinct, fun step hstep e he ↦ ?_⟩
    · have hentry := h.entryPoint
      rw [hids, hnil] at hentry
      exact absurd hentry List.not_mem_nil
    · rw [← hids]
      exact (h.edges e (List.mem_flatMap.mpr ⟨step, hstep, he⟩)).2
  · rintro ⟨hid, h⟩
    refine ⟨by simp [graphOf], hid, ids_graphOf ▸ h.named, ids_graphOf ▸ h.distinct, ?_,
      fun e he ↦ ?_⟩
    · rw [ids_graphOf]
      exact entryPointOf_mem _ h.nonempty
    · obtain ⟨step, hstep, he⟩ := List.mem_flatMap.mp he
      rw [ids_graphOf, fromID_extractEdges he]
      exact ⟨List.mem_map_of_mem hstep, h.closed step hstep e he⟩

/-- A deployment changes neither what the edges connect nor what there is to connect. -/
theorem valid_deployedGraph (agentID : String) : (deployedGraph agentID g).Valid ↔ g.Valid := by
  have hids : (deployedGraph agentID g).ids = g.ids := by
    rw [CanonicalGraph.ids, deployedGraph, substituteServerPatterns, List.map_map]
    rfl
  constructor
  · intro h
    exact ⟨h.schemaVersion, h.id, hids ▸ h.named, hids ▸ h.distinct, hids ▸ h.entryPoint,
      fun e he ↦ hids ▸ h.edges e he⟩
  · intro h
    exact ⟨h.schemaVersion, h.id, hids ▸ h.named, hids ▸ h.distinct, hids ▸ h.entryPoint,
      fun e he ↦ hids ▸ h.edges e he⟩

/-- **When the graph of a tree passes both checks.** -/
theorem passes_graphOf_iff : ((graphOf bt steps).Valid ∧
      ¬∃ id, Relation.TransGen (graphOf bt steps).Linked id id) ↔
    bt.id ≠ "" ∧ ClosedSteps steps ∧ ∀ id, ¬Relation.TransGen (LeadsTo steps) id id := by
  have hlinked : (graphOf bt steps).Linked = LeadsTo steps := by
    funext source target
    exact propext (linked_graphOf source target)
  rw [valid_graphOf_iff, hlinked, not_exists, and_assoc]

/-! ## What the outline of a graph leaves out -/

/-- The two records hold the same of a step.  The second has the parameters of an action as text. -/
structure Step.Outlines (params : ActionParams → String) (step : Step) (old : BehaviorTreeStep) :
    Prop where
  id : old.id = step.id
  name : old.name = step.name
  jobName : old.jobName = step.jobName
  type : old.type = step.type
  terminalType : old.terminalType = step.terminalType
  alert : old.alert = step.alert
  message : old.message = step.message
  preStates : old.preStates = step.preStates
  duringStates : old.duringStates = step.duringStates
  successStates : old.successStates = step.successStates
  failureStates : old.failureStates = step.failureStates
  waitFor : old.waitFor = step.waitFor
  action : old.action.map (fun a ↦ (a.type, a.server, a.params, a.timeoutSec)) =
    step.action.map fun a ↦ (a.type, a.server, (a.params.map params).getD "", a.timeoutSec)

def ActionConfig.outline (params : ActionParams → String) (action : ActionConfig) :
    Graph.ActionConfig where
  type := action.type
  server := action.server
  params := (action.params.map params).getD ""
  timeoutSec := action.timeoutSec

def StepData.outline (params : ActionParams → String) (data : StepData) : Graph.StepData where
  stepType := data.stepType
  jobName := data.jobName
  action := data.action.map (·.outline params)
  wait := data.wait
  states := data.states

def Vertex.outline (params : ActionParams → String) (v : Vertex) : Graph.Vertex where
  id := v.id
  type := v.type
  name := v.name
  step := v.step.map (·.outline params)
  terminal := v.terminal

def CanonicalGraph.outline (params : ActionParams → String) (g : CanonicalGraph) :
    Graph.CanonicalGraph where
  schemaVersion := g.schemaVersion
  behaviorTree := g.behaviorTree
  vertices := g.vertices.map (·.outline params)
  entryPoint := g.entryPoint

section

variable {params : ActionParams → String} {step : Step} {old : BehaviorTreeStep}
  {olds : List BehaviorTreeStep}

theorem outline_stepToVertex (h : step.Outlines params old) :
    (stepToVertex step).outline params = Graph.stepToVertex old := by
  rw [stepToVertex, Graph.stepToVertex, h.type]
  split
  · simp only [Vertex.outline, h.id, h.name, h.terminalType, h.alert, h.message, Option.map_none]
  · rw [h.waitFor]
    cases hwait : step.waitFor with
    | some wait =>
      simp only [Vertex.outline, StepData.outline, h.id, h.name, h.jobName, h.preStates,
        h.duringStates, h.successStates, h.failureStates, Option.map_some, Option.map_none]
    | none =>
      have haction := h.action
      cases hold : old.action with
      | none =>
        rw [hold, Option.map_none, eq_comm, Option.map_eq_none_iff] at haction
        simp only [Vertex.outline, StepData.outline, haction, h.id, h.name, h.jobName, h.preStates,
          h.duringStates, h.successStates, h.failureStates, Option.map_some, Option.map_none]
      | some oldAction =>
        rw [hold, Option.map_some, eq_comm, Option.map_eq_some_iff] at haction
        obtain ⟨action, haction, hsame⟩ := haction
        obtain ⟨htype, hserver, hparams, htimeout⟩ : action.type = oldAction.type ∧
            action.server = oldAction.server ∧
            (action.params.map params).getD "" = oldAction.params ∧
            action.timeoutSec = oldAction.timeoutSec := by simpa using hsame
        simp only [Vertex.outline, StepData.outline, ActionConfig.outline, haction, h.id, h.name,
          h.jobName, h.preStates, h.duringStates, h.successStates, h.failureStates,
          Option.map_some, htype, hserver, hparams, htimeout]

theorem ids_of_outlines (h : List.Forall₂ (Step.Outlines params) steps olds) :
    olds.map (·.id) = steps.map (·.id) := by
  induction h with
  | nil => rfl
  | cons hfirst _ ih => rw [List.map_cons, List.map_cons, hfirst.id, ih]

theorem outline_graphOf (h : List.Forall₂ (Step.Outlines params) steps olds) :
    (graphOf bt steps).outline params = Graph.graphOf bt olds := by
  have hvertices : (steps.map stepToVertex).map (·.outline params) =
      olds.map Graph.stepToVertex := by
    induction h with
    | nil => rfl
    | cons hfirst _ ih =>
      rw [List.map_cons, List.map_cons, List.map_cons, outline_stepToVertex hfirst, ih]
  have hentry : entryPointOf (nullString bt.entryPoint) steps =
      (Graph.graphOf bt olds).entryPoint := by
    cases h with
    | nil =>
      by_cases hempty : nullString bt.entryPoint = "" <;>
        simp [entryPointOf, Graph.graphOf, Graph.repairEntryPoint, resolveEntryPoint, hempty]
    | cons hfirst hrest =>
      have hids := ids_of_outlines (List.Forall₂.cons hfirst hrest)
      rw [entryPointOf_cons, Graph.entryPoint_graphOf, hids, hfirst.id]
  have hmeta : (Graph.graphOf bt olds).schemaVersion = "1.0.0" ∧
      (Graph.graphOf bt olds).behaviorTree = (graphOf bt steps).behaviorTree := by
    simp only [Graph.graphOf, Graph.repairEntryPoint]
    split
    · exact ⟨rfl, rfl⟩
    · split <;> exact ⟨rfl, rfl⟩
  have hold : (Graph.graphOf bt olds).vertices = olds.map Graph.stepToVertex := by
    rw [Graph.graphOf, Graph.vertices_repairEntryPoint]
  cases hgraph : Graph.graphOf bt olds
  rw [hgraph] at hentry hmeta hold
  obtain ⟨rfl, rfl⟩ := hmeta
  subst hold
  rw [CanonicalGraph.outline, graphOf]
  dsimp only
  rw [hvertices, hentry]

/-- **What the conversion leaves out changes nothing in the rest.** -/
theorem outline_fromDBModel {old : Db.Codec}
    (hsame : ∀ text, (∃ err, codec.unmarshalSteps text = .error err ∧
        old.unmarshalSteps text = .error err) ∨
      ∃ steps olds, codec.unmarshalSteps text = .ok steps ∧ old.unmarshalSteps text = .ok olds ∧
        List.Forall₂ (Step.Outlines params) steps olds) :
    (fromDBModel codec bt).map (·.outline params) = Graph.fromDBModel old bt := by
  rw [fromDBModel, storedSteps, Graph.fromDBModel]
  split
  · rename_i err herr
    split at herr
    · exact absurd herr (by simp)
    · rename_i hne
      rw [if_neg hne]
      rcases hsame bt.steps with ⟨err', hnew, hold⟩ | ⟨_, _, hnew, -⟩
      · obtain rfl := Except.error.inj (herr.symm.trans hnew)
        rw [hold]
        rfl
      · exact absurd (herr.symm.trans hnew) (by simp)
  · rename_i steps hsteps
    split at hsteps
    · rename_i hempty
      obtain rfl := Except.ok.inj hsteps
      rw [if_pos hempty]
      have houtline : (graphOf bt []).outline params = Graph.graphOf bt [] := outline_graphOf .nil
      exact congrArg Except.ok houtline
    · rename_i hne
      rw [if_neg hne]
      rcases hsame bt.steps with ⟨_, hnew, -⟩ | ⟨steps', olds, hnew, hold, houtlines⟩
      · exact absurd (hsteps.symm.trans hnew) (by simp)
      · obtain rfl := Except.ok.inj (hsteps.symm.trans hnew)
        rw [hold]
        exact congrArg Except.ok (outline_graphOf houtlines)

end

end Schema
end FleetServer
