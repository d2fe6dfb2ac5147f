import FleetServer.Graph.Converter
import FleetServer.Lib.CycleSearch
import FleetServer.Pddl.Types

/-!
# The whole canonical graph

The canonical graph of `internal/graph/schema.go` with its edges, and with the fields of a vertex
that `Graph.Converter` leaves out.  `validate` and `hasCycle` are the two checks on it:
`validate_iff` and `hasCycle_iff` say what they check.

A JSON value that is only copied is the text it has.  Of a record that both the database and the
canonical graph have with the same fields there is one type here.
-/

set_option autoImplicit false

namespace FleetServer
namespace Schema

open FleetServer.Graph

/-! ## Vertices -/

structure EndState where
  id : String
  state : String
  label : String := ""
  color : String := ""
  outcome : String := ""
  deriving DecidableEq, Repr

structure ParameterFieldSource where
  source : String
  value : String := ""
  stepID : String := ""
  resultField : String := ""
  expression : String := ""
  deriving DecidableEq, Repr

structure ActionParams where
  source : String := ""
  waypointID : String := ""
  data : String := ""
  fields : List String := []
  fieldSources : List (String × ParameterFieldSource) := []
  deriving DecidableEq, Repr

structure ActionConfig where
  type : String
  server : String
  params : Option ActionParams := none
  timeoutSec : String := ""
  deriving DecidableEq, Repr

structure StepData where
  stepType : Option StepType := none
  jobName : String := ""
  action : Option ActionConfig := none
  wait : Option WaitConfig := none
  states : StateConfig
  endStates : List EndState := []
  resourceAcquire : List String := []
  resourceRelease : List String := []
  planningPreconditions : List PlanningCondition := []
  planningEffects : List PlanningEffect := []
  planningDuring : List PlanningEffect := []
  deriving DecidableEq, Repr

structure Vertex where
  id : String
  type : VertexType
  name : String := ""
  step : Option StepData := none
  terminal : Option TerminalData := none
  deriving DecidableEq, Repr

/-! ## Edges -/

inductive EdgeType
  | onSuccess
  | onFailure
  | onTimeout
  | onConfirm
  | onCancel
  | conditional
  deriving DecidableEq, Repr

structure EdgeConfig where
  retry : ℤ := 0
  fallback : String := ""
  backoffMs : ℤ := 0
  condition : String := ""
  deriving DecidableEq, Repr

structure Edge where
  fromID : String
  toID : String
  type : EdgeType
  config : Option EdgeConfig := none
  deriving DecidableEq, Repr

/-! ## Graphs -/

structure CanonicalGraph where
  schemaVersion : String := "1.0.0"
  behaviorTree : BehaviorTreeMeta
  vertices : List Vertex
  edges : List Edge
  entryPoint : String
  checksum : String := ""
  deriving DecidableEq, Repr

namespace CanonicalGraph

variable (g : CanonicalGraph)

def ids : List String := g.vertices.map (·.id)

def getVertex (id : String) : Option Vertex := g.vertices.find? fun v ↦ v.id = id

def getOutgoingEdges (vertexID : String) : List Edge := g.edges.filter (·.fromID = vertexID)

/-- The loop over the vertices: each has an id, and no two have the same. -/
def collectIDs : List String → List Vertex → Except String (List String)
  | vertexIDs, [] => .ok vertexIDs
  | vertexIDs, v :: rest =>
    if v.id = "" then .error "vertex id is required"
    else if v.id ∈ vertexIDs then .error ("duplicate vertex id: " ++ v.id)
    else collectIDs (v.id :: vertexIDs) rest

def checkEdges (vertexIDs : List String) : List Edge → Except String Unit
  | [] => .ok ()
  | e :: rest =>
    if e.fromID ∉ vertexIDs then .error ("edge from vertex '" ++ e.fromID ++ "' does not exist")
    else if e.toID ∉ vertexIDs then .error ("edge to vertex '" ++ e.toID ++ "' does not exist")
    else checkEdges vertexIDs rest

def validate : Except String Unit :=
  if g.schemaVersion = "" then .error "schema_version is required"
  else if g.behaviorTree.id = "" then .error "behavior_tree.id is required"
  else if g.entryPoint = "" then .error "entry_point is required"
  else match collectIDs [] g.vertices with
    | .error err => .error err
    | .ok vertexIDs =>
      if g.entryPoint ∉ vertexIDs then
        .error ("entry_point '" ++ g.entryPoint ++ "' does not exist in vertices")
      else checkEdges vertexIDs g.edges

/-- The vertices that the edges of a vertex lead to, in the order of the edges. -/
def successors (vertexID : String) : List String := (g.getOutgoingEdges vertexID).map (·.toID)

/-- The search is as deep as there are vertices and ends of edges, at most. -/
def hasCycle : Bool :=
  CycleSearch.findsCycle g.successors (g.vertices.length + g.edges.length) g.ids

end CanonicalGraph

variable {g : CanonicalGraph}

/-! ## What the checks mean -/

/-- A graph without a dangling edge, whose vertices can be told apart. -/
structure CanonicalGraph.Valid (g : CanonicalGraph) : Prop where
  schemaVersion : g.schemaVersion ≠ ""
  id : g.behaviorTree.id ≠ ""
  named : "" ∉ g.ids
  distinct : g.ids.Nodup
  entryPoint : g.entryPoint ∈ g.ids
  edges : ∀ e ∈ g.edges, e.fromID ∈ g.ids ∧ e.toID ∈ g.ids

/-- There is an edge from the one vertex to the other. -/
def CanonicalGraph.Linked (g : CanonicalGraph) (source target : String) : Prop :=
  ∃ e ∈ g.edges, e.fromID = source ∧ e.toID = target

theorem collectIDs_eq_ok_iff {vertexIDs result : List String} {vertices : List Vertex} :
    CanonicalGraph.collectIDs vertexIDs vertices = .ok result ↔
      (∀ v ∈ vertices, v.id ≠ "" ∧ v.id ∉ vertexIDs) ∧ (vertices.map (·.id)).Nodup ∧
        result = (vertices.map (·.id)).reverse ++ vertexIDs := by
  induction vertices generalizing vertexIDs with
  | nil =>
    rw [CanonicalGraph.collectIDs]
    exact ⟨fun h ↦ ⟨by simp, List.nodup_nil, (Except.ok.inj h).symm⟩, fun h ↦ by rw [h.2.2]; rfl⟩
  | cons v rest ih =>
    rw [CanonicalGraph.collectIDs]
    split
    · rename_i hempty
      exact iff_of_false (by simp) fun h ↦ (h.1 v List.mem_cons_self).1 hempty
    · rename_i hname
      split
      · rename_i hseen
        exact iff_of_false (by simp) fun h ↦ (h.1 v List.mem_cons_self).2 hseen
      · rename_i hnew
        rw [ih]
        rw [List.forall_mem_cons, List.map_cons, List.nodup_cons, List.reverse_cons,
          List.append_assoc, List.singleton_append]
        constructor
        · rintro ⟨hrest, hnodup, hresult⟩
          refine ⟨⟨⟨hname, hnew⟩, fun w hw ↦ ⟨(hrest w hw).1, fun hseen ↦ ?_⟩⟩,
            ⟨fun hmem ↦ ?_, hnodup⟩, hresult⟩
          · exact (hrest w hw).2 (List.mem_cons_of_mem _ hseen)
          · obtain ⟨w, hw, hsame⟩ := List.mem_map.mp hmem
            exact (hrest w hw).2 (hsame ▸ List.mem_cons_self)
        · rintro ⟨⟨-, hrest⟩, ⟨hother, hnodup⟩, hresult⟩
          refine ⟨fun w hw ↦ ⟨(hrest w hw).1, fun hmem ↦ ?_⟩, hnodup, hresult⟩
          rcases List.mem_cons.mp hmem with hsame | hseen
          · exact hother (hsame ▸ List.mem_map_of_mem hw)
          · exact (hrest w hw).2 hseen

theorem checkEdges_eq_ok_iff {vertexIDs : List String} {edges : List Edge} :
    CanonicalGraph.checkEdges vertexIDs edges = .ok () ↔
      ∀ e ∈ edges, e.fromID ∈ vertexIDs ∧ e.toID ∈ vertexIDs := by
  induction edges with
  | nil => simp [CanonicalGraph.checkEdges]
  | cons e rest ih =>
    rw [CanonicalGraph.checkEdges]
    split
    · rename_i hfrom
      exact iff_of_false (by simp) fun h ↦ hfrom (h e List.mem_cons_self).1
    · rename_i hfrom
      split
      · rename_i hto
        exact iff_of_false (by simp) fun h ↦ hto (h e List.mem_cons_self).2
      · rename_i hto
        rw [ih, List.forall_mem_cons]
        exact ⟨fun h ↦ ⟨⟨not_not.mp hfrom, not_not.mp hto⟩, h⟩, fun h ↦ h.2⟩

/-- **What a graph that validates is.** -/
theorem validate_iff : g.validate = .ok () ↔ g.Valid := by
  have hids : ∀ vertexIDs, CanonicalGraph.collectIDs [] g.vertices = .ok vertexIDs →
      "" ∉ g.ids ∧ g.ids.Nodup ∧ ∀ id, id ∈ vertexIDs ↔ id ∈ g.ids := by
    intro vertexIDs hcollect
    obtain ⟨hname, hnodup, rfl⟩ := collectIDs_eq_ok_iff.mp hcollect
    refine ⟨fun hmem ↦ ?_, hnodup, fun id ↦ by simp [CanonicalGraph.ids]⟩
    obtain ⟨v, hv, hempty⟩ := List.mem_map.mp hmem
    exact (hname v hv).1 hempty
  rw [CanonicalGraph.validate]
  split
  · exact iff_of_false (by simp) fun h ↦ h.schemaVersion ‹_›
  split
  · exact iff_of_false (by simp) fun h ↦ h.id ‹_›
  split
  · rename_i hentry
    exact iff_of_false (by simp) fun h ↦ h.named (hentry ▸ h.entryPoint)
  rename_i hversion hid hentry
  split
  · rename_i err herror
    refine iff_of_false (by simp) fun h ↦ ?_
    have hok : CanonicalGraph.collectIDs [] g.vertices = .ok (g.ids.reverse ++ []) :=
      collectIDs_eq_ok_iff.mpr ⟨fun v hv ↦ ⟨fun hempty ↦ h.named (List.mem_map.mpr ⟨v, hv, hempty⟩),
        List.not_mem_nil⟩, h.distinct, rfl⟩
    exact absurd (herror.symm.trans hok) (by simp)
  · rename_i vertexIDs hcollect
    obtain ⟨hnamed, hnodup, hmem⟩ := hids vertexIDs hcollect
    split
    · rename_i hout
      exact iff_of_false (by simp) fun h ↦ hout ((hmem _).mpr h.entryPoint)
    · rename_i hin
      rw [checkEdges_eq_ok_iff]
      simp only [hmem]
      exact ⟨fun h ↦ ⟨hversion, hid, hnamed, hnodup, (hmem _).mp (not_not.mp hin), h⟩,
        fun h ↦ h.edges⟩

theorem arrow_successors (source target : String) :
    CycleSearch.Arrow g.successors source target ↔ g.Linked source target := by
  simp [CycleSearch.Arrow, CanonicalGraph.successors, CanonicalGraph.getOutgoingEdges,
    CanonicalGraph.Linked, and_assoc]

/-- The vertices of a graph and the ends of its edges. -/
def CanonicalGraph.nodes (g : CanonicalGraph) : Finset String :=
  (g.ids ++ g.edges.map (·.toID)).toFinset

theorem successors_mem_nodes : ∀ x ∈ g.nodes, ∀ y ∈ g.successors x, y ∈ g.nodes := by
  intro x _ y hy
  obtain ⟨e, he, -, rfl⟩ := (arrow_successors x y).mp hy
  exact List.mem_toFinset.mpr (List.mem_append_right _ (List.mem_map_of_mem he))

theorem ids_mem_nodes : ∀ id ∈ g.ids, id ∈ g.nodes := fun _ hid ↦
  List.mem_toFinset.mpr (List.mem_append_left _ hid)

theorem card_nodes_le (g : CanonicalGraph) : g.nodes.card ≤ g.vertices.length + g.edges.length := by
  have hcard := List.toFinset_card_le (g.ids ++ g.edges.map (·.toID))
  rw [List.length_append, CanonicalGraph.ids, List.length_map, List.length_map] at hcard
  rw [CanonicalGraph.nodes, CanonicalGraph.ids]
  omega

/-- Edges that follow one another, from the one vertex to the other. -/
def CanonicalGraph.IsWalk (g : CanonicalGraph) (source : String) : List Edge → String → Prop
  | [], target => source = target
  | e :: rest, target => e ∈ g.edges ∧ e.fromID = source ∧ g.IsWalk e.toID rest target

theorem exists_isWalk_iff {source target : String} :
    (∃ edges, g.IsWalk source edges target) ↔ Relation.ReflTransGen g.Linked source target := by
  constructor
  · rintro ⟨edges, hwalk⟩
    induction edges generalizing source with
    | nil => exact hwalk ▸ .refl
    | cons e rest ih =>
      obtain ⟨he, hfrom, hrest⟩ := hwalk
      exact .head ⟨e, he, hfrom, rfl⟩ (ih hrest)
  · intro hreach
    induction hreach using Relation.ReflTransGen.head_induction_on with
    | refl => exact ⟨[], rfl⟩
    | head hlink _ ih =>
      obtain ⟨e, he, hfrom, rfl⟩ := hlink
      obtain ⟨rest, hrest⟩ := ih
      exact ⟨e :: rest, he, hfrom, hrest⟩

theorem exists_isWalk_ne_nil_iff {source target : String} :
    (∃ edges, g.IsWalk source edges target ∧ edges ≠ []) ↔
      Relation.TransGen g.Linked source target := by
  rw [Relation.TransGen.head'_iff]
  constructor
  · rintro ⟨edges, hwalk, hne⟩
    cases edges with
    | nil => exact absurd rfl hne
    | cons e rest =>
      obtain ⟨he, hfrom, hrest⟩ := hwalk
      exact ⟨e.toID, ⟨e, he, hfrom, rfl⟩, exists_isWalk_iff.mp ⟨rest, hrest⟩⟩
  · rintro ⟨next, ⟨e, he, hfrom, rfl⟩, hreach⟩
    obtain ⟨rest, hrest⟩ := exists_isWalk_iff.mpr hreach
    exact ⟨e :: rest, ⟨he, hfrom, hrest⟩, by simp⟩

/-- A graph has a cycle when its edges lead from some vertex of it to a place that they lead back
to, be that a vertex of the graph or not. -/
theorem hasCycle_iff_reaches (g : CanonicalGraph) :
    g.hasCycle = true ↔ ∃ v ∈ g.vertices, ∃ id, Relation.ReflTransGen g.Linked v.id id ∧
      Relation.TransGen g.Linked id id := by
  have hlinked : CycleSearch.Arrow g.successors = g.Linked := by
    funext source target
    exact propext (arrow_successors source target)
  rw [CanonicalGraph.hasCycle, CycleSearch.findsCycle_iff successors_mem_nodes ids_mem_nodes
    (card_nodes_le g), hlinked]
  simp only [CanonicalGraph.ids, List.mem_map, exists_exists_and_eq_and]

/-- **A graph that validates has a cycle when its edges lead from some vertex back to it.** -/
theorem hasCycle_iff (hvalid : g.Valid) :
    g.hasCycle = true ↔ ∃ id, Relation.TransGen g.Linked id id := by
  rw [hasCycle_iff_reaches]
  constructor
  · rintro ⟨-, -, id, -, hcycle⟩
    exact ⟨id, hcycle⟩
  · rintro ⟨id, hcycle⟩
    obtain ⟨next, ⟨e, he, rfl, -⟩, -⟩ := Relation.TransGen.head'_iff.mp hcycle
    obtain ⟨v, hv, hid⟩ := List.mem_map.mp (hvalid.edges e he).1
    exact ⟨v, hv, e.fromID, hid ▸ .refl, hcycle⟩

/-- **The search ends, and a graph has a cycle exactly when a walk from one of its vertices comes to
the start of a closed walk.**  The graph may have edges that lead nowhere, edges of a vertex to
itself, and several edges between two vertices. -/
theorem hasCycle_iff_walk (g : CanonicalGraph) :
    CycleSearch.searchFrom (CycleSearch.dfs g.successors (g.vertices.length + g.edges.length))
        g.ids {} ≠ .outOfFuel ∧
      (g.hasCycle = true ↔ ∃ v ∈ g.vertices, ∃ path id cycle,
        g.IsWalk v.id path id ∧ g.IsWalk id cycle id ∧ cycle ≠ []) := by
  refine ⟨CycleSearch.searchFrom_ne_outOfFuel successors_mem_nodes ids_mem_nodes (card_nodes_le g),
    ?_⟩
  rw [hasCycle_iff_reaches]
  refine exists_congr fun v ↦ and_congr_right fun _ ↦ ⟨?_, ?_⟩
  · rintro ⟨id, hreach, hcycle⟩
    obtain ⟨path, hpath⟩ := exists_isWalk_iff.mpr hreach
    obtain ⟨cycle, hclosed, hne⟩ := exists_isWalk_ne_nil_iff.mpr hcycle
    exact ⟨path, id, cycle, hpath, hclosed, hne⟩
  · rintro ⟨path, id, cycle, hpath, hclosed, hne⟩
    exact ⟨id, exists_isWalk_iff.mp ⟨path, hpath⟩,
      exists_isWalk_ne_nil_iff.mp ⟨cycle, hclosed, hne⟩⟩

/-- A graph with a single vertex `dock`. -/
def singleVertexGraph (edges : List Edge) : CanonicalGraph where
  behaviorTree := ⟨"tree", "Tree", 1, "", "", "", 0, 0⟩
  vertices := [{ id := "dock", type := .step }]
  edges
  entryPoint := "dock"

/-- A closed walk away from the vertices of the graph. -/
example : (singleVertexGraph [⟨"dock", "gone", .onSuccess, none⟩,
    ⟨"gone", "gone", .onSuccess, none⟩]).hasCycle = true := by decide +kernel

/-- Two edges to the same place are no closed walk. -/
example : (singleVertexGraph [⟨"dock", "gone", .onSuccess, none⟩,
    ⟨"dock", "gone", .onFailure, none⟩]).hasCycle = false := by decide +kernel

end Schema
end FleetServer
