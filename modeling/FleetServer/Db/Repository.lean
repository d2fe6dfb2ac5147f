import FleetServer.Db.Models
import FleetServer.Lib.Table

/-!
# The behavior-tree store

The behavior-tree half of `internal/db/repository.go`.  A tree is one `ActionGraph` node, found by
its id, and beside it the nodes its steps were expanded into, each marked with the id of the tree
(`graph_id`).  The queries set and match exactly what they say; a property that is absent reads as
the zero value, so a row has every property.

Four functions matter.  `getBehaviorTree` fills a `BehaviorTree` from a whole row.
`getBehaviorTreesWithExpiredLocks` fills the id, the name and the lock of one and nothing else.
`updateBehaviorTree` writes a whole row and the structure of its steps, whatever the tree it is
given was filled from.  `createBehaviorTree` makes the row and the structure of a new tree.

Relationships between the nodes are left out, and so are the deadlines of a condition.
-/

set_option autoImplicit false

namespace FleetServer
namespace Db

open GoString

/-! ## The stored data -/

/-- The properties of an `ActionGraph` node. -/
structure ActionGraph where
  id : String
  name : String := ""
  description : String := ""
  agentID : String := ""
  entryPoint : String := ""
  version : ℤ := 0
  isTemplate : Bool := false
  templateCategory : String := ""
  stepsJSON : String := ""
  preconditionsJSON : String := ""
  requiredActionTypes : List String := []
  executionMode : String := "agent"
  checksum : String := ""
  schemaVersion : String := "1.0.0"
  statesJSON : String := ""
  planningStatesJSON : String := ""
  planningTaskJSON : String := ""
  taskDistributorID : String := ""
  createdAtMs : ℤ := 0
  updatedAtMs : ℤ := 0
  lockedBy : String := ""
  lockedAtMs : ℤ := 0
  lockExpiresAtMs : ℤ := 0
  lockSessionID : String := ""
  deriving DecidableEq, Repr

/-- The nodes the steps of a tree are expanded into. -/
inductive StructureNode
  | terminal (graphID id : String) (graphVersion : ℤ) (terminalType message : String)
      (alert : Bool)
  | step (graphID id : String) (graphVersion : ℤ)
      (name stepType actionType actionServer actionJSON waitJSON conditionJSON : String)
      (preStates duringStates successStates failureStates : List String)
  | condition (graphID id : String) (graphVersion : ℤ)
      (operator quantifier targetType agentID stateOperator state : String)
      (allowedStates : List String) (requireOnline : Bool) (message : String)
  deriving DecidableEq, Repr

/-- The property `graph_id` of a node. -/
def StructureNode.graphID : StructureNode → String
  | .terminal graphID .. => graphID
  | .step graphID .. => graphID
  | .condition graphID .. => graphID

structure Database where
  graphs : Table String ActionGraph ActionGraph.id
  nodes : List StructureNode

/-! ## Reading -/

def isTemplateFromProps (props : ActionGraph) : Bool :=
  props.isTemplate || trimSpace props.agentID == ""

/-- A timestamp column read back: not set unless it is positive. -/
def toNullTime (ms : ℤ) : Option Time := if ms > 0 then some (ofUnixMilli ms) else none

/-- The tree `GetBehaviorTree` fills from a row. -/
def treeOfRow (props : ActionGraph) : BehaviorTree where
  id := props.id
  name := props.name
  description := toNullString props.description
  agentID := toNullString props.agentID
  entryPoint := toNullString props.entryPoint
  preconditions := props.preconditionsJSON
  steps := props.stepsJSON
  version := props.version
  isTemplate := isTemplateFromProps props
  templateCategory := toNullString props.templateCategory
  createdAt := ofUnixMilli props.createdAtMs
  updatedAt := ofUnixMilli props.updatedAtMs
  requiredActionTypes := props.requiredActionTypes
  states := props.statesJSON
  planningStates := props.planningStatesJSON
  planningTask := props.planningTaskJSON
  taskDistributorID := toNullString props.taskDistributorID
  lockedBy := toNullString props.lockedBy
  lockedAt := toNullTime props.lockedAtMs
  lockExpiresAt := toNullTime props.lockExpiresAtMs
  lockSessionID := toNullString props.lockSessionID

def getBehaviorTree (db : Database) (id : String) : Option BehaviorTree :=
  (db.graphs.find? id).map treeOfRow

/-- Graphs without agent ownership count as templates. -/
def getTemplate (db : Database) (id : String) : Option BehaviorTree :=
  match getBehaviorTree db id with
  | none => none
  | some graph => if !graph.isTemplate ∧ graph.agentID.isSome then none else some graph

/-- The tree `GetBehaviorTreesWithExpiredLocks` fills from a row. -/
def expiredTreeOfRow (props : ActionGraph) : BehaviorTree where
  id := props.id
  name := props.name
  lockedBy := toNullString props.lockedBy
  lockedAt := toNullTime props.lockedAtMs
  lockExpiresAt := toNullTime props.lockExpiresAtMs
  lockSessionID := toNullString props.lockSessionID

/-- The `WHERE` clause of the query for expired locks. -/
def lockExpiredAt (nowMs : ℤ) (props : ActionGraph) : Bool :=
  props.lockExpiresAtMs > 0 ∧ props.lockExpiresAtMs < nowMs

def getBehaviorTreesWithExpiredLocks (now : Time) (db : Database) : List BehaviorTree :=
  (db.graphs.rows.filter (lockExpiredAt (unixMilli now))).map expiredTreeOfRow

/-! ## Writing -/

def parseBehaviorTreeSteps (codec : Codec) (graph : BehaviorTree) :
    Except String (List BehaviorTreeStep) :=
  if graph.steps = "" then .ok []
  else (codec.unmarshalSteps graph.steps).mapError fun err ↦ "failed to parse steps: " ++ err

def checksumForJSON (codec : Codec) (data : String) : String :=
  if data = "" then "" else "sha256:" ++ codec.sha256 data

/-- The `SET` clause of `UpdateBehaviorTree`: every property but the id and the creation time. -/
def setRow (codec : Codec) (now : Time) (graph : BehaviorTree) (steps : List BehaviorTreeStep)
    (g : ActionGraph) : ActionGraph :=
  { g with
    name := graph.name
    description := nullString graph.description
    agentID := nullString graph.agentID
    entryPoint := resolveEntryPoint (nullString graph.entryPoint) steps
    version := graph.version
    isTemplate := graph.isTemplate
    templateCategory := nullString graph.templateCategory
    stepsJSON := graph.steps
    preconditionsJSON := graph.preconditions
    requiredActionTypes := extractActionTypesFromSteps steps
    executionMode := executionModeFromSteps steps
    checksum := checksumForJSON codec graph.steps
    schemaVersion := "1.0.0"
    statesJSON := graph.states
    planningStatesJSON := graph.planningStates
    planningTaskJSON := graph.planningTask
    taskDistributorID := nullString graph.taskDistributorID
    updatedAtMs := unixMilli now
    lockedBy := nullString graph.lockedBy
    lockedAtMs := (graph.lockedAt.map unixMilli).getD 0
    lockExpiresAtMs := (graph.lockExpiresAt.map unixMilli).getD 0
    lockSessionID := nullString graph.lockSessionID }

theorem id_setRow (codec : Codec) (now : Time) (graph : BehaviorTree)
    (steps : List BehaviorTreeStep) (g : ActionGraph) :
    (setRow codec now graph steps g).id = g.id := rfl

/-- `jsonString` of a pointer: a nil pointer in an interface is not nil, and marshals to `null`. -/
def jsonString (marshalled : Option String) : String := marshalled.getD "null"

def isTerminal (step : BehaviorTreeStep) : Bool := step.type = "terminal" ∨ step.terminalType ≠ ""

def stepNode (codec : Codec) (graph : BehaviorTree) (step : BehaviorTreeStep) : StructureNode :=
  if isTerminal step then
    .terminal graph.id step.id graph.version step.terminalType step.message step.alert
  else
    let stepType :=
      if step.action.isSome then "action" else if step.waitFor.isSome then "wait" else step.type
    .step graph.id step.id graph.version step.name stepType
      ((step.action.map (·.type)).getD "") ((step.action.map (·.server)).getD "")
      (jsonString (step.action.map codec.marshalAction))
      (jsonString (step.waitFor.map codec.marshalWait)) ""
      step.preStates step.duringStates step.successStates step.failureStates

def conditionNode (graph : BehaviorTree) (step : BehaviorTreeStep) (idx : ℕ)
    (cond : StartCondition) : StructureNode :=
  let condID :=
    if cond.id = "" then graph.id ++ ":" ++ step.id ++ ":" ++ toString (idx + 1) else cond.id
  let operator := if toLower cond.operator = "" then "and" else toLower cond.operator
  .condition graph.id condID graph.version operator cond.quantifier cond.targetType cond.agentID
    cond.stateOperator cond.state cond.allowedStates cond.requireOnline cond.message

/-- How many `Step` nodes of the tree have this id: the statement that creates a condition runs once
for each. -/
def stepMatches (graphID stepID : String) (nodes : List StructureNode) : ℕ :=
  nodes.countP fun
    | .step gid sid .. => gid = graphID ∧ sid = stepID
    | _ => false

/-- One round of the loop over the steps. -/
def storeStep (codec : Codec) (graph : BehaviorTree) (nodes : List StructureNode)
    (step : BehaviorTreeStep) : List StructureNode :=
  let stored := nodes ++ [stepNode codec graph step]
  if isTerminal step then stored
  else
    stored ++ step.startConditions.zipIdx.flatMap fun cond ↦
      List.replicate (stepMatches graph.id step.id stored) (conditionNode graph step cond.2 cond.1)

/-- The nodes of the tree are deleted and made anew; when there is no such tree none are made. -/
def storeBehaviorTreeStructure (codec : Codec) (graph : BehaviorTree)
    (steps : List BehaviorTreeStep) (db : Database) : List StructureNode :=
  let rest := db.nodes.filter fun n ↦ n.graphID ≠ graph.id
  if (db.graphs.find? graph.id).isSome then steps.foldl (storeStep codec graph) rest else rest

def updateBehaviorTree (codec : Codec) (now : Time) (graph : BehaviorTree) (db : Database) :
    Except String Database :=
  match parseBehaviorTreeSteps codec graph with
  | .error err => .error err
  | .ok steps => .ok {
      graphs := db.graphs.modify graph.id (setRow codec now graph steps)
        (id_setRow codec now graph steps)
      nodes := storeBehaviorTreeStructure codec graph steps db }

def timeToMillis (t : Time) : ℤ := if t = zeroTime then 0 else unixMilli t

/-- The properties that `CreateBehaviorTree` gives the new node. -/
def newRow (codec : Codec) (graph : BehaviorTree) (steps : List BehaviorTreeStep) :
    ActionGraph where
  id := graph.id
  name := graph.name
  description := nullString graph.description
  agentID := nullString graph.agentID
  entryPoint := resolveEntryPoint (nullString graph.entryPoint) steps
  version := graph.version
  isTemplate := graph.isTemplate
  templateCategory := nullString graph.templateCategory
  stepsJSON := graph.steps
  preconditionsJSON := graph.preconditions
  requiredActionTypes := extractActionTypesFromSteps steps
  executionMode := executionModeFromSteps steps
  checksum := checksumForJSON codec graph.steps
  statesJSON := graph.states
  planningStatesJSON := graph.planningStates
  planningTaskJSON := graph.planningTask
  taskDistributorID := nullString graph.taskDistributorID
  createdAtMs := timeToMillis graph.createdAt
  updatedAtMs := timeToMillis graph.updatedAt

/-- The callers have looked that no tree has the id. -/
def createBehaviorTree (codec : Codec) (graph : BehaviorTree) (db : Database) :
    Except String Database :=
  match parseBehaviorTreeSteps codec graph with
  | .error err => .error err
  | .ok steps =>
    let graphs := db.graphs.put (newRow codec graph steps)
    .ok { graphs, nodes := storeBehaviorTreeStructure codec graph steps { db with graphs } }

/-! ## What a write does -/

variable {codec : Codec} {now : Time} {graph : BehaviorTree} {db db' : Database}

theorem updateBehaviorTree_eq_ok (h : updateBehaviorTree codec now graph db = .ok db') :
    ∃ steps, parseBehaviorTreeSteps codec graph = .ok steps ∧
      db'.graphs = db.graphs.modify graph.id (setRow codec now graph steps)
        (id_setRow codec now graph steps) ∧
      db'.nodes = storeBehaviorTreeStructure codec graph steps db := by
  rw [updateBehaviorTree] at h
  split at h
  · exact absurd h (by simp)
  · rename_i steps hsteps
    obtain rfl := Except.ok.inj h
    exact ⟨steps, hsteps, rfl, rfl⟩

/-- **A tree that was created is found under its id.** -/
theorem find?_createBehaviorTree (h : createBehaviorTree codec graph db = .ok db') :
    ∃ steps, parseBehaviorTreeSteps codec graph = .ok steps ∧
      db'.graphs.find? graph.id = some (newRow codec graph steps) := by
  rw [createBehaviorTree] at h
  split at h
  · exact absurd h (by simp)
  · rename_i steps hsteps
    obtain rfl := Except.ok.inj h
    exact ⟨steps, hsteps, Table.find?_eq_some_iff.mpr ⟨Table.mem_rows_put.mpr (.inl rfl), rfl⟩⟩

/-- **A write replaces the row of the tree.** -/
theorem find?_updateBehaviorTree (h : updateBehaviorTree codec now graph db = .ok db') :
    ∃ steps, parseBehaviorTreeSteps codec graph = .ok steps ∧
      db'.graphs.find? graph.id =
        (db.graphs.find? graph.id).map (setRow codec now graph steps) := by
  obtain ⟨steps, hsteps, hg, -⟩ := updateBehaviorTree_eq_ok h
  refine ⟨steps, hsteps, ?_⟩
  rw [hg, Table.find?_modify]

/-- **A write leaves every other row alone.** -/
theorem find?_updateBehaviorTree_of_ne {id : String} (hne : id ≠ graph.id)
    (h : updateBehaviorTree codec now graph db = .ok db') :
    db'.graphs.find? id = db.graphs.find? id := by
  obtain ⟨steps, -, hg, -⟩ := updateBehaviorTree_eq_ok h
  rw [hg, Table.find?_modify_of_ne hne]

@[simp] theorem graphID_stepNode (step : BehaviorTreeStep) :
    (stepNode codec graph step).graphID = graph.id := by
  rw [stepNode]
  split <;> rfl

/-- The nodes made for a step belong to the tree written. -/
theorem storeStep_eq_append (codec : Codec) (graph : BehaviorTree) (nodes : List StructureNode)
    (step : BehaviorTreeStep) :
    ∃ made, storeStep codec graph nodes step = nodes ++ made ∧
      ∀ n ∈ made, n.graphID = graph.id := by
  rw [storeStep]
  split
  · refine ⟨[stepNode codec graph step], rfl, fun n hn ↦ ?_⟩
    rw [List.mem_singleton.mp hn, graphID_stepNode]
  · refine ⟨_, List.append_assoc .., fun n hn ↦ ?_⟩
    rcases List.mem_append.mp hn with hn | hn
    · rw [List.mem_singleton.mp hn, graphID_stepNode]
    · obtain ⟨cond, -, hn⟩ := List.mem_flatMap.mp hn
      rw [List.eq_of_mem_replicate hn]
      rfl

theorem foldl_storeStep_eq_append (codec : Codec) (graph : BehaviorTree)
    (nodes : List StructureNode) (steps : List BehaviorTreeStep) :
    ∃ made, steps.foldl (storeStep codec graph) nodes = nodes ++ made ∧
      ∀ n ∈ made, n.graphID = graph.id := by
  induction steps generalizing nodes with
  | nil => exact ⟨[], by simp, by simp⟩
  | cons step steps ih =>
    obtain ⟨first, hfirst, hfid⟩ := storeStep_eq_append codec graph nodes step
    obtain ⟨later, hlater, hlid⟩ := ih (storeStep codec graph nodes step)
    refine ⟨first ++ later, ?_, fun n hn ↦ (List.mem_append.mp hn).elim (hfid n) (hlid n)⟩
    rw [List.foldl_cons, hlater, hfirst, List.append_assoc]

/-- **A write leaves the nodes of every other tree alone.** -/
theorem nodes_updateBehaviorTree_of_ne {id : String} (hne : id ≠ graph.id)
    (h : updateBehaviorTree codec now graph db = .ok db') :
    db'.nodes.filter (·.graphID = id) = db.nodes.filter (·.graphID = id) := by
  obtain ⟨steps, -, -, hn⟩ := updateBehaviorTree_eq_ok h
  have hrest : (db.nodes.filter fun n ↦ n.graphID ≠ graph.id).filter (·.graphID = id) =
      db.nodes.filter (·.graphID = id) := by
    rw [List.filter_filter]
    refine List.filter_congr fun n _ ↦ ?_
    by_cases hid : n.graphID = id
    · simp [hid, hne]
    · simp [hid]
  rw [hn, storeBehaviorTreeStructure]
  split
  · obtain ⟨made, hmade, hid⟩ := foldl_storeStep_eq_append codec graph
      (db.nodes.filter fun n ↦ n.graphID ≠ graph.id) steps
    have hnone : made.filter (·.graphID = id) = [] := by
      rw [List.filter_eq_nil_iff]
      intro n hn
      simpa [hid n hn] using hne.symm
    rw [hmade, List.filter_append, hrest, hnone, List.append_nil]
  · exact hrest

/-! ## Reading a row and writing it back -/

/-- The properties that a write computes are as it would compute them, and no timestamp of the lock
is negative. -/
structure Settled (codec : Codec) (steps : List BehaviorTreeStep) (g : ActionGraph) : Prop where
  entryPoint : resolveEntryPoint g.entryPoint steps = g.entryPoint
  isTemplate : isTemplateFromProps g = g.isTemplate
  requiredActionTypes : g.requiredActionTypes = extractActionTypesFromSteps steps
  executionMode : g.executionMode = executionModeFromSteps steps
  checksum : g.checksum = checksumForJSON codec g.stepsJSON
  schemaVersion : g.schemaVersion = "1.0.0"
  lockedAtMs : 0 ≤ g.lockedAtMs
  lockExpiresAtMs : 0 ≤ g.lockExpiresAtMs

/-- A row is settled once it has been written, when trees without an agent are marked as templates
and the lock dates from after the epoch. -/
theorem settled_setRow {steps : List BehaviorTreeStep} {g : ActionGraph}
    (htemplate : trimSpace (nullString graph.agentID) = "" → graph.isTemplate = true)
    (hlocked : ∀ t ∈ graph.lockedAt, 0 ≤ unixMilli t)
    (hexpires : ∀ t ∈ graph.lockExpiresAt, 0 ≤ unixMilli t) :
    Settled codec steps (setRow codec now graph steps g) where
  entryPoint := resolveEntryPoint_resolveEntryPoint _ steps
  isTemplate := by
    rw [isTemplateFromProps, setRow]
    by_cases h : trimSpace (nullString graph.agentID) = ""
    · simp [htemplate h]
    · simp [h]
  requiredActionTypes := rfl
  executionMode := rfl
  checksum := rfl
  schemaVersion := rfl
  lockedAtMs := by
    show 0 ≤ (graph.lockedAt.map unixMilli).getD 0
    cases h : graph.lockedAt with
    | none => exact Int.le_refl 0
    | some t => exact hlocked t h
  lockExpiresAtMs := by
    show 0 ≤ (graph.lockExpiresAt.map unixMilli).getD 0
    cases h : graph.lockExpiresAt with
    | none => exact Int.le_refl 0
    | some t => exact hexpires t h

theorem unixMilli_toNullTime {ms : ℤ} (h : 0 ≤ ms) :
    ((toNullTime ms).map unixMilli).getD 0 = ms := by
  rw [toNullTime]
  split
  · simp
  · show 0 = ms
    omega

/-- **A settled row that is read whole and written back is as it was**, but for the time of the
write. -/
theorem setRow_treeOfRow {steps : List BehaviorTreeStep} {g : ActionGraph}
    (h : Settled codec steps g) :
    setRow codec now (treeOfRow g) steps g = { g with updatedAtMs := unixMilli now } := by
  rw [setRow, treeOfRow]
  simp only [nullString_toNullString, unixMilli_toNullTime h.lockedAtMs,
    unixMilli_toNullTime h.lockExpiresAtMs, h.entryPoint, h.isTemplate, ← h.requiredActionTypes,
    ← h.executionMode, ← h.checksum, ← h.schemaVersion]

end Db
end FleetServer
