import FleetServer.Lib.Fallible
import FleetServer.Lib.JsonArray

/-!
# Renaming behavior trees

`RenameBehaviorTreeIdentity` of `internal/db/repository.go` gives a behavior tree another id and
rewrites whatever names it: the steps of the tree, the agents that have it or run it, the tasks, and
the planning problems.  A planning problem keeps the list of its trees as JSON text, in which the id
is replaced, and searched for, without reading the text.

`renames_spec` is that every reference goes along with its tree through any number of renamings,
for ids that JSON writes as they are and that are not a comma.  `listPlanningProblems_iff` is that a
search for a tree finds the problems that name it.
-/

set_option autoImplicit false

namespace FleetServer
namespace Db

open GoString

/-! ## The rows -/

/-- An `ActionGraph`. -/
structure TreeRow where
  id : String
  name : String := ""
  updatedAtMs : ℤ := 0
  deriving DecidableEq, Repr

/-- An `AgentActionGraph`: the tree as an agent has it. -/
structure AssignmentRow where
  behaviorTreeID : String
  deployedVersion : ℤ := 0
  deploymentStatus : String := ""
  deploymentError : String := ""
  updatedAtMs : ℤ := 0
  deriving DecidableEq, Repr

/-- A `PlanningProblem`, with the text of its list of trees. -/
structure ProblemRow where
  behaviorTreeID : String
  behaviorTreeIDs : String := ""
  deriving DecidableEq, Repr

/-- Whatever names a tree. -/
structure TreeRows where
  trees : List TreeRow := []
  /-- The `graph_id` of the steps and states. -/
  members : List String := []
  assignments : List AssignmentRow := []
  /-- The `behavior_tree_id` of the tasks. -/
  tasks : List String := []
  /-- The `current_graph_id` of the agents. -/
  agents : List String := []
  problems : List ProblemRow := []
  deriving DecidableEq, Repr

/-- The id between quotes, as it is looked for in the text of a list. -/
def marker (id : String) : String := "\"" ++ id ++ "\""

/-- `MATCH (… {…: $old_id}) SET … = $new_id` -/
def replaceID (oldID newID id : String) : String := if id = oldID then newID else id

def renameTree (oldID newID : String) (nowMs : ℤ) (row : TreeRow) : TreeRow :=
  if row.id = oldID then { row with id := newID, updatedAtMs := nowMs } else row

def renameAssignment (oldID newID : String) (nowMs : ℤ) (row : AssignmentRow) : AssignmentRow :=
  if row.behaviorTreeID = oldID then
    { behaviorTreeID := newID, deployedVersion := 0, deploymentStatus := "outdated"
      deploymentError := "behavior tree id changed", updatedAtMs := nowMs }
  else row

def renameProblem (oldID newID : String) (row : ProblemRow) : ProblemRow where
  behaviorTreeID := replaceID oldID newID row.behaviorTreeID
  behaviorTreeIDs :=
    if contains row.behaviorTreeIDs (marker oldID) then
      replaceAll row.behaviorTreeIDs (marker oldID) (marker newID)
    else row.behaviorTreeIDs

def setName (id name : String) (nowMs : ℤ) (row : TreeRow) : TreeRow :=
  if row.id = id then { row with name := name, updatedAtMs := nowMs } else row

/-- The id and all references to it. -/
def renameID (oldID newID : String) (nowMs : ℤ) (rows : TreeRows) : TreeRows where
  trees := rows.trees.map (renameTree oldID newID nowMs)
  members := rows.members.map (replaceID oldID newID)
  assignments := rows.assignments.map (renameAssignment oldID newID nowMs)
  tasks := rows.tasks.map (replaceID oldID newID)
  agents := rows.agents.map (replaceID oldID newID)
  problems := rows.problems.map (renameProblem oldID newID)

/-- `RenameBehaviorTreeIdentity`. -/
def renameBehaviorTreeIdentity (oldID newID newName : String) (nowMs : ℤ) (rows : TreeRows) :
    Except String TreeRows :=
  let oldID := trimSpace oldID
  let newID := trimSpace newID
  let newName := trimSpace newName
  if oldID = "" then .error "old behavior tree id is empty"
  else
    let newID := if newID = "" then oldID else newID
    if newID = oldID ∧ newName = "" then .ok rows
    else if ∀ row ∈ rows.trees, row.id ≠ oldID then
      .error ("behavior tree not found: " ++ oldID)
    else if newID ≠ oldID ∧ ∃ row ∈ rows.trees, row.id = newID then
      .error ("behavior tree id already exists: " ++ newID)
    else
      let rows := if newID ≠ oldID then renameID oldID newID nowMs rows else rows
      .ok (if newName ≠ "" then
          { rows with trees := rows.trees.map (setName newID newName nowMs) }
        else rows)

/-- `ListPlanningProblems`, for a tree. -/
def listPlanningProblems (behaviorTreeID : String) (rows : TreeRows) : List ProblemRow :=
  rows.problems.filter fun row ↦
    row.behaviorTreeID = behaviorTreeID || contains row.behaviorTreeIDs (marker behaviorTreeID)

/-- A request to rename a tree. -/
structure RenameRequest where
  oldID : String
  newID : String
  newName : String := ""
  nowMs : ℤ
  deriving DecidableEq, Repr

def RenameRequest.answer (request : RenameRequest) (rows : TreeRows) : Except String TreeRows :=
  renameBehaviorTreeIdentity request.oldID request.newID request.newName request.nowMs rows

/-- A request that fails changes nothing. -/
def renameOne (rows : TreeRows) (request : RenameRequest) : TreeRows :=
  match request.answer rows with
  | .ok rows' => rows'
  | .error _ => rows

def renames (rows : TreeRows) (requests : List RenameRequest) : TreeRows :=
  requests.foldl renameOne rows

/-! ## Lists of trees as text -/

section Lists

variable {oldID newID : String} {row : ProblemRow} {ids : List String}

/-- The text is that of the list. -/
def Listed (row : ProblemRow) (ids : List String) : Prop :=
  (∀ id ∈ ids, '"' ∉ id.toList) ∧ row.behaviorTreeIDs = String.ofList (JsonText.array ids)

/-- JSON writes the id as it is, and it is not what stands between the ids of a list. -/
def PlainID (id : String) : Prop := JsonText.Plain id ∧ id ≠ ","

instance (id : String) : Decidable (PlainID id) := inferInstanceAs (Decidable (_ ∧ _))

theorem toList_marker (hid : PlainID oldID) : (marker oldID).toList = JsonText.string oldID := by
  rw [hid.1.string_eq, marker, String.toList_append, String.toList_append]
  rfl

theorem contains_marker_iff (hid : PlainID oldID) (hlist : Listed row ids) :
    contains row.behaviorTreeIDs (marker oldID) = true ↔ oldID ∈ ids := by
  rw [contains_iff, toList_marker hid, hlist.2, String.toList_ofList]
  exact JsonText.infix_array_iff hid.1 hid.2 hlist.1

theorem quote_notMem_replaceID (hnew : PlainID newID) (hids : ∀ id ∈ ids, '"' ∉ id.toList) :
    ∀ id ∈ ids.map (replaceID oldID newID), '"' ∉ id.toList := by
  intro id hid
  obtain ⟨before, hbefore, rfl⟩ := List.mem_map.mp hid
  rw [replaceID]
  split_ifs
  · exact hnew.1.quote_notMem
  · exact hids before hbefore

/-- The list of the renamed problem is the renamed list. -/
theorem listed_renameProblem (hold : PlainID oldID) (hnew : PlainID newID)
    (hlist : Listed row ids) :
    Listed (renameProblem oldID newID row) (ids.map (replaceID oldID newID)) := by
  refine ⟨quote_notMem_replaceID hnew hlist.1, ?_⟩
  rw [renameProblem]
  dsimp only
  by_cases hmem : oldID ∈ ids
  · rw [if_pos ((contains_marker_iff hold hlist).mpr hmem), replaceAll, toList_marker hold,
      toList_marker hnew, hlist.2, String.toList_ofList,
      JsonText.replaceChars_array hold.1 hold.2 hlist.1]
    rfl
  · have hkept : ids.map (replaceID oldID newID) = ids := by
      refine (List.map_congr_left fun id hid ↦ ?_).trans (List.map_id ids)
      exact if_neg fun heq : id = oldID ↦ hmem (heq ▸ hid)
    rw [if_neg fun h ↦ hmem ((contains_marker_iff hold hlist).mp h), hkept, hlist.2]

end Lists

/-! ## References -/

section References

variable {ren ren' : String → String} {rows rows' rows'' : TreeRows}

/-- An agent does not have the tree as it has it under its new id. -/
def AssignmentRow.Outdated (row : AssignmentRow) : Prop :=
  row.deployedVersion = 0 ∧ row.deploymentStatus = "outdated"

/-- Ids and references have been renamed alike. -/
structure Carried (ren : String → String) (rows rows' : TreeRows) : Prop where
  trees : rows'.trees.map (·.id) = (rows.trees.map (·.id)).map ren
  members : rows'.members = rows.members.map ren
  assignments : List.Forall₂ (fun row row' : AssignmentRow ↦
    row'.behaviorTreeID = ren row.behaviorTreeID ∧ (row' = row ∨ row'.Outdated))
    rows.assignments rows'.assignments
  tasks : rows'.tasks = rows.tasks.map ren
  agents : rows'.agents = rows.agents.map ren
  problems : List.Forall₂ (fun row row' : ProblemRow ↦
    row'.behaviorTreeID = ren row.behaviorTreeID ∧
      ∀ ids, Listed row ids → Listed row' (ids.map ren))
    rows.problems rows'.problems

theorem carried_refl (rows : TreeRows) : Carried id rows rows where
  trees := (List.map_id _).symm
  members := (List.map_id _).symm
  assignments := List.forall₂_same.mpr fun _ _ ↦ ⟨rfl, .inl rfl⟩
  tasks := (List.map_id _).symm
  agents := (List.map_id _).symm
  problems := List.forall₂_same.mpr fun _ _ ↦ ⟨rfl, fun ids h ↦ (List.map_id ids).symm ▸ h⟩

theorem Carried.trans (h : Carried ren rows rows') (h' : Carried ren' rows' rows'') :
    Carried (ren' ∘ ren) rows rows'' where
  trees := by rw [h'.trees, h.trees, List.map_map]
  members := by rw [h'.members, h.members, List.map_map]
  assignments := by
    refine (Fallible.forall₂_comp h.assignments h'.assignments).imp ?_
    rintro row row'' ⟨row', ⟨hid, hrow⟩, hid', hrow'⟩
    refine ⟨by rw [hid', hid]; rfl, ?_⟩
    rcases hrow' with rfl | houtdated
    · exact hrow
    · exact .inr houtdated
  tasks := by rw [h'.tasks, h.tasks, List.map_map]
  agents := by rw [h'.agents, h.agents, List.map_map]
  problems := by
    refine (Fallible.forall₂_comp h.problems h'.problems).imp ?_
    rintro row row'' ⟨row', ⟨hid, hlist⟩, hid', hlist'⟩
    refine ⟨by rw [hid', hid]; rfl, fun ids h ↦ ?_⟩
    rw [← List.map_map]
    exact hlist' _ (hlist ids h)

variable {oldID newID : String}

theorem id_renameTree (nowMs : ℤ) (row : TreeRow) :
    (renameTree oldID newID nowMs row).id = replaceID oldID newID row.id := by
  rw [renameTree, replaceID]
  split_ifs
  · rfl
  · rfl

theorem id_setName (id name : String) (nowMs : ℤ) (row : TreeRow) :
    (setName id name nowMs row).id = row.id := by
  rw [setName]
  split_ifs
  · rfl
  · rfl

theorem carried_renameID (hold : PlainID oldID) (hnew : PlainID newID) (nowMs : ℤ)
    (rows : TreeRows) :
    Carried (replaceID oldID newID) rows (renameID oldID newID nowMs rows) where
  trees := by
    rw [renameID, List.map_map, List.map_map]
    exact List.map_congr_left fun row _ ↦ id_renameTree nowMs row
  members := rfl
  assignments := by
    rw [renameID, List.forall₂_map_right_iff, List.forall₂_same]
    intro row _
    rw [renameAssignment, replaceID]
    split_ifs with hid
    · exact ⟨rfl, .inr ⟨rfl, rfl⟩⟩
    · exact ⟨rfl, .inl rfl⟩
  tasks := rfl
  agents := rfl
  problems := by
    rw [renameID, List.forall₂_map_right_iff, List.forall₂_same]
    exact fun row _ ↦ ⟨rfl, fun ids hlist ↦ listed_renameProblem hold hnew hlist⟩

theorem carried_setName (treeID name : String) (nowMs : ℤ) (rows : TreeRows) :
    Carried id rows { rows with trees := rows.trees.map (setName treeID name nowMs) } :=
  { carried_refl rows with
    trees := by
      rw [List.map_map, List.map_id]
      exact List.map_congr_left fun row _ ↦ id_setName treeID name nowMs row }

/-- An id that no tree has can be given to any one of them. -/
theorem nodup_replaceID {ids : List String} (hids : ids.Nodup) (hfree : newID ∉ ids) :
    (ids.map (replaceID oldID newID)).Nodup := by
  refine hids.map_on fun a ha b hb heq ↦ ?_
  have hne : ∀ c ∈ ids, c ≠ newID := fun c hc h ↦ hfree (h ▸ hc)
  rw [replaceID, replaceID] at heq
  by_cases haold : a = oldID
  · by_cases hbold : b = oldID
    · exact haold.trans hbold.symm
    · rw [if_pos haold, if_neg hbold] at heq
      exact absurd heq.symm (hne b hb)
  · by_cases hbold : b = oldID
    · rw [if_neg haold, if_pos hbold] at heq
      exact absurd heq (hne a ha)
    · rwa [if_neg haold, if_neg hbold] at heq

/-- The ids that are asked for can be written and looked for as they are. -/
def RenameRequest.Plain (request : RenameRequest) : Prop :=
  PlainID (trimSpace request.oldID) ∧ PlainID (trimSpace request.newID)

instance (request : RenameRequest) : Decidable request.Plain :=
  inferInstanceAs (Decidable (_ ∧ _))

/-- The id that is asked for, or the one the tree has. -/
def RenameRequest.target (request : RenameRequest) : String :=
  if trimSpace request.newID = "" then trimSpace request.oldID else trimSpace request.newID

/-- What a request makes of an id. -/
def effect (rows : TreeRows) (request : RenameRequest) : String → String :=
  match request.answer rows with
  | .ok _ => replaceID (trimSpace request.oldID) request.target
  | .error _ => id

/-- What the requests make of an id. -/
def effects : TreeRows → List RenameRequest → String → String
  | _, [] => id
  | rows, request :: requests => effects (renameOne rows request) requests ∘ effect rows request

theorem replaceID_self : replaceID oldID oldID = id := by
  funext id
  rw [replaceID]
  split_ifs with h
  · exact h.symm
  · rfl

theorem renameOne_spec {request : RenameRequest} (hids : (rows.trees.map (·.id)).Nodup)
    (hplain : request.Plain) :
    Carried (effect rows request) rows (renameOne rows request) ∧
      ((renameOne rows request).trees.map (·.id)).Nodup := by
  have hkept : Carried id rows rows ∧ (rows.trees.map (·.id)).Nodup := ⟨carried_refl rows, hids⟩
  rw [effect, renameOne, RenameRequest.answer, renameBehaviorTreeIdentity, ← RenameRequest.target]
  dsimp only
  by_cases hblank : trimSpace request.oldID = ""
  · simpa only [if_pos hblank] using hkept
  set oldID := trimSpace request.oldID with hold
  set newID := request.target with hnew
  have hnewPlain : PlainID newID := by
    rw [hnew, RenameRequest.target]
    split_ifs
    · exact hplain.1
    · exact hplain.2
  simp only [if_neg hblank]
  by_cases hnothing : newID = oldID ∧ trimSpace request.newName = ""
  · simp only [if_pos hnothing]
    rw [hnothing.1, replaceID_self]
    exact hkept
  by_cases hmissing : ∀ row ∈ rows.trees, row.id ≠ oldID
  · simpa only [if_neg hnothing, if_pos hmissing] using hkept
  by_cases htaken : newID ≠ oldID ∧ ∃ row ∈ rows.trees, row.id = newID
  · simpa only [if_neg hnothing, if_neg hmissing, if_pos htaken] using hkept
  simp only [if_neg hnothing, if_neg hmissing, if_neg htaken]
  have hrenamed : Carried (replaceID oldID newID) rows
      (if newID ≠ oldID then renameID oldID newID request.nowMs rows else rows) ∧
        ((if newID ≠ oldID then renameID oldID newID request.nowMs rows
          else rows).trees.map (·.id)).Nodup := by
    by_cases hchanged : newID ≠ oldID
    · have hcarried := carried_renameID hplain.1 hnewPlain request.nowMs rows
      have hfree : newID ∉ rows.trees.map (·.id) := fun hmem ↦
        htaken ⟨hchanged, List.mem_map.mp hmem⟩
      rw [if_pos hchanged]
      refine ⟨hcarried, ?_⟩
      rw [hcarried.trees]
      exact nodup_replaceID hids hfree
    · rw [if_neg hchanged, not_not.mp hchanged, replaceID_self]
      exact hkept
  generalize (if newID ≠ oldID then renameID oldID newID request.nowMs rows else rows) = rows'
    at hrenamed ⊢
  by_cases hname : trimSpace request.newName ≠ ""
  · have hnamed := carried_setName newID (trimSpace request.newName) request.nowMs rows'
    rw [if_pos hname]
    exact ⟨hrenamed.1.trans hnamed, by rw [hnamed.trees, List.map_id]; exact hrenamed.2⟩
  · rw [if_neg hname]
    exact hrenamed

/-- **References go along with their trees** through any number of renamings, and no two trees are
given one id. -/
theorem renames_spec (rows : TreeRows) (requests : List RenameRequest)
    (hids : (rows.trees.map (·.id)).Nodup) (hplain : ∀ request ∈ requests, request.Plain) :
    Carried (effects rows requests) rows (renames rows requests) ∧
      ((renames rows requests).trees.map (·.id)).Nodup := by
  induction requests generalizing rows with
  | nil => exact ⟨carried_refl rows, hids⟩
  | cons request requests ih =>
    rw [List.forall_mem_cons] at hplain
    obtain ⟨hcarried, hnodup⟩ := renameOne_spec hids hplain.1
    obtain ⟨hcarried', hnodup'⟩ := ih (renameOne rows request) hnodup hplain.2
    exact ⟨hcarried.trans hcarried', hnodup'⟩

/-- A tree that an agent and a problem name, and is renamed twice. -/
def dockRows : TreeRows where
  trees := [⟨"dock", "Dock", 1⟩, ⟨"undock", "Undock", 1⟩]
  members := ["dock", "dock", "undock"]
  assignments := [⟨"dock", 3, "deployed", "", 1⟩]
  agents := ["undock", ""]
  problems := [⟨"undock", "[\"undock\",\"dock\"]"⟩]

def dockRenames : List RenameRequest :=
  [⟨"dock", " dock_a ", "", 2⟩, ⟨"dock_a", "dock-b", "Dock B", 3⟩]

theorem renames_spec_dock :
    Carried (effects dockRows dockRenames) dockRows (renames dockRows dockRenames) ∧
      ((renames dockRows dockRenames).trees.map (·.id)).Nodup :=
  renames_spec dockRows dockRenames (by decide) (by decide +kernel)

example : (renames dockRows dockRenames).problems =
    [⟨"undock", "[\"undock\",\"dock-b\"]"⟩] := by
  decide +kernel

end References

end Db
end FleetServer
