import FleetServer.Lib.Search
import FleetServer.Pddl.Resources

/-!
# Grouping the assignments of a plan

`computeParallelGroups` walks the chosen tasks in order and gives each one the number of the group
it will run in.  The number is found by three searches run one after the other, each of which
starts where the previous one stopped and goes up until nothing is in its way: first the resources
already used in the group, then the agent, then the during-states of the tasks already there.

Each search is `UpwardSearch.firstFree`, so the function takes a bound on the number of tries and
returns nothing when a search runs out of it.
-/

set_option autoImplicit false

namespace FleetServer
namespace Pddl

open UpwardSearch

def duringConflictOneWay (left right : PlanTask) : Bool :=
  left.duringState.any fun dur ↦ right.resultStates.any fun eff ↦
    dur.var = eff.var && dur.value ≠ eff.value

def duringConflict (left right : PlanTask) : Bool :=
  duringConflictOneWay left right || duringConflictOneWay right left

/-- The four maps `computeParallelGroups` keeps.  `orderTasks` holds the tasks of a group rather
than their indices. -/
structure GroupState where
  heldInstances : String → Option ℕ := fun _ ↦ none
  orderInstances : ℕ → List String := fun _ ↦ []
  orderAgents : ℕ → List String := fun _ ↦ []
  orderTasks : ℕ → List PlanTask := fun _ ↦ []

/-- The first instance of a type that is neither held nor used in the group, or `""`. -/
def findFreeTypeInstance (typeID : String) (heldInstances : String → Option ℕ)
    (currentOrder : List String) (catalog : ResourceCatalog) : String :=
  ((catalog.typeInstances typeID).find? fun instanceID ↦
    (heldInstances instanceID).isNone && !currentOrder.contains instanceID).getD ""

section

variable (catalog : ResourceCatalog) (st : GroupState)

/-- The order after which every instance the task names has been released. -/
def releaseBound (refs : List NormalizedResourceRef) : ℕ :=
  refs.foldl (fun minOrder ref ↦
    if ref.kind = .instanceRef then
      match st.heldInstances ref.key with
      | some releaseOrder => if minOrder < releaseOrder + 1 then releaseOrder + 1 else minOrder
      | none => minOrder
    else minOrder) 0

def resourceConflict (refs : List NormalizedResourceRef) (minOrder : ℕ) : Bool :=
  refs.any fun ref ↦
    (ref.kind == .instanceRef && (st.orderInstances minOrder).contains ref.key) ||
    (ref.kind == .typeRef && findFreeTypeInstance ref.typeKey st.heldInstances
      (st.orderInstances minOrder) catalog == "")

def agentConflict (agentID : String) (minOrder : ℕ) : Bool :=
  (st.orderAgents minOrder).contains agentID

def taskConflict (task : PlanTask) (minOrder : ℕ) : Bool :=
  (st.orderTasks minOrder).any (duringConflict task ·)

/-- The three searches for a task's group, one after the other. -/
def findOrder (fuel : ℕ) (task : PlanTask) (agentID : String) : Option ℕ :=
  (firstFree (resourceConflict catalog st (task.refs catalog)) fuel
      (releaseBound st (task.refs catalog))).bind fun minOrder ↦
    (firstFree (agentConflict st agentID) fuel minOrder).bind fun minOrder ↦
      firstFree (taskConflict st task) fuel minOrder

/-- Recording that an instance is used in a group. -/
def GroupState.hold (minOrder : ℕ) (instanceID : String) : GroupState :=
  { st with
    heldInstances := Function.update st.heldInstances instanceID (some minOrder)
    orderInstances :=
      Function.update st.orderInstances minOrder (instanceID :: st.orderInstances minOrder) }

/-- Recording one required resource of a task that runs in group `minOrder`. -/
def GroupState.holdRef (minOrder : ℕ) (ref : NormalizedResourceRef) : GroupState :=
  match ref.kind with
  | .instanceRef => st.hold minOrder ref.key
  | .typeRef =>
    let instanceID := findFreeTypeInstance ref.typeKey st.heldInstances
      (st.orderInstances minOrder) catalog
    if instanceID ≠ "" then st.hold minOrder instanceID else st
  | .noRef => st

/-- Recording a task, its agent and its resources in group `minOrder`. -/
def GroupState.place (task : PlanTask) (agentID : String) (minOrder : ℕ) : GroupState :=
  let st := (task.refs catalog).foldl (fun st ref ↦ st.holdRef catalog minOrder ref) st
  { st with
    orderAgents := Function.update st.orderAgents minOrder (agentID :: st.orderAgents minOrder)
    orderTasks := Function.update st.orderTasks minOrder (st.orderTasks minOrder ++ [task]) }

end

/-- The loop over the assignments. -/
def groupLoop (fuel : ℕ) (catalog : ResourceCatalog) (taskMap : String → PlanTask) :
    GroupState → List TaskAssignment → Option (List TaskAssignment)
  | _, [] => some []
  | st, assignment :: rest =>
    let task := taskMap assignment.taskID
    (findOrder catalog st fuel task assignment.agentID).bind fun minOrder ↦
      (groupLoop fuel catalog taskMap (st.place catalog task assignment.agentID minOrder) rest).map
        ({ assignment with order := minOrder } :: ·)

def taskMapOf (tasks : List PlanTask) : String → PlanTask :=
  tasks.foldl (fun taskMap task ↦ Function.update taskMap task.taskID task) fun _ ↦ default

def computeParallelGroups (fuel : ℕ) (assignments : List TaskAssignment) (tasks : List PlanTask)
    (resources : List ResourceInfo) : Option (List TaskAssignment) :=
  groupLoop fuel (buildResourceCatalog resources) (taskMapOf tasks) {} assignments

/-! ## The fuel is only a resource -/

theorem findOrder_mono {catalog : ResourceCatalog} {st : GroupState} {task : PlanTask}
    {agentID : String} {fuel fuel' n : ℕ} (h : findOrder catalog st fuel task agentID = some n)
    (hle : fuel ≤ fuel') : findOrder catalog st fuel' task agentID = some n := by
  simp only [findOrder, Option.bind_eq_some_iff] at h ⊢
  obtain ⟨n₁, h₁, n₂, h₂, h₃⟩ := h
  exact ⟨n₁, firstFree_mono h₁ hle, n₂, firstFree_mono h₂ hle, firstFree_mono h₃ hle⟩

theorem groupLoop_mono {catalog : ResourceCatalog} {taskMap : String → PlanTask} {fuel fuel' : ℕ}
    (hle : fuel ≤ fuel') {assignments : List TaskAssignment} :
    ∀ {st : GroupState} {out : List TaskAssignment},
      groupLoop fuel catalog taskMap st assignments = some out →
      groupLoop fuel' catalog taskMap st assignments = some out := by
  induction assignments with
  | nil => intro st out h; exact h
  | cons a rest ih =>
    intro st out h
    simp only [groupLoop, Option.bind_eq_some_iff, Option.map_eq_some_iff] at h ⊢
    obtain ⟨n, hn, l, hl, rfl⟩ := h
    exact ⟨n, findOrder_mono hn hle, l, ih hl, rfl⟩

/-- Grouping changes nothing of an assignment but its order. -/
theorem groupLoop_map {β : Type} {catalog : ResourceCatalog} {taskMap : String → PlanTask}
    {fuel : ℕ} (f : TaskAssignment → β) (hf : ∀ a n, f { a with order := n } = f a)
    {assignments : List TaskAssignment} :
    ∀ {st : GroupState} {out : List TaskAssignment},
      groupLoop fuel catalog taskMap st assignments = some out → out.map f = assignments.map f := by
  induction assignments with
  | nil =>
    intro st out h
    obtain rfl : [] = out := by simpa [groupLoop] using h
    rfl
  | cons a rest ih =>
    intro st out h
    simp only [groupLoop, Option.bind_eq_some_iff, Option.map_eq_some_iff] at h
    obtain ⟨n, -, l, hl, rfl⟩ := h
    rw [List.map_cons, List.map_cons, ih hl, hf]

end Pddl
end FleetServer
