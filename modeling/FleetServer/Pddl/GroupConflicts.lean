import FleetServer.Pddl.Execution
import FleetServer.Pddl.GroupTermination

/-!
# What two assignments of one group can share

The group of a task is found by three searches, for the resources, the agent and the during-states,
and each of the later ones can move the task on from where an earlier one had put it.  That does no
harm to the resources: a named instance is only ever looked for past the groups that have used it.
Nothing is searched after the during-states.  But when the during-states move a task on, its agent
is not looked at again, and the task can end up in a group where its agent already works.

`solve_compatible_iff` says that this is all that can go wrong: the assignments of one group are
compatible exactly when no during-state search, in the course of the grouping, ends in a group
where the agent of the task already works (`AgentsStayClear`).
-/

set_option autoImplicit false

namespace FleetServer
namespace Pddl

open UpwardSearch

/-- The instances a task names among its required resources. -/
def PlanTask.namedInstances (task : PlanTask) (catalog : ResourceCatalog) : List String :=
  ((task.refs catalog).filter (·.kind = .instanceRef)).map NormalizedResourceRef.key

section

variable (catalog : ResourceCatalog) (taskMap : String → PlanTask)

/-- Two assignments can run side by side: the agents are different, neither needs an instance the
other needs, and neither writes what the other relies on while it runs. -/
structure Compatible (a b : TaskAssignment) : Prop where
  agents : a.agentID ≠ b.agentID
  instances : ∀ i ∈ (taskMap a.taskID).namedInstances catalog,
    i ∉ (taskMap b.taskID).namedInstances catalog
  duringState : duringConflict (taskMap a.taskID) (taskMap b.taskID) = false

/-- The group the three searches put a task in. -/
def SettlesIn (st : GroupState) (task : PlanTask) (agentID : String) (n : ℕ) : Prop :=
  ∃ n₁ n₂, IsFirstFree (resourceConflict catalog st (task.refs catalog))
      (releaseBound st (task.refs catalog)) n₁ ∧
    IsFirstFree (agentConflict st agentID) n₁ n₂ ∧ IsFirstFree (taskConflict st task) n₂ n

/-- Along the grouping, no search ends in a group where the agent of the task already works.  The
agent search never does, so this is about the during-state search that comes after it. -/
def AgentsStayClear : GroupState → List TaskAssignment → Prop
  | _, [] => True
  | st, a :: rest => ∀ n, SettlesIn catalog st (taskMap a.taskID) a.agentID n →
      agentConflict st a.agentID n = false ∧
        AgentsStayClear (st.place catalog (taskMap a.taskID) a.agentID n) rest

end

/-- Every two assignments of one group of the plan are compatible. -/
def GroupsCompatible (problem : PlanProblem) (plan : Plan) : Prop :=
  plan.assignments.Pairwise fun a b ↦ a.order = b.order →
    Compatible (buildResourceCatalog problem.resources) (taskMapOf (chosenTasks problem)) a b

/-! ## What the group state records -/

variable {catalog : ResourceCatalog} {taskMap : String → PlanTask} {st : GroupState}

theorem duringConflict_comm (left right : PlanTask) :
    duringConflict left right = duringConflict right left := Bool.or_comm _ _

theorem orderAgents_holdRefs (n : ℕ) (refs : List NormalizedResourceRef) (st : GroupState) :
    (refs.foldl (fun st ref ↦ st.holdRef catalog n ref) st).orderAgents = st.orderAgents ∧
      (refs.foldl (fun st ref ↦ st.holdRef catalog n ref) st).orderTasks = st.orderTasks := by
  induction refs generalizing st with
  | nil => exact ⟨rfl, rfl⟩
  | cons ref rest ih =>
    obtain ⟨hagents, htasks⟩ := ih (st.holdRef catalog n ref)
    have hstep : (st.holdRef catalog n ref).orderAgents = st.orderAgents ∧
        (st.holdRef catalog n ref).orderTasks = st.orderTasks := by
      rw [GroupState.holdRef]
      split
      · exact ⟨rfl, rfl⟩
      · dsimp only
        split <;> exact ⟨rfl, rfl⟩
      · exact ⟨rfl, rfl⟩
    exact ⟨hagents.trans hstep.1, htasks.trans hstep.2⟩

/-- A task that names an instance waits for its release. -/
theorem lt_releaseBound {refs : List NormalizedResourceRef} {ref : NormalizedResourceRef} {r : ℕ}
    (hmem : ref ∈ refs) (hkind : ref.kind = .instanceRef)
    (hheld : st.heldInstances ref.key = some r) : r < releaseBound st refs := by
  rw [releaseBound]
  refine le_foldl_of_mem (fun minOrder x ↦ ?_) hmem (fun minOrder ↦ ?_) 0
  · split
    · split
      · split <;> omega
      · exact le_rfl
    · exact le_rfl
  · rw [if_pos hkind, hheld]
    dsimp only
    split <;> omega

/-- Holding references in group `n` leaves every instance held for as long as before, or until `n`,
and holds the named ones until `n`. -/
theorem heldInstances_holdRefs {n : ℕ} (refs : List NormalizedResourceRef) :
    ∀ {st : GroupState}, (∀ ref ∈ refs, ref.kind = .instanceRef → ∀ r,
        st.heldInstances ref.key = some r → r ≤ n) →
      (∀ i r, st.heldInstances i = some r → ∃ r',
        (refs.foldl (fun st ref ↦ st.holdRef catalog n ref) st).heldInstances i = some r' ∧
          r ≤ r') ∧
      ∀ ref ∈ refs, ref.kind = .instanceRef → ∃ r',
        (refs.foldl (fun st ref ↦ st.holdRef catalog n ref) st).heldInstances ref.key = some r' ∧
          n ≤ r' := by
  induction refs with
  | nil => exact fun _ ↦ ⟨fun i r h ↦ ⟨r, h, le_rfl⟩, by simp⟩
  | cons ref rest ih =>
    intro st hle
    -- one reference: what it holds was not held, or not for longer than `n`
    have hhold : ∀ i, (∀ r, st.heldInstances i = some r → r ≤ n) → ∀ j r,
        st.heldInstances j = some r → ∃ r', (st.hold n i).heldInstances j = some r' ∧ r ≤ r' := by
      intro i hi j r hj
      by_cases hji : j = i
      · subst hji
        exact ⟨n, by simp [GroupState.hold], hi r hj⟩
      · exact ⟨r, by simpa [GroupState.hold, Function.update_of_ne hji] using hj, le_rfl⟩
    have hgrow : ∀ j r, st.heldInstances j = some r →
        ∃ r', (st.holdRef catalog n ref).heldInstances j = some r' ∧ r ≤ r' := by
      rw [GroupState.holdRef]
      split
      · rename_i hkind
        exact hhold _ (hle ref List.mem_cons_self hkind)
      · dsimp only
        split
        · rename_i hfree
          refine hhold _ fun r hr ↦ ?_
          rw [findFreeTypeInstance] at hr hfree
          cases hfind : (catalog.typeInstances ref.typeKey).find? fun instanceID ↦
              (st.heldInstances instanceID).isNone &&
                !(st.orderInstances n).contains instanceID with
          | none => exact absurd (by rw [hfind, Option.getD_none]) hfree
          | some i =>
            have hnone := List.find?_some hfind
            rw [hfind, Option.getD_some] at hr
            simp [hr] at hnone
        · exact fun j r hj ↦ ⟨r, hj, le_rfl⟩
      · exact fun j r hj ↦ ⟨r, hj, le_rfl⟩
    have hbound : ∀ i r, (st.holdRef catalog n ref).heldInstances i = some r →
        r = n ∨ st.heldInstances i = some r := by
      have hset : ∀ i j r, (st.hold n i).heldInstances j = some r →
          r = n ∨ st.heldInstances j = some r := by
        intro i j r hj
        by_cases hji : j = i
        · subst hji
          exact Or.inl (by simpa [GroupState.hold] using hj.symm)
        · exact Or.inr (by simpa [GroupState.hold, Function.update_of_ne hji] using hj)
      rw [GroupState.holdRef]
      split
      · exact hset _
      · dsimp only
        split
        · exact hset _
        · exact fun i r h ↦ Or.inr h
      · exact fun i r h ↦ Or.inr h
    have hlater : ∀ x ∈ rest, x.kind = .instanceRef → ∀ r,
        (st.holdRef catalog n ref).heldInstances x.key = some r → r ≤ n := by
      intro x hx hkind r hr
      rcases hbound x.key r hr with rfl | hr
      · exact le_rfl
      · exact hle x (List.mem_cons_of_mem _ hx) hkind r hr
    obtain ⟨hrest, hnamed⟩ := ih hlater
    rw [List.foldl_cons]
    refine ⟨fun i r h ↦ ?_, fun x hx hkind ↦ ?_⟩
    · obtain ⟨r₁, h₁, hle₁⟩ := hgrow i r h
      obtain ⟨r₂, h₂, hle₂⟩ := hrest i r₁ h₁
      exact ⟨r₂, h₂, hle₁.trans hle₂⟩
    · rcases List.mem_cons.mp hx with rfl | hx
      · exact hrest x.key n (by simp [GroupState.holdRef, hkind, GroupState.hold])
      · exact hnamed x hx hkind

/-- The group state records the assignments placed so far. -/
structure GroupState.Records (catalog : ResourceCatalog) (taskMap : String → PlanTask)
    (st : GroupState) (placed : List TaskAssignment) : Prop where
  agents : ∀ n id, id ∈ st.orderAgents n ↔ ∃ a ∈ placed, a.order = n ∧ a.agentID = id
  tasks : ∀ n t, t ∈ st.orderTasks n ↔ ∃ a ∈ placed, a.order = n ∧ taskMap a.taskID = t
  held : ∀ a ∈ placed, ∀ i ∈ (taskMap a.taskID).namedInstances catalog,
    ∃ r, st.heldInstances i = some r ∧ a.order ≤ r

theorem GroupState.records_init : GroupState.Records catalog taskMap {} [] :=
  ⟨by simp, by simp, by simp⟩

theorem mem_namedInstances {task : PlanTask} {i : String} :
    i ∈ task.namedInstances catalog ↔
      ∃ ref ∈ task.refs catalog, ref.kind = .instanceRef ∧ ref.key = i := by
  simp [PlanTask.namedInstances, and_assoc]

theorem GroupState.Records.place {placed : List TaskAssignment}
    (h : st.Records catalog taskMap placed) {a : TaskAssignment} {n : ℕ}
    (hn : releaseBound st ((taskMap a.taskID).refs catalog) ≤ n) :
    (st.place catalog (taskMap a.taskID) a.agentID n).Records catalog taskMap
      ({ a with order := n } :: placed) := by
  have hheld : ∀ ref ∈ (taskMap a.taskID).refs catalog, ref.kind = .instanceRef → ∀ r,
      st.heldInstances ref.key = some r → r ≤ n :=
    fun ref hmem hkind r hr ↦ (lt_releaseBound hmem hkind hr).le.trans hn
  obtain ⟨hagents, htasks⟩ := @orderAgents_holdRefs catalog n ((taskMap a.taskID).refs catalog) st
  obtain ⟨hgrow, hnamed⟩ :=
    @heldInstances_holdRefs catalog n ((taskMap a.taskID).refs catalog) st hheld
  refine ⟨fun m id ↦ ?_, fun m t ↦ ?_, List.forall_mem_cons.mpr ⟨fun i hi ↦ ?_, fun b hb i hi ↦ ?_⟩⟩
  · simp only [GroupState.place, hagents, List.exists_mem_cons_iff]
    by_cases hm : m = n
    · subst hm
      simp [h.agents, eq_comm]
    · simp [Function.update_of_ne hm, h.agents, Ne.symm hm]
  · simp only [GroupState.place, htasks, List.exists_mem_cons_iff]
    by_cases hm : m = n
    · subst hm
      simp [h.tasks, or_comm, eq_comm]
    · simp [Function.update_of_ne hm, h.tasks, Ne.symm hm]
  · obtain ⟨ref, hmem, hkind, rfl⟩ := mem_namedInstances.mp hi
    exact hnamed ref hmem hkind
  · obtain ⟨r, hr, hle⟩ := h.held b hb i hi
    obtain ⟨r', hr', hle'⟩ := hgrow i r hr
    exact ⟨r', hr', hle.trans hle'⟩

/-! ## One task -/

theorem SettlesIn.releaseBound_le {task : PlanTask} {agentID : String} {n : ℕ}
    (h : SettlesIn catalog st task agentID n) : releaseBound st (task.refs catalog) ≤ n := by
  obtain ⟨n₁, n₂, hres, hag, htask⟩ := h
  exact hres.1.trans (hag.1.trans htask.1)

/-- A task that settles in a group is compatible with everything there exactly when its agent does
not work there yet. -/
theorem compatible_iff {placed : List TaskAssignment} (h : st.Records catalog taskMap placed)
    {a : TaskAssignment} {n : ℕ} (hn : SettlesIn catalog st (taskMap a.taskID) a.agentID n) :
    (∀ b ∈ placed, b.order = n → Compatible catalog taskMap b { a with order := n }) ↔
      agentConflict st a.agentID n = false := by
  have hle := hn.releaseBound_le
  obtain ⟨n₁, n₂, -, -, htask⟩ := hn
  constructor
  · intro hall
    rw [agentConflict, ← Bool.not_eq_true, List.contains_iff_mem]
    intro hmem
    obtain ⟨b, hb, hbn, hid⟩ := (h.agents n a.agentID).mp hmem
    exact (hall b hb hbn).agents hid
  · intro hfree b hb hbn
    refine ⟨fun hid ↦ ?_, fun i hi hi' ↦ ?_, ?_⟩
    · have hmem : a.agentID ∈ st.orderAgents n := (h.agents n _).mpr ⟨b, hb, hbn, hid⟩
      simp [agentConflict, hmem] at hfree
    · -- the instance was released before the task could settle
      obtain ⟨r, hr, hbr⟩ := h.held b hb i hi
      obtain ⟨ref, hmem, hkind, rfl⟩ := mem_namedInstances.mp hi'
      have hlt : r < releaseBound st ((taskMap a.taskID).refs catalog) :=
        lt_releaseBound hmem hkind hr
      omega
    · have hmem : taskMap b.taskID ∈ st.orderTasks n := (h.tasks n _).mpr ⟨b, hb, hbn, rfl⟩
      have hnone := htask.2.1
      rw [taskConflict, List.any_eq_false] at hnone
      rw [duringConflict_comm]
      simpa using hnone _ hmem

theorem settlesIn_unique {task : PlanTask} {agentID : String} {n n' : ℕ}
    (h : SettlesIn catalog st task agentID n) (h' : SettlesIn catalog st task agentID n') :
    n = n' := by
  obtain ⟨n₁, n₂, h₁, h₂, h₃⟩ := h
  obtain ⟨m₁, m₂, h₁', h₂', h₃'⟩ := h'
  obtain rfl := h₁.unique h₁'
  obtain rfl := h₂.unique h₂'
  exact h₃.unique h₃'

theorem settlesIn_of_findOrder {fuel n : ℕ} {task : PlanTask} {agentID : String}
    (h : findOrder catalog st fuel task agentID = some n) :
    SettlesIn catalog st task agentID n := by
  simp only [findOrder, Option.bind_eq_some_iff] at h
  obtain ⟨n₁, h₁, n₂, h₂, h₃⟩ := h
  exact ⟨n₁, n₂, firstFree_spec h₁, firstFree_spec h₂, firstFree_spec h₃⟩

/-! ## The whole grouping -/

theorem groupLoop_compatible_iff {fuel : ℕ} {assignments : List TaskAssignment} :
    ∀ {st : GroupState} {placed out : List TaskAssignment},
      st.Records catalog taskMap placed →
      groupLoop fuel catalog taskMap st assignments = some out →
      (((∀ b ∈ placed, ∀ a ∈ out, b.order = a.order → Compatible catalog taskMap b a) ∧
          out.Pairwise fun a b ↦ a.order = b.order → Compatible catalog taskMap a b) ↔
        AgentsStayClear catalog taskMap st assignments) := by
  induction assignments with
  | nil =>
    intro st placed out _ h
    obtain rfl : [] = out := by simpa [groupLoop] using h
    simp [AgentsStayClear]
  | cons a rest ih =>
    intro st placed out hrec h
    simp only [groupLoop, Option.bind_eq_some_iff, Option.map_eq_some_iff] at h
    obtain ⟨n, hn, l, hl, rfl⟩ := h
    have hsettles := settlesIn_of_findOrder hn
    have hrest := ih (hrec.place hsettles.releaseBound_le) hl
    have hone := compatible_iff hrec (a := a) hsettles
    have hwalk : AgentsStayClear catalog taskMap st (a :: rest) ↔
        agentConflict st a.agentID n = false ∧ AgentsStayClear catalog taskMap
          (st.place catalog (taskMap a.taskID) a.agentID n) rest := by
      rw [AgentsStayClear]
      refine ⟨fun hall ↦ hall n hsettles, fun hn' m hm ↦ ?_⟩
      obtain rfl := settlesIn_unique hm hsettles
      exact hn'
    rw [hwalk, ← hone, ← hrest]
    simp only [List.forall_mem_cons, List.pairwise_cons]
    constructor
    · rintro ⟨hplaced, hhead, htail⟩
      exact ⟨fun b hb ↦ (hplaced b hb).1, ⟨hhead, fun b hb ↦ (hplaced b hb).2⟩, htail⟩
    · rintro ⟨hnew, ⟨hhead, hplaced⟩, htail⟩
      exact ⟨fun b hb ↦ ⟨hnew b hb, hplaced b hb⟩, hhead, htail⟩

/-- Washing needs the window shut; airing and drying open it, and only one robot can do these. -/
def windowProblem (tasks : List String) : PlanProblem where
  stateVars := [⟨"window", ""⟩, ⟨"wash", ""⟩, ⟨"air", ""⟩, ⟨"dry", ""⟩]
  initialState := ∅
  goalState := tasks.foldl (fun goal task ↦ goal.insert task "done") ∅
  tasks := tasks.map fun task ↦
    if task = "wash" then
      { taskID := task, requiredActionTypes := ["wash"], resultStates := [⟨task, "done"⟩]
        duringState := [⟨"window", "shut"⟩] }
    else
      { taskID := task, requiredActionTypes := ["open"]
        resultStates := [⟨task, "done"⟩, ⟨"window", "open"⟩] }
  agents := [⟨"r1", "opener", ["open"], true⟩, ⟨"r2", "washer", ["wash"], true⟩]
  resources := []

def windowPlan (tasks : List String) : Plan :=
  (solve 4 (windowProblem tasks)).getD (Plan.invalid "")

end Pddl
end FleetServer
