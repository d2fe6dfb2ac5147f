import FleetServer.Pddl.Bindings
import FleetServer.Pddl.Replay

/-!
# The instances of a plan

A grounded task lists the instances all of its tokens are bound to, but its runtime parameters name
the primary one only.  Where the tokens of a template are always bound to one instance
(`BindsOneInstance`), the parameters name every instance that is listed, and so do the assignments
of a plan (`exists_assignment_of_chosen`).
-/

set_option autoImplicit false

namespace FleetServer
namespace Pddl

open Choices Fallible GoString

/-- Whatever instances are chosen for the type tokens of a task, all its tokens are bound to one. -/
def BindsOneInstance (catalog : ResourceCatalog) (task : PlanTask) : Prop :=
  ∀ c, IsTokenChoice catalog task c → ∀ token ∈ task.requiredResources,
    ∀ other ∈ task.requiredResources,
      (boundTo catalog task c token).resource.id = (boundTo catalog task c other).resource.id

/-- **A task with one token binds one instance.** -/
theorem bindsOneInstance_of_oneToken {catalog : ResourceCatalog} {task : PlanTask}
    (h : task.requiredResources.length ≤ 1) : BindsOneInstance catalog task := by
  intro c _ token htoken other hother
  have heq : token = other := by
    match hrequired : task.requiredResources with
    | [] => exact absurd (hrequired ▸ htoken) List.not_mem_nil
    | [only] =>
      rw [hrequired, List.mem_singleton] at htoken hother
      rw [htoken, hother]
    | _ :: _ :: _ =>
      rw [hrequired, List.length_cons, List.length_cons] at h
      omega
  rw [heq]

/-! ## Grounding -/

section Grounding

variable {order : SubstitutionOrder} {catalog : ResourceCatalog} {resources : List ResourceInfo}
  {agents : List AgentInfo} {tasks grounded : List PlanTask} {task : PlanTask}

/-- The name of the instance of a task in its runtime parameters. -/
def PlanTask.shownInstance (task : PlanTask) : Option String :=
  task.runtimeParams.lookup "resource_id"

theorem mem_agentTasks {bound : List PlanTask} {result : PlanTask}
    (h : agentTasks order agents task = .ok bound) (hmem : result ∈ bound) :
    result.requiredResources = task.requiredResources ∧
      result.shownInstance = task.shownInstance := by
  rw [agentTasks] at h
  split at h
  · obtain rfl := Except.ok.inj h
    rw [List.mem_singleton.mp hmem]
    exact ⟨rfl, rfl⟩
  · split at h
    · exact absurd h (by simp)
    · dsimp only at h
      split at h
      · exact absurd h (by simp)
      · obtain rfl := Except.ok.inj h
        obtain ⟨agent, -, rfl⟩ := List.mem_map.mp hmem
        refine ⟨rfl, ?_⟩
        simp [PlanTask.shownInstance, instantiateAgentTask, AList.lookup_insert_ne]

/-- What a leaf lists and shows. -/
theorem IsBoundLeaf.shown {c : List String} {leaf : PlanTask}
    (h : IsBoundLeaf order catalog task c leaf) (hone : BindsOneInstance catalog task)
    (hc : IsTokenChoice catalog task c) {token : String} (htoken : token ∈ leaf.requiredResources) :
    ∃ id, token = "instance:" ++ id ∧ leaf.shownInstance = some id := by
  obtain ⟨bindings, hbound, rfl⟩ := h
  obtain ⟨original, horiginal, rfl⟩ := List.mem_map.mp htoken
  refine ⟨(boundTo catalog task c original).resource.id, ?_, ?_⟩
  · simp only [hbound original, if_pos horiginal]
  · cases hleast : leastToken task with
    | none =>
      rw [leastToken, List.head?_eq_none_iff] at hleast
      have hmem : original ∈ task.requiredResources.insertionSort (· ≤ ·) :=
        (List.mem_insertionSort _).mpr horiginal
      rw [hleast] at hmem
      exact absurd hmem List.not_mem_nil
    | some least =>
      have hmem : least ∈ task.requiredResources :=
        (List.mem_insertionSort (· ≤ ·)).mp (List.mem_of_mem_head? hleast)
      rw [hone c hc original horiginal least hmem]
      simp only [PlanTask.shownInstance, bindResources, primaryFor, hleast, Option.map_some,
        buildRuntimeParams]
      split <;> split <;> simp [AList.lookup_insert_ne]

/-- **A grounded task shows every instance it lists**, where templates bind one instance. -/
theorem shown_of_mem_groundTasks (h : groundTasks order tasks resources agents = .ok grounded)
    (hone : ∀ template ∈ tasks, BindsOneInstance (buildResourceCatalog resources) template)
    (hmem : task ∈ grounded) {token : String} (htoken : token ∈ task.requiredResources) :
    ∃ id, token = "instance:" ++ id ∧ task.shownInstance = some id := by
  obtain ⟨template, htemplate, group, hgroup, hin⟩ := exists_of_mem_mapM_flatten h hmem
  obtain ⟨leaves, hleaves, hagents⟩ :=
    groundTask_bound (filed_buildResourceCatalog resources) hgroup
  obtain ⟨leaf, hleaf, bound, hbound, hin⟩ := exists_of_mem_mapM_flatten hagents hin
  obtain ⟨hrequired, hshown⟩ := mem_agentTasks hbound hin
  obtain ⟨c, hc, hisLeaf⟩ := exists_of_mem_right hleaves hleaf
  rw [hrequired] at htoken
  rw [hshown]
  exact hisLeaf.shown (hone template htemplate) (mem_tokenChoices.mp hc) htoken

end Grounding

/-! ## Planning -/

theorem lookup_assignmentOf (task : PlanTask) (choice : AgentChoice) :
    (assignmentOf task choice).runtimeParams.lookup "resource_id" = task.shownInstance := by
  simp [assignmentOf, PlanTask.shownInstance, AList.lookup_insert_ne]

theorem exists_assignment_of_assignAgents {problem : PlanProblem} {tasks : List PlanTask} :
    ∀ {agentLoad : String → ℕ} {assignments : List TaskAssignment},
      assignAgents problem tasks agentLoad = .ok assignments → ∀ task ∈ tasks,
        ∃ choice, assignmentOf task choice ∈ assignments := by
  induction tasks with
  | nil => exact fun _ task htask ↦ absurd htask List.not_mem_nil
  | cons first rest ih =>
    intro agentLoad assignments h task htask
    simp only [assignAgents] at h
    split at h
    · exact absurd h (by simp)
    · split at h
      · rename_i assignments' hrest
        obtain rfl := Except.ok.inj h
        rcases List.mem_cons.mp htask with rfl | htask
        · exact ⟨_, List.mem_cons_self⟩
        · obtain ⟨choice, hchoice⟩ := ih hrest task htask
          exact ⟨choice, List.mem_cons_of_mem _ hchoice⟩
      · exact absurd h (by simp)

/-- **An assignment of the plan shows what the chosen task shows.** -/
theorem exists_assignment_of_chosen {fuel : ℕ} {problem : PlanProblem} {plan : Plan}
    (h : solve fuel problem = some plan) (hvalid : plan.isValid = true)
    (hassignments : plan.assignments ≠ []) {task : PlanTask} (htask : task ∈ chosenTasks problem) :
    task ∈ problem.tasks ∧ ∃ assignment ∈ plan.assignments,
      assignment.runtimeParams.lookup "resource_id" = task.shownInstance := by
  obtain ⟨-, -, ⟨-, rfl⟩ | ⟨-, orderedTasks, assignments, out, hchosen, hassigned, hout, rfl⟩⟩ :=
    solve_valid_cases h hvalid
  · exact absurd rfl hassignments
  · rw [chosenTasks, hchosen] at htask
    refine ⟨(chooseTasks_spec hchosen).1 task htask, ?_⟩
    obtain ⟨choice, hchoice⟩ := exists_assignment_of_assignAgents hassigned task htask
    have hparams : out.map TaskAssignment.runtimeParams =
        assignments.map TaskAssignment.runtimeParams := groupLoop_map _ (fun _ _ ↦ rfl) hout
    obtain ⟨assignment, hassignment, heq⟩ : ∃ assignment ∈ out,
        assignment.runtimeParams = (assignmentOf task choice).runtimeParams :=
      List.mem_map.mp (hparams ▸ List.mem_map_of_mem hchoice)
    exact ⟨assignment, hassignment, by rw [heq, lookup_assignmentOf]⟩

end Pddl
end FleetServer
