import FleetServer.Pddl.Execution

/-!
# Replaying a plan in the order of its assignments

`Solve` chooses its tasks in an order in which each finds its preconditions, and an assignment is
made for each chosen task in turn; grouping only fills in the orders.  So the list of assignments,
read one by one and without the groups, is a run that goes through (`solve_replays`), and each of
them goes to an agent that can run its task (`Carries`).
-/

set_option autoImplicit false

namespace FleetServer
namespace Pddl

/-- The assignment gives this task of the problem to an online agent that has the capabilities the
task requires, the one it is bound to if it is bound. -/
structure Carries (problem : PlanProblem) (a : TaskAssignment) (task : PlanTask) : Prop where
  mem : task ∈ problem.tasks
  taskID : a.taskID = task.taskID
  resultStates : a.resultStates = task.resultStates
  agent : ∃ agent ∈ problem.agents, agent.id = a.agentID ∧ agent.isOnline = true ∧
    ∀ capability ∈ task.requiredActionTypes, capability ∈ agent.capabilities
  bound : task.boundAgentID ≠ "" → a.agentID = task.boundAgentID

/-! ## The chosen tasks replay -/

/-- The tasks the loop chose, whatever groups they are put in, run through to the state it
stops in. -/
theorem chooseLoop_runsThrough {problem : PlanProblem} {goal : StringMap} {iterations : ℕ}
    {current final : PlanState} {used : List String} {tasks : List PlanTask}
    (h : chooseLoop problem iterations current used = .ok (final, tasks))
    (hgoal : goalSatisfied final goal = true) (items : List (PlanTask × ℕ))
    (hitems : items.map Prod.fst = tasks) : RunsThrough goal current items := by
  refine chooseLoop_induction (P := fun current _ tasks ↦ ∀ items : List (PlanTask × ℕ),
    items.map Prod.fst = tasks → RunsThrough goal current items) ?_ ?_ h items hitems
  · intro _ items hitems
    obtain rfl := List.map_eq_nil_iff.mp hitems
    exact hgoal
  · intro current used task rest hbest ih items hitems
    obtain ⟨item, items, rfl, rfl, hrestItems⟩ := List.map_eq_cons_iff.mp hitems
    exact ⟨(bestTask_spec hbest).2.2, ih items hrestItems⟩

theorem chooseLoop_mem {problem : PlanProblem} {iterations : ℕ} {current final : PlanState}
    {used : List String} {tasks : List PlanTask}
    (h : chooseLoop problem iterations current used = .ok (final, tasks)) :
    ∀ task ∈ tasks, task ∈ problem.tasks := by
  refine chooseLoop_induction (P := fun _ _ tasks ↦ ∀ task ∈ tasks, task ∈ problem.tasks)
    (fun _ ↦ by simp) ?_ h
  intro current used task rest hbest ih
  exact List.forall_mem_cons.mpr ⟨(bestTask_spec hbest).1, ih⟩

/-- What `chooseTasks` returns are tasks of the problem that run through. -/
theorem chooseTasks_spec {problem : PlanProblem} {tasks : List PlanTask}
    (h : chooseTasks problem = .ok tasks) :
    (∀ task ∈ tasks, task ∈ problem.tasks) ∧
      ∀ items : List (PlanTask × ℕ), items.map Prod.fst = tasks →
        RunsThrough problem.goalState (initialPlanState problem) items := by
  rw [chooseTasks] at h
  split at h
  · rename_i final tasks' hloop
    split at h
    · rename_i hgoal
      obtain rfl : tasks' = tasks := by simpa using h
      exact ⟨chooseLoop_mem hloop, chooseLoop_runsThrough hloop hgoal⟩
    · exact absurd h (by simp)
  · exact absurd h (by simp)

/-! ## The agents can run them -/

theorem mem_capableAgentIDs {task : PlanTask} {agents : List AgentInfo} {id : String} :
    id ∈ capableAgentIDs task agents ↔
      ∃ agent ∈ agents, agent.id = id ∧ agentCanRunTask agent task = true := by
  simp only [capableAgentIDs, List.mem_map, List.mem_filter, Bool.and_eq_true]
  constructor
  · rintro ⟨agent, ⟨hmem, -, hcan⟩, rfl⟩
    exact ⟨agent, hmem, rfl, hcan⟩
  · rintro ⟨agent, hmem, rfl, hcan⟩
    have honline : agent.isOnline = true := by
      rw [agentCanRunTask, Bool.and_eq_true] at hcan
      exact hcan.1
    exact ⟨agent, ⟨hmem, honline, hcan⟩, rfl⟩

/-- The agent that is selected, if one is, can run the task. -/
theorem selectAgent_spec {task : PlanTask} {agents : List AgentInfo} {names : String → String}
    {agentLoad : String → ℕ} (h : (selectAgent task agents names agentLoad).agentID ≠ "") :
    (∃ agent ∈ agents, agent.id = (selectAgent task agents names agentLoad).agentID ∧
        agentCanRunTask agent task = true) ∧
      (task.boundAgentID ≠ "" →
        (selectAgent task agents names agentLoad).agentID = task.boundAgentID) := by
  rw [selectAgent] at h ⊢
  split
  · rename_i hbound
    rw [if_pos hbound] at h
    split
    · rename_i hnone
      rw [hnone] at h
      exact absurd rfl h
    · rename_i agent hfind
      rw [hfind] at h
      dsimp only at h
      split
      · rename_i hcannot
        rw [if_pos hcannot] at h
        exact absurd rfl h
      · rename_i hcan
        have hid : agent.id = task.boundAgentID := by simpa using List.find?_some hfind
        exact ⟨⟨agent, List.mem_of_find?_eq_some hfind, rfl, by simpa using hcan⟩, fun _ ↦ hid⟩
  · rename_i hunbound
    rw [if_neg hunbound] at h
    split
    · rename_i hnil
      rw [hnil] at h
      exact absurd rfl h
    · rename_i best rest hsorted
      have hmem : best ∈ capableAgentIDs task agents :=
        (List.mem_insertionSort (lighter agentLoad)).mp (by rw [hsorted]; exact List.mem_cons_self)
      exact ⟨mem_capableAgentIDs.mp hmem, fun hbound ↦ absurd hbound hunbound⟩

/-- Every assignment is for one of the tasks, and goes to an agent that was selected for it. -/
theorem assignAgents_spec {problem : PlanProblem} {tasks : List PlanTask} :
    ∀ {agentLoad : String → ℕ} {assignments : List TaskAssignment},
      assignAgents problem tasks agentLoad = .ok assignments → ∀ a ∈ assignments, ∃ task ∈ tasks,
        ∃ choice : AgentChoice, a = assignmentOf task choice ∧
          (∃ agent ∈ problem.agents, agent.id = choice.agentID ∧
            agentCanRunTask agent task = true) ∧
          (task.boundAgentID ≠ "" → choice.agentID = task.boundAgentID) := by
  induction tasks with
  | nil =>
    intro agentLoad assignments h
    obtain rfl : [] = assignments := by simpa [assignAgents] using h
    simp
  | cons task rest ih =>
    intro agentLoad assignments h
    simp only [assignAgents] at h
    split at h
    · exact absurd h (by simp)
    · rename_i hchoice
      split at h
      · rename_i assignments' hrest
        obtain rfl := Except.ok.inj h
        refine List.forall_mem_cons.mpr ⟨?_, fun a ha ↦ ?_⟩
        · exact ⟨task, List.mem_cons_self, _, rfl, selectAgent_spec hchoice⟩
        · obtain ⟨t, ht, hspec⟩ := ih hrest a ha
          exact ⟨t, List.mem_cons_of_mem _ ht, hspec⟩
      · exact absurd h (by simp)

/-! ## The plan -/

/-- An assignment of the grouped plan carries the task that is found under its id. -/
theorem carries_of_mem {fuel : ℕ} {problem : PlanProblem} {orderedTasks : List PlanTask}
    {assignments out : List TaskAssignment} (hchosen : chooseTasks problem = .ok orderedTasks)
    (hassigned : assignAgents problem orderedTasks (fun _ ↦ 0) = .ok assignments)
    (hout : computeParallelGroups fuel assignments orderedTasks problem.resources = some out)
    {a : TaskAssignment} (ha : a ∈ out) : Carries problem a (taskMapOf orderedTasks a.taskID) := by
  let f : TaskAssignment → String × List PlanningEffect × String :=
    fun a ↦ (a.taskID, a.resultStates, a.agentID)
  have hmap : out.map f = assignments.map f := groupLoop_map f (fun _ _ ↦ rfl) hout
  -- grouping kept what matters here of the assignment
  obtain ⟨a₀, ha₀, heq⟩ : ∃ a₀ ∈ assignments, f a₀ = f a :=
    List.mem_map.mp (hmap ▸ List.mem_map_of_mem ha)
  obtain ⟨task, htask, choice, rfl, ⟨agent, hagent, hid, hcan⟩, hbound⟩ :=
    assignAgents_spec hassigned a₀ ha₀
  obtain ⟨htaskID, heffects, hagentID⟩ : task.taskID = a.taskID ∧ task.resultStates =
      a.resultStates ∧ choice.agentID = a.agentID := by
    simpa [f, assignmentOf] using heq
  rw [← htaskID, taskMapOf_apply (chooseTasks_nodup hchosen) htask]
  rw [agentCanRunTask, Bool.and_eq_true] at hcan
  exact
    { mem := (chooseTasks_spec hchosen).1 task htask
      taskID := htaskID.symm
      resultStates := heffects.symm
      agent := ⟨agent, hagent, hid.trans hagentID, hcan.1, by simpa using hcan.2⟩
      bound := fun h ↦ hagentID.symm.trans (hbound h) }

/-- **A valid plan of `Solve`, replayed in the order of its assignments, runs through**: each task
finds its preconditions, and the goal holds at the end.  No task occurs twice, and every assignment
goes to an agent that can run its task. -/
theorem solve_replays {fuel : ℕ} {problem : PlanProblem} {plan : Plan}
    (h : solve fuel problem = some plan) (hvalid : plan.isValid = true) :
    RunsThrough problem.goalState (initialPlanState problem) (planItems problem plan) ∧
      (plan.assignments.map TaskAssignment.taskID).Nodup ∧
      List.Forall₂ (fun a item ↦ Carries problem a item.1 ∧ a.order = item.2) plan.assignments
        (planItems problem plan) := by
  obtain ⟨-, -, ⟨hgoal, rfl⟩ |
    ⟨-, orderedTasks, assignments, out, hchosen, hassigned, hout, rfl⟩⟩ :=
    solve_valid_cases h hvalid
  · exact ⟨hgoal, List.nodup_nil, List.Forall₂.nil⟩
  · have hids := taskIDs_computeParallelGroups hassigned hout
    have hnodup := chooseTasks_nodup hchosen
    have htasks : chosenTasks problem = orderedTasks := by rw [chosenTasks, hchosen]
    refine ⟨(chooseTasks_spec hchosen).2 _ ?_, hids ▸ hnodup, ?_⟩
    · rw [planItems, htasks, List.map_map]
      exact map_taskMapOf hnodup hids
    · rw [planItems, htasks, List.forall₂_map_right_iff, List.forall₂_same]
      exact fun a ha ↦ ⟨carries_of_mem hchosen hassigned hout ha, rfl⟩

/-- The plan that opens the door and then cleans the room replays, also with two robots, where both
tasks are in one group. -/
theorem doorPlan_twoRobots_replays :
    RunsThrough (doorProblem twoRobots).goalState (initialPlanState (doorProblem twoRobots))
        (planItems (doorProblem twoRobots) (doorPlan twoRobots)) ∧
      ((doorPlan twoRobots).assignments.map TaskAssignment.taskID).Nodup ∧
      List.Forall₂ (fun a item ↦ Carries (doorProblem twoRobots) a item.1 ∧ a.order = item.2)
        (doorPlan twoRobots).assignments (planItems (doorProblem twoRobots) (doorPlan twoRobots)) :=
  @solve_replays 3 _ _ (by rfl) (by rfl)

end Pddl
end FleetServer
