import Mathlib.Algebra.GroupWithZero.Nat
import Mathlib.Data.List.Sort
import FleetServer.Pddl.Validator
import FleetServer.Pddl.Reachability
import FleetServer.Pddl.ParallelGroups

/-!
# The planner

`Solve` in its steps: it validates the problem, checks that the goal is reachable, chooses tasks
one by one until the goal holds in the planning state (`chooseTasks`), gives each chosen task an
agent (`assignAgents`) and groups the assignments.  The two loops without a bound of their own,
reachability and grouping, share the fuel of `solve`.
-/

set_option autoImplicit false

namespace FleetServer
namespace Pddl

open GoString

/-! ## Choosing the tasks -/

/-- The number of goals the task would newly satisfy. -/
def taskGoalProgress (task : PlanTask) (current : PlanState) (goal : StringMap) : ℕ :=
  task.resultStates.countP fun effect ↦
    match goal.lookup effect.var with
    | none => false
    | some goalValue => current effect.var ≠ goalValue && effect.value = goalValue

/-- The goals that do not hold yet. -/
def collectUnsatisfiedGoals (current : PlanState) (goal : StringMap) : String → Option String :=
  fun v ↦ (goal.lookup v).filter (current v ≠ ·)

def taskCanProduceUnsatisfiedGoal (task : PlanTask) (unsatisfiedGoals : String → Option String) :
    Bool :=
  task.resultStates.any fun effect ↦ unsatisfiedGoals effect.var = some effect.value

/-- The number of open preconditions, of unused tasks that produce an open goal, that the task
would satisfy. -/
def taskEnableProgress (task : PlanTask) (current : PlanState) (allTasks : List PlanTask)
    (unsatisfiedGoals : String → Option String) (used : List String) : ℕ :=
  ((allTasks.filter fun targetTask ↦ !used.contains targetTask.taskID &&
      taskCanProduceUnsatisfiedGoal targetTask unsatisfiedGoals).map fun targetTask ↦
    targetTask.preconditions.countP fun cond ↦
      !conditionMet current cond && task.resultStates.any (effectSatisfiesCondition · cond)).sum

/-- The best task so far, with its two scores. -/
structure Best where
  task : Option PlanTask := none
  directScore : ℤ := -1
  enableScore : ℤ := -1

/-- The body of the inner loop: one task is weighed against the best so far. -/
def considerTask (problem : PlanProblem) (current : PlanState) (used : List String) (best : Best)
    (task : PlanTask) : Best :=
  if used.contains task.taskID then best
  else if !preconditionsMet current task.preconditions then best
  else
    let directScore : ℤ := taskGoalProgress task current problem.goalState
    let enableScore : ℤ := taskEnableProgress task current problem.tasks
      (collectUnsatisfiedGoals current problem.goalState) used
    if directScore ≤ 0 ∧ enableScore ≤ 0 then best
    else if best.directScore < directScore ∨
        (directScore = best.directScore ∧ best.enableScore < enableScore) then
      { task := some task, directScore, enableScore }
    else best

def bestTask (problem : PlanProblem) (current : PlanState) (used : List String) :
    Option PlanTask :=
  (problem.tasks.foldl (considerTask problem current used) {}).task

/-- The outer loop, with the iterations that are left.  It yields the state it stops in and the
tasks in the order they were chosen. -/
def chooseLoop (problem : PlanProblem) :
    ℕ → PlanState → List String → Except String (PlanState × List PlanTask)
  | 0, current, _ => .ok (current, [])
  | iterations + 1, current, used =>
    if goalSatisfied current problem.goalState then .ok (current, [])
    else match bestTask problem current used with
      | none => .error "no task can advance the requested goal state"
      | some task =>
        match chooseLoop problem iterations (applyEffects current task.resultStates)
            (task.taskID :: used) with
        | .ok (final, tasks) => .ok (final, task :: tasks)
        | .error err => .error err

def chooseTasks (problem : PlanProblem) : Except String (List PlanTask) :=
  match chooseLoop problem (problem.tasks.length * 4) (initialPlanState problem) [] with
  | .ok (final, tasks) =>
    if goalSatisfied final problem.goalState then .ok tasks
    else .error "failed to reach goal state within iteration limit"
  | .error err => .error err

/-! ## Choosing the agents -/

/-- The agent picked for a task: its id, its name, and why. -/
structure AgentChoice where
  agentID : String := ""
  agentName : String := ""
  reason : String
  deriving DecidableEq, Repr

def agentNamesOf (agents : List AgentInfo) : String → String :=
  agents.foldl (fun names agent ↦ Function.update names agent.id agent.name) fun _ ↦ ""

/-- The order of the candidates: by load, then by id. -/
def lighter (agentLoad : String → ℕ) (a b : String) : Prop :=
  agentLoad a < agentLoad b ∨ (agentLoad a = agentLoad b ∧ a ≤ b)

instance (agentLoad : String → ℕ) : DecidableRel (lighter agentLoad) :=
  fun _ _ ↦ inferInstanceAs (Decidable (_ ∨ _))

def selectAgent (task : PlanTask) (agents : List AgentInfo) (agentNames : String → String)
    (agentLoad : String → ℕ) : AgentChoice :=
  if task.boundAgentID ≠ "" then
    match agents.find? (·.id = task.boundAgentID) with
    | none => { reason := "bound agent not found" }
    | some agent =>
      if !agentCanRunTask agent task then
        { reason := "bound agent is offline or missing required capabilities" }
      else
        let name := trimSpace agent.name
        { agentID := agent.id
          agentName := if name = "" then agent.id else name
          reason := "task is bound by \x7b\x7bagent.*\x7d\x7d placeholder" }
  else match (capableAgentIDs task agents).insertionSort (lighter agentLoad) with
    | [] => { reason := "no capable agent" }
    | best :: _ =>
      { agentID := best
        agentName := agentNames best
        reason :=
          if task.requiredActionTypes = [] then
            "no specific capability required, lowest load (" ++ toString (agentLoad best) ++
              " tasks)"
          else
            "satisfies " ++ toString task.requiredActionTypes.length ++
              " required capabilities, lowest load (" ++ toString (agentLoad best) ++ " tasks)" }

/-- The assignment of a task to the agent picked for it, before it has a group. -/
def assignmentOf (task : PlanTask) (choice : AgentChoice) : TaskAssignment :=
  let agentName := if trimSpace choice.agentName = "" then choice.agentID else choice.agentName
  { taskID := task.taskID
    taskName := task.taskName
    behaviorTreeID := task.behaviorTreeID
    stepID := task.taskID
    stepName := task.taskName
    agentID := choice.agentID
    agentName
    order := 0
    reason := choice.reason
    runtimeParams :=
      ((((task.runtimeParams.insert "agent" agentName).insert "agent_id" choice.agentID).insert
        "agent_name" agentName).insert "agent.id" choice.agentID).insert "agent.name" agentName
    resultStates := task.resultStates
    warningResultStates := task.warningResultStates
    errorResultStates := task.errorResultStates
    warningMessageVariable := task.warningMessageVariable
    errorMessageVariable := task.errorMessageVariable }

/-- The loop over the chosen tasks, with the load of each agent so far. -/
def assignAgents (problem : PlanProblem) :
    List PlanTask → (String → ℕ) → Except String (List TaskAssignment)
  | [], _ => .ok []
  | task :: rest, agentLoad =>
    let choice := selectAgent task problem.agents (agentNamesOf problem.agents) agentLoad
    if choice.agentID = "" then
      .error ("no capable agent available for task " ++ quote task.taskName)
    else
      match assignAgents problem rest
          (Function.update agentLoad choice.agentID (agentLoad choice.agentID + 1)) with
      | .ok assignments => .ok (assignmentOf task choice :: assignments)
      | .error err => .error err

/-! ## Solve -/

def Plan.invalid (errorMessage : String) : Plan := { isValid := false, errorMessage }

def maxOrder (assignments : List TaskAssignment) : ℕ :=
  assignments.foldl (fun maxOrder assignment ↦
    if maxOrder < assignment.order then assignment.order else maxOrder) 0

def Plan.ofAssignments (assignments : List TaskAssignment) : Plan :=
  { assignments
    isValid := true
    totalTasks := assignments.length
    totalSteps := assignments.length
    parallelGroups := maxOrder assignments + 1 }

/-- The part of `Solve` after the checks. -/
def planTasks (fuel : ℕ) (problem : PlanProblem) : Option Plan :=
  if goalSatisfied (initialPlanState problem) problem.goalState then some { isValid := true }
  else match chooseTasks problem with
    | .error err => some (Plan.invalid err)
    | .ok orderedTasks =>
      match assignAgents problem orderedTasks fun _ ↦ 0 with
      | .error err => some (Plan.invalid err)
      | .ok assignments =>
        (computeParallelGroups fuel assignments orderedTasks problem.resources).map
          Plan.ofAssignments

def solve (fuel : ℕ) (problem : PlanProblem) : Option Plan :=
  match validateProblem problem with
  | some err => some (Plan.invalid err)
  | none =>
    match checkReachability fuel problem with
    | none => none
    | some (some err) => some (Plan.invalid err)
    | some none => planTasks fuel problem

/-! ## The chosen tasks -/

theorem considerTask_cases {problem : PlanProblem} {current : PlanState} {used : List String}
    {best : Best} {task t : PlanTask}
    (h : (considerTask problem current used best task).task = some t) :
    best.task = some t ∨ (t = task ∧ t.taskID ∉ used ∧
      preconditionsMet current t.preconditions = true) := by
  simp only [considerTask] at h
  split_ifs at h with hused hpre hscore hbetter
  · exact Or.inl h
  · exact Or.inl h
  · exact Or.inl h
  · obtain rfl : task = t := by simpa using h
    exact Or.inr ⟨rfl, by simpa using hused, by simpa using hpre⟩
  · exact Or.inl h

/-- The best task is one of the problem, was not chosen yet, and can start. -/
theorem bestTask_spec {problem : PlanProblem} {current : PlanState} {used : List String}
    {task : PlanTask} (h : bestTask problem current used = some task) :
    task ∈ problem.tasks ∧ task.taskID ∉ used ∧
      preconditionsMet current task.preconditions = true := by
  have hfold : ∀ (tasks : List PlanTask) (best : Best),
      (tasks.foldl (considerTask problem current used) best).task = some task →
        best.task = some task ∨ (task ∈ tasks ∧ task.taskID ∉ used ∧
          preconditionsMet current task.preconditions = true) := by
    intro tasks
    induction tasks with
    | nil => exact fun best hbest ↦ Or.inl hbest
    | cons x rest ih =>
      intro best hbest
      rcases ih _ hbest with hx | ⟨hmem, hspec⟩
      · rcases considerTask_cases hx with hbest | ⟨rfl, hspec⟩
        · exact Or.inl hbest
        · exact Or.inr ⟨List.mem_cons_self, hspec⟩
      · exact Or.inr ⟨List.mem_cons_of_mem _ hmem, hspec⟩
  exact (hfold problem.tasks {} h).resolve_left (by simp)

/-- What holds when no task is chosen, and with a task chosen before the rest, holds of the tasks
that the loop chooses. -/
theorem chooseLoop_induction {problem : PlanProblem} {final : PlanState}
    {P : PlanState → List String → List PlanTask → Prop} (nil : ∀ used, P final used [])
    (cons : ∀ {current used task rest}, bestTask problem current used = some task →
      P (applyEffects current task.resultStates) (task.taskID :: used) rest →
        P current used (task :: rest)) {iterations : ℕ} :
    ∀ {current : PlanState} {used : List String} {tasks : List PlanTask},
      chooseLoop problem iterations current used = .ok (final, tasks) → P current used tasks := by
  induction iterations with
  | zero =>
    intro current used tasks h
    obtain ⟨rfl, rfl⟩ : current = final ∧ [] = tasks := by simpa [chooseLoop] using h
    exact nil used
  | succ iterations ih =>
    intro current used tasks h
    rw [chooseLoop] at h
    split at h
    · obtain ⟨rfl, rfl⟩ : current = final ∧ [] = tasks := by simpa using h
      exact nil used
    · split at h
      · exact absurd h (by simp)
      · rename_i task hbest
        split at h
        · rename_i final' rest hrest
          obtain ⟨rfl, rfl⟩ : final' = final ∧ task :: rest = tasks := by simpa using h
          exact cons hbest (ih hrest)
        · exact absurd h (by simp)

/-- No task is chosen twice. -/
theorem chooseLoop_ids {problem : PlanProblem} {iterations : ℕ} {current final : PlanState}
    {used : List String} {tasks : List PlanTask}
    (h : chooseLoop problem iterations current used = .ok (final, tasks)) :
    (tasks.map PlanTask.taskID).Nodup ∧ ∀ task ∈ tasks, task.taskID ∉ used := by
  refine chooseLoop_induction (P := fun _ used tasks ↦
    (tasks.map PlanTask.taskID).Nodup ∧ ∀ task ∈ tasks, task.taskID ∉ used)
    (fun _ ↦ ⟨List.nodup_nil, by simp⟩) ?_ h
  rintro current used task rest hbest ⟨hnodup, hfresh⟩
  refine ⟨?_, fun t ht ↦ ?_⟩
  · rw [List.map_cons, List.nodup_cons]
    refine ⟨fun hmem ↦ ?_, hnodup⟩
    obtain ⟨t, ht, heq⟩ := List.mem_map.mp hmem
    exact hfresh t ht (by simp [heq])
  · rcases List.mem_cons.mp ht with rfl | ht
    · exact (bestTask_spec hbest).2.1
    · exact fun hmem ↦ hfresh t ht (List.mem_cons_of_mem _ hmem)

theorem chooseTasks_nodup {problem : PlanProblem} {tasks : List PlanTask}
    (h : chooseTasks problem = .ok tasks) : (tasks.map PlanTask.taskID).Nodup := by
  rw [chooseTasks] at h
  split at h
  · rename_i final tasks' hloop
    split at h
    · obtain rfl : tasks' = tasks := by simpa using h
      exact (chooseLoop_ids hloop).1
    · exact absurd h (by simp)
  · exact absurd h (by simp)

theorem assignAgents_taskIDs {problem : PlanProblem} {tasks : List PlanTask} :
    ∀ {agentLoad : String → ℕ} {assignments : List TaskAssignment},
      assignAgents problem tasks agentLoad = .ok assignments →
      assignments.map TaskAssignment.taskID = tasks.map PlanTask.taskID := by
  induction tasks with
  | nil =>
    intro agentLoad assignments h
    obtain rfl : [] = assignments := by simpa [assignAgents] using h
    rfl
  | cons task rest ih =>
    intro agentLoad assignments h
    simp only [assignAgents] at h
    split at h
    · exact absurd h (by simp)
    · split at h
      · rename_i assignments' hrest
        obtain rfl := Except.ok.inj h
        rw [List.map_cons, List.map_cons, ih hrest]
        rfl
      · exact absurd h (by simp)

/-- A task with an id of its own is found under it. -/
theorem taskMapOf_apply {tasks : List PlanTask} (hnodup : (tasks.map PlanTask.taskID).Nodup)
    {task : PlanTask} (hmem : task ∈ tasks) : taskMapOf tasks task.taskID = task := by
  have hfold : ∀ (tasks : List PlanTask) (taskMap : String → PlanTask),
      (tasks.map PlanTask.taskID).Nodup → task ∈ tasks ∨
        (taskMap task.taskID = task ∧ task.taskID ∉ tasks.map PlanTask.taskID) →
      tasks.foldl (fun taskMap task ↦ Function.update taskMap task.taskID task) taskMap
        task.taskID = task := by
    intro tasks
    induction tasks with
    | nil => intro taskMap _ h; exact (h.resolve_left (by simp)).1
    | cons t rest ih =>
      intro taskMap hnd h
      obtain ⟨hfresh, hnd⟩ := List.nodup_cons.mp hnd
      refine ih _ hnd ?_
      rcases h with h | ⟨hmap, hnot⟩
      · rcases List.mem_cons.mp h with rfl | h
        · exact Or.inr ⟨Function.update_self .., hfresh⟩
        · exact Or.inl h
      · obtain ⟨hne, hnot⟩ : task.taskID ≠ t.taskID ∧ _ := by
          simpa only [List.map_cons, List.mem_cons, not_or] using hnot
        exact Or.inr ⟨(Function.update_of_ne hne ..).trans hmap, hnot⟩
  exact hfold tasks _ hnodup (Or.inl hmem)

/-- The tasks of the assignments are the chosen tasks. -/
theorem map_taskMapOf {tasks : List PlanTask} {assignments : List TaskAssignment}
    (hnodup : (tasks.map PlanTask.taskID).Nodup)
    (hids : assignments.map TaskAssignment.taskID = tasks.map PlanTask.taskID) :
    assignments.map (fun a ↦ taskMapOf tasks a.taskID) = tasks := by
  have hcomp : assignments.map (fun a ↦ taskMapOf tasks a.taskID) =
      (assignments.map TaskAssignment.taskID).map (taskMapOf tasks) := by
    rw [List.map_map]
    rfl
  rw [hcomp, hids, List.map_map]
  conv_rhs => rw [← List.map_id tasks]
  exact List.map_congr_left fun task hmem ↦ taskMapOf_apply hnodup hmem

/-! ## A valid plan -/

/-- **Where a valid plan comes from**: the goal holds from the start and there is nothing to do, or
tasks were chosen, given to agents and grouped. -/
theorem solve_valid_cases {fuel : ℕ} {problem : PlanProblem} {plan : Plan}
    (h : solve fuel problem = some plan) (hvalid : plan.isValid = true) :
    validateProblem problem = none ∧ checkReachability fuel problem = some none ∧
      ((goalSatisfied (initialPlanState problem) problem.goalState = true ∧
          plan = { isValid := true }) ∨
        (goalSatisfied (initialPlanState problem) problem.goalState = false ∧
          ∃ orderedTasks assignments out, chooseTasks problem = .ok orderedTasks ∧
            assignAgents problem orderedTasks (fun _ ↦ 0) = .ok assignments ∧
            computeParallelGroups fuel assignments orderedTasks problem.resources = some out ∧
            plan = Plan.ofAssignments out)) := by
  have hinvalid : ∀ err, some (Plan.invalid err) = some plan → False := fun err heq ↦ by
    obtain rfl := Option.some.inj heq
    exact absurd hvalid (by simp [Plan.invalid])
  rw [solve] at h
  split at h
  · exact (hinvalid _ h).elim
  · rename_i hproblem
    split at h
    · exact absurd h (by simp)
    · exact (hinvalid _ h).elim
    · rename_i hreach
      refine ⟨hproblem, hreach, ?_⟩
      rw [planTasks] at h
      split at h
      · rename_i hgoal
        exact Or.inl ⟨hgoal, (Option.some.inj h).symm⟩
      · rename_i hgoal
        refine Or.inr ⟨by simpa using hgoal, ?_⟩
        split at h
        · exact (hinvalid _ h).elim
        · rename_i orderedTasks hchosen
          split at h
          · exact (hinvalid _ h).elim
          · rename_i assignments hassigned
            obtain ⟨out, hout, rfl⟩ := Option.map_eq_some_iff.mp h
            exact ⟨orderedTasks, assignments, out, hchosen, hassigned, hout, rfl⟩

/-- The tasks of a grouped plan are the chosen tasks. -/
theorem taskIDs_computeParallelGroups {fuel : ℕ} {problem : PlanProblem}
    {orderedTasks : List PlanTask} {assignments out : List TaskAssignment}
    (hassigned : assignAgents problem orderedTasks (fun _ ↦ 0) = .ok assignments)
    (hout : computeParallelGroups fuel assignments orderedTasks problem.resources = some out) :
    out.map TaskAssignment.taskID = orderedTasks.map PlanTask.taskID :=
  (groupLoop_map TaskAssignment.taskID (fun _ _ ↦ rfl) hout).trans (assignAgents_taskIDs hassigned)

end Pddl
end FleetServer
