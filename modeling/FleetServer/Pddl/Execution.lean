import FleetServer.Lib.LastWriter
import FleetServer.Pddl.Planner

/-!
# Running a plan group by group

The executor runs the groups of a plan one after the other and the tasks of one group together.
`Executes` takes the tasks of a group in any order, each as one step; `RunsThrough` says of such a
run what the planner meant it to do: every task finds its preconditions when it starts, and the
goal holds at the end.

`Solve` chooses the tasks in an order in which this is so, but the groups are computed afresh, from
resources, agents and during-states only, and `lastWritersAgree_iff` says exactly which groupings
survive that: those in which every task that may be the last to write a variable before it is read
leaves a value the reader accepts.
-/

set_option autoImplicit false

namespace FleetServer
namespace Pddl

open LastWriter

/-- The tasks `Solve` chose, none if it did not come that far. -/
def chosenTasks (problem : PlanProblem) : List PlanTask :=
  match chooseTasks problem with
  | .ok tasks => tasks
  | .error _ => []

/-- The tasks of a plan with the groups they run in. -/
def planItems (problem : PlanProblem) (plan : Plan) : List (PlanTask × ℕ) :=
  plan.assignments.map fun a ↦ (taskMapOf (chosenTasks problem) a.taskID, a.order)

/-- A run of the plan: the groups `0, …, maxOrder` in turn, each in some order of its own. -/
def Executes (problem : PlanProblem) (plan : Plan) (run : List (PlanTask × ℕ)) : Prop :=
  ∃ group, RunsGroups Prod.snd (maxOrder plan.assignments + 1) (planItems problem plan) run group

/-- Every task finds its preconditions when it starts, and the goal holds at the end. -/
def RunsThrough (goal : StringMap) : PlanState → List (PlanTask × ℕ) → Prop
  | current, [] => goalSatisfied current goal = true
  | current, item :: rest =>
    preconditionsMet current item.1.preconditions = true ∧
      RunsThrough goal (applyEffects current item.1.resultStates) rest

/-- What an item of the plan writes. -/
def itemWrites (item : PlanTask × ℕ) (v : String) : Option String :=
  finalWrite item.1.resultStates v

/-- Every possible last writer of a variable leaves a value that its readers accept: the tasks that
have it in a precondition, and the goal. -/
structure LastWritersAgree (problem : PlanProblem) (plan : Plan) : Prop where
  preconditions : ∀ item ∈ planItems problem plan, ∀ cond ∈ item.1.preconditions, cond.var ≠ "" →
    Agree Prod.snd itemWrites (initialPlanState problem) (planItems problem plan) (· ≠ item)
      item.2 cond.var (accepts cond · = true)
  goal : ∀ entry ∈ problem.goalState.entries,
    Agree Prod.snd itemWrites (initialPlanState problem) (planItems problem plan) (fun _ ↦ False)
      (maxOrder plan.assignments + 1) entry.1 (· = entry.2)

/-! ## The orders of a plan -/

theorem order_lt_of_mem_planItems {problem : PlanProblem} {plan : Plan} :
    ∀ item ∈ planItems problem plan, item.2 < maxOrder plan.assignments + 1 := by
  intro item hitem
  obtain ⟨a, ha, rfl⟩ := List.mem_map.mp hitem
  refine Nat.lt_succ_of_le (UpwardSearch.le_foldl_of_mem (fun m b ↦ ?_) ha (fun m ↦ ?_) 0)
  · split <;> omega
  · split <;> omega

/-- A valid plan runs each chosen task once. -/
theorem planItems_nodup {fuel : ℕ} {problem : PlanProblem} {plan : Plan}
    (h : solve fuel problem = some plan) (hvalid : plan.isValid = true) :
    (planItems problem plan).Nodup := by
  obtain ⟨-, -, ⟨-, rfl⟩ | ⟨-, orderedTasks, assignments, out, hchosen, hassigned, hout, rfl⟩⟩ :=
    solve_valid_cases h hvalid
  · exact List.nodup_nil
  · have hnodup := chooseTasks_nodup hchosen
    have htasks : chosenTasks problem = orderedTasks := by rw [chosenTasks, hchosen]
    refine List.Nodup.of_map Prod.fst ?_
    have hfst : (planItems problem (Plan.ofAssignments out)).map Prod.fst = orderedTasks := by
      rw [planItems, htasks, List.map_map]
      exact map_taskMapOf hnodup (taskIDs_computeParallelGroups hassigned hout)
    rw [hfst]
    exact List.Nodup.of_map _ hnodup

/-! ## A run read through its prefixes -/

/-- The state after a run, variable by variable. -/
theorem valueAfter_cons (current : PlanState) (item : PlanTask × ℕ) (run : List (PlanTask × ℕ))
    (v : String) : valueAfter itemWrites current (item :: run) v =
      valueAfter itemWrites (applyEffects current item.1.resultStates) run v := by
  rw [valueAfter, valueAfter, List.foldl_cons, applyEffects_apply, itemWrites]

/-- A run goes through exactly when every prefix leaves what the next task, or the goal, needs. -/
theorem runsThrough_iff {goal : StringMap} {run : List (PlanTask × ℕ)} {current : PlanState} :
    RunsThrough goal current run ↔
      (∀ pre item post, run = pre ++ item :: post → ∀ cond ∈ item.1.preconditions,
        cond.var ≠ "" → accepts cond (valueAfter itemWrites current pre cond.var) = true) ∧
      ∀ entry ∈ goal.entries, valueAfter itemWrites current run entry.1 = entry.2 := by
  induction run generalizing current with
  | nil => simp [RunsThrough, goalSatisfied_iff, valueAfter]
  | cons x rest ih =>
    rw [RunsThrough, ih, preconditionsMet_iff]
    constructor
    · rintro ⟨hx, hrest, hgoal⟩
      refine ⟨fun pre item post heq ↦ ?_, fun entry he ↦ ?_⟩
      · rcases List.cons_eq_append_iff.mp heq with ⟨rfl, h⟩ | ⟨pre', rfl, h⟩
        · obtain ⟨rfl, -⟩ := List.cons.inj h
          exact hx
        · intro cond hc hv
          rw [valueAfter_cons]
          exact hrest pre' item post h cond hc hv
      · rw [valueAfter_cons]
        exact hgoal entry he
    · rintro ⟨hall, hgoal⟩
      refine ⟨hall [] x rest rfl, fun pre item post heq cond hc hv ↦ ?_, fun entry he ↦ ?_⟩
      · rw [← valueAfter_cons]
        exact hall (x :: pre) item post (by rw [heq, List.cons_append]) cond hc hv
      · rw [← valueAfter_cons]
        exact hgoal entry he

/-! ## The exact condition -/

/-- Of a plan without repeated items, every run goes through exactly when the last writers
agree. -/
theorem lastWritersAgree_iff {problem : PlanProblem} {plan : Plan}
    (hnodup : (planItems problem plan).Nodup) :
    (∀ run, Executes problem plan run →
        RunsThrough problem.goalState (initialPlanState problem) run) ↔
      LastWritersAgree problem plan := by
  have hexec : ∀ run, Executes problem plan run ↔
      IsSchedule Prod.snd (planItems problem plan) run := fun _ ↦
    (isSchedule_iff_runsGroups order_lt_of_mem_planItems).symm
  constructor
  · intro h
    refine ⟨fun item hitem cond hc hv ↦ ?_, fun entry he ↦ ?_⟩
    · rw [← accepts_before_iff hnodup hitem]
      intro run hrun pre post heq
      exact (runsThrough_iff.mp (h run ((hexec run).mpr hrun))).1 pre item post heq cond hc hv
    · rw [← accepts_end_iff hnodup order_lt_of_mem_planItems]
      intro run hrun
      exact (runsThrough_iff.mp (h run ((hexec run).mpr hrun))).2 entry he
  · intro h run hrun
    have hsched := (hexec run).mp hrun
    refine runsThrough_iff.mpr ⟨fun pre item post heq cond hc hv ↦ ?_, fun entry he ↦ ?_⟩
    · have hitem : item ∈ planItems problem plan :=
        hsched.perm.mem_iff.mp (by rw [heq]; simp)
      exact (accepts_before_iff hnodup hitem).mpr (h.preconditions item hitem cond hc hv) run
        hsched pre post heq
    · exact (accepts_end_iff hnodup order_lt_of_mem_planItems).mpr (h.goal entry he) run hsched

/-- One task opens a door, the other needs it open; there are no resources. -/
def doorProblem (agents : List AgentInfo) : PlanProblem where
  stateVars := [⟨"door", "shut"⟩, ⟨"room", ""⟩]
  initialState := ∅
  goalState := (∅ : StringMap).insert "room" "clean"
  tasks := [
    { taskID := "open", resultStates := [⟨"door", "open"⟩] },
    { taskID := "clean", preconditions := [⟨"door", "==", "open"⟩]
      resultStates := [⟨"room", "clean"⟩] }]
  agents
  resources := []

def oneRobot : List AgentInfo := [⟨"r1", "first", [], true⟩]

def twoRobots : List AgentInfo := [⟨"r1", "first", [], true⟩, ⟨"r2", "second", [], true⟩]

def doorPlan (agents : List AgentInfo) : Plan :=
  (solve 3 (doorProblem agents)).getD (Plan.invalid "")

end Pddl
end FleetServer
