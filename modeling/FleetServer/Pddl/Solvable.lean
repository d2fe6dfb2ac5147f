import FleetServer.Lib.Relaxation
import FleetServer.Pddl.Execution

/-!
# The reachability check against the runs of the tasks

A problem is solvable when some sequence of its tasks, each started in a state that meets its
preconditions, ends in a state with the goal.  `checkReachability` is meant to turn down only
problems that are not.  It computes a relaxation: a fact is a variable with a value, and what it
computes are exactly the facts attainable from the values that are *set* at the beginning
(`checkReachability_eq_none_iff`).

A variable that is not set reads as the empty string in a run, and that is a fact too.  The facts
true at the beginning of a run are those of `initialFacts`, the check starts from `setFacts`, and
the difference is the empty value of the variables that are not set.  So the check accepts a
solvable problem exactly when its goal is attainable without these
(`checkReachability_accepts_iff`), which it is when every variable that is read is set
(`checkReachability_accepts_of_set`).
-/

set_option autoImplicit false

namespace FleetServer
namespace Pddl

open Relaxation

/-- Some sequence of the tasks leads to the goal. -/
def Solvable (problem : PlanProblem) : Prop :=
  ∃ run : List PlanTask, (∀ task ∈ run, task ∈ problem.tasks) ∧
    RunsThrough problem.goalState (initialPlanState problem) (run.map (·, 0))

/-! ## The relaxation of a problem -/

/-- A variable with a value. -/
abbrev Fact := String × String

/-- The relaxation of the tasks of a problem. -/
def relaxation (problem : PlanProblem) : System PlanTask PlanningCondition Fact where
  tasks := {task | task ∈ problem.tasks}
  pre task := {cond | cond ∈ task.preconditions ∧ cond.var ≠ ""}
  eff task := {fact | ∃ effect ∈ task.resultStates, fact = (effect.var, effect.value)}
  meets cond fact := fact.1 = cond.var ∧ accepts cond fact.2 = true

/-- What is true at the beginning of a run, a variable that is not set being empty. -/
def initialFacts (problem : PlanProblem) : Set Fact :=
  {fact | initialPlanState problem fact.1 = fact.2}

/-- The values that are set at the beginning. -/
def setFacts (problem : PlanProblem) : Set Fact :=
  {fact | fact.2 ∈ initialReachable problem fact.1}

/-- Every goal is attained in the relaxation. -/
def AttainsGoal (problem : PlanProblem) (start : Set Fact) : Prop :=
  ∀ entry ∈ problem.goalState.entries,
    Attainable (relaxation problem) start (entry.1, entry.2)

/-- The variables that a precondition or the goal asks for. -/
def IsRead (problem : PlanProblem) (v : String) : Prop :=
  (∃ task ∈ problem.tasks, ∃ cond ∈ task.preconditions, cond.var = v) ∨
    ∃ entry ∈ problem.goalState.entries, entry.1 = v

/-! ## Runs stay within the relaxation -/

variable {problem : PlanProblem}

/-- What an effect list writes last it writes. -/
theorem mem_of_finalWrite {effects : List PlanningEffect} {v value : String}
    (h : finalWrite effects v = some value) :
    ∃ effect ∈ effects, (v, value) = (effect.var, effect.value) := by
  induction effects with
  | nil => exact absurd h (by simp [finalWrite])
  | cons effect rest ih =>
    rw [finalWrite_cons] at h
    rcases Option.or_eq_some_iff.mp h with hrest | ⟨-, hhead⟩
    · obtain ⟨e, he, heq⟩ := ih hrest
      exact ⟨e, List.mem_cons_of_mem _ he, heq⟩
    · split at hhead
      · rename_i hvar
        obtain rfl := Option.some.inj hhead
        exact ⟨effect, List.mem_cons_self, by rw [hvar]⟩
      · exact absurd hhead (by simp)

/-- The facts of a state about the variables that are read. -/
def readFacts (problem : PlanProblem) (current : PlanState) : Set Fact :=
  {fact | IsRead problem fact.1 ∧ current fact.1 = fact.2}

theorem enables_of_preconditionsMet {current : PlanState} {task : PlanTask}
    (htask : task ∈ problem.tasks) (h : preconditionsMet current task.preconditions = true) :
    (relaxation problem).Enables (readFacts problem current) task := by
  rintro cond ⟨hcond, hvar⟩
  exact ⟨(cond.var, current cond.var), ⟨Or.inl ⟨task, htask, cond, hcond, rfl⟩, rfl⟩, rfl,
    preconditionsMet_iff.mp h cond hcond hvar⟩

theorem readFacts_applyEffects {current : PlanState} {task : PlanTask} {fact : Fact}
    (h : fact ∈ readFacts problem (applyEffects current task.resultStates)) :
    fact ∈ readFacts problem current ∨ fact ∈ (relaxation problem).eff task := by
  obtain ⟨hread, hfact⟩ := h
  rw [applyEffects_apply] at hfact
  cases hwrite : finalWrite task.resultStates fact.1 with
  | none =>
    rw [hwrite, Option.getD_none] at hfact
    exact Or.inl ⟨hread, hfact⟩
  | some value =>
    rw [hwrite, Option.getD_some] at hfact
    subst hfact
    exact Or.inr (mem_of_finalWrite hwrite)

/-- A run that reaches the goal only makes attainable facts true. -/
theorem attainsGoal_of_runsThrough {start : Set Fact} (run : List PlanTask) :
    ∀ current : PlanState,
      (∀ fact ∈ readFacts problem current, Attainable (relaxation problem) start fact) →
      (∀ task ∈ run, task ∈ problem.tasks) →
      RunsThrough problem.goalState current (run.map (·, 0)) → AttainsGoal problem start := by
  induction run with
  | nil =>
    intro current hcurrent _ hgoal entry hentry
    exact hcurrent (entry.1, entry.2)
      ⟨Or.inr ⟨entry, hentry, rfl⟩, goalSatisfied_iff.mp hgoal entry hentry⟩
  | cons task rest ih =>
    rintro current hcurrent htasks ⟨hpre, hrest⟩
    have htask := htasks task List.mem_cons_self
    refine ih _ (Attainable.step htask (enables_of_preconditionsMet htask hpre)
      (fun _ ↦ readFacts_applyEffects) hcurrent) (fun t ht ↦ htasks t ?_) hrest
    exact List.mem_cons_of_mem _ ht

/-- The goal of a solvable problem is attainable from any facts that hold what the variables that
are read have at the beginning. -/
theorem attainsGoal_of_solvable {start : Set Fact} (h : Solvable problem)
    (hstart : ∀ v, IsRead problem v → (v, initialPlanState problem v) ∈ start) :
    AttainsGoal problem start := by
  obtain ⟨run, htasks, hrun⟩ := h
  refine attainsGoal_of_runsThrough run _ (fun fact hfact ↦ .given ?_) htasks hrun
  obtain ⟨hread, hvalue⟩ := hfact
  have hmem := hstart fact.1 hread
  rw [hvalue] at hmem
  exact hmem

/-! ## What the check computes -/

/-- The facts the loop has collected. -/
def collected (reachable : Reachable) : Set Fact := {fact | fact.2 ∈ reachable fact.1}

/-- The relaxed test of the code is that of the relaxation. -/
theorem relaxedPreconditionsMet_iff {reachable : Reachable} {task : PlanTask} :
    relaxedPreconditionsMet reachable task.preconditions = true ↔
      (relaxation problem).Enables (collected reachable) task := by
  have hone : ∀ cond : PlanningCondition, cond.var ≠ "" →
      ((if cond.var = "" then true
        else
          let values := reachable cond.var
          if values.card = 0 then false
          else if cond.operator = "!=" then !(values.card = 1 && cond.value ∈ values)
          else cond.value ∈ values) = true ↔
        ∃ value ∈ reachable cond.var, accepts cond value = true) := by
    intro cond hvar
    rw [if_neg hvar]
    by_cases hne : cond.operator = "!="
    · simp only [accepts, if_pos hne]
      constructor
      · intro h
        by_contra hnone
        have hall : ∀ value ∈ reachable cond.var, value = cond.value := by
          intro value hvalue
          by_contra hv
          exact hnone ⟨value, hvalue, by simpa using hv⟩
        split at h
        · exact absurd h (by simp)
        · rename_i hcard
          obtain ⟨value, hvalue⟩ := Finset.card_pos.mp (Nat.pos_of_ne_zero hcard)
          have hsingle : reachable cond.var = {cond.value} :=
            Finset.eq_singleton_iff_unique_mem.mpr ⟨hall value hvalue ▸ hvalue, hall⟩
          simp [hsingle] at h
      · rintro ⟨value, hvalue, hv⟩
        have hpos : (reachable cond.var).card ≠ 0 := (Finset.card_pos.mpr ⟨value, hvalue⟩).ne'
        rw [if_neg hpos]
        simp only [Bool.not_eq_true', Bool.and_eq_false_imp, decide_eq_true_eq,
          decide_eq_false_iff_not]
        intro hcard hmem
        have heq := Finset.card_le_one.mp hcard.le value hvalue cond.value hmem
        exact absurd heq (by simpa using hv)
    · simp only [accepts, if_neg hne]
      constructor
      · intro h
        split at h
        · exact absurd h (by simp)
        · exact ⟨cond.value, by simpa using h, by simp⟩
      · rintro ⟨value, hvalue, hv⟩
        have hpos : (reachable cond.var).card ≠ 0 := (Finset.card_pos.mpr ⟨value, hvalue⟩).ne'
        obtain rfl : value = cond.value := by simpa using hv
        rw [if_neg hpos]
        simpa using hvalue
  rw [relaxedPreconditionsMet, List.all_eq_true]
  constructor
  · rintro h cond ⟨hcond, hvar⟩
    obtain ⟨value, hvalue, haccepts⟩ := (hone cond hvar).mp (h cond hcond)
    exact ⟨(cond.var, value), hvalue, rfl, haccepts⟩
  · intro h cond hcond
    by_cases hvar : cond.var = ""
    · simp [hvar]
    · obtain ⟨⟨v, value⟩, hvalue, rfl, haccepts⟩ := h cond ⟨hcond, hvar⟩
      exact (hone cond hvar).mpr ⟨value, hvalue, haccepts⟩

/-- Everything collected is attainable. -/
def Sound (problem : PlanProblem) (reachable : Reachable) : Prop :=
  ∀ fact ∈ collected reachable, Attainable (relaxation problem) (setFacts problem) fact

theorem sound_reachTask {acc : Reachable × Bool} {task : PlanTask} (htask : task ∈ problem.tasks)
    (h : Sound problem acc.1) : Sound problem (reachTask acc task).1 := by
  rw [reachTask]
  split
  · rename_i hpre
    have heffects : ∀ effect ∈ task.resultStates,
        Attainable (relaxation problem) (setFacts problem) (effect.var, effect.value) := by
      intro effect heffect
      have hnew : ∀ fact ∈ ({(effect.var, effect.value)} : Set Fact),
          fact ∈ collected acc.1 ∨ fact ∈ (relaxation problem).eff task :=
        fun fact hfact ↦ Or.inr ⟨effect, heffect, hfact⟩
      exact Attainable.step htask (relaxedPreconditionsMet_iff.mp hpre) hnew h _ rfl
    have hfold : ∀ (effects : List PlanningEffect) (acc : Reachable × Bool),
        (∀ effect ∈ effects,
          Attainable (relaxation problem) (setFacts problem) (effect.var, effect.value)) →
        Sound problem acc.1 → Sound problem (effects.foldl reachEffect acc).1 := by
      intro effects
      induction effects with
      | nil => exact fun acc _ hacc ↦ hacc
      | cons effect rest ih =>
        intro acc hall hacc
        refine ih _ (fun e he ↦ hall e (List.mem_cons_of_mem _ he)) ?_
        rw [reachEffect]
        split
        · exact hacc
        · rintro ⟨v, value⟩ hvalue
          by_cases hv : v = effect.var
          · subst hv
            rcases (by simpa [collected] using hvalue :
              value = effect.value ∨ value ∈ acc.1 effect.var) with rfl | hvalue
            · exact hall effect List.mem_cons_self
            · exact hacc (effect.var, value) hvalue
          · exact hacc (v, value) (by simpa [collected, Function.update_of_ne hv] using hvalue)
    exact hfold _ acc heffects h
  · exact h

theorem sound_reachPass {reachable : Reachable} (h : Sound problem reachable) :
    Sound problem (reachPass problem.tasks reachable).1 := by
  have hfold : ∀ (tasks : List PlanTask) (acc : Reachable × Bool),
      (∀ task ∈ tasks, task ∈ problem.tasks) → Sound problem acc.1 →
        Sound problem (tasks.foldl reachTask acc).1 := by
    intro tasks
    induction tasks with
    | nil => exact fun acc _ hacc ↦ hacc
    | cons task rest ih =>
      exact fun acc hall hacc ↦ ih _ (fun t ht ↦ hall t (List.mem_cons_of_mem _ ht))
        (sound_reachTask (hall task List.mem_cons_self) hacc)
  exact hfold problem.tasks (reachable, false) (fun _ ht ↦ ht) h

/-! ### The last pass -/

/-- Effects that change nothing were all there. -/
theorem foldl_reachEffect_unchanged (effects : List PlanningEffect) :
    ∀ {acc : Reachable × Bool}, (effects.foldl reachEffect acc).2 = false →
      effects.foldl reachEffect acc = acc ∧
        ∀ effect ∈ effects, effect.value ∈ acc.1 effect.var := by
  have htrue : ∀ (effects : List PlanningEffect) (reachable : Reachable),
      (effects.foldl reachEffect (reachable, true)).2 = true := by
    intro effects
    induction effects with
    | nil => exact fun _ ↦ rfl
    | cons effect rest ih =>
      intro reachable
      rw [List.foldl_cons, reachEffect]
      split <;> exact ih _
  induction effects with
  | nil => exact fun _ ↦ ⟨rfl, by simp⟩
  | cons effect rest ih =>
    intro acc h
    rw [List.foldl_cons, reachEffect] at h ⊢
    split at h
    · rename_i hmem
      rw [if_pos hmem]
      obtain ⟨heq, hall⟩ := ih h
      exact ⟨heq, List.forall_mem_cons.mpr ⟨hmem, hall⟩⟩
    · exact absurd h (by simp [htrue])

/-- A pass that changes nothing finds the facts closed. -/
theorem closed_of_reachPass {reachable : Reachable}
    (h : (reachPass problem.tasks reachable).2 = false) :
    (reachPass problem.tasks reachable).1 = reachable ∧
      (relaxation problem).Closed (collected reachable) := by
  have hfold : ∀ (tasks : List PlanTask) (acc : Reachable × Bool),
      (tasks.foldl reachTask acc).2 = false → tasks.foldl reachTask acc = acc ∧
        ∀ task ∈ tasks, relaxedPreconditionsMet acc.1 task.preconditions = true →
          ∀ effect ∈ task.resultStates, effect.value ∈ acc.1 effect.var := by
    intro tasks
    induction tasks with
    | nil => exact fun acc _ ↦ ⟨rfl, by simp⟩
    | cons task rest ih =>
      intro acc hacc
      rw [List.foldl_cons] at hacc ⊢
      obtain ⟨hrest, hall⟩ := ih _ hacc
      have hflag : (reachTask acc task).2 = false := by rw [← hrest]; exact hacc
      have htask : reachTask acc task = acc ∧
          (relaxedPreconditionsMet acc.1 task.preconditions = true →
            ∀ effect ∈ task.resultStates, effect.value ∈ acc.1 effect.var) := by
        rw [reachTask] at hflag ⊢
        split at hflag
        · rename_i hpre
          rw [if_pos hpre]
          obtain ⟨heq, heffects⟩ := foldl_reachEffect_unchanged _ hflag
          exact ⟨heq, fun _ ↦ heffects⟩
        · rename_i hpre
          rw [if_neg hpre]
          exact ⟨rfl, fun h ↦ absurd h hpre⟩
      rw [hrest, htask.1]
      rw [htask.1] at hall
      exact ⟨rfl, List.forall_mem_cons.mpr ⟨htask.2, hall⟩⟩
  obtain ⟨heq, hall⟩ := hfold problem.tasks (reachable, false) h
  refine ⟨congrArg Prod.fst heq, fun task htask henables ↦ ?_⟩
  rintro fact ⟨effect, heffect, rfl⟩
  exact hall task htask (relaxedPreconditionsMet_iff.mpr henables) effect heffect

/-- **The loop ends with exactly the attainable facts.** -/
theorem mem_reachLoop_iff {fuel : ℕ} : ∀ {reachable out : Reachable},
    reachLoop problem.tasks fuel reachable = some out → Sound problem reachable →
      (∀ fact ∈ setFacts problem, fact ∈ collected reachable) →
      ∀ fact, fact ∈ collected out ↔
        Attainable (relaxation problem) (setFacts problem) fact := by
  induction fuel with
  | zero => intro reachable out h; exact absurd h (by simp [reachLoop])
  | succ fuel ih =>
    intro reachable out h hsound hstart fact
    simp only [reachLoop] at h
    split at h
    · refine ih h (sound_reachPass hsound) (fun f hf ↦ ?_) fact
      exact (grows_reachPass problem.tasks reachable).le f.1 (hstart f hf)
    · rename_i hflag
      obtain ⟨heq, hclosed⟩ := closed_of_reachPass (by simpa using hflag)
      obtain rfl : reachable = out := heq ▸ Option.some.inj h
      exact ⟨hsound fact, Attainable.of_closed hstart hclosed⟩

/-- **The check finds no fault exactly when the goal is attainable from what is set.** -/
theorem checkReachability_eq_none_iff (problem : PlanProblem) :
    (∃ fuel, checkReachability fuel problem = some none) ↔
      AttainsGoal problem (setFacts problem) := by
  obtain ⟨fuel, fault, hcheck⟩ := exists_checkReachability problem
  have hout := hcheck
  obtain ⟨out, hloop, hfault⟩ := Option.map_eq_some_iff.mp hout
  have hmem := mem_reachLoop_iff hloop (fun _ hf ↦ .given hf) fun _ hf ↦ hf
  have hnone : fault = none ↔ AttainsGoal problem (setFacts problem) := by
    rw [← hfault, List.findSome?_eq_none_iff]
    refine forall₂_congr fun entry _ ↦ ?_
    rw [← hmem (entry.1, entry.2)]
    simp [collected]
  rw [← hnone]
  constructor
  · rintro ⟨fuel', h⟩
    have h₁ := checkReachability_mono hcheck (le_max_left fuel fuel')
    have h₂ := checkReachability_mono h (le_max_right fuel fuel')
    exact Option.some.inj (h₁.symm.trans h₂)
  · rintro rfl
    exact ⟨fuel, hcheck⟩

/-! ## Solvable problems -/

/-- **A solvable problem has an attainable goal, and the check accepts it exactly when the goal is
attainable without the empty values of the variables that are not set.** -/
theorem checkReachability_accepts_iff (h : Solvable problem) :
    AttainsGoal problem (initialFacts problem) ∧
      ((∃ fuel, checkReachability fuel problem = some none) ↔
        AttainsGoal problem (setFacts problem)) :=
  ⟨attainsGoal_of_solvable h fun _ _ ↦ rfl, checkReachability_eq_none_iff problem⟩

/-- The check accepts a solvable problem in which every variable that is read is set. -/
theorem checkReachability_accepts_of_set (h : Solvable problem)
    (hset : ∀ v, IsRead problem v → initialPlanState problem v ∈ initialReachable problem v) :
    ∃ fuel, checkReachability fuel problem = some none :=
  (checkReachability_eq_none_iff problem).mpr (attainsGoal_of_solvable h hset)

/-- A room that may be cleaned as long as the door has this value. -/
def roomProblem (door : String) : PlanProblem where
  stateVars := [⟨"door", door⟩, ⟨"room", ""⟩]
  initialState := ∅
  goalState := (∅ : StringMap).insert "room" "clean"
  tasks := [
    { taskID := "clean", preconditions := [⟨"door", "==", door⟩]
      resultStates := [⟨"room", "clean"⟩] }]
  agents := oneRobot
  resources := []

theorem roomProblem_solvable (door : String) : Solvable (roomProblem door) := by
  refine ⟨(roomProblem door).tasks, fun _ ht ↦ ht, ?_, ?_⟩
  · by_cases hdoor : door = ""
    · simp [roomProblem, initialPlanState, preconditionsMet, accepts, hdoor]
    · simp [roomProblem, initialPlanState, preconditionsMet, accepts, hdoor]
  · simp [RunsThrough, roomProblem, goalSatisfied, applyEffects]

theorem roomProblem_shut_accepts_iff :
    AttainsGoal (roomProblem "shut") (initialFacts (roomProblem "shut")) ∧
      ((∃ fuel, checkReachability fuel (roomProblem "shut") = some none) ↔
        AttainsGoal (roomProblem "shut") (setFacts (roomProblem "shut"))) :=
  checkReachability_accepts_iff (roomProblem_solvable "shut")

/-- **A task that needs the door's value to be empty, while it is**: the problem is valid and
solved by that one task, and the check turns it down. -/
theorem roomProblem_unset_rejected :
    validateProblem (roomProblem "") = none ∧ Solvable (roomProblem "") ∧
      checkReachability 2 (roomProblem "") =
        some (some "goal room=clean is unreachable: no task can produce this value") :=
  ⟨by rfl, roomProblem_solvable "", by rfl⟩

end Pddl
end FleetServer
