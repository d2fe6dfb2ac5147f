import Mathlib.Tactic.Linarith
import FleetServer.Pddl.Planner

/-!
# When the planner ends

Each search of `computeParallelGroups` goes up until nothing is in its way.  The searches for the
agent and for the during-states always get there, because only finitely many groups are in use
(`GroupState.bounded`).  The search for the resources need not: an instance that was handed out
for a resource type stays in `heldInstances`, whatever the group, so going up does not help.

Take the group numbers away and what is left is a *pool* of instances from which the tasks draw in
turn.  A named instance is drawn whether or not it was drawn before; a type draws the first of its
instances that was not; nothing is ever put back.  `PoolLasts` says that whenever a task comes to
draw for a type there is an instance left, and `computeParallelGroups_exits_iff` says that this is
exactly when the loops exit.  The rest of the planner always ends, so this is also exactly when
`Solve` does, for the tasks it chose (`solve_exits_iff`).
-/

set_option autoImplicit false

namespace FleetServer
namespace Pddl

open UpwardSearch

/-! ## The pool of instances -/

section Pool

variable (catalog : ResourceCatalog)

/-- The first instance of a type that was not drawn yet, or `""`. -/
def poolFree (drawn : List String) (typeID : String) : String :=
  ((catalog.typeInstances typeID).find? (!drawn.contains ·)).getD ""

/-- What is drawn from the pool once a reference has been served. -/
def poolTake (drawn : List String) (ref : NormalizedResourceRef) : List String :=
  match ref.kind with
  | .instanceRef => ref.key :: drawn
  | .typeRef =>
    if poolFree catalog drawn ref.typeKey ≠ "" then poolFree catalog drawn ref.typeKey :: drawn
    else drawn
  | .noRef => drawn

/-- Every type one task asks for has an instance left. -/
def PoolServes (drawn : List String) (refs : List NormalizedResourceRef) : Prop :=
  ∀ ref ∈ refs, ref.kind = .typeRef → poolFree catalog drawn ref.typeKey ≠ ""

instance (drawn : List String) (refs : List NormalizedResourceRef) :
    Decidable (PoolServes catalog drawn refs) :=
  inferInstanceAs (Decidable (∀ ref ∈ refs, _))

/-- Every task, in its turn, finds an instance left of every type it asks for. -/
def PoolLasts : List String → List (List NormalizedResourceRef) → Prop
  | _, [] => True
  | drawn, refs :: rest =>
    PoolServes catalog drawn refs ∧ PoolLasts (refs.foldl (poolTake catalog) drawn) rest

instance : ∀ (drawn : List String) (tasks : List (List NormalizedResourceRef)),
    Decidable (PoolLasts catalog drawn tasks)
  | _, [] => inferInstanceAs (Decidable True)
  | drawn, refs :: rest =>
    have := instDecidablePoolLasts (refs.foldl (poolTake catalog) drawn) rest
    inferInstanceAs (Decidable (_ ∧ _))

end Pool

/-! ## The group state tracks the pool -/

/-- The instances held in a group state are those drawn from the pool. -/
structure GroupState.Tracks (st : GroupState) (drawn : List String) : Prop where
  /-- What is held was drawn, and the other way round. -/
  held : ∀ i, (st.heldInstances i).isSome ↔ i ∈ drawn
  /-- What is used in a group was drawn. -/
  used : ∀ n i, i ∈ st.orderInstances n → i ∈ drawn

/-- From some group on nothing is in use. -/
def GroupState.Bounded (st : GroupState) : Prop :=
  ∃ bound, ∀ n, bound ≤ n →
    st.orderInstances n = [] ∧ st.orderAgents n = [] ∧ st.orderTasks n = []

theorem GroupState.tracks_init : GroupState.Tracks {} [] := ⟨by simp, by simp⟩

theorem GroupState.bounded_init : GroupState.Bounded {} := ⟨0, fun _ _ ↦ ⟨rfl, rfl, rfl⟩⟩

variable {catalog : ResourceCatalog} {st : GroupState} {drawn : List String}

/-- The second test of `findFreeTypeInstance` never decides: what a group uses is held. -/
theorem findFreeTypeInstance_eq (h : st.Tracks drawn) (typeID : String) (n : ℕ) :
    findFreeTypeInstance typeID st.heldInstances (st.orderInstances n) catalog =
      poolFree catalog drawn typeID := by
  have hpred : (fun i ↦ (st.heldInstances i).isNone && !(st.orderInstances n).contains i) =
      fun i ↦ !drawn.contains i := by
    funext i
    have hheld := h.held i
    have hused := h.used n i
    cases hi : st.heldInstances i with
    | none => simp_all
    | some r =>
      have hmem : i ∈ drawn := hheld.mp (by simp [hi])
      simp [hmem]
  rw [findFreeTypeInstance, hpred, poolFree]

theorem GroupState.Tracks.hold (h : st.Tracks drawn) (n : ℕ) (i : String) :
    (st.hold n i).Tracks (i :: drawn) := by
  refine ⟨fun j ↦ ?_, fun m j hj ↦ ?_⟩
  · by_cases hji : j = i
    · simp [GroupState.hold, hji]
    · simp [GroupState.hold, hji, h.held j]
  · by_cases hm : m = n
    · subst hm
      simp only [GroupState.hold, Function.update_self, List.mem_cons] at hj
      rcases hj with rfl | hj
      · exact List.mem_cons_self
      · exact List.mem_cons_of_mem _ (h.used m j hj)
    · simp only [GroupState.hold, Function.update_of_ne hm] at hj
      exact List.mem_cons_of_mem _ (h.used m j hj)

theorem GroupState.Tracks.holdRef (h : st.Tracks drawn) (n : ℕ) (ref : NormalizedResourceRef) :
    (st.holdRef catalog n ref).Tracks (poolTake catalog drawn ref) := by
  cases hk : ref.kind with
  | noRef => simpa only [GroupState.holdRef, poolTake, hk] using h
  | instanceRef => simpa only [GroupState.holdRef, poolTake, hk] using h.hold n ref.key
  | typeRef =>
    simp only [GroupState.holdRef, poolTake, hk, findFreeTypeInstance_eq h]
    by_cases hfree : poolFree catalog drawn ref.typeKey = ""
    · rw [if_neg (not_not.mpr hfree), if_neg (not_not.mpr hfree)]
      exact h
    · rw [if_pos hfree, if_pos hfree]
      exact h.hold n _

theorem GroupState.Tracks.holdRefs (catalog : ResourceCatalog) (n : ℕ)
    (refs : List NormalizedResourceRef) :
    ∀ {st : GroupState} {drawn : List String}, st.Tracks drawn →
      (refs.foldl (fun st ref ↦ st.holdRef catalog n ref) st).Tracks
        (refs.foldl (poolTake catalog) drawn) := by
  induction refs with
  | nil => intro st drawn h; exact h
  | cons ref rest ih => intro st drawn h; exact ih (h.holdRef n ref)

theorem GroupState.Tracks.place (h : st.Tracks drawn) (task : PlanTask) (agentID : String)
    (n : ℕ) : (st.place catalog task agentID n).Tracks
      ((task.refs catalog).foldl (poolTake catalog) drawn) := by
  have hrefs := GroupState.Tracks.holdRefs catalog n (task.refs catalog) h
  exact ⟨hrefs.held, hrefs.used⟩

theorem GroupState.Bounded.hold (h : st.Bounded) (n : ℕ) (i : String) : (st.hold n i).Bounded := by
  obtain ⟨bound, hbound⟩ := h
  refine ⟨max bound (n + 1), fun m hm ↦ ?_⟩
  have hmn : m ≠ n := by omega
  simpa [GroupState.hold, Function.update_of_ne hmn] using hbound m (by omega)

theorem GroupState.Bounded.holdRef (h : st.Bounded) (n : ℕ) (ref : NormalizedResourceRef) :
    (st.holdRef catalog n ref).Bounded := by
  rw [GroupState.holdRef]
  split
  · exact h.hold n _
  · dsimp only
    split
    · exact h.hold n _
    · exact h
  · exact h

theorem GroupState.Bounded.holdRefs (catalog : ResourceCatalog) (n : ℕ)
    (refs : List NormalizedResourceRef) :
    ∀ {st : GroupState}, st.Bounded →
      (refs.foldl (fun st ref ↦ st.holdRef catalog n ref) st).Bounded := by
  induction refs with
  | nil => intro st h; exact h
  | cons ref rest ih => intro st h; exact ih (h.holdRef n ref)

theorem GroupState.Bounded.place (h : st.Bounded) (task : PlanTask) (agentID : String) (n : ℕ) :
    (st.place catalog task agentID n).Bounded := by
  obtain ⟨bound, hbound⟩ := GroupState.Bounded.holdRefs catalog n (task.refs catalog) h
  refine ⟨max bound (n + 1), fun m hm ↦ ?_⟩
  have hmn : m ≠ n := by omega
  simpa [GroupState.place, Function.update_of_ne hmn] using hbound m (by omega)

/-! ## One task -/

/-- A group is free of resource conflicts exactly when the pool serves the task and none of the
instances it names is used there. -/
theorem resourceConflict_eq_false_iff (h : st.Tracks drawn) (refs : List NormalizedResourceRef)
    (n : ℕ) : resourceConflict catalog st refs n = false ↔
      PoolServes catalog drawn refs ∧
        ∀ ref ∈ refs, ref.kind = .instanceRef → ref.key ∉ st.orderInstances n := by
  simp only [resourceConflict, findFreeTypeInstance_eq h, PoolServes, List.any_eq_false,
    Bool.or_eq_true, Bool.and_eq_true, beq_iff_eq, List.contains_iff_mem, not_or, not_and]
  exact ⟨fun hall ↦ ⟨fun ref hr hk ↦ (hall ref hr).2 hk, fun ref hr hk ↦ (hall ref hr).1 hk⟩,
    fun hall ref hr ↦ ⟨hall.2 ref hr, hall.1 ref hr⟩⟩

/-- **One task's searches exit exactly when the pool serves it.**  The group found past the last
one in use has no conflict of any other kind. -/
theorem findOrder_exits_iff (h : st.Tracks drawn) (hb : st.Bounded) (task : PlanTask)
    (agentID : String) : (∃ fuel, (findOrder catalog st fuel task agentID).isSome) ↔
      PoolServes catalog drawn (task.refs catalog) := by
  constructor
  · rintro ⟨fuel, hsome⟩
    obtain ⟨n, hn⟩ := Option.isSome_iff_exists.mp hsome
    simp only [findOrder, Option.bind_eq_some_iff] at hn
    obtain ⟨n₁, h₁, -⟩ := hn
    exact ((resourceConflict_eq_false_iff h _ n₁).mp (firstFree_spec h₁).2.1).1
  · intro hserves
    obtain ⟨bound, hbound⟩ := hb
    have hres : ∃ m, releaseBound st (task.refs catalog) ≤ m ∧
        resourceConflict catalog st (task.refs catalog) m = false := by
      refine ⟨max bound (releaseBound st (task.refs catalog)), by omega, ?_⟩
      rw [resourceConflict_eq_false_iff h]
      refine ⟨hserves, fun ref _ _ ↦ ?_⟩
      simp [(hbound _ (le_max_left bound _)).1]
    obtain ⟨f₁, hf₁⟩ := exists_firstFree_iff.mpr hres
    obtain ⟨n₁, h₁⟩ := Option.isSome_iff_exists.mp hf₁
    have hag : ∃ m, n₁ ≤ m ∧ agentConflict st agentID m = false :=
      ⟨max bound n₁, by omega, by simp [agentConflict, (hbound _ (le_max_left bound n₁)).2.1]⟩
    obtain ⟨f₂, hf₂⟩ := exists_firstFree_iff.mpr hag
    obtain ⟨n₂, h₂⟩ := Option.isSome_iff_exists.mp hf₂
    have htask : ∃ m, n₂ ≤ m ∧ taskConflict st task m = false :=
      ⟨max bound n₂, by omega, by simp [taskConflict, (hbound _ (le_max_left bound n₂)).2.2]⟩
    obtain ⟨f₃, hf₃⟩ := exists_firstFree_iff.mpr htask
    obtain ⟨n₃, h₃⟩ := Option.isSome_iff_exists.mp hf₃
    refine ⟨max f₁ (max f₂ f₃), Option.isSome_iff_exists.mpr ⟨n₃, ?_⟩⟩
    simp only [findOrder, Option.bind_eq_some_iff]
    exact ⟨n₁, firstFree_mono h₁ (by omega), n₂, firstFree_mono h₂ (by omega),
      firstFree_mono h₃ (by omega)⟩

/-! ## The whole loop -/

theorem groupLoop_exits_iff (taskMap : String → PlanTask) (assignments : List TaskAssignment) :
    ∀ {st : GroupState} {drawn : List String}, st.Tracks drawn → st.Bounded →
      ((∃ fuel, (groupLoop fuel catalog taskMap st assignments).isSome) ↔
        PoolLasts catalog drawn (assignments.map fun a ↦ (taskMap a.taskID).refs catalog)) := by
  induction assignments with
  | nil => intro st drawn _ _; simp [groupLoop, PoolLasts]
  | cons a rest ih =>
    intro st drawn h hb
    rw [List.map_cons, PoolLasts, ← findOrder_exits_iff h hb (taskMap a.taskID) a.agentID]
    constructor
    · rintro ⟨fuel, hsome⟩
      obtain ⟨out, hout⟩ := Option.isSome_iff_exists.mp hsome
      simp only [groupLoop, Option.bind_eq_some_iff, Option.map_eq_some_iff] at hout
      obtain ⟨n, hn, l, hl, -⟩ := hout
      exact ⟨⟨fuel, by simp [hn]⟩,
        (ih (h.place _ a.agentID n) (hb.place _ a.agentID n)).mp ⟨fuel, by simp [hl]⟩⟩
    · rintro ⟨⟨f₁, hf₁⟩, hrest⟩
      obtain ⟨n, hn⟩ := Option.isSome_iff_exists.mp hf₁
      obtain ⟨f₂, hf₂⟩ :=
        (ih (h.place _ a.agentID n) (hb.place _ a.agentID n)).mpr hrest
      obtain ⟨l, hl⟩ := Option.isSome_iff_exists.mp hf₂
      refine ⟨max f₁ f₂, Option.isSome_iff_exists.mpr ⟨{ a with order := n } :: l, ?_⟩⟩
      simp only [groupLoop, Option.bind_eq_some_iff, Option.map_eq_some_iff]
      exact ⟨n, findOrder_mono hn (by omega), l, groupLoop_mono (by omega) hl, rfl⟩

/-- **The three loops exit for every assignment exactly when the pool of instances lasts.** -/
theorem computeParallelGroups_exits_iff (assignments : List TaskAssignment)
    (tasks : List PlanTask) (resources : List ResourceInfo) :
    (∃ fuel, (computeParallelGroups fuel assignments tasks resources).isSome) ↔
      PoolLasts (buildResourceCatalog resources) []
        (assignments.map fun a ↦
          (taskMapOf tasks a.taskID).refs (buildResourceCatalog resources)) :=
  groupLoop_exits_iff _ assignments GroupState.tracks_init GroupState.bounded_init

/-! ## The whole planner -/

/-- `Solve` comes to the grouping, with these tasks and these assignments. -/
structure ReachesGrouping (problem : PlanProblem) (orderedTasks : List PlanTask)
    (assignments : List TaskAssignment) : Prop where
  valid : validateProblem problem = none
  reachable : ∃ fuel, checkReachability fuel problem = some none
  unsatisfied : goalSatisfied (initialPlanState problem) problem.goalState = false
  chosen : chooseTasks problem = .ok orderedTasks
  assigned : assignAgents problem orderedTasks (fun _ ↦ 0) = .ok assignments

theorem planTasks_mono {problem : PlanProblem} {fuel fuel' : ℕ} {plan : Plan}
    (h : planTasks fuel problem = some plan) (hle : fuel ≤ fuel') :
    planTasks fuel' problem = some plan := by
  rw [planTasks] at h ⊢
  split at h
  · rename_i hgoal
    rw [if_pos hgoal]
    exact h
  · rename_i hgoal
    rw [if_neg hgoal]
    cases hchosen : chooseTasks problem with
    | error err =>
      rw [hchosen] at h
      exact h
    | ok orderedTasks =>
      rw [hchosen] at h
      dsimp only at h ⊢
      cases hassigned : assignAgents problem orderedTasks fun _ ↦ 0 with
      | error err =>
        rw [hassigned] at h
        exact h
      | ok assignments =>
        rw [hassigned] at h
        obtain ⟨out, hout, rfl⟩ := Option.map_eq_some_iff.mp h
        exact Option.map_eq_some_iff.mpr ⟨out, groupLoop_mono hle hout, rfl⟩

theorem planTasks_exits_iff (problem : PlanProblem) :
    (∃ fuel, (planTasks fuel problem).isSome) ↔
      (goalSatisfied (initialPlanState problem) problem.goalState = false →
        ∀ orderedTasks, chooseTasks problem = .ok orderedTasks →
          ∀ assignments, assignAgents problem orderedTasks (fun _ ↦ 0) = .ok assignments →
            PoolLasts (buildResourceCatalog problem.resources) []
              (orderedTasks.map (PlanTask.refs · (buildResourceCatalog problem.resources)))) := by
  simp only [planTasks]
  by_cases hgoal : goalSatisfied (initialPlanState problem) problem.goalState = true
  · simp [hgoal]
  · rw [Bool.not_eq_true] at hgoal
    cases hchosen : chooseTasks problem with
    | error err => simp [hgoal]
    | ok orderedTasks =>
      cases hassigned : assignAgents problem orderedTasks fun _ ↦ 0 with
      | error err => simp [hgoal, hassigned]
      | ok assignments =>
        have hexits := computeParallelGroups_exits_iff assignments orderedTasks problem.resources
        have htasks : assignments.map (fun a ↦ (taskMapOf orderedTasks a.taskID).refs
            (buildResourceCatalog problem.resources)) =
            orderedTasks.map (PlanTask.refs · (buildResourceCatalog problem.resources)) := by
          conv_rhs =>
            rw [← map_taskMapOf (chooseTasks_nodup hchosen) (assignAgents_taskIDs hassigned)]
          rw [List.map_map]
          rfl
        rw [htasks] at hexits
        simpa [hgoal, hassigned] using hexits

/-- **`Solve` ends exactly when the pool of instances lasts for the tasks it comes to group.** -/
theorem solve_exits_iff (problem : PlanProblem) :
    (∃ fuel, (solve fuel problem).isSome) ↔
      ∀ orderedTasks assignments, ReachesGrouping problem orderedTasks assignments →
        PoolLasts (buildResourceCatalog problem.resources) []
          (orderedTasks.map (PlanTask.refs · (buildResourceCatalog problem.resources))) := by
  obtain ⟨fuel₀, fault, hreach⟩ := exists_checkReachability problem
  cases hvalid : validateProblem problem with
  | some err =>
    simp only [solve, hvalid, Option.isSome_some, exists_const, true_iff]
    intro orderedTasks assignments h
    exact absurd h.valid (by simp [hvalid])
  | none =>
    cases fault with
    | some err =>
      constructor
      · rintro - orderedTasks assignments h
        obtain ⟨fuel, hnone⟩ := h.reachable
        have h₁ := checkReachability_mono hreach (le_max_left fuel₀ fuel)
        have h₂ := checkReachability_mono hnone (le_max_right fuel₀ fuel)
        exact absurd (h₁.symm.trans h₂) (by simp)
      · exact fun _ ↦ ⟨fuel₀, by simp [solve, hvalid, hreach]⟩
    | none =>
      have hsolve : (∃ fuel, (solve fuel problem).isSome) ↔
          ∃ fuel, (planTasks fuel problem).isSome := by
        constructor
        · rintro ⟨fuel, h⟩
          refine ⟨fuel, ?_⟩
          cases hr : checkReachability fuel problem with
          | none => simp [solve, hvalid, hr] at h
          | some fault =>
            -- more fuel does not change the verdict on reachability
            have h₁ := checkReachability_mono hreach (le_max_left fuel₀ fuel)
            have h₂ := checkReachability_mono hr (le_max_right fuel₀ fuel)
            obtain rfl : none = fault := Option.some.inj (h₁.symm.trans h₂)
            simpa [solve, hvalid, hr] using h
        · rintro ⟨fuel, h⟩
          obtain ⟨plan, hplan⟩ := Option.isSome_iff_exists.mp h
          refine ⟨max fuel₀ fuel, ?_⟩
          simp [solve, hvalid, checkReachability_mono hreach (le_max_left fuel₀ fuel),
            planTasks_mono hplan (le_max_right fuel₀ fuel)]
      rw [hsolve, planTasks_exits_iff]
      constructor
      · exact fun h orderedTasks assignments hg ↦
          h hg.unsatisfied orderedTasks hg.chosen assignments hg.assigned
      · exact fun h hunsat orderedTasks hchosen assignments hassigned ↦
          h orderedTasks assignments ⟨hvalid, ⟨fuel₀, hreach⟩, hunsat, hchosen, hassigned⟩

/-- **The order searches exit, for every list of tasks and every catalog, exactly when the pool of
instances lasts, and `Solve` ends exactly when it lasts for the tasks it chose.** -/
theorem planner_exits_iff_poolLasts (assignments : List TaskAssignment) (tasks : List PlanTask)
    (resources : List ResourceInfo) (problem : PlanProblem) :
    ((∃ fuel, (computeParallelGroups fuel assignments tasks resources).isSome) ↔
      PoolLasts (buildResourceCatalog resources) []
        (assignments.map fun a ↦
          (taskMapOf tasks a.taskID).refs (buildResourceCatalog resources))) ∧
    ((∃ fuel, (solve fuel problem).isSome) ↔
      ∀ orderedTasks assignments, ReachesGrouping problem orderedTasks assignments →
        PoolLasts (buildResourceCatalog problem.resources) []
          (orderedTasks.map (PlanTask.refs · (buildResourceCatalog problem.resources)))) :=
  ⟨computeParallelGroups_exits_iff assignments tasks resources, solve_exits_iff problem⟩

/-- Two tasks that both need some instance of a type that has one. -/
def sharedTypeProblem : PlanProblem where
  stateVars := [⟨"left", ""⟩, ⟨"right", ""⟩]
  initialState := ∅
  goalState := ((∅ : StringMap).insert "left" "done").insert "right" "done"
  tasks := [
    { taskID := "t1", requiredResources := ["type:dock"], resultStates := [⟨"left", "done"⟩] },
    { taskID := "t2", requiredResources := ["type:dock"], resultStates := [⟨"right", "done"⟩] }]
  agents := [⟨"r1", "robot", [], true⟩]
  resources := [⟨"dock", "dock", "type", ""⟩, ⟨"dock1", "dock1", "instance", "dock"⟩]

/-- The problem is valid, and no fuel is enough to solve it. -/
theorem sharedTypeProblem_never_solved :
    validateProblem sharedTypeProblem = none ∧ ∀ fuel, solve fuel sharedTypeProblem = none := by
  have hgroup : ReachesGrouping sharedTypeProblem sharedTypeProblem.tasks
      (sharedTypeProblem.tasks.map fun task ↦ assignmentOf task
        (selectAgent task sharedTypeProblem.agents (agentNamesOf sharedTypeProblem.agents)
          (if task.taskID = "t1" then fun _ ↦ 0 else Function.update (fun _ ↦ 0) "r1" 1))) :=
    ⟨by decide, ⟨2, by decide⟩, by decide, by rfl, by rfl⟩
  refine ⟨by decide, fun fuel ↦ ?_⟩
  by_contra hne
  have hpool := (solve_exits_iff sharedTypeProblem).mp
    ⟨fuel, Option.isSome_iff_ne_none.mpr hne⟩ _ _ hgroup
  exact absurd hpool (by decide)

end Pddl
end FleetServer
