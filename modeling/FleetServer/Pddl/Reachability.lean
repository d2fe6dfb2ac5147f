import Mathlib.Data.Finset.Card
import Mathlib.Data.Finset.Filter
import Mathlib.Data.Finset.Dedup
import FleetServer.Pddl.PlanState

/-!
# Reachability of the goal

`checkReachability` collects, for each variable, the values some task can give it when
preconditions are read in a relaxed way, and it repeats its pass over the tasks for as long as a
pass adds something.  The loop takes a bound on the number of passes; `exists_reachLoop` shows that
some bound is enough, because each pass that goes on moves an effect of a task out of the finite
set of effects not reached yet (`missing`).
-/

set_option autoImplicit false

namespace FleetServer
namespace Pddl

/-- The values each variable can have. -/
abbrev Reachable := String → Finset String

def relaxedPreconditionsMet (reachable : Reachable) (conds : List PlanningCondition) : Bool :=
  conds.all fun cond ↦
    if cond.var = "" then true
    else
      let values := reachable cond.var
      if values.card = 0 then false
      else if cond.operator = "!=" then !(values.card = 1 && cond.value ∈ values)
      else cond.value ∈ values

/-- Adding one effect; the flag records that something changed. -/
def reachEffect (acc : Reachable × Bool) (effect : PlanningEffect) : Reachable × Bool :=
  if effect.value ∈ acc.1 effect.var then acc
  else (Function.update acc.1 effect.var (insert effect.value (acc.1 effect.var)), true)

def reachTask (acc : Reachable × Bool) (task : PlanTask) : Reachable × Bool :=
  if relaxedPreconditionsMet acc.1 task.preconditions then task.resultStates.foldl reachEffect acc
  else acc

/-- One pass over the tasks. -/
def reachPass (tasks : List PlanTask) (reachable : Reachable) : Reachable × Bool :=
  tasks.foldl reachTask (reachable, false)

/-- Passes until one of them changes nothing. -/
def reachLoop (tasks : List PlanTask) : ℕ → Reachable → Option Reachable
  | 0, _ => none
  | fuel + 1, reachable =>
    let pass := reachPass tasks reachable
    if pass.2 then reachLoop tasks fuel pass.1 else some pass.1

def initialReachable (problem : PlanProblem) : Reachable :=
  let declared : Reachable := problem.stateVars.foldl (fun reachable stateVar ↦
    Function.update reachable stateVar.name
      (if stateVar.initialValue ≠ "" then {stateVar.initialValue} else ∅)) fun _ ↦ ∅
  problem.initialState.entries.foldl
    (fun reachable entry ↦ Function.update reachable entry.1 (insert entry.2 (reachable entry.1)))
    declared

/-- The fault found, if any: a goal value no task can produce. -/
def checkReachability (fuel : ℕ) (problem : PlanProblem) : Option (Option String) :=
  (reachLoop problem.tasks fuel (initialReachable problem)).map fun reachable ↦
    problem.goalState.entries.findSome? fun entry ↦
      if entry.2 ∈ reachable entry.1 then none
      else some ("goal " ++ entry.1 ++ "=" ++ entry.2 ++
        " is unreachable: no task can produce this value")

/-! ## The passes come to an end -/

/-- Nothing is lost on the way from `p` to `q`, and if the flag was set on the way then an effect
of the list was reached that had not been. -/
structure Grows (effects : List PlanningEffect) (p q : Reachable × Bool) : Prop where
  le : ∀ v, p.1 v ⊆ q.1 v
  new : q.2 = true → p.2 = true ∨
    ∃ effect ∈ effects, effect.value ∉ p.1 effect.var ∧ effect.value ∈ q.1 effect.var

variable {effects : List PlanningEffect} {p q r : Reachable × Bool}

theorem Grows.refl (effects : List PlanningEffect) (p : Reachable × Bool) : Grows effects p p :=
  ⟨fun _ _ h ↦ h, Or.inl⟩

theorem Grows.trans (hpq : Grows effects p q) (hqr : Grows effects q r) : Grows effects p r := by
  refine ⟨fun v _ h ↦ hqr.le v (hpq.le v h), fun hr ↦ ?_⟩
  rcases hqr.new hr with hq | ⟨effect, hmem, hnot, hin⟩
  · rcases hpq.new hq with hp | ⟨effect, hmem, hnot, hin⟩
    · exact Or.inl hp
    · exact Or.inr ⟨effect, hmem, hnot, hqr.le _ hin⟩
  · exact Or.inr ⟨effect, hmem, fun h ↦ hnot (hpq.le _ h), hin⟩

theorem grows_reachEffect (acc : Reachable × Bool) {effect : PlanningEffect}
    (hmem : effect ∈ effects) : Grows effects acc (reachEffect acc effect) := by
  rw [reachEffect]
  split
  · exact Grows.refl _ _
  · rename_i hnot
    refine ⟨fun v w hw ↦ ?_, fun _ ↦ Or.inr ⟨effect, hmem, hnot, by simp⟩⟩
    by_cases hv : v = effect.var
    · subst hv
      simpa using Or.inr hw
    · simpa [Function.update_of_ne hv] using hw

theorem grows_foldl {β : Type} {f : Reachable × Bool → β → Reachable × Bool} {l : List β}
    (h : ∀ acc, ∀ b ∈ l, Grows effects acc (f acc b)) (acc : Reachable × Bool) :
    Grows effects acc (l.foldl f acc) := by
  induction l generalizing acc with
  | nil => exact Grows.refl _ _
  | cons b rest ih =>
    exact (h acc b List.mem_cons_self).trans
      (ih (fun acc c hc ↦ h acc c (List.mem_cons_of_mem _ hc)) (f acc b))

/-- One pass only adds, and only effects of the tasks. -/
theorem grows_reachPass (tasks : List PlanTask) (reachable : Reachable) :
    Grows (tasks.flatMap PlanTask.resultStates) (reachable, false) (reachPass tasks reachable) := by
  refine grows_foldl (fun acc task htask ↦ ?_) _
  rw [reachTask]
  split
  · exact grows_foldl (fun acc effect heffect ↦ grows_reachEffect acc
      (List.mem_flatMap.mpr ⟨task, htask, heffect⟩)) acc
  · exact Grows.refl _ _

/-- The effects of the tasks that were not reached yet. -/
def missing (tasks : List PlanTask) (reachable : Reachable) : Finset PlanningEffect :=
  (tasks.flatMap PlanTask.resultStates).toFinset.filter fun effect ↦
    effect.value ∉ reachable effect.var

theorem missing_reachPass_lt {tasks : List PlanTask} {reachable : Reachable}
    (h : (reachPass tasks reachable).2 = true) :
    (missing tasks (reachPass tasks reachable).1).card < (missing tasks reachable).card := by
  have hgrows := grows_reachPass tasks reachable
  obtain ⟨effect, hmem, hnot, hin⟩ := (hgrows.new h).resolve_left (by simp)
  refine Finset.card_lt_card (Finset.ssubset_iff_subset_ne.mpr ⟨fun e he ↦ ?_, fun heq ↦ ?_⟩)
  · obtain ⟨he, hne⟩ := Finset.mem_filter.mp he
    exact Finset.mem_filter.mpr ⟨he, fun hr ↦ hne (hgrows.le _ hr)⟩
  · have hin' : effect ∈ missing tasks reachable :=
      Finset.mem_filter.mpr ⟨List.mem_toFinset.mpr hmem, hnot⟩
    rw [← heq] at hin'
    exact (Finset.mem_filter.mp hin').2 hin

/-- **The reachability loop ends**, after at most as many passes as there are effects to reach. -/
theorem reachLoop_isSome {tasks : List PlanTask} {fuel : ℕ} {reachable : Reachable}
    (h : (missing tasks reachable).card < fuel) : (reachLoop tasks fuel reachable).isSome := by
  induction fuel generalizing reachable with
  | zero => exact absurd h (Nat.not_lt_zero _)
  | succ fuel ih =>
    simp only [reachLoop]
    split
    · rename_i hchanged
      exact ih (lt_of_lt_of_le (missing_reachPass_lt hchanged) (Nat.lt_succ_iff.mp h))
    · rfl

theorem reachLoop_mono {tasks : List PlanTask} {fuel fuel' : ℕ} {reachable out : Reachable}
    (h : reachLoop tasks fuel reachable = some out) (hle : fuel ≤ fuel') :
    reachLoop tasks fuel' reachable = some out := by
  induction fuel generalizing fuel' reachable with
  | zero => simp [reachLoop] at h
  | succ fuel ih =>
    obtain ⟨fuel', rfl⟩ : ∃ k, fuel' = k + 1 := ⟨fuel' - 1, by omega⟩
    simp only [reachLoop] at h ⊢
    split at h
    · rename_i hchanged
      rw [if_pos hchanged]
      exact ih h (by omega)
    · rename_i hchanged
      rw [if_neg hchanged]
      exact h

theorem exists_checkReachability (problem : PlanProblem) :
    ∃ fuel fault, checkReachability fuel problem = some fault := by
  obtain ⟨reachable, h⟩ := Option.isSome_iff_exists.mp
    (reachLoop_isSome (Nat.lt_succ_self (missing problem.tasks (initialReachable problem)).card))
  exact ⟨_, _, by rw [checkReachability, h, Option.map_some]⟩

theorem checkReachability_mono {problem : PlanProblem} {fuel fuel' : ℕ} {fault : Option String}
    (h : checkReachability fuel problem = some fault) (hle : fuel ≤ fuel') :
    checkReachability fuel' problem = some fault := by
  obtain ⟨reachable, hr, rfl⟩ := Option.map_eq_some_iff.mp h
  rw [checkReachability, reachLoop_mono hr hle, Option.map_some]

end Pddl
end FleetServer
