import Mathlib.Logic.Function.Basic
import FleetServer.Pddl.Types

/-!
# Planning states

The planner's current state is a map that is only read at a key, where a missing key reads as the
empty string; here it is a function.  A condition compares the value of its variable; the operator
is `!=`, and everything else is read as `==`.
-/

set_option autoImplicit false

namespace FleetServer
namespace Pddl

abbrev PlanState := String → String

/-- Whether a value satisfies a condition on its variable. -/
def accepts (cond : PlanningCondition) (currentValue : String) : Bool :=
  if cond.operator = "!=" then currentValue ≠ cond.value else currentValue = cond.value

def conditionMet (current : PlanState) (cond : PlanningCondition) : Bool :=
  accepts cond (current cond.var)

def effectSatisfiesCondition (effect : PlanningEffect) (cond : PlanningCondition) : Bool :=
  effect.var = cond.var && accepts cond effect.value

/-- A condition without a variable is skipped. -/
def preconditionsMet (current : PlanState) (conds : List PlanningCondition) : Bool :=
  conds.all fun cond ↦ cond.var = "" || accepts cond (current cond.var)

def goalSatisfied (current : PlanState) (goal : StringMap) : Bool :=
  goal.entries.all fun entry ↦ current entry.1 = entry.2

/-- Assigning the effects in turn. -/
def applyEffects (current : PlanState) (effects : List PlanningEffect) : PlanState :=
  effects.foldl (fun current effect ↦ Function.update current effect.var effect.value) current

/-- The state `Solve` starts from: the declared initial values, overridden by the initial state. -/
def initialPlanState (problem : PlanProblem) : PlanState :=
  let declared : PlanState := problem.stateVars.foldl (fun current stateVar ↦
    if stateVar.initialValue ≠ "" then
      Function.update current stateVar.name stateVar.initialValue
    else current) fun _ ↦ ""
  problem.initialState.entries.foldl
    (fun current entry ↦ Function.update current entry.1 entry.2) declared

/-! ## What a task writes -/

/-- The value a list of effects leaves in a variable, if it assigns it at all. -/
def finalWrite (effects : List PlanningEffect) (v : String) : Option String :=
  effects.foldl (fun acc effect ↦ if effect.var = v then some effect.value else acc) none

theorem foldl_finalWrite (effects : List PlanningEffect) (v : String) (acc : Option String) :
    effects.foldl (fun acc effect ↦ if effect.var = v then some effect.value else acc) acc =
      (finalWrite effects v).or acc := by
  induction effects generalizing acc with
  | nil => simp [finalWrite]
  | cons effect rest ih =>
    rw [finalWrite, List.foldl_cons, List.foldl_cons, ih, ih, Option.or_assoc]
    split <;> simp

theorem finalWrite_cons (effect : PlanningEffect) (rest : List PlanningEffect) (v : String) :
    finalWrite (effect :: rest) v =
      (finalWrite rest v).or (if effect.var = v then some effect.value else none) :=
  foldl_finalWrite rest v _

/-- Applying effects changes a variable to what they write last, and leaves the others alone. -/
theorem applyEffects_apply (current : PlanState) (effects : List PlanningEffect) (v : String) :
    applyEffects current effects v = (finalWrite effects v).getD (current v) := by
  induction effects generalizing current with
  | nil => rfl
  | cons effect rest ih =>
    have hrest := ih (Function.update current effect.var effect.value)
    rw [finalWrite_cons]
    by_cases hv : effect.var = v
    · subst hv
      rw [Function.update_self] at hrest
      rw [if_pos rfl]
      refine hrest.trans ?_
      cases finalWrite rest effect.var <;> rfl
    · rw [Function.update_of_ne (Ne.symm hv)] at hrest
      rw [if_neg hv, Option.or_none]
      exact hrest

theorem goalSatisfied_iff {current : PlanState} {goal : StringMap} :
    goalSatisfied current goal = true ↔ ∀ entry ∈ goal.entries, current entry.1 = entry.2 := by
  simp [goalSatisfied]

theorem preconditionsMet_iff {current : PlanState} {conds : List PlanningCondition} :
    preconditionsMet current conds = true ↔
      ∀ cond ∈ conds, cond.var ≠ "" → accepts cond (current cond.var) = true := by
  simp only [preconditionsMet, List.all_eq_true, Bool.or_eq_true, decide_eq_true_eq, ne_eq,
    or_iff_not_imp_left]

end Pddl
end FleetServer
