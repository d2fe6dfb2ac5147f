import FleetServer.Executor.PlanExecutor
import FleetServer.Pddl.PlanState

/-!
# The effects of a step

When a step of a plan comes to an end, `dispatchStep` of `internal/executor/plan_executor.go`
writes the effects of its task to the planning state of the execution: the result states, after
them the warning or the error states when there is something to warn of, and the text of the
message in the variable that is meant for it.  A step that could not be started writes nothing.

A planning state is a map; a variable that is not in it has no value.
-/

set_option autoImplicit false

namespace FleetServer

abbrev PlanningState := String → Option String

namespace Executor

open GoString Pddl PlanExecution

/-! ## Messages as effects -/

/-- The effect that writes a message: the first effect of the variable is overwritten, and if there
is none it is added. -/
def writeMessage (messageVariable message : String) : List PlanningEffect → List PlanningEffect
  | [] => [⟨messageVariable, message⟩]
  | effect :: rest =>
    if trimSpace effect.var = messageVariable then { effect with value := message } :: rest
    else effect :: writeMessage messageVariable message rest

/-- `appendPlanningMessageEffect`. -/
def appendPlanningMessageEffect (effects : List PlanningEffect)
    (messageVariable message : String) : List PlanningEffect :=
  if trimSpace messageVariable = "" then effects
  else writeMessage (trimSpace messageVariable) (trimSpace message) effects

/-! ## Applying effects -/

/-- `UpdatePlanningState`. -/
def updatePlanningState (current effects : PlanningState) : PlanningState :=
  fun v ↦ (effects v).or (current v)

/-- The map that `applyPlanningEffects` fills: effects of a blank variable are left out, and of two
effects of one variable the later counts. -/
def planningEffects (effects : List PlanningEffect) : PlanningState :=
  finalWrite (effects.filter fun effect ↦ trimSpace effect.var ≠ "")

/-- `applyPlanningEffects`. -/
def applyPlanningEffects (current : PlanningState) (effects : List PlanningEffect) :
    PlanningState :=
  updatePlanningState current (planningEffects effects)

/-! ## The end of a step -/

/-- How `dispatchStep` comes to an end: `StartTask` fails, or `waitForTask` returns, with an error
or without, and the task has a message. -/
inductive StepEnd
  | notStarted (err : String)
  | ended (contextDone : Bool) (err : Option String) (message : String)
  deriving DecidableEq, Repr

/-- The status and the error `dispatchStep` leaves in the step. -/
def StepEnd.stepStatus : StepEnd → TaskStatus × String
  | notStarted err => (.failed, err)
  | ended contextDone err message =>
    ((stepOutcome contextDone err message).1, (stepOutcome contextDone err message).2.1)

/-- The effects `dispatchStep` applies. -/
def stepEffects (assignment : TaskAssignment) : StepEnd → List PlanningEffect
  | .notStarted _ => []
  | .ended _ (some _) message =>
    let normalizedMessage := (classifyTaskResultMessage message).2
    let errorMessage :=
      if trimSpace normalizedMessage = "" then trimSpace message else normalizedMessage
    appendPlanningMessageEffect (assignment.resultStates ++ assignment.errorResultStates)
      assignment.errorMessageVariable errorMessage
  | .ended _ none message =>
    let (messageClass, normalizedMessage) := classifyTaskResultMessage message
    match messageClass with
    | .warning =>
      appendPlanningMessageEffect (assignment.resultStates ++ assignment.warningResultStates)
        assignment.warningMessageVariable normalizedMessage
    | .error =>
      appendPlanningMessageEffect (assignment.resultStates ++ assignment.errorResultStates)
        assignment.errorMessageVariable normalizedMessage
    | .none => assignment.resultStates

/-! ## A plan -/

/-- A step of a plan, and how it came to an end, if it was dispatched. -/
structure RunStep where
  assignment : TaskAssignment
  stepEnd : Option StepEnd

/-- The planning state after a step. -/
def afterStep (current : PlanningState) (step : RunStep) : PlanningState :=
  match step.stepEnd with
  | none => current
  | some stepEnd => applyPlanningEffects current (stepEffects step.assignment stepEnd)

/-- The planning state of an execution whose steps come to an end one after the other. -/
def executedState (initial : PlanningState) (steps : List RunStep) : PlanningState :=
  steps.foldl afterStep initial

end Executor
end FleetServer
