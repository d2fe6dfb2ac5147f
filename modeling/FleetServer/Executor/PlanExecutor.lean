import FleetServer.Executor.Scheduler
import FleetServer.Pddl.Types

/-!
# The plan executor

One plan execution of `internal/executor/plan_executor.go` as a transition system.  Its parties are
the goroutine `runPlanExecution`, which starts the groups of the plan one after the other; a
goroutine `dispatchStep` for each assignment of a group; any number of calls of `CancelExecution`;
and the scheduler, of which only the tasks created for this execution are seen.

A cancellation reads the runtime ids of the steps in one go and then calls `CancelTask` for each
(`cancelRuntimeTasks`).  `CancelExecution` does so before it cancels the context of the execution,
and `runPlanExecution` does so again before it gives the execution the status `cancelled`.  The
context can also be cancelled by whoever has started the execution.

A runtime task stays in `tasks` when it has left the scheduler's map: `waitForTask` and
`resolveTaskCompletionOutcome` then read the same data from the database.  The field `cancelCalled`
records for which tasks `CancelTask` has been called, and is read by no step.
-/

set_option autoImplicit false

namespace FleetServer
namespace Executor

open GoString

/-! ## The data -/

inductive PlanExecutionStatus
  | pending
  | running
  | completed
  | failed
  | cancelled
  deriving DecidableEq, Repr

structure StepExecutionStatus where
  status : TaskStatus := .pending
  runtimeTaskID : String := ""
  error : String := ""
  deriving DecidableEq, Repr

/-- What the plan executor reads of a task of the scheduler. -/
structure RuntimeTask where
  status : TaskStatus
  errorMessage : String
  deriving DecidableEq, Repr

/-- Where `runPlanExecution` is. -/
inductive RunnerPC
  | loading
  /-- At the head of the loop over the orders. -/
  | checking (order : ℕ)
  /-- The context was not cancelled; the group is about to be started. -/
  | launching (order : ℕ)
  /-- The goroutines of the group are running. -/
  | collecting (order : ℕ)
  /-- In `cancelExecution`, before the steps are read. -/
  | sweeping
  /-- In `cancelExecution`, with the runtime ids still to be cancelled. -/
  | cancelling (taskIDs : List String)
  | done
  deriving DecidableEq, Repr

/-- Where the goroutine `dispatchStep` of an assignment is. -/
inductive DispatchPC
  | idle
  | launched
  /-- In `StartTask`, before the task exists. -/
  | starting
  /-- In `StartTask`, after the task was created; its id is not recorded yet. -/
  | created (taskID : String)
  | waiting (taskID : String)
  | returned (err : Option String)
  deriving DecidableEq, Repr

/-- Where a call of `CancelExecution` is. -/
inductive Canceller
  /-- The execution was running or pending. -/
  | admitted
  /-- The steps were read; the ids are still to be cancelled. -/
  | cancelling (taskIDs : List String)
  deriving DecidableEq, Repr

structure PlanExecution where
  assignments : List Pddl.TaskAssignment
  status : PlanExecutionStatus := .pending
  error : String := ""
  stepStatuses : String → StepExecutionStatus := fun _ ↦ {}
  runner : RunnerPC := .loading
  /-- The goroutine of the assignment at each position of the plan. -/
  dispatcher : ℕ → DispatchPC := fun _ ↦ .idle
  cancellers : List Canceller := []
  /-- The context of the execution is cancelled. -/
  contextDone : Bool := false
  tasks : String → Option RuntimeTask := fun _ ↦ none
  cancelCalled : String → Bool := fun _ ↦ false

/-! ## Messages -/

inductive TaskResultMessageClass
  | none
  | warning
  | error
  deriving DecidableEq, Repr

/-- `classifyTaskResultMessage`. -/
def classifyTaskResultMessage (message : String) : TaskResultMessageClass × String :=
  let trimmed := trimSpace message
  match trimmed.toList with
  | c :: ':' :: payload =>
    if c.toLower = 'w' then (.warning, trimSpace (String.ofList payload))
    else if c.toLower = 'e' then (.error, trimSpace (String.ofList payload))
    else (.none, trimmed)
  | _ => (.none, trimmed)

/-- Where `waitForTask` finds a task that has come to an end. -/
inductive TaskRead
  | scheduler
  | database
  /-- The task has left the scheduler, and reading it from the database fails. -/
  | failure (err : String)
  deriving DecidableEq, Repr

/-- What `waitForTask` returns for a task that has come to an end. -/
def taskError (task : RuntimeTask) : TaskRead → Option String
  | .scheduler =>
    let msg := trimSpace task.errorMessage
    match task.status with
    | .completed => none
    | .failed => some (if msg ≠ "" then "task failed: " ++ msg else "task failed")
    | _ => some (if msg ≠ "" then "task cancelled: " ++ msg else "task cancelled")
  | .database =>
    match task.status with
    | .completed => none
    | .failed =>
      some (if task.errorMessage ≠ "" then "task failed: " ++ task.errorMessage else "task failed")
    | _ => some "task cancelled"
  | .failure err => some err

/-- The message `resolveTaskCompletionOutcome` finds for it. -/
def taskMessage (task : RuntimeTask) : TaskRead → String
  | .failure err => trimSpace err
  | _ => trimSpace task.errorMessage

/-! ## Cancelling runtime tasks -/

namespace PlanExecution

variable (p : PlanExecution)

/-- The assignment at a position, if the plan is that long. -/
def stepID (i : ℕ) : String := (p.assignments[i]?.map (·.taskID)).getD ""

/-- The positions of a group. -/
def orderGroup (order : ℕ) : List ℕ :=
  (List.range p.assignments.length).filter fun i ↦
    (p.assignments[i]?.map (·.order)) = some order

def totalOrders : ℕ := (p.assignments.map (·.order)).foldl max 0 + 1

/-- The ids `cancelRuntimeTasks` reads: those of the steps that have one and are not finished. -/
def runtimeTaskIDs : List String :=
  ((p.assignments.map (·.taskID)).dedup.filterMap fun id ↦
    let step := p.stepStatuses id
    let taskID := trimSpace step.runtimeTaskID
    if taskID = "" ∨ step.status.isTerminal then none else some taskID).dedup

/-- `CancelTask` is called for a task. -/
def callCancel (taskID : String) : PlanExecution :=
  { p with cancelCalled := Function.update p.cancelCalled taskID true }

/-! ## `runPlanExecution` -/

/-- The part before the loop over the orders: the trees and the planning state are loaded. -/
def load (failure : Option String) : Option PlanExecution :=
  if p.runner = .loading then
    match failure with
    | some err => some { p with status := .failed, error := err, runner := .done }
    | none => some { p with status := .running, runner := .checking 0 }
  else none

/-- The head of the loop. -/
def check : Option PlanExecution :=
  match p.runner with
  | .checking order =>
    if p.totalOrders ≤ order then some { p with status := .completed, runner := .done }
    else if p.contextDone then some { p with runner := .sweeping }
    else if p.orderGroup order = [] then some { p with runner := .checking (order + 1) }
    else some { p with runner := .launching order }
  | _ => none

/-- The goroutines of the group are started. -/
def launch : Option PlanExecution :=
  match p.runner with
  | .launching order => some { p with
      runner := .collecting order
      dispatcher := fun i ↦ if i ∈ p.orderGroup order then .launched else p.dispatcher i }
  | _ => none

/-- The error of a goroutine that has returned. -/
def groupError (order : ℕ) : Option String :=
  (p.orderGroup order).foldl (fun acc i ↦
    match p.dispatcher i with
    | .returned (some err) => some ("task " ++ p.stepID i ++ " failed: " ++ err)
    | _ => acc) none

/-- The results of the group are collected when all of its goroutines have returned. -/
def collect : Option PlanExecution :=
  match p.runner with
  | .collecting order =>
    if (p.orderGroup order).all fun i ↦ p.dispatcher i matches .returned _ then
      if p.contextDone then some { p with runner := .sweeping }
      else match p.groupError order with
        | some err => some { p with status := .failed, error := err, runner := .done }
        | none => some { p with runner := .checking (order + 1) }
    else none
  | _ => none

/-- `cancelExecution` reads the steps. -/
def runnerSweep : Option PlanExecution :=
  if p.runner = .sweeping then some { p with runner := .cancelling p.runtimeTaskIDs } else none

/-- `cancelExecution` cancels a task. -/
def runnerCancel (taskID : String) : Option PlanExecution :=
  match p.runner with
  | .cancelling taskIDs =>
    if taskID ∈ taskIDs then
      some { p.callCancel taskID with runner := .cancelling (taskIDs.erase taskID) }
    else none
  | _ => none

/-- `cancelExecution` ends. -/
def runnerCancelled : Option PlanExecution :=
  if p.runner = .cancelling [] then
    some { p with status := .cancelled, error := "cancelled by user", runner := .done }
  else none

/-! ## `dispatchStep` -/

def setDispatcher (i : ℕ) (pc : DispatchPC) : PlanExecution :=
  { p with dispatcher := Function.update p.dispatcher i pc }

def setStep (id : String) (step : StepExecutionStatus) : PlanExecution :=
  { p with stepStatuses := Function.update p.stepStatuses id step }

/-- The step is marked running. -/
def begin (i : ℕ) : Option PlanExecution :=
  if p.dispatcher i = .launched then
    some ((p.setStep (p.stepID i) { p.stepStatuses (p.stepID i) with status := .running }
      ).setDispatcher i .starting)
  else none

/-- `StartTask` returns an error. -/
def startFails (i : ℕ) (err : String) : Option PlanExecution :=
  if p.dispatcher i = .starting then
    some ((p.setStep (p.stepID i)
      { p.stepStatuses (p.stepID i) with status := .failed, error := err }).setDispatcher i
        (.returned (some err)))
  else none

/-- `StartTask` puts a task into the scheduler, under a name that is new. -/
def createTask (i : ℕ) (taskID : String) : Option PlanExecution :=
  if p.dispatcher i = .starting ∧ p.tasks taskID = none ∧ taskID ≠ "" ∧
      trimSpace taskID = taskID then
    some { p.setDispatcher i (.created taskID) with
      tasks := Function.update p.tasks taskID (some ⟨.pending, ""⟩) }
  else none

/-- `StartTask` has returned, and the id of the task is recorded. -/
def recordTask (i : ℕ) : Option PlanExecution :=
  match p.dispatcher i with
  | .created taskID =>
    some ((p.setStep (p.stepID i)
      { p.stepStatuses (p.stepID i) with runtimeTaskID := taskID }).setDispatcher i
        (.waiting taskID))
  | _ => none

/-- What `dispatchStep` makes of the end of its wait: the status of the step, its error, and the
error it returns. -/
def stepOutcome (contextDone : Bool) (err : Option String) (message : String) :
    TaskStatus × String × Option String :=
  let (messageClass, normalizedMessage) := classifyTaskResultMessage message
  match err with
  | some e =>
    let status : TaskStatus :=
      if contextDone || contains (toLower e) "cancel" then .cancelled else .failed
    let rawMessage := trimSpace message
    let errorMessage :=
      if trimSpace normalizedMessage = "" then rawMessage else normalizedMessage
    (status,
      if rawMessage ≠ "" then rawMessage else if errorMessage ≠ "" then errorMessage else e,
      some e)
  | none =>
    let text := if trimSpace message ≠ "" then trimSpace message else normalizedMessage
    match messageClass with
    | .warning => (.completed, text, none)
    | .error => (.failed, text, some ("task error: " ++ normalizedMessage))
    | .none => (.completed, "", none)

/-- The end of `dispatchStep`. -/
def finish (i : ℕ) (err : Option String) (message : String) : PlanExecution :=
  let outcome := stepOutcome p.contextDone err message
  (p.setStep (p.stepID i)
    { p.stepStatuses (p.stepID i) with status := outcome.1, error := outcome.2.1 }).setDispatcher i
      (.returned outcome.2.2)

/-- `waitForTask` returns because the context is cancelled. -/
def waitCancelled (i : ℕ) : Option PlanExecution :=
  match p.dispatcher i with
  | .waiting taskID =>
    match p.tasks taskID with
    | some task =>
      if p.contextDone then some (p.finish i (some "cancelled") (trimSpace task.errorMessage))
      else none
    | none => none
  | _ => none

/-- `waitForTask` returns because the task has come to an end. -/
def waitEnds (i : ℕ) (read : TaskRead) : Option PlanExecution :=
  match p.dispatcher i with
  | .waiting taskID =>
    match p.tasks taskID with
    | some task =>
      if task.status.isTerminal then
        some (p.finish i (taskError task read) (taskMessage task read))
      else none
    | none => none
  | _ => none

/-! ## The scheduler -/

/-- The scheduler changes a task; one that has come to an end stays so. -/
def updateTask (taskID : String) (task' : RuntimeTask) : Option PlanExecution :=
  match p.tasks taskID with
  | some task =>
    if task.status.isTerminal ∧ !task'.status.isTerminal then none
    else some { p with tasks := Function.update p.tasks taskID (some task') }
  | none => none

/-! ## `CancelExecution` -/

def cancelExecution : Option PlanExecution :=
  if p.status = .running ∨ p.status = .pending then
    some { p with cancellers := .admitted :: p.cancellers }
  else none

/-- `CancelExecution` reads the steps. -/
def cancelSweep : Option PlanExecution :=
  if .admitted ∈ p.cancellers then
    some { p with cancellers := .cancelling p.runtimeTaskIDs :: p.cancellers.erase .admitted }
  else none

/-- `CancelExecution` cancels a task. -/
def cancelNext (taskIDs : List String) (taskID : String) : Option PlanExecution :=
  if .cancelling taskIDs ∈ p.cancellers ∧ taskID ∈ taskIDs then
    some { p.callCancel taskID with
      cancellers := .cancelling (taskIDs.erase taskID) ::
        p.cancellers.erase (.cancelling taskIDs) }
  else none

/-- `CancelExecution` cancels the context. -/
def cancelSignal : Option PlanExecution :=
  if .cancelling [] ∈ p.cancellers then
    some { p with contextDone := true, cancellers := p.cancellers.erase (.cancelling []) }
  else none

/-- Whoever has started the execution cancels its context. -/
def parentDone : PlanExecution := { p with contextDone := true }

end PlanExecution

/-! ## The system -/

inductive PlanAction
  | load (failure : Option String)
  | check
  | launch
  | collect
  | runnerSweep
  | runnerCancel (taskID : String)
  | runnerCancelled
  | begin (i : ℕ)
  | startFails (i : ℕ) (err : String)
  | createTask (i : ℕ) (taskID : String)
  | recordTask (i : ℕ)
  | waitCancelled (i : ℕ)
  | waitEnds (i : ℕ) (read : TaskRead)
  | updateTask (taskID : String) (task : RuntimeTask)
  | cancelExecution
  | cancelSweep
  | cancelNext (taskIDs : List String) (taskID : String)
  | cancelSignal
  | parentDone

/-- One step of a plan execution. -/
def planStep (p : PlanExecution) : PlanAction → Option PlanExecution
  | .load failure => p.load failure
  | .check => p.check
  | .launch => p.launch
  | .collect => p.collect
  | .runnerSweep => p.runnerSweep
  | .runnerCancel taskID => p.runnerCancel taskID
  | .runnerCancelled => p.runnerCancelled
  | .begin i => p.begin i
  | .startFails i err => p.startFails i err
  | .createTask i taskID => p.createTask i taskID
  | .recordTask i => p.recordTask i
  | .waitCancelled i => p.waitCancelled i
  | .waitEnds i read => p.waitEnds i read
  | .updateTask taskID task => p.updateTask taskID task
  | .cancelExecution => p.cancelExecution
  | .cancelSweep => p.cancelSweep
  | .cancelNext taskIDs taskID => p.cancelNext taskIDs taskID
  | .cancelSignal => p.cancelSignal
  | .parentDone => some p.parentDone

/-- `StartPlanExecution` has prepared an execution of a plan. -/
def Prepared (p : PlanExecution) : Prop := ∃ assignments, p = { assignments }

end Executor
end FleetServer
