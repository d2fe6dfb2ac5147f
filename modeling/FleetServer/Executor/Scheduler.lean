import FleetServer.Lib.Run
import FleetServer.State.Manager

/-!
# The scheduler

The scheduler of `internal/executor/scheduler.go` as a transition system.  One step is what one
goroutine does between two points where another one can come in between: a section under one lock
(`tasksMu`, `taskCompleteMu`, the state manager's), an operation on a channel, or a message.

* `StartTask` queues a task for its agent and starts the goroutine `runTask` for it;
  `StartMultiAgentTask` starts `runTask` without queueing anything.
* The handlers of heartbeats and task-state updates run `ObserveAgentExecution`; together with
  `DispatchIdleAgents` they call `dispatchNextQueuedTask`, which holds `tasksMu` from its first step
  to its last (`Frame`).  Meanwhile everything that needs no `tasksMu` goes on.
* `runTask` registers a completion channel, waits for the agent's report or for its context, and
  cleans up in five steps (`RunPC`).
* `NotifyTaskComplete` looks the channel up and later sends on it (`Notifier`); `CancelTask` is four
  steps (`CancelStage`).

What is left open is chosen by the actions: the clock, what the agents report, whether a reservation
of resources succeeds, whether sending a message fails.

Four fields of the state record what has happened and are read by no step: `outbox`, `ended`,
`returned`, and `received` of a worker.
-/

set_option autoImplicit false

namespace FleetServer
namespace Executor

open GoString State State.Manager

/-! ## Tasks -/

inductive TaskStatus
  | pending
  | running
  | completed
  | failed
  | cancelled
  | paused
  deriving DecidableEq, Repr

def TaskStatus.isTerminal (status : TaskStatus) : Bool :=
  status = .completed || status = .failed || status = .cancelled

/-- A task object.  Times that are the zero time in the source are `none`. -/
structure RunningTask where
  id : String
  behaviorTreeID : String
  agentID : String
  entryStepID : String
  status : TaskStatus := .pending
  reservedZones : List String := []
  preconditions : List Precondition := []
  dispatchSent : Bool := false
  dispatchLeaseUntil : Option ℕ := none
  dispatchAttempts : ℕ := 0
  dispatchRetryAt : Option ℕ := none
  dispatchFirstError : Option ℕ := none
  startedAt : Option ℕ := none
  errorMessage : String := ""
  deriving DecidableEq, Repr

/-- What is sent on a completion channel.  Only terminal statuses are: the agents' terminal reports
and the failure of a dispatch. -/
structure TaskCompletionResult where
  taskID : String
  status : TaskStatus
  error : String
  terminal : status.isTerminal = true
  deriving DecidableEq

/-! ## The goroutines -/

/-- Where the goroutine `runTask` of a task is. -/
inductive RunPC
  /-- There is none. -/
  | absent
  /-- Started; the completion channel is not registered yet. -/
  | created
  /-- Waiting on the channel and on the context. -/
  | waiting
  /-- A status is set; the deferred clean-up begins. -/
  | finishing
  /-- The channel is no longer registered, but open. -/
  | unregistered
  /-- The channel is closed. -/
  | closed
  /-- `CompleteExecution` has been called. -/
  | released
  /-- The task is out of the queue and out of `s.tasks`. -/
  | done
  deriving DecidableEq, Repr

/-- The goroutine of a task, its completion channel (of capacity 1) and its context. -/
structure Worker where
  pc : RunPC := .absent
  buffer : Option TaskCompletionResult := none
  contextDone : Bool := false
  received : Option TaskCompletionResult := none
  deriving DecidableEq

/-- The channel is in `s.taskComplete`. -/
def Worker.registered (worker : Worker) : Bool := worker.pc = .waiting || worker.pc = .finishing

/-- The channel is closed. -/
def Worker.isClosed (worker : Worker) : Bool :=
  worker.pc = .closed || worker.pc = .released || worker.pc = .done

/-- A call of `NotifyTaskComplete`: whether it has found the channel yet, and whether the task was
in `s.tasks` and not finished when it was made. -/
structure Notifier where
  result : TaskCompletionResult
  live : Bool
  found : Bool := false
  deriving DecidableEq

/-- Where a handler of an agent's message is. -/
inductive Stage
  | acknowledge
  | check
  | dispatch
  | complete
  | notify
  deriving DecidableEq, Repr

/-- A call of `ObserveAgentExecution`.  When it is part of handling a terminal report, that report
is completed and notified afterwards. -/
structure Handler where
  agentID : String
  isExecuting : Bool
  currentTaskID : String
  report : Option TaskCompletionResult
  stage : Stage
  deriving DecidableEq

inductive CancelStage
  | cancelContext
  | removeQueued
  | sendCancel
  deriving DecidableEq, Repr

/-- Where `dispatchNextQueuedTask` is. -/
inductive Phase
  | scan
  | expire
  | reserve
  | tryStart
  | send
  deriving DecidableEq, Repr

/-- A call of `dispatchNextQueuedTask` under way.  The queue it works on is kept in `s.taskQueues`
itself, which nobody else reads or writes before it is done. -/
structure Frame where
  agentID : String
  now : ℕ
  phase : Phase
  deriving DecidableEq, Repr

inductive ServerMessage
  | startTask (agentID taskID : String)
  | cancel (agentID taskID : String)
  deriving DecidableEq, Repr

structure SchedulerState where
  manager : Manager
  /-- The task objects ever created. -/
  task : String → Option RunningTask := fun _ ↦ none
  /-- The keys of `s.tasks`. -/
  active : String → Bool := fun _ ↦ false
  taskQueues : String → List String := fun _ ↦ []
  /-- The holder of `tasksMu` when it is `dispatchNextQueuedTask`. -/
  dispatching : Option Frame := none
  worker : String → Worker := fun _ ↦ {}
  notifiers : List Notifier := []
  handlers : List Handler := []
  cancels : List (String × CancelStage) := []
  /-- The tasks `StartMultiAgentTask` has still to create. -/
  creating : List MultiExecutionRequest := []
  /-- A send on a closed channel has stopped the server. -/
  panicked : Bool := false
  /-- The messages sent, the latest first. -/
  outbox : List ServerMessage := []
  /-- The tasks whose end has been reported, whose dispatch has been given up, or which have been
  cancelled. -/
  ended : String → Bool := fun _ ↦ false
  /-- The calls of `NotifyTaskComplete` that have returned. -/
  returned : List Notifier := []

namespace SchedulerState

variable (s : SchedulerState)

def setTask (taskID : String) (task : RunningTask) : SchedulerState :=
  { s with task := Function.update s.task taskID (some task) }

def setWorker (taskID : String) (worker : Worker) : SchedulerState :=
  { s with worker := Function.update s.worker taskID worker }

def setEnded (taskID : String) : SchedulerState :=
  { s with ended := Function.update s.ended taskID true }

/-- `removeQueuedTaskLocked`. -/
def removeQueued (agentID taskID : String) : SchedulerState :=
  { s with
    taskQueues := Function.update s.taskQueues agentID ((s.taskQueues agentID).erase taskID) }

/-- The call of `NotifyTaskComplete` with a result. -/
def notifierOf (result : TaskCompletionResult) : Notifier :=
  { result
    live := s.active result.taskID &&
      (s.task result.taskID).any fun task ↦ !task.status.isTerminal }

/-! ## Starting tasks -/

/-- What `StartTask` has made of its arguments when it queues the task. -/
structure StartRequest where
  taskID : String
  behaviorTreeID : String
  agentID : String
  entryStepID : String
  reservedZones : List String := []
  preconditions : List Precondition := []
  deriving DecidableEq, Repr

/-- The last part of `StartTask`.  A task id is new and not empty. -/
def startTask (r : StartRequest) : Option SchedulerState :=
  if s.dispatching = none ∧ s.task r.taskID = none ∧ r.taskID ≠ "" ∧
      (s.manager.robots r.agentID).isSome then
    some { s with
      task := Function.update s.task r.taskID (some
        { id := r.taskID, behaviorTreeID := r.behaviorTreeID, agentID := r.agentID
          entryStepID := r.entryStepID, reservedZones := r.reservedZones
          preconditions := r.preconditions })
      active := Function.update s.active r.taskID true
      taskQueues :=
        Function.update s.taskQueues r.agentID (s.taskQueues r.agentID ++ [r.taskID])
      worker := Function.update s.worker r.taskID { pc := .created } }
  else none

/-- The part of `StartMultiAgentTask` before the tasks are created. -/
def startMultiAgentTask (now : ℕ) (executions : List MultiExecutionRequest)
    (preconditions : List Precondition) : Option SchedulerState :=
  match s.manager.tryStartMultiExecution now executions preconditions with
  | (_, some _) => none
  | (manager, none) => some { s with manager, creating := s.creating ++ executions }

/-- The loop body of `StartMultiAgentTask`: one task is created and its goroutine started.  A
barrier would only delay the goroutine. -/
def createMultiTask (now : ℕ) : Option SchedulerState :=
  match s.creating with
  | [] => none
  | exec :: rest =>
    if s.dispatching = none ∧ s.task exec.taskID = none ∧ exec.taskID ≠ "" then
      some { s with
        task := Function.update s.task exec.taskID (some
          { id := exec.taskID, behaviorTreeID := exec.graphID, agentID := exec.agentID
            entryStepID := "", status := .running, reservedZones := exec.requiredZones
            startedAt := some now })
        active := Function.update s.active exec.taskID true
        worker := Function.update s.worker exec.taskID { pc := .created }
        creating := rest }
    else none

/-! ## What the agents report -/

/-- `handleHeartbeat`, up to the call of `ObserveAgentExecution`. -/
def heartbeat (now : ℕ) (agentID : String) (isExecuting : Bool)
    (currentTaskID currentStepID : String) : SchedulerState :=
  { s with
    manager := (s.manager.tryUpdateRobotExecutionFromHeartbeat now agentID isExecuting
      currentTaskID currentStepID).1
    handlers :=
      { agentID, isExecuting, currentTaskID, report := none, stage := .acknowledge } ::
        s.handlers }

def taskStateToString (state : ℤ) : String :=
  if state = 1 then "pending"
  else if state = 2 then "running"
  else if state = 3 then "waiting"
  else if state = 4 then "executing"
  else if state = 5 then "completed"
  else if state = 6 then "failed"
  else if state = 7 then "cancelled"
  else "unknown"

/-- The report a terminal status makes. -/
def terminalReport (taskID taskStatus error : String) : Option TaskCompletionResult :=
  if taskStatus = "completed" then some ⟨taskID, .completed, error, rfl⟩
  else if taskStatus = "failed" then some ⟨taskID, .failed, error, rfl⟩
  else if taskStatus = "cancelled" then some ⟨taskID, .cancelled, error, rfl⟩
  else none

/-- `handleTaskStateUpdate`, up to the call of `ObserveAgentExecution`. -/
def taskStateUpdate (now : ℕ) (agentID taskID : String) (state : ℤ)
    (currentStepID errorMsg : String) : Option SchedulerState :=
  if taskID = "" ∨ taskID = "__planning_state__" then none
  else
    let taskStatus := taskStateToString state
    let isExecuting : Bool := taskStatus = "running" || taskStatus = "executing"
    let report := terminalReport taskID taskStatus errorMsg
    some { s with
      manager := s.manager.updateRobotExecution now agentID isExecuting taskID currentStepID
      handlers :=
        { agentID, isExecuting, currentTaskID := taskID, report, stage := .acknowledge } ::
          s.handlers
      ended := if report.isSome then Function.update s.ended taskID true else s.ended }

/-- `acknowledgeQueuedTask`: the task the agent names leaves the queue, and its lease ends. -/
def acknowledgeQueuedTask (agentID taskID : String) : SchedulerState :=
  if taskID ∈ s.taskQueues agentID then
    match s.task taskID with
    | some task =>
      if s.active taskID then
        (s.removeQueued agentID taskID).setTask taskID { task with dispatchLeaseUntil := none }
      else s.removeQueued agentID taskID
    | none => s.removeQueued agentID taskID
  else s

/-- A handler moves on to a stage. -/
def moveHandler (h : Handler) (stage : Stage) : SchedulerState :=
  { s with handlers := { h with stage } :: s.handlers.erase h }

/-- A handler is done with `ObserveAgentExecution`. -/
def afterObserve (h : Handler) : SchedulerState :=
  if h.report.isSome then s.moveHandler h .complete
  else { s with handlers := s.handlers.erase h }

/-- Whether the manager has the robot busy with a task of its own. -/
def serverManaged (agentID : String) : Bool :=
  (s.manager.robots agentID).any fun robot ↦ robot.isExecuting && robot.currentTaskID ≠ ""

/-- The next step of a handler. -/
def handlerStep (now : ℕ) (h : Handler) : Option SchedulerState :=
  if h ∉ s.handlers then none
  else match h.stage with
    | .acknowledge =>
      if s.dispatching = none then
        some ((s.acknowledgeQueuedTask h.agentID (trimSpace h.currentTaskID)).moveHandler h .check)
      else none
    | .check =>
      if h.isExecuting ∨ trimSpace h.currentTaskID ≠ "" then some (s.afterObserve h)
      else if s.serverManaged h.agentID then some (s.afterObserve h)
      else some (s.moveHandler h .dispatch)
    | .dispatch =>
      if s.dispatching = none then
        some { s.afterObserve h with dispatching := some ⟨h.agentID, now, .scan⟩ }
      else none
    | .complete =>
      some { s.moveHandler h .notify with
        manager := s.manager.completeExecution now h.agentID [] }
    | .notify =>
      match h.report with
      | none => none
      | some result => some { s with
          handlers := s.handlers.erase h, notifiers := s.notifierOf result :: s.notifiers }

/-- The loop body of `DispatchIdleAgents`: when the robot is idle, `dispatchNextQueuedTask` is to be
called for it. -/
def dispatchIdleAgents (agentID : String) : Option SchedulerState :=
  match s.manager.robots agentID with
  | none => none
  | some robot =>
    if robot.isExecuting ∨ trimSpace robot.currentTaskID ≠ "" then none
    else some { s with
      handlers := ⟨agentID, false, "", none, .dispatch⟩ :: s.handlers }

/-! ## Dispatching -/

def taskDispatchLease : ℕ := 20 * 10 ^ 9

def maxDispatchAttempts : ℕ := 3

def maxDispatchErrorWindow : ℕ := 45 * 10 ^ 9

def dispatchRetryBackoff (attempt : ℕ) : ℕ :=
  if attempt < 1 then 10 ^ 9
  else
    let attempt := if 6 < attempt then 6 else attempt
    let delay := 10 ^ 9 * 2 ^ (attempt - 1)
    if 15 * 10 ^ 9 < delay then 15 * 10 ^ 9 else delay

/-- A duration rounded to seconds, as it is printed. -/
def durationText (duration : ℕ) : String :=
  let seconds := (duration + 5 * 10 ^ 8) / 10 ^ 9
  let rest := toString (seconds % 60) ++ "s"
  if seconds < 60 then rest
  else if seconds < 3600 then toString (seconds / 60) ++ "m" ++ rest
  else toString (seconds / 3600) ++ "h" ++ toString (seconds / 60 % 60) ++ "m" ++ rest

/-- The frame in a phase, with the task at the head of its queue. -/
def underDispatch (phase : Phase) : Option (Frame × String × RunningTask) :=
  match s.dispatching with
  | none => none
  | some f =>
    if f.phase = phase then
      match s.taskQueues f.agentID with
      | [] => none
      | taskID :: _ => (s.task taskID).map fun task ↦ (f, taskID, task)
    else none

def popQueue (agentID : String) : SchedulerState :=
  { s with taskQueues := Function.update s.taskQueues agentID (s.taskQueues agentID).tail }

def toPhase (f : Frame) (phase : Phase) : SchedulerState :=
  { s with dispatching := some { f with phase } }

def unlock : SchedulerState := { s with dispatching := none }

/-- The head of the loop of `dispatchNextQueuedTask`. -/
def scan : Option SchedulerState :=
  match s.dispatching with
  | none => none
  | some f =>
    if f.phase ≠ .scan then none
    else match s.taskQueues f.agentID with
      | [] => some s.unlock
      | taskID :: _ =>
        match s.task taskID with
        | none => some (s.popQueue f.agentID)
        | some task =>
          if !s.active taskID then some (s.popQueue f.agentID)
          else if task.status.isTerminal then some (s.popQueue f.agentID)
          else if task.dispatchRetryAt.any (f.now < ·) then some s.unlock
          else if task.dispatchLeaseUntil.any (f.now < ·) then some s.unlock
          else if task.dispatchLeaseUntil.isSome then some (s.toPhase f .expire)
          else some (s.toPhase f .reserve)

/-- The lease of the task has run out: it is taken back to be sent again. -/
def expireLease (now : ℕ) : Option SchedulerState :=
  (s.underDispatch .expire).map fun (f, taskID, task) ↦
    { (s.setTask taskID { task with dispatchLeaseUntil := none, status := .pending }).toPhase f
        .reserve with
      manager := s.manager.completeExecution now task.agentID task.reservedZones }

/-- The end of an iteration whose dispatch returned no error. -/
def dispatchReturns (taskID : String) (task : RunningTask) : SchedulerState :=
  (s.setTask taskID
    { task with dispatchRetryAt := none, dispatchFirstError := none, errorMessage := "" }).unlock

/-- The end of an iteration whose dispatch returned an error: the task waits for a retry, or has
failed for good. -/
def dispatchError (f : Frame) (taskID : String) (task : RunningTask) (err : String) :
    SchedulerState :=
  let first := task.dispatchFirstError.getD f.now
  let task := { task with
    errorMessage := err
    dispatchFirstError := some first
    dispatchRetryAt := some (f.now + dispatchRetryBackoff task.dispatchAttempts) }
  if maxDispatchAttempts ≤ task.dispatchAttempts ∧ maxDispatchErrorWindow ≤ f.now - first then
    let failMsg := "dispatch timeout after " ++ toString task.dispatchAttempts ++ " attempts (" ++
      durationText (f.now - first) ++ "): " ++ err
    let task := { task with status := .failed, errorMessage := failMsg }
    let s := (((s.setTask taskID task).popQueue f.agentID).setEnded taskID).toPhase f .scan
    { s with notifiers := s.notifierOf ⟨taskID, .failed, failMsg, rfl⟩ :: s.notifiers }
  else (s.setTask taskID task).unlock

/-- What came of `reserveTaskResourcesForDispatch`. -/
inductive Reservation
  | ready
  | notReady
  | error (err : String)
  deriving DecidableEq, Repr

/-- The first part of `dispatchQueuedTaskLocked`. -/
def reserve (outcome : Reservation) : Option SchedulerState :=
  (s.underDispatch .reserve).map fun (f, taskID, task) ↦
    match outcome with
    | .ready => s.toPhase f .tryStart
    | .notReady => s.dispatchReturns taskID task
    | .error err => s.dispatchError f taskID task err

/-- `dispatchQueuedTaskLocked` starts the execution in the manager. -/
def tryStart (now : ℕ) : Option SchedulerState :=
  (s.underDispatch .tryStart).map fun (f, taskID, task) ↦
    match s.manager.tryStartExecution now task.agentID task.id task.entryStepID
        task.behaviorTreeID task.reservedZones task.preconditions with
    | (manager, some _) => { s.dispatchReturns taskID task with manager }
    | (manager, none) =>
      { (s.setTask taskID { task with
          dispatchLeaseUntil := some (f.now + taskDispatchLease)
          dispatchAttempts := task.dispatchAttempts + 1
          startedAt := some f.now }).toPhase f .send with manager }

/-- `dispatchQueuedTaskLocked` sends the task to the agent, or fails to. -/
def sendStartTask (now : ℕ) (failure : Option String) : Option SchedulerState :=
  (s.underDispatch .send).map fun (f, taskID, task) ↦
    match failure with
    | none =>
      { s.dispatchReturns taskID { task with dispatchSent := true } with
        outbox := .startTask task.agentID taskID :: s.outbox }
    | some err =>
      { s.dispatchError f taskID { task with dispatchLeaseUntil := none, dispatchSent := false }
          ("send start_task failed for " ++ taskID ++ ": " ++ err) with
        manager := s.manager.completeExecution now task.agentID task.reservedZones }

/-! ## The goroutine of a task -/

/-- A step of `runTask` from one point to the next. -/
def advance (taskID : String) (source target : RunPC) : Option SchedulerState :=
  if (s.worker taskID).pc = source then
    some (s.setWorker taskID { s.worker taskID with pc := target })
  else none

def registerChannel (taskID : String) : Option SchedulerState := s.advance taskID .created .waiting

/-- The task takes over the status that was sent on its channel. -/
def receive (taskID : String) : Option SchedulerState :=
  match s.task taskID, (s.worker taskID).buffer with
  | some task, some result =>
    if (s.worker taskID).pc = .waiting then
      some ((s.setTask taskID { task with
        status := result.status
        errorMessage :=
          if result.error ≠ "" then result.error
          else if result.status = .completed then "" else task.errorMessage }).setWorker taskID
        { s.worker taskID with pc := .finishing, buffer := none, received := some result })
    else none
  | _, _ => none

/-- The task notices that its context is cancelled. -/
def contextDone (taskID : String) : Option SchedulerState :=
  match s.task taskID with
  | none => none
  | some task =>
    if (s.worker taskID).pc = .waiting ∧ (s.worker taskID).contextDone then
      some ((s.setTask taskID { task with
        status := .cancelled, errorMessage := "task context cancelled" }).setWorker taskID
        { s.worker taskID with pc := .finishing })
    else none

def unregisterChannel (taskID : String) : Option SchedulerState :=
  s.advance taskID .finishing .unregistered

def closeChannel (taskID : String) : Option SchedulerState := s.advance taskID .unregistered .closed

/-- The clean-up clears the execution of the task's agent. -/
def completeExecution (now : ℕ) (taskID : String) : Option SchedulerState :=
  match s.task taskID with
  | none => none
  | some task =>
    (s.advance taskID .closed .released).map fun s' ↦
      { s' with
        manager := s.manager.completeExecution now task.agentID task.reservedZones }

/-- The clean-up removes the task from the queue and from `s.tasks`. -/
def removeTask (taskID : String) : Option SchedulerState :=
  match s.task taskID with
  | none => none
  | some task =>
    if s.dispatching = none then
      (s.advance taskID .released .done).map fun s' ↦
        { s'.removeQueued task.agentID taskID with
          active := Function.update s.active taskID false }
    else none

/-! ## Cancelling -/

/-- `CancelTask` finds the task. -/
def cancelTask (taskID : String) : Option SchedulerState :=
  if s.dispatching = none ∧ s.active taskID then
    some { s with cancels := (taskID, .cancelContext) :: s.cancels }
  else none

def moveCancel (taskID : String) (source target : CancelStage) : Option SchedulerState :=
  if (taskID, source) ∈ s.cancels then
    some { s with cancels := (taskID, target) :: s.cancels.erase (taskID, source) }
  else none

def cancelContext (taskID : String) : Option SchedulerState :=
  (s.moveCancel taskID .cancelContext .removeQueued).map fun s' ↦
    (s'.setWorker taskID { s.worker taskID with contextDone := true }).setEnded taskID

/-- `CancelTask` removes the task from the queue. -/
def cancelQueued (taskID : String) : Option SchedulerState :=
  match s.task taskID with
  | none => none
  | some task =>
    if s.dispatching = none then
      (s.moveCancel taskID .removeQueued .sendCancel).map (removeQueued · task.agentID taskID)
    else none

/-- `CancelTask` returns; a task that was sent is cancelled at the agent, unless that fails. -/
def cancelReturn (taskID : String) (failure : Option String) : Option SchedulerState :=
  match s.task taskID with
  | none => none
  | some task =>
    if (taskID, .sendCancel) ∈ s.cancels then
      some { s with
        cancels := s.cancels.erase (taskID, .sendCancel)
        outbox :=
          if task.dispatchSent ∧ failure = none then .cancel task.agentID taskID :: s.outbox
          else s.outbox }
    else none

/-! ## Notifying -/

/-- `NotifyTaskComplete` looks the channel up; it returns when there is none. -/
def lookup (n : Notifier) : Option SchedulerState :=
  if n ∈ s.notifiers ∧ n.found = false then
    if (s.worker n.result.taskID).registered then
      some { s with notifiers := { n with found := true } :: s.notifiers.erase n }
    else some { s with notifiers := s.notifiers.erase n, returned := n :: s.returned }
  else none

/-- `NotifyTaskComplete` sends on the channel it has found: a closed channel stops the server, a
full one drops the result. -/
def deliver (n : Notifier) : Option SchedulerState :=
  if n ∈ s.notifiers ∧ n.found then
    let worker := s.worker n.result.taskID
    if worker.isClosed then some { s with panicked := true }
    else
      let s := { s with notifiers := s.notifiers.erase n, returned := n :: s.returned }
      if worker.buffer = none then
        some (s.setWorker n.result.taskID { worker with buffer := some n.result })
      else some s
  else none

end SchedulerState

/-! ## The system -/

open SchedulerState in
inductive Action
  | startTask (request : StartRequest)
  | startMultiAgentTask (now : ℕ) (executions : List MultiExecutionRequest)
      (preconditions : List Precondition)
  | createMultiTask (now : ℕ)
  | heartbeat (now : ℕ) (agentID : String) (isExecuting : Bool)
      (currentTaskID currentStepID : String)
  | taskStateUpdate (now : ℕ) (agentID taskID : String) (state : ℤ)
      (currentStepID errorMsg : String)
  | handlerStep (now : ℕ) (handler : Handler)
  | dispatchIdleAgents (agentID : String)
  | scan
  | expireLease (now : ℕ)
  | reserve (outcome : Reservation)
  | tryStart (now : ℕ)
  | sendStartTask (now : ℕ) (failure : Option String)
  | registerChannel (taskID : String)
  | receive (taskID : String)
  | contextDone (taskID : String)
  | unregisterChannel (taskID : String)
  | closeChannel (taskID : String)
  | completeExecution (now : ℕ) (taskID : String)
  | removeTask (taskID : String)
  | cancelTask (taskID : String)
  | cancelContext (taskID : String)
  | cancelQueued (taskID : String)
  | cancelReturn (taskID : String) (failure : Option String)
  | lookup (notifier : Notifier)
  | deliver (notifier : Notifier)

/-- What an action does. -/
def SchedulerState.act (s : SchedulerState) : Action → Option SchedulerState
  | .startTask request => s.startTask request
  | .startMultiAgentTask now executions preconditions =>
    s.startMultiAgentTask now executions preconditions
  | .createMultiTask now => s.createMultiTask now
  | .heartbeat now agentID isExecuting currentTaskID currentStepID =>
    some (s.heartbeat now agentID isExecuting currentTaskID currentStepID)
  | .taskStateUpdate now agentID taskID state currentStepID errorMsg =>
    s.taskStateUpdate now agentID taskID state currentStepID errorMsg
  | .handlerStep now handler => s.handlerStep now handler
  | .dispatchIdleAgents agentID => s.dispatchIdleAgents agentID
  | .scan => s.scan
  | .expireLease now => s.expireLease now
  | .reserve outcome => s.reserve outcome
  | .tryStart now => s.tryStart now
  | .sendStartTask now failure => s.sendStartTask now failure
  | .registerChannel taskID => s.registerChannel taskID
  | .receive taskID => s.receive taskID
  | .contextDone taskID => s.contextDone taskID
  | .unregisterChannel taskID => s.unregisterChannel taskID
  | .closeChannel taskID => s.closeChannel taskID
  | .completeExecution now taskID => s.completeExecution now taskID
  | .removeTask taskID => s.removeTask taskID
  | .cancelTask taskID => s.cancelTask taskID
  | .cancelContext taskID => s.cancelContext taskID
  | .cancelQueued taskID => s.cancelQueued taskID
  | .cancelReturn taskID failure => s.cancelReturn taskID failure
  | .lookup notifier => s.lookup notifier
  | .deliver notifier => s.deliver notifier

/-- One step of the scheduler.  A server that has panicked does nothing. -/
def step (s : SchedulerState) (a : Action) : Option SchedulerState :=
  if s.panicked then none else s.act a

theorem step_eq_some {s s' : SchedulerState} {a : Action} (h : step s a = some s') :
    s.panicked = false ∧ s.act a = some s' := by
  rw [step] at h
  split at h
  · exact absurd h (by simp)
  · rename_i hp
    exact ⟨by simpa using hp, h⟩

/-- The scheduler starts with nothing in it, whatever the robots are doing. -/
def Initial (s : SchedulerState) : Prop := ∃ manager, s = { manager }

/-! ## One robot -/

/-- A scheduler over one robot that is idle. -/
def oneRobotScheduler : SchedulerState :=
  { manager := { robots := Function.update (fun _ ↦ none) "robot" (some { id := "robot" }) } }

theorem initial_oneRobotScheduler : Initial oneRobotScheduler := ⟨_, rfl⟩

def queueTask (taskID : String) : Action :=
  .startTask { taskID, behaviorTreeID := "tree", agentID := "robot", entryStepID := "step" }

/-- The idle robot is given the next task of its queue. -/
def dispatchNext (now : ℕ) : List Action :=
  [.dispatchIdleAgents "robot", .handlerStep now ⟨"robot", false, "", none, .dispatch⟩, .scan,
    .reserve .ready, .tryStart now, .sendStartTask now none]

/-- The robot acknowledges a task in a heartbeat. -/
def acknowledgeTask (now : ℕ) (taskID : String) : List Action :=
  [.heartbeat now "robot" true taskID "step",
    .handlerStep now ⟨"robot", true, taskID, none, .acknowledge⟩,
    .handlerStep now ⟨"robot", true, taskID, none, .check⟩]

def completedResult (taskID : String) : TaskCompletionResult := ⟨taskID, .completed, "", rfl⟩

/-- The robot reports a task completed, up to the call of `NotifyTaskComplete`. -/
def reportCompleted (now : ℕ) (taskID : String) : List Action :=
  .taskStateUpdate now "robot" taskID 5 "step" "" ::
    [Stage.acknowledge, .check, .complete, .notify].map fun stage ↦
      .handlerStep now ⟨"robot", false, taskID, some (completedResult taskID), stage⟩

end Executor
end FleetServer
