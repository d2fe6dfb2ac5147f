import FleetServer.Executor.Scheduler

/-!
# What the steps do

A step of the scheduler, read off its action: `Move s a s'` lists for every action what it can do in
`s`, with the guards it has passed, and `move_of_step` says that nothing else happens.  Invariants
are proved over `Move`, one case for each thing that can happen.
-/

set_option autoImplicit false

namespace FleetServer
namespace Executor

open SchedulerState State State.Manager

variable {s s' : SchedulerState}

/-! ## Creating a task -/

def SchedulerState.StartRequest.toTask (r : StartRequest) : RunningTask where
  id := r.taskID
  behaviorTreeID := r.behaviorTreeID
  agentID := r.agentID
  entryStepID := r.entryStepID
  reservedZones := r.reservedZones
  preconditions := r.preconditions

def multiTask (now : ℕ) (exec : MultiExecutionRequest) : RunningTask where
  id := exec.taskID
  behaviorTreeID := exec.graphID
  agentID := exec.agentID
  entryStepID := ""
  status := .running
  reservedZones := exec.requiredZones
  startedAt := some now

/-- A new task and its goroutine. -/
def SchedulerState.create (s : SchedulerState) (taskID : String) (task : RunningTask) :
    SchedulerState :=
  { s with
    task := Function.update s.task taskID (some task)
    active := Function.update s.active taskID true
    worker := Function.update s.worker taskID { pc := .created } }

/-! ## Writing to a task -/

theorem task_setTask_cases {k t : String} {task' x : RunningTask}
    (h : (s.setTask t task').task k = some x) :
    (k = t ∧ x = task') ∨ (k ≠ t ∧ s.task k = some x) := by
  by_cases hk : k = t
  · subst hk
    exact Or.inl ⟨rfl, by simpa [setTask, eq_comm] using h⟩
  · exact Or.inr ⟨hk, by simpa [setTask, Function.update_of_ne hk] using h⟩

/-- Every task is still there, with its agent, if the task written to keeps its own. -/
theorem owner_setTask {k t : String} {task task' x : RunningTask} (htask : s.task t = some task)
    (hagent : task'.agentID = task.agentID) (hx : s.task k = some x) :
    ∃ x', (s.setTask t task').task k = some x' ∧ x'.agentID = x.agentID := by
  by_cases hk : k = t
  · subst hk
    obtain rfl : task = x := Option.some.inj (htask.symm.trans hx)
    exact ⟨task', by simp [setTask], hagent⟩
  · exact ⟨x, by simpa [setTask, Function.update_of_ne hk] using hx, rfl⟩

/-! ## Queues -/

/-- The task under dispatch is the head of the queue of the frame's agent. -/
theorem underDispatch_eq_some {phase : Phase} {f : Frame} {t : String} {task : RunningTask}
    (h : s.underDispatch phase = some (f, t, task)) : s.dispatching = some f ∧ f.phase = phase ∧
      s.task t = some task ∧ ∃ rest, s.taskQueues f.agentID = t :: rest := by
  rw [underDispatch] at h
  split at h
  · exact absurd h (by simp)
  · rename_i f' hf
    split at h
    · rename_i hphase
      split at h
      · exact absurd h (by simp)
      · rename_i t' rest hqueue
        obtain ⟨task', htask, heq⟩ := Option.map_eq_some_iff.mp h
        obtain ⟨rfl, rfl, rfl⟩ : f' = f ∧ t' = t ∧ task' = task := by simpa using heq
        exact ⟨hf, hphase, htask, rest, hqueue⟩
    · exact absurd h (by simp)

/-- Popping a queue removes its head. -/
theorem popQueue_eq_removeQueued {agentID t : String} {rest : List String}
    (h : s.taskQueues agentID = t :: rest) : s.popQueue agentID = s.removeQueued agentID t := by
  simp only [popQueue, removeQueued, h, List.tail_cons, List.erase_cons_head]

theorem taskQueues_removeQueued_self (agentID t : String) :
    (s.removeQueued agentID t).taskQueues agentID = (s.taskQueues agentID).erase t := by
  simp [removeQueued]

theorem taskQueues_removeQueued_of_ne {agentID a : String} (ha : a ≠ agentID) (t : String) :
    (s.removeQueued agentID t).taskQueues a = s.taskQueues a := by
  simp [removeQueued, Function.update_of_ne ha]

theorem mem_of_mem_removeQueued {agentID t a k : String}
    (h : k ∈ (s.removeQueued agentID t).taskQueues a) : k ∈ s.taskQueues a := by
  by_cases ha : a = agentID
  · subst ha
    rw [taskQueues_removeQueued_self] at h
    exact List.mem_of_mem_erase h
  · rwa [taskQueues_removeQueued_of_ne ha] at h

theorem mem_removeQueued_of_ne {agentID t a k : String} (hne : k ≠ t)
    (h : k ∈ s.taskQueues a) : k ∈ (s.removeQueued agentID t).taskQueues a := by
  by_cases ha : a = agentID
  · subst ha
    rw [taskQueues_removeQueued_self]
    exact (List.mem_erase_of_ne hne).mpr h
  · rwa [taskQueues_removeQueued_of_ne ha]

/-! ## Parts of steps -/

/-- What `acknowledgeQueuedTask` does: nothing, or it removes the task and ends its lease. -/
theorem acknowledgeQueuedTask_cases (s : SchedulerState) (agentID t : String) :
    (t ∉ s.taskQueues agentID ∧ s.acknowledgeQueuedTask agentID t = s) ∨
    (t ∈ s.taskQueues agentID ∧ (s.acknowledgeQueuedTask agentID t = s.removeQueued agentID t ∨
      ∃ task, s.task t = some task ∧ s.acknowledgeQueuedTask agentID t =
        (s.removeQueued agentID t).setTask t { task with dispatchLeaseUntil := none })) := by
  rw [acknowledgeQueuedTask]
  split
  · rename_i hmem
    refine Or.inr ⟨hmem, ?_⟩
    split
    · rename_i task htask
      split
      · exact Or.inr ⟨task, htask, rfl⟩
      · exact Or.inl rfl
    · exact Or.inl rfl
  · rename_i hmem
    exact Or.inl ⟨hmem, rfl⟩

/-- What the end of a failed dispatch does: the task waits for its next try, or it has failed, is
off the queue, and a call of `NotifyTaskComplete` is under way. -/
theorem dispatchError_cases (s : SchedulerState) (f : Frame) (t : String) (task : RunningTask)
    (err : String) :
    (∃ task' : RunningTask, s.dispatchError f t task err = (s.setTask t task').unlock ∧
      task'.agentID = task.agentID ∧ task'.status = task.status ∧
      task'.dispatchSent = task.dispatchSent ∧
      task'.dispatchLeaseUntil = task.dispatchLeaseUntil) ∨
    ∃ (task' : RunningTask) (n : Notifier), s.dispatchError f t task err =
        { (((s.setTask t task').popQueue f.agentID).setEnded t).toPhase f .scan with
          notifiers := n :: s.notifiers } ∧
      task'.agentID = task.agentID ∧ task'.dispatchLeaseUntil = task.dispatchLeaseUntil ∧
      task'.status = .failed ∧ n.result.taskID = t ∧ n.found = false := by
  simp only [dispatchError]
  split
  · exact Or.inr ⟨_, _, rfl, rfl, rfl, rfl, rfl, rfl⟩
  · exact Or.inl ⟨_, rfl, rfl, rfl, rfl, rfl⟩

/-! What these parts leave alone. -/

theorem acknowledgeQueuedTask_eq (s : SchedulerState) (agentID t : String) :
    ∃ task taskQueues, s.acknowledgeQueuedTask agentID t = { s with task, taskQueues } := by
  rcases acknowledgeQueuedTask_cases s agentID t with ⟨-, heq⟩ | ⟨-, heq | ⟨x, -, heq⟩⟩
  · exact ⟨s.task, s.taskQueues, heq⟩
  · exact ⟨s.task, _, heq⟩
  · exact ⟨_, _, heq⟩

theorem afterObserve_eq (s : SchedulerState) (h : Handler) :
    ∃ handlers, s.afterObserve h = { s with handlers } := by
  rw [afterObserve]
  split <;> exact ⟨_, rfl⟩

theorem dispatchError_eq (s : SchedulerState) (f : Frame) (t : String) (x : RunningTask)
    (err : String) : ∃ task taskQueues dispatching ended notifiers, s.dispatchError f t x err =
      { s with task, taskQueues, dispatching, ended, notifiers } := by
  rcases dispatchError_cases s f t x err with ⟨y, heq, -⟩ | ⟨y, n, heq, -⟩
  · exact ⟨_, s.taskQueues, none, s.ended, s.notifiers, heq⟩
  · exact ⟨_, _, _, _, _, heq⟩

theorem advance_eq_some {t : String} {source target : RunPC}
    (h : s.advance t source target = some s') :
    (s.worker t).pc = source ∧ s' = s.setWorker t { s.worker t with pc := target } := by
  rw [advance] at h
  split at h
  · rename_i hpc
    exact ⟨hpc, (Option.some.inj h).symm⟩
  · exact absurd h (by simp)

theorem moveCancel_eq_some {t : String} {source target : CancelStage}
    (h : s.moveCancel t source target = some s') : (t, source) ∈ s.cancels ∧
      s' = { s with cancels := (t, target) :: s.cancels.erase (t, source) } := by
  rw [moveCancel] at h
  split at h
  · rename_i hmem
    exact ⟨hmem, (Option.some.inj h).symm⟩
  · exact absurd h (by simp)

/-! ## The steps -/

/-- What an action can do in state `s`. -/
inductive Move (s : SchedulerState) : Action → SchedulerState → Prop
  | startTask {r : StartRequest} (hfree : s.dispatching = none) (hnew : s.task r.taskID = none)
      (hne : r.taskID ≠ "") : Move s (.startTask r)
        { s.create r.taskID r.toTask with
          taskQueues :=
            Function.update s.taskQueues r.agentID (s.taskQueues r.agentID ++ [r.taskID]) }
  | startMultiAgentTask {now : ℕ} {executions : List MultiExecutionRequest}
      {preconditions : List Precondition} {manager : Manager}
      (hstart : s.manager.tryStartMultiExecution now executions preconditions = (manager, none)) :
      Move s (.startMultiAgentTask now executions preconditions)
        { s with manager, creating := s.creating ++ executions }
  | createMultiTask {now : ℕ} {exec : MultiExecutionRequest} {rest : List MultiExecutionRequest}
      (hfree : s.dispatching = none) (hnew : s.task exec.taskID = none) (hne : exec.taskID ≠ "") :
      Move s (.createMultiTask now)
        { s.create exec.taskID (multiTask now exec) with creating := rest }
  | heartbeat {now : ℕ} {agentID currentTaskID currentStepID : String} {isExecuting : Bool} :
      Move s (.heartbeat now agentID isExecuting currentTaskID currentStepID)
        (s.heartbeat now agentID isExecuting currentTaskID currentStepID)
  | taskStateUpdate {now : ℕ} {agentID taskID currentStepID errorMsg : String} {state : ℤ}
      (hne : taskID ≠ "") :
      Move s (.taskStateUpdate now agentID taskID state currentStepID errorMsg)
        { s with
          manager := s.manager.updateRobotExecution now agentID
            (taskStateToString state = "running" || taskStateToString state = "executing") taskID
            currentStepID
          handlers :=
            { agentID
              isExecuting :=
                taskStateToString state = "running" || taskStateToString state = "executing"
              currentTaskID := taskID
              report := terminalReport taskID (taskStateToString state) errorMsg
              stage := .acknowledge } :: s.handlers
          ended :=
            if (terminalReport taskID (taskStateToString state) errorMsg).isSome then
              Function.update s.ended taskID true
            else s.ended }
  | acknowledge {now : ℕ} {h : Handler} (hmem : h ∈ s.handlers) (hstage : h.stage = .acknowledge)
      (hfree : s.dispatching = none) : Move s (.handlerStep now h)
        ((s.acknowledgeQueuedTask h.agentID (GoString.trimSpace h.currentTaskID)).moveHandler h
          .check)
  | observed {now : ℕ} {h : Handler} (hmem : h ∈ s.handlers) (hstage : h.stage = .check) :
      Move s (.handlerStep now h) (s.afterObserve h)
  | idle {now : ℕ} {h : Handler} (hmem : h ∈ s.handlers) (hstage : h.stage = .check) :
      Move s (.handlerStep now h) (s.moveHandler h .dispatch)
  | dispatch {now : ℕ} {h : Handler} (hmem : h ∈ s.handlers) (hstage : h.stage = .dispatch)
      (hfree : s.dispatching = none) : Move s (.handlerStep now h)
        { s.afterObserve h with dispatching := some ⟨h.agentID, now, .scan⟩ }
  | complete {now : ℕ} {h : Handler} (hmem : h ∈ s.handlers) (hstage : h.stage = .complete) :
      Move s (.handlerStep now h) { s.moveHandler h .notify with
        manager := s.manager.completeExecution now h.agentID [] }
  | notify {now : ℕ} {h : Handler} {result : TaskCompletionResult} (hmem : h ∈ s.handlers)
      (hreport : h.report = some result) : Move s (.handlerStep now h) { s with
        handlers := s.handlers.erase h, notifiers := s.notifierOf result :: s.notifiers }
  | dispatchIdleAgents {agentID : String} : Move s (.dispatchIdleAgents agentID)
      { s with handlers := ⟨agentID, false, "", none, .dispatch⟩ :: s.handlers }
  | unlock {f : Frame} (hf : s.dispatching = some f) (hphase : f.phase = .scan) :
      Move s .scan s.unlock
  | drop {f : Frame} {t : String} {rest : List String} (hf : s.dispatching = some f)
      (hphase : f.phase = .scan) (hqueue : s.taskQueues f.agentID = t :: rest)
      (hover : s.task t = none ∨ s.task t ≠ none ∧ s.active t = false ∨
        ∃ task, s.task t = some task ∧ task.status.isTerminal = true) :
      Move s .scan (s.removeQueued f.agentID t)
  | expire {f : Frame} {t : String} {rest : List String} {task : RunningTask}
      (hf : s.dispatching = some f) (hphase : f.phase = .scan)
      (hqueue : s.taskQueues f.agentID = t :: rest) (htask : s.task t = some task)
      (hlease : task.dispatchLeaseUntil.isSome = true) : Move s .scan (s.toPhase f .expire)
  | proceed {f : Frame} (hf : s.dispatching = some f) (hphase : f.phase = .scan) :
      Move s .scan (s.toPhase f .reserve)
  | expireLease {now : ℕ} {f : Frame} {t : String} {task : RunningTask}
      (hu : s.underDispatch .expire = some (f, t, task)) : Move s (.expireLease now)
        { (s.setTask t { task with dispatchLeaseUntil := none, status := .pending }).toPhase f
            .reserve with
          manager := s.manager.completeExecution now task.agentID task.reservedZones }
  | reserved {f : Frame} {t : String} {task : RunningTask}
      (hu : s.underDispatch .reserve = some (f, t, task)) :
      Move s (.reserve .ready) (s.toPhase f .tryStart)
  | notReady {f : Frame} {t : String} {task : RunningTask}
      (hu : s.underDispatch .reserve = some (f, t, task)) :
      Move s (.reserve .notReady) (s.dispatchReturns t task)
  | reserveError {f : Frame} {t err : String} {task : RunningTask}
      (hu : s.underDispatch .reserve = some (f, t, task)) :
      Move s (.reserve (.error err)) (s.dispatchError f t task err)
  | refused {now : ℕ} {f : Frame} {t : String} {task : RunningTask} {manager : Manager}
      {err : String} (hu : s.underDispatch .tryStart = some (f, t, task))
      (hstart : s.manager.tryStartExecution now task.agentID task.id task.entryStepID
        task.behaviorTreeID task.reservedZones task.preconditions = (manager, some err)) :
      Move s (.tryStart now) { s.dispatchReturns t task with manager }
  | started {now : ℕ} {f : Frame} {t : String} {task : RunningTask} {manager : Manager}
      (hu : s.underDispatch .tryStart = some (f, t, task))
      (hstart : s.manager.tryStartExecution now task.agentID task.id task.entryStepID
        task.behaviorTreeID task.reservedZones task.preconditions = (manager, none)) :
      Move s (.tryStart now) { (s.setTask t { task with
          dispatchLeaseUntil := some (f.now + taskDispatchLease)
          dispatchAttempts := task.dispatchAttempts + 1
          startedAt := some f.now }).toPhase f .send with manager }
  | send {now : ℕ} {f : Frame} {t : String} {task : RunningTask}
      (hu : s.underDispatch .send = some (f, t, task)) : Move s (.sendStartTask now none)
        { s.dispatchReturns t { task with dispatchSent := true } with
          outbox := .startTask task.agentID t :: s.outbox }
  | sendError {now : ℕ} {f : Frame} {t err : String} {task : RunningTask}
      (hu : s.underDispatch .send = some (f, t, task)) : Move s (.sendStartTask now (some err))
        { s.dispatchError f t { task with dispatchLeaseUntil := none, dispatchSent := false }
            ("send start_task failed for " ++ t ++ ": " ++ err) with
          manager := s.manager.completeExecution now task.agentID task.reservedZones }
  | registerChannel {t : String} (hpc : (s.worker t).pc = .created) :
      Move s (.registerChannel t) (s.setWorker t { s.worker t with pc := .waiting })
  | receive {t : String} {task task' : RunningTask} {result : TaskCompletionResult}
      (htask : s.task t = some task) (hbuffer : (s.worker t).buffer = some result)
      (hpc : (s.worker t).pc = .waiting) (hagent : task'.agentID = task.agentID)
      (hlease : task'.dispatchLeaseUntil = task.dispatchLeaseUntil)
      (hstatus : task'.status = result.status) :
      Move s (.receive t) ((s.setTask t task').setWorker t
        { s.worker t with pc := .finishing, buffer := none, received := some result })
  | contextDone {t : String} {task : RunningTask} (htask : s.task t = some task)
      (hpc : (s.worker t).pc = .waiting) (hctx : (s.worker t).contextDone = true) :
      Move s (.contextDone t) ((s.setTask t { task with
        status := .cancelled, errorMessage := "task context cancelled" }).setWorker t
        { s.worker t with pc := .finishing })
  | unregisterChannel {t : String} (hpc : (s.worker t).pc = .finishing) :
      Move s (.unregisterChannel t) (s.setWorker t { s.worker t with pc := .unregistered })
  | closeChannel {t : String} (hpc : (s.worker t).pc = .unregistered) :
      Move s (.closeChannel t) (s.setWorker t { s.worker t with pc := .closed })
  | completeExecution {now : ℕ} {t : String} {task : RunningTask} (htask : s.task t = some task)
      (hpc : (s.worker t).pc = .closed) : Move s (.completeExecution now t)
        { s.setWorker t { s.worker t with pc := .released } with
          manager := s.manager.completeExecution now task.agentID task.reservedZones }
  | removeTask {t : String} {task : RunningTask} (hfree : s.dispatching = none)
      (htask : s.task t = some task) (hpc : (s.worker t).pc = .released) : Move s (.removeTask t)
        { (s.setWorker t { s.worker t with pc := .done }).removeQueued task.agentID t with
          active := Function.update s.active t false }
  | cancelTask {t : String} (hactive : s.active t = true) :
      Move s (.cancelTask t) { s with cancels := (t, .cancelContext) :: s.cancels }
  | cancelContext {t : String} (hmem : (t, CancelStage.cancelContext) ∈ s.cancels) :
      Move s (.cancelContext t)
        { (s.setWorker t { s.worker t with contextDone := true }).setEnded t with
          cancels := (t, .removeQueued) :: s.cancels.erase (t, .cancelContext) }
  | cancelQueued {t : String} {task : RunningTask} (hfree : s.dispatching = none)
      (htask : s.task t = some task) (hmem : (t, CancelStage.removeQueued) ∈ s.cancels) :
      Move s (.cancelQueued t) { s.removeQueued task.agentID t with
        cancels := (t, .sendCancel) :: s.cancels.erase (t, .removeQueued) }
  | cancelReturn {t : String} {task : RunningTask} {failure : Option String} :
      Move s (.cancelReturn t failure) { s with
        cancels := s.cancels.erase (t, .sendCancel)
        outbox :=
          if task.dispatchSent ∧ failure = none then .cancel task.agentID t :: s.outbox
          else s.outbox }
  | found {n : Notifier} (hmem : n ∈ s.notifiers)
      (hreg : (s.worker n.result.taskID).registered = true) :
      Move s (.lookup n) { s with notifiers := { n with found := true } :: s.notifiers.erase n }
  | absent {n : Notifier} (hmem : n ∈ s.notifiers)
      (hreg : (s.worker n.result.taskID).registered = false) : Move s (.lookup n)
        { s with notifiers := s.notifiers.erase n, returned := n :: s.returned }
  | panic {n : Notifier} (hmem : n ∈ s.notifiers) (hfound : n.found = true)
      (hclosed : (s.worker n.result.taskID).isClosed = true) :
      Move s (.deliver n) { s with panicked := true }
  | deliver {n : Notifier} (hmem : n ∈ s.notifiers)
      (hopen : (s.worker n.result.taskID).isClosed = false)
      (hbuffer : (s.worker n.result.taskID).buffer = none) : Move s (.deliver n)
        { s with
          notifiers := s.notifiers.erase n
          returned := n :: s.returned
          worker := Function.update s.worker n.result.taskID
            { s.worker n.result.taskID with buffer := some n.result } }
  | full {n : Notifier} (hmem : n ∈ s.notifiers)
      (hopen : (s.worker n.result.taskID).isClosed = false)
      (hbuffer : (s.worker n.result.taskID).buffer ≠ none) : Move s (.deliver n)
        { s with notifiers := s.notifiers.erase n, returned := n :: s.returned }

theorem move_of_handlerStep {now : ℕ} {h : Handler} (hs : s.handlerStep now h = some s') :
    Move s (.handlerStep now h) s' := by
  rw [handlerStep] at hs
  split at hs
  · exact absurd hs (by simp)
  · rename_i hmem
    rw [not_not] at hmem
    split at hs
    · rename_i hstage
      split at hs
      · rename_i hfree
        obtain rfl := Option.some.inj hs
        exact .acknowledge hmem hstage hfree
      · exact absurd hs (by simp)
    · rename_i hstage
      split at hs
      · obtain rfl := Option.some.inj hs
        exact .observed hmem hstage
      · split at hs <;> obtain rfl := Option.some.inj hs
        · exact .observed hmem hstage
        · exact .idle hmem hstage
    · rename_i hstage
      split at hs
      · rename_i hfree
        obtain rfl := Option.some.inj hs
        exact .dispatch hmem hstage hfree
      · exact absurd hs (by simp)
    · rename_i hstage
      obtain rfl := Option.some.inj hs
      exact .complete hmem hstage
    · split at hs
      · exact absurd hs (by simp)
      · rename_i result hreport
        obtain rfl := Option.some.inj hs
        exact .notify hmem hreport

theorem move_of_scan (hs : s.scan = some s') : Move s .scan s' := by
  rw [scan] at hs
  split at hs
  · exact absurd hs (by simp)
  · rename_i f hf
    split at hs
    · exact absurd hs (by simp)
    · rename_i hphase
      rw [ne_eq, not_not] at hphase
      split at hs
      · obtain rfl := Option.some.inj hs
        exact .unlock hf hphase
      · rename_i t rest hqueue
        rw [popQueue_eq_removeQueued hqueue] at hs
        split at hs
        · rename_i hnone
          obtain rfl := Option.some.inj hs
          exact .drop hf hphase hqueue (Or.inl hnone)
        · rename_i task htask
          split_ifs at hs with hactive hterm hretry hlive hlease <;>
            obtain rfl := Option.some.inj hs
          · exact .drop hf hphase hqueue (Or.inr (Or.inl ⟨by simp [htask], by simpa using hactive⟩))
          · exact .drop hf hphase hqueue (Or.inr (Or.inr ⟨task, htask, hterm⟩))
          · exact .unlock hf hphase
          · exact .unlock hf hphase
          · exact .expire hf hphase hqueue htask hlease
          · exact .proceed hf hphase

/-- **A step does what its action can do, and nothing else.** -/
theorem move_of_step {a : Action} (h : step s a = some s') : Move s a s' := by
  replace h := (step_eq_some h).2
  cases a with
  | startTask r =>
    rw [act, SchedulerState.startTask] at h
    split at h
    · rename_i hg
      obtain rfl := Option.some.inj h
      exact .startTask hg.1 hg.2.1 hg.2.2.1
    · exact absurd h (by simp)
  | startMultiAgentTask now executions preconditions =>
    rw [act, SchedulerState.startMultiAgentTask] at h
    split at h
    · exact absurd h (by simp)
    · rename_i manager hstart
      obtain rfl := Option.some.inj h
      exact .startMultiAgentTask hstart
  | createMultiTask now =>
    rw [act, SchedulerState.createMultiTask] at h
    split at h
    · exact absurd h (by simp)
    · split at h
      · rename_i hg
        obtain rfl := Option.some.inj h
        exact .createMultiTask hg.1 hg.2.1 hg.2.2
      · exact absurd h (by simp)
  | heartbeat now agentID isExecuting currentTaskID currentStepID =>
    obtain rfl := Option.some.inj h
    exact .heartbeat
  | taskStateUpdate now agentID taskID state currentStepID errorMsg =>
    rw [act, SchedulerState.taskStateUpdate] at h
    split at h
    · exact absurd h (by simp)
    · rename_i hg
      obtain rfl := Option.some.inj h
      exact .taskStateUpdate fun hempty ↦ hg (Or.inl hempty)
  | handlerStep now handler => exact move_of_handlerStep h
  | dispatchIdleAgents agentID =>
    rw [act, SchedulerState.dispatchIdleAgents] at h
    split at h
    · exact absurd h (by simp)
    · split at h
      · exact absurd h (by simp)
      · obtain rfl := Option.some.inj h
        exact .dispatchIdleAgents
  | scan => exact move_of_scan h
  | expireLease now =>
    obtain ⟨⟨f, t, task⟩, hu, rfl⟩ := Option.map_eq_some_iff.mp h
    exact .expireLease hu
  | reserve outcome =>
    obtain ⟨⟨f, t, task⟩, hu, rfl⟩ := Option.map_eq_some_iff.mp h
    cases outcome with
    | ready => exact .reserved hu
    | notReady => exact .notReady hu
    | error err => exact .reserveError hu
  | tryStart now =>
    obtain ⟨⟨f, t, task⟩, hu, rfl⟩ := Option.map_eq_some_iff.mp h
    dsimp only
    split
    · rename_i hstart
      exact .refused hu hstart
    · rename_i hstart
      exact .started hu hstart
  | sendStartTask now failure =>
    obtain ⟨⟨f, t, task⟩, hu, rfl⟩ := Option.map_eq_some_iff.mp h
    cases failure with
    | none => exact .send hu
    | some err => exact .sendError hu
  | registerChannel t =>
    obtain ⟨hpc, rfl⟩ := advance_eq_some h
    exact .registerChannel hpc
  | receive t =>
    rw [act, SchedulerState.receive] at h
    split at h
    · rename_i task result htask hbuffer
      split at h
      · rename_i hpc
        obtain rfl := Option.some.inj h
        exact .receive htask hbuffer hpc rfl rfl rfl
      · exact absurd h (by simp)
    · exact absurd h (by simp)
  | contextDone t =>
    rw [act, SchedulerState.contextDone] at h
    split at h
    · exact absurd h (by simp)
    · rename_i task htask
      split at h
      · rename_i hg
        obtain rfl := Option.some.inj h
        exact .contextDone htask hg.1 hg.2
      · exact absurd h (by simp)
  | unregisterChannel t =>
    obtain ⟨hpc, rfl⟩ := advance_eq_some h
    exact .unregisterChannel hpc
  | closeChannel t =>
    obtain ⟨hpc, rfl⟩ := advance_eq_some h
    exact .closeChannel hpc
  | completeExecution now t =>
    rw [act, SchedulerState.completeExecution] at h
    split at h
    · exact absurd h (by simp)
    · rename_i task htask
      obtain ⟨m, hm, rfl⟩ := Option.map_eq_some_iff.mp h
      obtain ⟨hpc, rfl⟩ := advance_eq_some hm
      exact .completeExecution htask hpc
  | removeTask t =>
    rw [act, SchedulerState.removeTask] at h
    split at h
    · exact absurd h (by simp)
    · rename_i task htask
      split at h
      · rename_i hfree
        obtain ⟨m, hm, rfl⟩ := Option.map_eq_some_iff.mp h
        obtain ⟨hpc, rfl⟩ := advance_eq_some hm
        exact .removeTask hfree htask hpc
      · exact absurd h (by simp)
  | cancelTask t =>
    rw [act, SchedulerState.cancelTask] at h
    split at h
    · rename_i hg
      obtain rfl := Option.some.inj h
      exact .cancelTask hg.2
    · exact absurd h (by simp)
  | cancelContext t =>
    obtain ⟨m, hm, rfl⟩ := Option.map_eq_some_iff.mp h
    obtain ⟨hmem, rfl⟩ := moveCancel_eq_some hm
    exact .cancelContext hmem
  | cancelQueued t =>
    rw [act, SchedulerState.cancelQueued] at h
    split at h
    · exact absurd h (by simp)
    · rename_i task htask
      split at h
      · rename_i hfree
        obtain ⟨m, hm, rfl⟩ := Option.map_eq_some_iff.mp h
        obtain ⟨hmem, rfl⟩ := moveCancel_eq_some hm
        exact .cancelQueued hfree htask hmem
      · exact absurd h (by simp)
  | cancelReturn t failure =>
    rw [act, SchedulerState.cancelReturn] at h
    split at h
    · exact absurd h (by simp)
    · split at h
      · obtain rfl := Option.some.inj h
        exact .cancelReturn
      · exact absurd h (by simp)
  | lookup n =>
    rw [act, lookup] at h
    split at h
    · rename_i hg
      split at h <;> rename_i hreg <;> obtain rfl := Option.some.inj h
      · exact .found hg.1 hreg
      · exact .absent hg.1 (by simpa using hreg)
    · exact absurd h (by simp)
  | deliver n =>
    simp only [act, SchedulerState.deliver] at h
    split at h
    · rename_i hg
      split at h
      · rename_i hclosed
        obtain rfl := Option.some.inj h
        exact .panic hg.1 hg.2 hclosed
      · rename_i hopen
        rw [Bool.not_eq_true] at hopen
        split at h <;> rename_i hbuffer <;> obtain rfl := Option.some.inj h
        · exact .deliver hg.1 hopen hbuffer
        · exact .full hg.1 hopen hbuffer
    · exact absurd h (by simp)

/-! ## What a step sends -/

/-- A step sends nothing, the task under dispatch, or a cancel command. -/
theorem outbox_of_move {act : Action} (hm : Move s act s') :
    s'.outbox = s.outbox ∨
    (∃ f t task, s.underDispatch .send = some (f, t, task) ∧
      s'.task t = some { task with
        dispatchSent := true, dispatchRetryAt := none, dispatchFirstError := none
        errorMessage := "" } ∧
      s'.outbox = .startTask task.agentID t :: s.outbox) ∨
    ∃ agentID t, s'.outbox = .cancel agentID t :: s.outbox := by
  cases hm with
  | @send _ f t task hu =>
    exact Or.inr (Or.inl ⟨f, t, task, hu, Function.update_self .., rfl⟩)
  | @cancelReturn t task failure =>
    dsimp only
    split
    · exact Or.inr (Or.inr ⟨_, _, rfl⟩)
    · exact Or.inl rfl
  | @acknowledge _ h =>
    obtain ⟨_, _, heq⟩ := acknowledgeQueuedTask_eq s h.agentID (GoString.trimSpace h.currentTaskID)
    rw [heq]
    exact Or.inl rfl
  | @observed _ h | @dispatch _ h =>
    obtain ⟨_, heq⟩ := afterObserve_eq s h
    rw [heq]
    exact Or.inl rfl
  | @reserveError f t err task =>
    obtain ⟨_, _, _, _, _, heq⟩ := dispatchError_eq s f t task err
    rw [heq]
    exact Or.inl rfl
  | @sendError _ f t err task =>
    obtain ⟨_, _, _, _, _, heq⟩ := dispatchError_eq s f t
      { task with dispatchLeaseUntil := none, dispatchSent := false }
      ("send start_task failed for " ++ t ++ ": " ++ err)
    rw [heq]
    exact Or.inl rfl
  | _ => exact Or.inl rfl

end Executor
end FleetServer
