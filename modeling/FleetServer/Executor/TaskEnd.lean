import FleetServer.Executor.Steps

/-!
# When a task has come to an end

`ended` records that a task has been reported finished, cancelled, or given up.  Everything in the
scheduler that treats a task as over follows one of these events: a terminal status, a result on its
way, a goroutine that is cleaning up, a task that is no longer in `s.tasks`.
-/

set_option autoImplicit false

namespace FleetServer
namespace Executor

open GuardedRun SchedulerState State State.Manager

variable {s s' : SchedulerState}

/-- The goroutine has a result in its channel, a cancelled context, or has left its wait. -/
def WorkerOver (w : Worker) : Prop :=
  w.buffer ≠ none ∨ w.contextDone = true ∨ (w.pc ≠ .absent ∧ w.pc ≠ .created ∧ w.pc ≠ .waiting)

structure EndInv (s : SchedulerState) : Prop where
  terminal : ∀ t task, s.task t = some task → task.status.isTerminal = true → s.ended t = true
  inactive : ∀ t, s.task t ≠ none → s.active t = false → s.ended t = true
  workers : ∀ t, WorkerOver (s.worker t) → s.ended t = true
  notifiers : ∀ n ∈ s.notifiers, s.ended n.result.taskID = true
  handlers : ∀ h ∈ s.handlers, ∀ r ∈ h.report, s.ended r.taskID = true
  cancels : ∀ t, (t, CancelStage.removeQueued) ∈ s.cancels → s.ended t = true

/-- A step that keeps the tasks, and adds nothing that is over without being recorded. -/
theorem EndInv.congr (h : EndInv s) (ht : s'.task = s.task) (ha : s'.active = s.active)
    (he : ∀ t, s.ended t = true → s'.ended t = true)
    (hw : ∀ t, WorkerOver (s'.worker t) → WorkerOver (s.worker t) ∨ s'.ended t = true)
    (hn : ∀ n ∈ s'.notifiers, n ∈ s.notifiers ∨ s'.ended n.result.taskID = true)
    (hh : ∀ d ∈ s'.handlers, d ∈ s.handlers ∨ ∀ r ∈ d.report, s'.ended r.taskID = true)
    (hc : ∀ t, (t, CancelStage.removeQueued) ∈ s'.cancels →
      (t, CancelStage.removeQueued) ∈ s.cancels ∨ s'.ended t = true) : EndInv s' := by
  refine ⟨fun t task htask hterm ↦ ?_, fun t hne hact ↦ ?_, fun t hover ↦ ?_, fun n hmem ↦ ?_,
    fun d hmem r hr ↦ ?_, fun t hmem ↦ ?_⟩
  · rw [ht] at htask
    exact he t (h.terminal t task htask hterm)
  · rw [ht] at hne
    rw [ha] at hact
    exact he t (h.inactive t hne hact)
  · exact (hw t hover).elim (fun hold ↦ he t (h.workers t hold)) id
  · exact (hn n hmem).elim (fun hold ↦ he _ (h.notifiers n hold)) id
  · exact (hh d hmem).elim (fun hold ↦ he _ (h.handlers d hold r hr)) fun hnew ↦ hnew r hr
  · exact (hc t hmem).elim (fun hold ↦ he t (h.cancels t hold)) id

/-- A step that changes nothing the invariant is about. -/
theorem EndInv.same (h : EndInv s) (ht : s'.task = s.task) (ha : s'.active = s.active)
    (he : s'.ended = s.ended) (hw : s'.worker = s.worker) (hn : s'.notifiers = s.notifiers)
    (hh : s'.handlers = s.handlers) (hc : s'.cancels = s.cancels) : EndInv s' :=
  h.congr ht ha (fun t hend ↦ by rwa [he]) (fun t hover ↦ Or.inl (by rwa [hw] at hover))
    (fun n hmem ↦ Or.inl (by rwa [hn] at hmem)) (fun d hmem ↦ Or.inl (by rwa [hh] at hmem))
    fun t hmem ↦ Or.inl (by rwa [hc] at hmem)

/-- A task object may be written to as long as a terminal status is recorded. -/
theorem EndInv.setTask {t : String} {task : RunningTask} (h : EndInv s) (task' : RunningTask)
    (htask : s.task t = some task)
    (hterm : task'.status.isTerminal = true → s.ended t = true) : EndInv (s.setTask t task') := by
  refine ⟨fun k x hx hover ↦ ?_, fun k hne hact ↦ ?_, h.workers, h.notifiers, h.handlers,
    h.cancels⟩
  · rcases task_setTask_cases hx with ⟨rfl, rfl⟩ | ⟨-, hx⟩
    · exact hterm hover
    · exact h.terminal k x hx hover
  · by_cases hk : k = t
    · subst hk
      exact h.inactive k (by simp [htask]) hact
    · exact h.inactive k
        (by simpa [SchedulerState.setTask, Function.update_of_ne hk] using hne) hact

/-- A goroutine may be moved as long as its end is recorded. -/
theorem EndInv.setWorker {t : String} {w : Worker} (h : EndInv s)
    (hover : WorkerOver w → s.ended t = true) : EndInv (s.setWorker t w) := by
  refine h.congr rfl rfl (fun _ hend ↦ hend) (fun k hk ↦ ?_) (fun _ ↦ Or.inl) (fun _ ↦ Or.inl)
    fun _ ↦ Or.inl
  by_cases hkt : k = t
  · subst hkt
    exact Or.inr (hover (by simpa [SchedulerState.setWorker] using hk))
  · exact Or.inl (by simpa [SchedulerState.setWorker, Function.update_of_ne hkt] using hk)

theorem EndInv.setEnded (h : EndInv s) (t : String) : EndInv (s.setEnded t) := by
  refine h.congr rfl rfl (fun k hend ↦ ?_) (fun _ ↦ Or.inl) (fun _ ↦ Or.inl) (fun _ ↦ Or.inl)
    fun _ ↦ Or.inl
  by_cases hk : k = t
  · simp [SchedulerState.setEnded, hk]
  · simpa [SchedulerState.setEnded, Function.update_of_ne hk] using hend

/-- Once the goroutine has left its wait the task is over. -/
theorem EndInv.ended_of_pc {t : String} (h : EndInv s) (h₁ : (s.worker t).pc ≠ .absent)
    (h₂ : (s.worker t).pc ≠ .created) (h₃ : (s.worker t).pc ≠ .waiting) : s.ended t = true :=
  h.workers t (Or.inr (Or.inr ⟨h₁, h₂, h₃⟩))

/-! ## The steps -/

/-- A new task has a goroutine that has done nothing yet. -/
theorem EndInv.create (h : EndInv s) (t : String) {task : RunningTask}
    (hterm : task.status.isTerminal = false) : EndInv (s.create t task) := by
  refine ⟨fun k x hx hover ↦ ?_, fun k hne hact ↦ ?_, fun k hover ↦ ?_, h.notifiers, h.handlers,
    h.cancels⟩
  · by_cases hk : k = t
    · subst hk
      obtain rfl : task = x := by simpa [SchedulerState.create] using hx
      exact absurd (hterm.symm.trans hover) (by simp)
    · exact h.terminal k x (by simpa [SchedulerState.create, Function.update_of_ne hk] using hx)
        hover
  · by_cases hk : k = t
    · exact absurd hact (by simp [SchedulerState.create, hk])
    · exact h.inactive k (by simpa [SchedulerState.create, Function.update_of_ne hk] using hne)
        (by simpa [SchedulerState.create, Function.update_of_ne hk] using hact)
  · by_cases hk : k = t
    · simp [SchedulerState.create, WorkerOver, hk] at hover
    · exact h.workers k (by simpa [SchedulerState.create, Function.update_of_ne hk] using hover)

theorem EndInv.acknowledge (h : EndInv s) (agentID t : String) :
    EndInv (s.acknowledgeQueuedTask agentID t) := by
  have hremove : EndInv (s.removeQueued agentID t) := h.same rfl rfl rfl rfl rfl rfl rfl
  rcases acknowledgeQueuedTask_cases s agentID t with ⟨-, heq⟩ | ⟨-, heq | ⟨task, htask, heq⟩⟩
  · rwa [heq]
  · rwa [heq]
  · rw [heq]
    exact hremove.setTask { task with dispatchLeaseUntil := none } htask fun hterm ↦
      h.terminal t task htask hterm

/-- Handlers that stand for known reports. -/
theorem EndInv.setHandlers {ds : List Handler} (h : EndInv s)
    (hds : ∀ d ∈ ds, ∀ r ∈ d.report, s.ended r.taskID = true) :
    EndInv { s with handlers := ds } :=
  h.congr rfl rfl (fun _ hend ↦ hend) (fun _ ↦ Or.inl) (fun _ ↦ Or.inl)
    (fun d hd ↦ Or.inr (hds d hd)) fun _ ↦ Or.inl

theorem EndInv.moveHandler (h : EndInv s) {d : Handler} (stage : Stage) (hd : d ∈ s.handlers) :
    EndInv (s.moveHandler d stage) := by
  refine h.setHandlers fun d' hd' ↦ ?_
  rcases List.mem_cons.mp hd' with rfl | hd'
  · exact h.handlers d hd
  · exact h.handlers d' (List.mem_of_mem_erase hd')

theorem EndInv.afterObserve (h : EndInv s) {d : Handler} (hd : d ∈ s.handlers) :
    EndInv (s.afterObserve d) := by
  rw [SchedulerState.afterObserve]
  split
  · exact h.moveHandler _ hd
  · exact h.setHandlers fun d' hd' ↦ h.handlers d' (List.mem_of_mem_erase hd')

theorem handlers_acknowledgeQueuedTask (agentID t : String) :
    (s.acknowledgeQueuedTask agentID t).handlers = s.handlers := by
  rcases acknowledgeQueuedTask_cases s agentID t with ⟨-, heq⟩ | ⟨-, heq | ⟨task, -, heq⟩⟩ <;>
    rw [heq] <;> rfl

theorem taskID_of_terminalReport {taskID taskStatus error : String} {r : TaskCompletionResult}
    (h : terminalReport taskID taskStatus error = some r) : r.taskID = taskID := by
  rw [terminalReport] at h
  split_ifs at h <;> obtain rfl := Option.some.inj h <;> rfl

/-- A report is recorded when it comes in, and handled after that. -/
theorem EndInv.taskStateUpdate {manager : Manager} {d : Handler} {taskID taskStatus error : String}
    (h : EndInv s) (hd : d.report = terminalReport taskID taskStatus error) : EndInv
      { s with
        manager
        handlers := d :: s.handlers
        ended :=
          if (terminalReport taskID taskStatus error).isSome then
            Function.update s.ended taskID true
          else s.ended } := by
  refine h.congr rfl rfl (fun k hend ↦ ?_) (fun _ ↦ Or.inl) (fun _ ↦ Or.inl) (fun d' hd' ↦ ?_)
    fun _ ↦ Or.inl
  · dsimp only
    split
    · by_cases hk : k = taskID
      · simp [hk]
      · simpa [Function.update_of_ne hk] using hend
    · exact hend
  · rcases List.mem_cons.mp hd' with rfl | hd'
    · refine Or.inr fun r hr ↦ ?_
      have hreport : terminalReport taskID taskStatus error = some r := hd.symm.trans hr
      simp [hreport, taskID_of_terminalReport hreport]
    · exact Or.inl hd'

theorem EndInv.dispatchReturns {t : String} {task : RunningTask} (h : EndInv s)
    (task' : RunningTask) (htask : s.task t = some task) (hstatus : task'.status = task.status) :
    EndInv (s.dispatchReturns t task') := by
  have hset := h.setTask { task' with
    dispatchRetryAt := none, dispatchFirstError := none, errorMessage := "" } htask
    fun hterm ↦ h.terminal t task htask (by rwa [← hstatus])
  exact hset.same rfl rfl rfl rfl rfl rfl rfl

/-- A dispatch that is given up ends the task. -/
theorem EndInv.dispatchError {f : Frame} {t : String} {task : RunningTask} (h : EndInv s)
    (task' : RunningTask) (htask : s.task t = some task) (hstatus : task'.status = task.status)
    (err : String) : EndInv (s.dispatchError f t task' err) := by
  rcases dispatchError_cases s f t task' err with ⟨x, heq, -, hx, -⟩ | ⟨x, n, heq, -, -, -, hn, -⟩
  · rw [heq]
    have hset := h.setTask x htask fun hterm ↦ h.terminal t task htask (by rwa [← hstatus, ← hx])
    exact hset.same rfl rfl rfl rfl rfl rfl rfl
  · rw [heq]
    have hend : (s.setEnded t).ended t = true := by simp [SchedulerState.setEnded]
    refine ((h.setEnded t).setTask x htask fun _ ↦ hend).congr rfl rfl (fun _ hend ↦ hend)
      (fun _ ↦ Or.inl) (fun m hm ↦ ?_) (fun _ ↦ Or.inl) fun _ ↦ Or.inl
    rcases List.mem_cons.mp hm with rfl | hm
    · rw [hn]
      exact Or.inr hend
    · exact Or.inl hm

/-- A cancellation that goes on, but not to the removal from the queue. -/
theorem EndInv.moveCancel (h : EndInv s) (t : String) (source : CancelStage) {target : CancelStage}
    (htarget : target ≠ .removeQueued) :
    EndInv { s with cancels := (t, target) :: s.cancels.erase (t, source) } := by
  refine h.congr rfl rfl (fun _ hend ↦ hend) (fun _ ↦ Or.inl) (fun _ ↦ Or.inl) (fun _ ↦ Or.inl)
    fun k hk ↦ ?_
  rcases List.mem_cons.mp hk with heq | hk
  · exact absurd (congrArg Prod.snd heq).symm htarget
  · exact Or.inl (List.mem_of_mem_erase hk)

/-- Cancelling the context of a task ends it. -/
theorem EndInv.cancelContext {t : String} (h : EndInv s) : EndInv
    { (s.setWorker t { s.worker t with contextDone := true }).setEnded t with
      cancels := (t, .removeQueued) :: s.cancels.erase (t, .cancelContext) } := by
  have hself : (s.setEnded t).ended t = true := by simp [SchedulerState.setEnded]
  have hend : EndInv ((s.setEnded t).setWorker t { s.worker t with contextDone := true }) :=
    (h.setEnded t).setWorker fun _ ↦ hself
  refine hend.congr rfl rfl (fun _ h ↦ h) (fun _ ↦ Or.inl) (fun _ ↦ Or.inl) (fun _ ↦ Or.inl)
    fun k hk ↦ ?_
  rcases List.mem_cons.mp hk with heq | hk
  · obtain rfl : k = t := congrArg Prod.fst heq
    exact Or.inr hself
  · exact Or.inl (List.mem_of_mem_erase hk)

theorem EndInv.removeTask {t : String} {task : RunningTask} (h : EndInv s)
    (hpc : (s.worker t).pc = .released) : EndInv
      { (s.setWorker t { s.worker t with pc := .done }).removeQueued task.agentID t with
        active := Function.update s.active t false } := by
  have hend : s.ended t = true := h.ended_of_pc (by simp [hpc]) (by simp [hpc]) (by simp [hpc])
  have hw : EndInv (s.setWorker t { s.worker t with pc := .done }) := h.setWorker fun _ ↦ hend
  refine ⟨h.terminal, fun k hne hact ↦ ?_, hw.workers, h.notifiers, h.handlers, h.cancels⟩
  by_cases hk : k = t
  · subst hk
    exact hend
  · exact h.inactive k hne (by simpa [Function.update_of_ne hk] using hact)

theorem endInv_step {a : Action} (h : EndInv s) (hs : step s a = some s') : EndInv s' := by
  cases move_of_step hs with
  | @startTask r =>
    have hnew := h.create r.taskID (show r.toTask.status.isTerminal = false from rfl)
    exact hnew.same rfl rfl rfl rfl rfl rfl rfl
  | @createMultiTask now exec =>
    have hnew := h.create exec.taskID (show (multiTask now exec).status.isTerminal = false from rfl)
    exact hnew.same rfl rfl rfl rfl rfl rfl rfl
  | startMultiAgentTask | unlock | drop | expire | proceed | reserved | panic =>
    exact h.same rfl rfl rfl rfl rfl rfl rfl
  | heartbeat =>
    refine h.congr rfl rfl (fun _ hend ↦ hend) (fun _ ↦ Or.inl) (fun _ ↦ Or.inl) (fun d hd ↦ ?_)
      fun _ ↦ Or.inl
    rcases List.mem_cons.mp hd with rfl | hd
    · exact Or.inr (by simp)
    · exact Or.inl hd
  | taskStateUpdate => exact h.taskStateUpdate rfl
  | acknowledge hmem =>
    exact (h.acknowledge _ _).moveHandler _ (by rwa [handlers_acknowledgeQueuedTask])
  | observed hmem => exact h.afterObserve hmem
  | idle hmem => exact h.moveHandler _ hmem
  | dispatch hmem => exact (h.afterObserve hmem).same rfl rfl rfl rfl rfl rfl rfl
  | @complete _ d hmem =>
    exact (h.moveHandler .notify hmem).same rfl rfl rfl rfl rfl rfl rfl
  | @notify _ d result hmem hreport =>
    refine h.congr rfl rfl (fun _ hend ↦ hend) (fun _ ↦ Or.inl) (fun n hn ↦ ?_)
      (fun d' hd' ↦ Or.inl (List.mem_of_mem_erase hd')) fun _ ↦ Or.inl
    rcases List.mem_cons.mp hn with rfl | hn
    · exact Or.inr (h.handlers d hmem result hreport)
    · exact Or.inl hn
  | dispatchIdleAgents =>
    refine h.setHandlers fun d hd ↦ ?_
    rcases List.mem_cons.mp hd with rfl | hd
    · simp
    · exact h.handlers d hd
  | @expireLease _ f t task hu =>
    obtain ⟨-, -, htask, -⟩ := underDispatch_eq_some hu
    have hset := h.setTask { task with dispatchLeaseUntil := none, status := .pending } htask
      fun hterm ↦ absurd hterm (by simp [TaskStatus.isTerminal])
    exact hset.same rfl rfl rfl rfl rfl rfl rfl
  | @notReady f t task hu =>
    obtain ⟨-, -, htask, -⟩ := underDispatch_eq_some hu
    exact h.dispatchReturns task htask rfl
  | @reserveError f t err task hu =>
    obtain ⟨-, -, htask, -⟩ := underDispatch_eq_some hu
    exact h.dispatchError task htask rfl err
  | @refused _ f t task _ _ hu =>
    obtain ⟨-, -, htask, -⟩ := underDispatch_eq_some hu
    exact (h.dispatchReturns task htask rfl).same rfl rfl rfl rfl rfl rfl rfl
  | @started _ f t task _ hu =>
    obtain ⟨-, -, htask, -⟩ := underDispatch_eq_some hu
    have hset := h.setTask { task with
      dispatchLeaseUntil := some (f.now + taskDispatchLease)
      dispatchAttempts := task.dispatchAttempts + 1
      startedAt := some f.now } htask fun hterm ↦ h.terminal t task htask hterm
    exact hset.same rfl rfl rfl rfl rfl rfl rfl
  | @send _ f t task hu =>
    obtain ⟨-, -, htask, -⟩ := underDispatch_eq_some hu
    have hsent := h.dispatchReturns { task with dispatchSent := true } htask rfl
    exact hsent.same rfl rfl rfl rfl rfl rfl rfl
  | @sendError _ f t err task hu =>
    obtain ⟨-, -, htask, -⟩ := underDispatch_eq_some hu
    have herror := h.dispatchError (f := f)
      { task with dispatchLeaseUntil := none, dispatchSent := false } htask rfl
      ("send start_task failed for " ++ t ++ ": " ++ err)
    exact herror.same rfl rfl rfl rfl rfl rfl rfl
  | @registerChannel t hpc =>
    refine h.setWorker fun hover ↦ h.workers t ?_
    rcases hover with hbuf | hctx | ⟨-, -, hne⟩
    · exact Or.inl hbuf
    · exact Or.inr (Or.inl hctx)
    · exact absurd rfl hne
  | unregisterChannel hpc | closeChannel hpc =>
    exact h.setWorker fun _ ↦ h.ended_of_pc (by simp [hpc]) (by simp [hpc]) (by simp [hpc])
  | @receive t task task' result htask hbuffer =>
    have hend : s.ended t = true := h.workers t (Or.inl (by simp [hbuffer]))
    exact (h.setTask task' htask fun _ ↦ hend).setWorker fun _ ↦ hend
  | @contextDone t task htask _ hctx =>
    have hend : s.ended t = true := h.workers t (Or.inr (Or.inl hctx))
    exact (h.setTask _ htask fun _ ↦ hend).setWorker fun _ ↦ hend
  | @completeExecution _ t _ _ hpc =>
    have hw : EndInv (s.setWorker t { s.worker t with pc := .released }) := h.setWorker fun _ ↦
      h.ended_of_pc (by simp [hpc]) (by simp [hpc]) (by simp [hpc])
    exact hw.same rfl rfl rfl rfl rfl rfl rfl
  | removeTask _ _ hpc => exact h.removeTask hpc
  | cancelTask =>
    refine h.congr rfl rfl (fun _ hend ↦ hend) (fun _ ↦ Or.inl) (fun _ ↦ Or.inl)
      (fun _ ↦ Or.inl) fun k hk ↦ ?_
    rcases List.mem_cons.mp hk with heq | hk
    · exact absurd (congrArg Prod.snd heq) (by simp)
    · exact Or.inl hk
  | cancelContext => exact h.cancelContext
  | @cancelQueued t =>
    have hmove := h.moveCancel t .removeQueued
      (show CancelStage.sendCancel ≠ .removeQueued by simp)
    exact hmove.same rfl rfl rfl rfl rfl rfl rfl
  | cancelReturn =>
    exact h.congr rfl rfl (fun _ hend ↦ hend) (fun _ ↦ Or.inl) (fun _ ↦ Or.inl)
      (fun _ ↦ Or.inl) fun k hk ↦ Or.inl (List.mem_of_mem_erase hk)
  | @found n hmem =>
    refine h.congr rfl rfl (fun _ hend ↦ hend) (fun _ ↦ Or.inl) (fun m hm ↦ ?_)
      (fun _ ↦ Or.inl) fun _ ↦ Or.inl
    rcases List.mem_cons.mp hm with rfl | hm
    · exact Or.inr (h.notifiers n hmem)
    · exact Or.inl (List.mem_of_mem_erase hm)
  | absent | full =>
    exact h.congr rfl rfl (fun _ hend ↦ hend) (fun _ ↦ Or.inl)
      (fun m hm ↦ Or.inl (List.mem_of_mem_erase hm)) (fun _ ↦ Or.inl) fun _ ↦ Or.inl
  | @deliver n hmem =>
    have hw := h.setWorker (t := n.result.taskID)
      (w := { s.worker n.result.taskID with buffer := some n.result }) fun _ ↦ h.notifiers n hmem
    exact hw.congr rfl rfl (fun _ hend ↦ hend) (fun _ ↦ Or.inl)
      (fun m hm ↦ Or.inl (List.mem_of_mem_erase hm)) (fun _ ↦ Or.inl) fun _ ↦ Or.inl

theorem endInv_init {s : SchedulerState} (h : Initial s) : EndInv s := by
  obtain ⟨manager, rfl⟩ := h
  exact ⟨by simp, by simp, by simp [WorkerOver], by simp, by simp, by simp⟩

end Executor
end FleetServer
