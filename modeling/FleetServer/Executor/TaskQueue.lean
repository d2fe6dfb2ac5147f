import FleetServer.Executor.Steps

/-!
# Accepted tasks are queued or sent

A task in `s.tasks` that has not come to an end should be in the dispatch queue of its agent or have
been sent to it; otherwise nobody is due to run it.  `accepted_task_accounted` shows this for every
run in which no task is created outside the queue and a task leaves the queue only after it was
sent.  `StartMultiAgentTask` does create tasks outside the queue, and its tasks are the example at
the end.

Whether a task that `CancelTask` has cancelled counts as cancelled at once, or only when its
goroutine has set the status, is the parameter `prompt`.
-/

set_option autoImplicit false

namespace FleetServer
namespace Executor

open GuardedRun SchedulerState State State.Manager

variable {s s' : SchedulerState}

/-! ## The invariant -/

/-- A task that has not come to an end is in the queue of its agent or was sent to it; with
`prompt`, a task whose context is cancelled has come to an end. -/
def Accounted (prompt : Bool) (s : SchedulerState) : Prop :=
  ∀ t task, s.active t = true → s.task t = some task → task.status.isTerminal = false →
    t ∈ s.taskQueues task.agentID ∨ task.dispatchSent = true ∨
      (prompt = true ∧ (s.worker t).contextDone = true)

/-- No task is created outside the queue, and a task leaves the queue by an acknowledgement only
after it was sent.  Without `prompt`, it leaves the queue by `CancelTask` only after it was sent or
marked. -/
def LeavesQueueSent (prompt : Bool) (s : SchedulerState) : Action → Prop
  | .createMultiTask _ => False
  | .handlerStep _ h => h.stage = .acknowledge →
    GoString.trimSpace h.currentTaskID ∈ s.taskQueues h.agentID →
      ∀ task ∈ s.task (GoString.trimSpace h.currentTaskID), task.dispatchSent = true
  | .cancelQueued t => prompt = true ∨
    ∀ task ∈ s.task t, task.status.isTerminal = true ∨ task.dispatchSent = true
  | _ => True

instance (prompt : Bool) (s : SchedulerState) (a : Action) :
    Decidable (LeavesQueueSent prompt s a) := by
  apply Action.casesOn (motive := fun a ↦ Decidable (LeavesQueueSent prompt s a)) a <;> intros <;>
    dsimp only [LeavesQueueSent] <;> infer_instance

structure QueueInv (prompt : Bool) (s : SchedulerState) : Prop where
  accounted : Accounted prompt s
  known : ∀ t, s.active t = true → s.task t ≠ none
  /-- What is in a queue is a task of the queue's agent. -/
  owner : ∀ a t, t ∈ s.taskQueues a → ∃ task, s.task t = some task ∧ task.agentID = a
  /-- A task being cancelled exists, and its context is cancelled before it leaves the queue. -/
  cancels : ∀ t stage, (t, stage) ∈ s.cancels →
    s.task t ≠ none ∧ (stage = .removeQueued → (s.worker t).contextDone = true)

variable {prompt : Bool}

/-- A step that keeps tasks and queues, cancels no less and forgets no cancellation. -/
theorem QueueInv.congr (h : QueueInv prompt s) (ht : s'.task = s.task) (ha : s'.active = s.active)
    (hq : s'.taskQueues = s.taskQueues)
    (hw : ∀ t, (s.worker t).contextDone = true → (s'.worker t).contextDone = true)
    (hc : ∀ t stage, (t, stage) ∈ s'.cancels →
      s.task t ≠ none ∧ (stage = .removeQueued → (s'.worker t).contextDone = true)) :
    QueueInv prompt s' := by
  refine ⟨fun t task hact htask hterm ↦ ?_, fun t hact ↦ ?_, fun a t hmem ↦ ?_,
    fun t stage hmem ↦ ?_⟩
  · rw [ha] at hact
    rw [ht] at htask
    rw [hq]
    rcases h.accounted t task hact htask hterm with hmem | hsent | ⟨hp, hctx⟩
    · exact Or.inl hmem
    · exact Or.inr (Or.inl hsent)
    · exact Or.inr (Or.inr ⟨hp, hw t hctx⟩)
  · rw [ha] at hact
    rw [ht]
    exact h.known t hact
  · rw [hq] at hmem
    rw [ht]
    exact h.owner a t hmem
  · rw [ht]
    exact hc t stage hmem

/-- A step that touches neither tasks nor queues nor cancellations. -/
theorem QueueInv.same (h : QueueInv prompt s) (ht : s'.task = s.task) (ha : s'.active = s.active)
    (hq : s'.taskQueues = s.taskQueues) (hw : ∀ t, (s'.worker t).contextDone =
      (s.worker t).contextDone) (hc : s'.cancels = s.cancels) : QueueInv prompt s' := by
  refine h.congr ht ha hq (fun t hctx ↦ by rwa [hw]) fun t stage hmem ↦ ?_
  rw [hc] at hmem
  rw [hw]
  exact h.cancels t stage hmem

/-- Writing to a task object keeps the invariant if the task is then over, sent, or queued, or if
nothing of this has changed. -/
theorem QueueInv.setTask {t : String} {task : RunningTask} (h : QueueInv prompt s)
    (task' : RunningTask) (htask : s.task t = some task) (hagent : task'.agentID = task.agentID)
    (hacc : task'.status.isTerminal = true ∨ task'.dispatchSent = true ∨
      t ∈ s.taskQueues task.agentID ∨
      (task'.status = task.status ∧ task'.dispatchSent = task.dispatchSent)) :
    QueueInv prompt (s.setTask t task') := by
  have hsome : ∀ k, s.task k ≠ none → (s.setTask t task').task k ≠ none := by
    intro k hne
    obtain ⟨x, hx⟩ := Option.ne_none_iff_exists'.mp hne
    obtain ⟨x', hx', -⟩ := owner_setTask htask hagent hx
    rw [hx']
    exact Option.some_ne_none x'
  refine ⟨fun k x hact hx hterm ↦ ?_, fun k hact ↦ hsome k (h.known k hact), fun a k hmem ↦ ?_,
    fun k stage hmem ↦ ?_⟩
  · rcases task_setTask_cases hx with ⟨rfl, rfl⟩ | ⟨-, hx⟩
    · rw [hagent]
      rcases hacc with hover | hsent | hqueued | ⟨hstatus, hsame⟩
      · rw [hover] at hterm
        exact absurd hterm (by simp)
      · exact Or.inr (Or.inl hsent)
      · exact Or.inl hqueued
      · rw [hsame]
        exact h.accounted k task hact htask (by rwa [← hstatus])
    · exact h.accounted k x hact hx hterm
  · obtain ⟨x, hx, rfl⟩ := h.owner a k hmem
    exact owner_setTask htask hagent hx
  · obtain ⟨hne, hctx⟩ := h.cancels k stage hmem
    exact ⟨hsome k hne, hctx⟩

/-- A task leaves a queue when it is over, sent, or already cancelled. -/
theorem QueueInv.removeQueued {agentID t : String} (h : QueueInv prompt s)
    (hok : ∀ task, s.active t = true → s.task t = some task → task.status.isTerminal = false →
      task.dispatchSent = true ∨ (prompt = true ∧ (s.worker t).contextDone = true)) :
    QueueInv prompt (s.removeQueued agentID t) := by
  refine ⟨fun k x hact hx hterm ↦ ?_, h.known, fun a k hmem ↦ ?_, h.cancels⟩
  · by_cases hk : k = t
    · subst hk
      exact Or.inr (hok x hact hx hterm)
    · rcases h.accounted k x hact hx hterm with hmem | hrest
      · exact Or.inl (mem_removeQueued_of_ne hk hmem)
      · exact Or.inr hrest
  · exact h.owner a k (mem_of_mem_removeQueued hmem)

/-! ## The steps -/

/-- A new task that is known to be accounted for. -/
theorem QueueInv.startTask {r : StartRequest} (h : QueueInv prompt s)
    (hnew : s.task r.taskID = none) :
    QueueInv prompt { s.create r.taskID r.toTask with
      taskQueues :=
        Function.update s.taskQueues r.agentID (s.taskQueues r.agentID ++ [r.taskID]) } := by
  have hmem : ∀ a k, k ∈ Function.update s.taskQueues r.agentID
      (s.taskQueues r.agentID ++ [r.taskID]) a ↔
        k ∈ s.taskQueues a ∨ (k = r.taskID ∧ a = r.agentID) := by
    intro a k
    by_cases ha : a = r.agentID
    · subst ha
      simp
    · simp [ha]
  refine ⟨fun k x hact hx hterm ↦ ?_, fun k hact ↦ ?_, fun a k hk ↦ ?_, fun k stage hk ↦ ?_⟩
  · by_cases hk : k = r.taskID
    · subst hk
      obtain rfl : r.toTask = x := by simpa [create] using hx
      exact Or.inl ((hmem _ _).mpr (Or.inr ⟨rfl, rfl⟩))
    · rcases h.accounted k x (by simpa [create, Function.update_of_ne hk] using hact)
        (by simpa [create, Function.update_of_ne hk] using hx) hterm with hold | hsent | hctx
      · exact Or.inl ((hmem _ _).mpr (Or.inl hold))
      · exact Or.inr (Or.inl hsent)
      · exact Or.inr (Or.inr (by simpa [create, Function.update_of_ne hk] using hctx))
  · by_cases hk : k = r.taskID
    · simp [create, hk]
    · simpa [create, Function.update_of_ne hk] using
        h.known k (by simpa [create, Function.update_of_ne hk] using hact)
  · rcases (hmem a k).mp hk with hold | ⟨rfl, rfl⟩
    · obtain ⟨x, hx, howner⟩ := h.owner a k hold
      have hne : k ≠ r.taskID := by
        rintro rfl
        rw [hnew] at hx
        exact absurd hx (by simp)
      exact ⟨x, by simpa [create, Function.update_of_ne hne] using hx, howner⟩
    · exact ⟨r.toTask, Function.update_self .., rfl⟩
  · obtain ⟨hne, hctx⟩ := h.cancels k stage hk
    have hk : k ≠ r.taskID := by
      rintro rfl
      exact hne hnew
    exact ⟨by simpa [create, Function.update_of_ne hk] using hne,
      by simpa [create, Function.update_of_ne hk] using hctx⟩

theorem QueueInv.acknowledge (h : QueueInv prompt s) (agentID t : String)
    (hok : t ∈ s.taskQueues agentID → ∀ task ∈ s.task t, task.dispatchSent = true) :
    QueueInv prompt (s.acknowledgeQueuedTask agentID t) := by
  rcases acknowledgeQueuedTask_cases s agentID t with ⟨-, heq⟩ | ⟨hmem, hcases⟩
  · rwa [heq]
  · have hremove : QueueInv prompt (s.removeQueued agentID t) :=
      h.removeQueued fun task _ htask _ ↦ Or.inl (hok hmem task htask)
    rcases hcases with heq | ⟨task, htask, heq⟩
    · rwa [heq]
    · rw [heq]
      exact hremove.setTask { task with dispatchLeaseUntil := none } htask rfl
        (Or.inr (Or.inr (Or.inr ⟨rfl, rfl⟩)))

theorem QueueInv.afterObserve (h : QueueInv prompt s) (d : Handler) :
    QueueInv prompt (s.afterObserve d) := by
  rw [SchedulerState.afterObserve]
  split <;> exact h.same rfl rfl rfl (fun _ ↦ rfl) rfl

/-- The task under dispatch is queued with its agent. -/
theorem QueueInv.mem_of_underDispatch {phase : Phase} {f : Frame} {t : String} {task : RunningTask}
    (h : QueueInv prompt s) (hu : s.underDispatch phase = some (f, t, task)) :
    t ∈ s.taskQueues task.agentID ∧ task.agentID = f.agentID := by
  obtain ⟨-, -, htask, rest, hqueue⟩ := underDispatch_eq_some hu
  have hmem : t ∈ s.taskQueues f.agentID := by
    rw [hqueue]
    exact List.mem_cons_self
  obtain ⟨x, hx, howner⟩ := h.owner _ _ hmem
  obtain rfl : task = x := Option.some.inj (htask.symm.trans hx)
  exact ⟨by rwa [howner], howner⟩

/-- The end of a failed dispatch: the task stays at the head of the queue or has failed. -/
theorem QueueInv.dispatchError {phase : Phase} {f : Frame} {t : String} {task : RunningTask}
    (h : QueueInv prompt s) (hu : s.underDispatch phase = some (f, t, task)) (task' : RunningTask)
    (hagent : task'.agentID = task.agentID) (err : String) :
    QueueInv prompt (s.dispatchError f t task' err) := by
  obtain ⟨-, -, htask, rest, hqueue⟩ := underDispatch_eq_some hu
  rcases dispatchError_cases s f t task' err with ⟨x, heq, hx, -⟩ | ⟨x, n, heq, hx, -, hfailed, -⟩
  · rw [heq]
    exact (h.setTask x htask (hx.trans hagent)
      (Or.inr (Or.inr (Or.inl (h.mem_of_underDispatch hu).1)))).same rfl rfl rfl (fun _ ↦ rfl) rfl
  · rw [heq]
    have hterm : x.status.isTerminal = true := by
      rw [hfailed]
      rfl
    have hpop : QueueInv prompt ((s.setTask t x).popQueue f.agentID) := by
      rw [popQueue_eq_removeQueued (s := s.setTask t x) hqueue]
      refine (h.setTask x htask (hx.trans hagent) (Or.inl hterm)).removeQueued fun y _ hy hnot ↦ ?_
      obtain rfl : x = y := by simpa [SchedulerState.setTask] using hy
      rw [hterm] at hnot
      exact absurd hnot (by simp)
    exact hpop.same rfl rfl rfl (fun _ ↦ rfl) rfl

theorem QueueInv.dispatchReturns {t : String} {task : RunningTask} (h : QueueInv prompt s)
    (task' : RunningTask) (htask : s.task t = some task) (hagent : task'.agentID = task.agentID)
    (hacc : task'.dispatchSent = true ∨
      (task'.status = task.status ∧ task'.dispatchSent = task.dispatchSent)) :
    QueueInv prompt (s.dispatchReturns t task') := by
  have hset := h.setTask { task' with
    dispatchRetryAt := none, dispatchFirstError := none, errorMessage := "" } htask hagent
    (Or.inr (hacc.imp id Or.inr))
  exact hset.same rfl rfl rfl (fun _ ↦ rfl) rfl

/-- A goroutine may be changed as long as its context is left alone. -/
theorem QueueInv.setWorker {t : String} {w : Worker} (h : QueueInv prompt s)
    (hctx : w.contextDone = (s.worker t).contextDone) : QueueInv prompt (s.setWorker t w) := by
  refine h.same rfl rfl rfl (fun k ↦ ?_) rfl
  by_cases hk : k = t
  · simp [SchedulerState.setWorker, hk, hctx]
  · simp [SchedulerState.setWorker, Function.update_of_ne hk]

/-- The context of a task is cancelled. -/
theorem QueueInv.cancelContext {t : String} (h : QueueInv prompt s)
    (hmem : (t, CancelStage.cancelContext) ∈ s.cancels) : QueueInv prompt
      { (s.setWorker t { s.worker t with contextDone := true }).setEnded t with
        cancels := (t, .removeQueued) :: s.cancels.erase (t, .cancelContext) } := by
  have hmono : ∀ k, (s.worker k).contextDone = true →
      ((s.setWorker t { s.worker t with contextDone := true }).worker k).contextDone = true := by
    intro k hctx
    by_cases hk : k = t
    · simp [SchedulerState.setWorker, hk]
    · simpa [SchedulerState.setWorker, Function.update_of_ne hk] using hctx
  refine h.congr rfl rfl rfl hmono fun k stage hk ↦ ?_
  rcases List.mem_cons.mp hk with heq | hk
  · obtain ⟨rfl, rfl⟩ : k = t ∧ stage = .removeQueued := by simpa using heq
    exact ⟨(h.cancels k _ hmem).1, fun _ ↦ by simp [setEnded, SchedulerState.setWorker]⟩
  · obtain ⟨hne, hctx⟩ := h.cancels k stage (List.mem_of_mem_erase hk)
    exact ⟨hne, fun hstage ↦ hmono k (hctx hstage)⟩

theorem QueueInv.removeTask {t : String} {task : RunningTask} (h : QueueInv prompt s)
    (htask : s.task t = some task) : QueueInv prompt
      { (s.setWorker t { s.worker t with pc := .done }).removeQueued task.agentID t with
        active := Function.update s.active t false } := by
  have hw : QueueInv prompt (s.setWorker t { s.worker t with pc := .done }) := h.setWorker rfl
  have hact : ∀ k, Function.update s.active t false k = true → k ≠ t ∧ s.active k = true := by
    intro k hact
    by_cases hk : k = t
    · subst hk
      exact absurd hact (by simp)
    · exact ⟨hk, by simpa [Function.update_of_ne hk] using hact⟩
  refine ⟨fun k x hk hx hterm ↦ ?_, fun k hk ↦ h.known k (hact k hk).2, fun a k hmem ↦ ?_,
    hw.cancels⟩
  · obtain ⟨hne, hold⟩ := hact k hk
    rcases hw.accounted k x hold hx hterm with hmem | hrest
    · exact Or.inl (mem_removeQueued_of_ne hne hmem)
    · exact Or.inr hrest
  · exact h.owner a k (mem_of_mem_removeQueued hmem)

theorem queueInv_step {a : Action} (h : QueueInv prompt s) (hok : LeavesQueueSent prompt s a)
    (hs : step s a = some s') : QueueInv prompt s' := by
  cases move_of_step hs with
  | startTask _ hnew => exact h.startTask hnew
  | createMultiTask => exact absurd hok id
  | startMultiAgentTask | heartbeat | taskStateUpdate | idle | complete | notify
  | dispatchIdleAgents | unlock | expire | proceed | reserved | found | absent | panic | full =>
    exact h.same rfl rfl rfl (fun _ ↦ rfl) rfl
  | @acknowledge _ d _ hstage =>
    exact (h.acknowledge d.agentID _ (hok hstage)).same rfl rfl rfl (fun _ ↦ rfl) rfl
  | observed => exact h.afterObserve _
  | dispatch => exact (h.afterObserve _).same rfl rfl rfl (fun _ ↦ rfl) rfl
  | drop _ _ _ hover =>
    refine h.removeQueued fun task hact htask hterm ↦ ?_
    rcases hover with hnone | ⟨-, hinactive⟩ | ⟨task', htask', hover⟩
    · exact absurd (hnone.symm.trans htask) (by simp)
    · exact absurd (hinactive.symm.trans hact) (by simp)
    · obtain rfl : task = task' := Option.some.inj (htask.symm.trans htask')
      exact absurd (hterm.symm.trans hover) (by simp)
  | @expireLease _ f t task hu =>
    obtain ⟨-, -, htask, -⟩ := underDispatch_eq_some hu
    exact (h.setTask { task with dispatchLeaseUntil := none, status := .pending } htask rfl
      (Or.inr (Or.inr (Or.inl (h.mem_of_underDispatch hu).1)))).same rfl rfl rfl (fun _ ↦ rfl) rfl
  | @notReady f t task hu =>
    obtain ⟨-, -, htask, -⟩ := underDispatch_eq_some hu
    exact h.dispatchReturns task htask rfl (Or.inr ⟨rfl, rfl⟩)
  | reserveError hu => exact h.dispatchError hu _ rfl _
  | @refused _ f t task _ _ hu =>
    obtain ⟨-, -, htask, -⟩ := underDispatch_eq_some hu
    exact (h.dispatchReturns task htask rfl (Or.inr ⟨rfl, rfl⟩)).same rfl rfl rfl (fun _ ↦ rfl) rfl
  | @started _ f t task _ hu =>
    obtain ⟨-, -, htask, -⟩ := underDispatch_eq_some hu
    exact (h.setTask { task with
      dispatchLeaseUntil := some (f.now + taskDispatchLease)
      dispatchAttempts := task.dispatchAttempts + 1
      startedAt := some f.now } htask rfl (Or.inr (Or.inr (Or.inr ⟨rfl, rfl⟩)))).same
      rfl rfl rfl (fun _ ↦ rfl) rfl
  | @send _ f t task hu =>
    obtain ⟨-, -, htask, -⟩ := underDispatch_eq_some hu
    exact (h.dispatchReturns { task with dispatchSent := true } htask rfl (Or.inl rfl)).same
      rfl rfl rfl (fun _ ↦ rfl) rfl
  | @sendError _ f t err task hu =>
    have herror := h.dispatchError hu
      { task with dispatchLeaseUntil := none, dispatchSent := false } rfl
      ("send start_task failed for " ++ t ++ ": " ++ err)
    exact herror.same rfl rfl rfl (fun _ ↦ rfl) rfl
  | registerChannel | unregisterChannel | closeChannel => exact h.setWorker rfl
  | @receive t task task' result htask _ _ hagent _ hstatus =>
    refine (h.setTask task' htask hagent (Or.inl ?_)).setWorker rfl
    rw [hstatus]
    exact result.terminal
  | @contextDone t task htask =>
    exact (h.setTask { task with
      status := .cancelled, errorMessage := "task context cancelled" } htask rfl
      (Or.inl rfl)).setWorker rfl
  | @completeExecution _ t =>
    have hw : QueueInv prompt (s.setWorker t { s.worker t with pc := .released }) := h.setWorker rfl
    exact hw.same rfl rfl rfl (fun _ ↦ rfl) rfl
  | removeTask _ htask => exact h.removeTask htask
  | @cancelTask t hactive =>
    refine h.congr rfl rfl rfl (fun _ hctx ↦ hctx) fun k stage hk ↦ ?_
    rcases List.mem_cons.mp hk with heq | hk
    · obtain ⟨rfl, rfl⟩ : k = t ∧ stage = .cancelContext := by simpa using heq
      exact ⟨h.known k hactive, fun hne ↦ absurd hne (by simp)⟩
    · exact h.cancels k stage hk
  | cancelContext hmem => exact h.cancelContext hmem
  | @cancelQueued t task _ htask hmem =>
    have hremove : QueueInv prompt (s.removeQueued task.agentID t) := by
      refine h.removeQueued fun x _ hx hterm ↦ ?_
      rcases hok with hprompt | hsent
      · exact Or.inr ⟨hprompt, (h.cancels t _ hmem).2 rfl⟩
      · rcases hsent x hx with hover | hsent
        · exact absurd (hterm.symm.trans hover) (by simp)
        · exact Or.inl hsent
    refine hremove.congr rfl rfl rfl (fun _ hctx ↦ hctx) fun k stage hk ↦ ?_
    rcases List.mem_cons.mp hk with heq | hk
    · obtain ⟨rfl, rfl⟩ : k = t ∧ stage = .sendCancel := by simpa using heq
      exact ⟨(h.cancels k _ hmem).1, fun hne ↦ absurd hne (by simp)⟩
    · exact h.cancels k stage (List.mem_of_mem_erase hk)
  | cancelReturn =>
    exact h.congr rfl rfl rfl (fun _ hctx ↦ hctx) fun k stage hk ↦
      h.cancels k stage (List.mem_of_mem_erase hk)
  | @deliver n =>
    refine h.same rfl rfl rfl (fun k ↦ ?_) rfl
    by_cases hk : k = n.result.taskID
    · simp [hk]
    · simp [Function.update_of_ne hk]

theorem queueInv_init {s : SchedulerState} (h : Initial s) : QueueInv prompt s := by
  obtain ⟨manager, rfl⟩ := h
  exact ⟨fun _ _ hact ↦ absurd hact (by simp), fun _ hact ↦ absurd hact (by simp),
    fun _ _ hmem ↦ absurd hmem (by simp), fun _ _ hmem ↦ absurd hmem (by simp)⟩

/-- **Every accepted task that has not come to an end is queued or was sent**, in every run in which
tasks are created in the queue and leave it only after they were sent. -/
theorem accepted_task_accounted {prompt : Bool} {s : SchedulerState}
    (h : Reachable step (LeavesQueueSent prompt) Initial s) : Accounted prompt s :=
  (h.invariant (fun _ ↦ queueInv_init) fun _ _ _ _ hI hok hs ↦ queueInv_step hI hok hs).accounted

/-- A task that is queued, sent and acknowledged, with another one behind it. -/
theorem acknowledgedTask_accounted :
    ∃ s, Reachable step (LeavesQueueSent false) Initial s ∧ Accounted false s ∧
      s.active "first" = true ∧ s.taskQueues "robot" = ["second"] := by
  obtain ⟨s, hs, hfacts⟩ := exists_reachable_of_run step (LeavesQueueSent false)
    initial_oneRobotScheduler
    (queueTask "first" :: queueTask "second" :: dispatchNext 1 ++ acknowledgeTask 2 "first")
    (P := fun s ↦ s.active "first" = true ∧ s.taskQueues "robot" = ["second"]) (by decide)
  exact ⟨s, hs, accepted_task_accounted hs, hfacts⟩

/-- **A task of `StartMultiAgentTask` is neither queued nor sent**: it is in `s.tasks`, running and
not cancelled, its robot is kept busy, and nothing is under way. -/
theorem multiAgentTask_stranded :
    ∃ s, Reachable step (fun _ _ ↦ True) Initial s ∧ ¬Accounted true s ∧
      s.manager.busyWith "robot" = some "multi" ∧ s.creating = [] ∧ s.dispatching = none ∧
      s.outbox = [] := by
  obtain ⟨s, hs, ⟨hact, htask, hqueue, hctx⟩, hrest⟩ := exists_reachable_of_run step
    (fun _ _ ↦ True) initial_oneRobotScheduler
    [.startMultiAgentTask 1 [⟨"robot", "multi", "step", "tree", []⟩] [], .createMultiTask 1,
      .registerChannel "multi"]
    (P := fun s ↦ (s.active "multi" = true ∧
        ((s.task "multi").map fun task ↦ (task.agentID, task.status, task.dispatchSent)) =
          some ("robot", .running, false) ∧
        s.taskQueues "robot" = [] ∧ (s.worker "multi").contextDone = false) ∧
      s.manager.busyWith "robot" = some "multi" ∧ s.creating = [] ∧ s.dispatching = none ∧
      s.outbox = []) (by decide)
  refine ⟨s, hs, fun hacc ↦ ?_, hrest⟩
  obtain ⟨task, htask, hfields⟩ := Option.map_eq_some_iff.mp htask
  obtain ⟨hagent, hstatus, hsent⟩ : task.agentID = "robot" ∧ task.status = .running ∧
      task.dispatchSent = false := by simpa using hfields
  rcases hacc "multi" task hact htask (by rw [hstatus]; rfl) with hmem | hsent' | ⟨-, hctx'⟩
  · rw [hagent, hqueue] at hmem
    exact absurd hmem (by simp)
  · rw [hsent] at hsent'
    exact absurd hsent' (by simp)
  · rw [hctx] at hctx'
    exact absurd hctx' (by simp)

end Executor
end FleetServer
