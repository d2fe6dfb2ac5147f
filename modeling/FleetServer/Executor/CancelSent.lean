import FleetServer.Executor.BusyMark

/-!
# Cancelling a task that was sent

`CancelTask` takes a task out of the queue of its agent and, when the task was sent, sends a cancel
command after it.  Whether it was sent is one flag of the task, which every send of the task writes
anew: a send that fails clears it, even if the task was sent before and its lease has run out.

The task leaves the queue for good, so nothing is sent for it once `CancelTask` has returned.
`cancelTask_reaches_agent` shows that the agent is told as well, in every run in which no send of
the task fails after one has succeeded.  The example at the end is a run in which one does.
-/

set_option autoImplicit false

namespace FleetServer
namespace Executor

open GuardedRun SchedulerState State State.Manager

/-! ## Calls of `CancelTask` -/

/-- A call of `CancelTask` that has returned: what had been sent until then, and whether the call
has returned an error. -/
structure CancelReturn where
  taskID : String
  outbox : List ServerMessage
  failed : Bool
  deriving DecidableEq

/-- The scheduler with the calls of `CancelTask` that have returned. -/
structure CancelRun where
  sched : SchedulerState
  returned : List CancelReturn := []

inductive CancelAction
  | act (action : Action)
  /-- `CancelTask` finds the task no more, and returns an error. -/
  | notFound (taskID : String)

/-- The call that an action lets return. -/
def returnOf (before after : SchedulerState) : Action → List CancelReturn
  | .cancelReturn taskID failure =>
    [{ taskID
       outbox := after.outbox
       failed := (before.task taskID).any (fun task ↦ task.dispatchSent) && failure.isSome }]
  | _ => []

def CancelRun.step (r : CancelRun) : CancelAction → Option CancelRun
  | .act action => (Executor.step r.sched action).map fun s ↦
      { sched := s, returned := returnOf r.sched s action ++ r.returned }
  | .notFound taskID =>
    if r.sched.panicked = false ∧ r.sched.dispatching = none ∧ r.sched.task taskID ≠ none ∧
        r.sched.active taskID = false then
      some { r with returned := ⟨taskID, r.sched.outbox, true⟩ :: r.returned }
    else none

/-- Every start of the task is followed by a cancel command to the same agent. -/
def CancelledAfter (t : String) (outbox : List ServerMessage) : Prop :=
  ∀ newer older agentID, outbox = newer ++ .startTask agentID t :: older →
    .cancel agentID t ∈ newer

/-- Nothing has been started for the task since a call of `CancelTask` has returned, and what was
started before is cancelled unless the call has returned an error. -/
def CancelReaches (t : String) (r : CancelRun) : Prop :=
  ∀ c ∈ r.returned, c.taskID = t →
    (∃ since, r.sched.outbox = since ++ c.outbox ∧ ∀ agentID, .startTask agentID t ∉ since) ∧
    (c.failed = false → CancelledAfter t c.outbox)

/-- A send of the task fails although the task was sent before. -/
def resendFails (t : String) (r : CancelRun) : CancelAction → Bool
  | .act (.sendStartTask _ (some _)) =>
    (r.sched.underDispatch .send).any fun u ↦ u.2.1 = t && u.2.2.dispatchSent
  | _ => false

/-- The scheduler starts with nothing in it, and no call has returned. -/
def CancelRun.Initial (r : CancelRun) : Prop := Executor.Initial r.sched ∧ r.returned = []

variable {s s' : SchedulerState} {act : Action}

/-! ## What a step does to a task -/

/-- The task was sent to the agent, and its flag says so. -/
def Sent (s : SchedulerState) (agentID t : String) : Prop :=
  ∃ task, s.task t = some task ∧ task.agentID = agentID ∧ task.dispatchSent = true

theorem task_dispatchError (f : Frame) (t : String) (task : RunningTask) (err : String) :
    ∃ task', (s.dispatchError f t task err).task = Function.update s.task t (some task') ∧
      task'.agentID = task.agentID ∧ task'.dispatchSent = task.dispatchSent := by
  simp only [dispatchError]
  split <;> exact ⟨_, rfl, rfl, rfl⟩

/-- A result on the channel leaves the flag alone. -/
theorem dispatchSent_receive {t : String} {task task' : RunningTask}
    (h : s.receive t = some s') (htask : s.task t = some task) (htask' : s'.task t = some task') :
    task'.dispatchSent = task.dispatchSent := by
  rw [SchedulerState.receive, htask] at h
  split at h
  · rename_i result heq _
    obtain rfl := Option.some.inj heq
    split at h
    · obtain rfl := Option.some.inj h
      simp only [SchedulerState.setWorker, SchedulerState.setTask, Function.update_self,
        Option.some.injEq] at htask'
      rw [← htask']
    · exact absurd h (by simp)
  · exact absurd h (by simp)

/-- What a step leaves of a task: its agent, and that it was sent, unless sending it again fails. -/
def KeepsSent (s : SchedulerState) (act : Action) (t : String) (task task' : RunningTask) : Prop :=
  task'.agentID = task.agentID ∧ ((task.dispatchSent = true → task'.dispatchSent = true) ∨
    ∃ now err f, act = .sendStartTask now (some err) ∧ s.underDispatch .send = some (f, t, task))

/-- **A task keeps its agent, and stays sent** unless sending it again fails. -/
theorem task_of_step {t : String} {task : RunningTask} (htask : s.task t = some task)
    (hs : step s act = some s') :
    ∃ task', s'.task t = some task' ∧ KeepsSent s act t task task' := by
  have hsame : s'.task = s.task → ∃ task', s'.task t = some task' ∧ KeepsSent s act t task task' :=
    fun heq ↦ ⟨task, by rw [heq, htask], rfl, Or.inl id⟩
  -- a step that writes to one task
  have hwrite : ∀ (k : String) (x y : RunningTask), s'.task = Function.update s.task k (some y) →
      s.task k = some x → KeepsSent s act k x y →
      ∃ task', s'.task t = some task' ∧ KeepsSent s act t task task' := by
    intro k x y heq hx hkeeps
    by_cases hk : k = t
    · subst hk
      obtain rfl : task = x := Option.some.inj (htask.symm.trans hx)
      exact ⟨y, by rw [heq, Function.update_self], hkeeps⟩
    · exact ⟨task, by rw [heq, Function.update_of_ne (Ne.symm hk), htask], rfl, Or.inl id⟩
  -- a step that makes a new task
  have hcreate : ∀ (k : String) (y : RunningTask), s'.task = Function.update s.task k (some y) →
      s.task k = none → ∃ task', s'.task t = some task' ∧ KeepsSent s act t task task' := by
    intro k y heq hnew
    have hk : t ≠ k := by
      rintro rfl
      rw [hnew] at htask
      exact absurd htask (by simp)
    exact ⟨task, by rw [heq, Function.update_of_ne hk, htask], rfl, Or.inl id⟩
  cases move_of_step hs with
  | startTask _ hnew => exact hcreate _ _ rfl hnew
  | createMultiTask _ hnew => exact hcreate _ _ rfl hnew
  | @acknowledge _ d =>
    rcases acknowledgeQueuedTask_cases s d.agentID (GoString.trimSpace d.currentTaskID) with
      ⟨-, heq⟩ | ⟨-, heq | ⟨x, hx, heq⟩⟩ <;> have heq := congrArg SchedulerState.task heq
    · exact hsame heq
    · exact hsame heq
    · exact hwrite _ x _ heq hx ⟨rfl, Or.inl id⟩
  | @observed _ d | @dispatch _ d =>
    obtain ⟨_, heq⟩ := afterObserve_eq s d
    exact hsame (by rw [heq])
  | expireLease hu | notReady hu | refused hu | started hu =>
    exact hwrite _ _ _ rfl (underDispatch_eq_some hu).2.2.1 ⟨rfl, Or.inl id⟩
  | @reserveError f k err x hu =>
    obtain ⟨y, heq, hyx, hflag⟩ := task_dispatchError (s := s) f k x err
    exact hwrite _ x y heq (underDispatch_eq_some hu).2.2.1 ⟨hyx, Or.inl hflag.trans⟩
  | send hu => exact hwrite _ _ _ rfl (underDispatch_eq_some hu).2.2.1 ⟨rfl, Or.inl fun _ ↦ rfl⟩
  | @sendError now f k err x hu =>
    obtain ⟨y, heq, hyx, -⟩ := task_dispatchError (s := s) f k
      { x with dispatchLeaseUntil := none, dispatchSent := false }
      ("send start_task failed for " ++ k ++ ": " ++ err)
    exact hwrite _ x y heq (underDispatch_eq_some hu).2.2.1 ⟨hyx, Or.inr ⟨now, err, f, rfl, hu⟩⟩
  | @receive k x y result hx _ _ hagent' =>
    refine hwrite k x y rfl hx ⟨hagent', Or.inl fun hflag ↦ ?_⟩
    rw [dispatchSent_receive (step_eq_some hs).2 hx (Function.update_self ..)]
    exact hflag
  | contextDone hx => exact hwrite _ _ _ rfl hx ⟨rfl, Or.inl id⟩
  | _ => exact hsame rfl

theorem exists_of_step {t : String} (h : s.task t ≠ none) (hs : step s act = some s') :
    s'.task t ≠ none := by
  obtain ⟨task, htask⟩ := Option.ne_none_iff_exists'.mp h
  obtain ⟨task', htask', -⟩ := task_of_step htask hs
  rw [htask']
  exact Option.some_ne_none task'

theorem Belongs.step {agentID t : String} (h : Belongs s agentID t) (hs : step s act = some s') :
    Belongs s' agentID t := by
  obtain ⟨task, htask, hagent⟩ := h
  obtain ⟨task', htask', hagent', -⟩ := task_of_step htask hs
  exact ⟨task', htask', hagent'.trans hagent⟩

theorem Sent.step {agentID t : String} (h : Sent s agentID t) (hs : step s act = some s')
    (hok : ∀ now err f task, act = .sendStartTask now (some err) →
      s.underDispatch .send = some (f, t, task) → task.dispatchSent = false) :
    Sent s' agentID t := by
  obtain ⟨task, htask, hagent, hsent⟩ := h
  obtain ⟨task', htask', hagent', hflag | ⟨now, err, f, hact, hu⟩⟩ := task_of_step htask hs
  · exact ⟨task', htask', hagent'.trans hagent, hflag hsent⟩
  · rw [hok now err f task hact hu] at hsent
    exact absurd hsent (by simp)

/-! ## What a step does to the queues -/

theorem removeQueued_sublist (agentID t b : String) :
    ((s.removeQueued agentID t).taskQueues b).Sublist (s.taskQueues b) := by
  by_cases hb : b = agentID
  · subst hb
    rw [taskQueues_removeQueued_self]
    exact List.erase_sublist
  · rw [taskQueues_removeQueued_of_ne hb]

theorem dispatchError_sublist (f : Frame) (t : String) (task : RunningTask) (err b : String) :
    ((s.dispatchError f t task err).taskQueues b).Sublist (s.taskQueues b) := by
  rcases dispatchError_cases s f t task err with ⟨x, heq, -⟩ | ⟨x, n, heq, -⟩
  · rw [heq]
    exact List.Sublist.refl _
  · rw [heq]
    by_cases hb : b = f.agentID
    · subst hb
      simpa [SchedulerState.toPhase, SchedulerState.setEnded, SchedulerState.popQueue,
        SchedulerState.setTask] using List.tail_sublist _
    · simp [SchedulerState.toPhase, SchedulerState.setEnded, SchedulerState.popQueue,
        SchedulerState.setTask, Function.update_of_ne hb]

/-- **Only `StartTask` queues anything**, and what it queues is a new task. -/
theorem queues_of_move (hm : Move s act s') :
    (∀ b, (s'.taskQueues b).Sublist (s.taskQueues b)) ∨
    ∃ r : StartRequest, act = .startTask r ∧ s.task r.taskID = none ∧
      s'.taskQueues =
        Function.update s.taskQueues r.agentID (s.taskQueues r.agentID ++ [r.taskID]) ∧
      s'.task = Function.update s.task r.taskID (some r.toTask) ∧
      s'.active = Function.update s.active r.taskID true := by
  cases hm with
  | @startTask r _ hnew => exact Or.inr ⟨r, rfl, hnew, rfl, rfl, rfl⟩
  | @acknowledge _ d =>
    refine Or.inl fun b ↦ ?_
    rcases acknowledgeQueuedTask_cases s d.agentID (GoString.trimSpace d.currentTaskID) with
      ⟨-, heq⟩ | ⟨-, heq | ⟨x, -, heq⟩⟩
    · rw [SchedulerState.moveHandler, heq]
    · rw [SchedulerState.moveHandler, heq]
      exact removeQueued_sublist _ _ b
    · rw [SchedulerState.moveHandler, heq]
      exact removeQueued_sublist _ _ b
  | @observed _ d | @dispatch _ d =>
    obtain ⟨_, heq⟩ := afterObserve_eq s d
    exact Or.inl fun b ↦ by rw [heq]
  | drop | removeTask | cancelQueued => exact Or.inl fun b ↦ removeQueued_sublist _ _ b
  | reserveError => exact Or.inl fun b ↦ dispatchError_sublist _ _ _ _ b
  | @sendError _ f t err task =>
    exact Or.inl fun b ↦ dispatchError_sublist f t
      { task with dispatchLeaseUntil := none, dispatchSent := false } _ b
  | _ => exact Or.inl fun b ↦ List.Sublist.refl _

/-- A task that exists is not queued again. -/
theorem mem_queue_of_move (hm : Move s act s') {b t : String} (hexists : s.task t ≠ none)
    (h : t ∈ s'.taskQueues b) : t ∈ s.taskQueues b := by
  rcases queues_of_move hm with hsub | ⟨r, -, hnew, heq, -⟩
  · exact (hsub b).subset h
  · rw [heq] at h
    by_cases hb : b = r.agentID
    · subst hb
      rw [Function.update_self] at h
      rcases List.mem_append.mp h with hold | hlast
      · exact hold
      · obtain rfl := List.mem_singleton.mp hlast
        exact absurd hnew hexists
    · simpa [Function.update_of_ne hb] using h

/-- A task is removed from `s.tasks` when it is removed from its queue. -/
theorem active_of_move (hm : Move s act s') {t : String} (h : s.active t = true) :
    s'.active t = true ∨ ∃ task, s.task t = some task ∧
      s'.taskQueues = (s.removeQueued task.agentID t).taskQueues := by
  have hsame : s'.active = s.active → s'.active t = true := fun heq ↦ by rw [heq, h]
  have hcreate : ∀ k, s'.active = Function.update s.active k true → s'.active t = true := by
    intro k heq
    by_cases hk : t = k
    · rw [heq, hk, Function.update_self]
    · rw [heq, Function.update_of_ne hk, h]
  cases hm with
  | startTask => exact Or.inl (hcreate _ rfl)
  | createMultiTask => exact Or.inl (hcreate _ rfl)
  | @acknowledge _ d =>
    obtain ⟨_, _, heq⟩ := acknowledgeQueuedTask_eq s d.agentID (GoString.trimSpace d.currentTaskID)
    exact Or.inl (hsame (by rw [heq]; rfl))
  | @observed _ d | @dispatch _ d =>
    obtain ⟨_, heq⟩ := afterObserve_eq s d
    exact Or.inl (hsame (by rw [heq]))
  | @reserveError f k err x =>
    obtain ⟨_, _, _, _, _, heq⟩ := dispatchError_eq s f k x err
    exact Or.inl (hsame (by rw [heq]))
  | @sendError _ f k err x =>
    obtain ⟨_, _, _, _, _, heq⟩ := dispatchError_eq s f k
      { x with dispatchLeaseUntil := none, dispatchSent := false }
      ("send start_task failed for " ++ k ++ ": " ++ err)
    exact Or.inl (hsame (by rw [heq]))
  | @removeTask k task _ htask =>
    by_cases hk : t = k
    · subst hk
      exact Or.inr ⟨task, htask, rfl⟩
    · refine Or.inl ?_
      dsimp only
      rw [Function.update_of_ne hk, h]
  | _ => exact Or.inl (hsame rfl)

/-- What is queued is a task in `s.tasks` of the queue's agent, and is queued once. -/
structure QueueShape (s : SchedulerState) : Prop where
  owner : ∀ b k, k ∈ s.taskQueues b → Belongs s b k
  live : ∀ b k, k ∈ s.taskQueues b → s.active k = true
  nodup : ∀ b, (s.taskQueues b).Nodup

/-- A task that is taken out of the queue of its agent is in no queue. -/
theorem QueueShape.not_mem_removeQueued (h : QueueShape s) {k : String} {task : RunningTask}
    (htask : s.task k = some task) (b : String) :
    k ∉ (s.removeQueued task.agentID k).taskQueues b := by
  intro hmem
  obtain ⟨x, hx, rfl⟩ := h.owner b k (mem_of_mem_removeQueued hmem)
  obtain rfl : task = x := Option.some.inj (htask.symm.trans hx)
  rw [taskQueues_removeQueued_self] at hmem
  exact (h.nodup task.agentID).not_mem_erase hmem

theorem queueShape_step (h : QueueShape s) (hs : step s act = some s') : QueueShape s' := by
  have hm := move_of_step hs
  rcases queues_of_move hm with hsub | ⟨r, -, hnew, hqueues, htask, hactive⟩
  · refine ⟨fun b k hk ↦ (h.owner b k ((hsub b).subset hk)).step hs, fun b k hk ↦ ?_,
      fun b ↦ (h.nodup b).sublist (hsub b)⟩
    rcases active_of_move hm (h.live b k ((hsub b).subset hk)) with hlive | ⟨task, htask, heq⟩
    · exact hlive
    · rw [heq] at hk
      exact absurd hk (h.not_mem_removeQueued htask b)
  · have hfresh : ∀ b, r.taskID ∉ s.taskQueues b := fun b hmem ↦ by
      obtain ⟨x, hx, -⟩ := h.owner b r.taskID hmem
      rw [hnew] at hx
      exact absurd hx (by simp)
    have hmem : ∀ b k, k ∈ s'.taskQueues b →
        (b = r.agentID ∧ k = r.taskID) ∨ (k ≠ r.taskID ∧ k ∈ s.taskQueues b) := by
      intro b k hk
      rw [hqueues] at hk
      by_cases hb : b = r.agentID
      · subst hb
        rw [Function.update_self] at hk
        rcases List.mem_append.mp hk with hold | hlast
        · exact Or.inr ⟨fun heq ↦ hfresh r.agentID (heq ▸ hold), hold⟩
        · exact Or.inl ⟨rfl, List.mem_singleton.mp hlast⟩
      · rw [Function.update_of_ne hb] at hk
        exact Or.inr ⟨fun heq ↦ hfresh b (heq ▸ hk), hk⟩
    refine ⟨fun b k hk ↦ ?_, fun b k hk ↦ ?_, fun b ↦ ?_⟩
    · rcases hmem b k hk with ⟨rfl, rfl⟩ | ⟨-, hold⟩
      · exact ⟨r.toTask, by rw [htask, Function.update_self], rfl⟩
      · exact (h.owner b k hold).step hs
    · rcases hmem b k hk with ⟨-, rfl⟩ | ⟨hne, hold⟩
      · rw [hactive, Function.update_self]
      · rw [hactive, Function.update_of_ne hne]
        exact h.live b k hold
    · rw [hqueues]
      by_cases hb : b = r.agentID
      · subst hb
        rw [Function.update_self]
        refine List.nodup_append.mpr ⟨h.nodup _, by simp, fun k hk k' hk' heq ↦ ?_⟩
        obtain rfl := List.mem_singleton.mp hk'
        exact hfresh r.agentID (heq ▸ hk)
      · rw [Function.update_of_ne hb]
        exact h.nodup b

theorem queueShape_init (h : Initial s) : QueueShape s := by
  obtain ⟨manager, rfl⟩ := h
  exact ⟨fun _ _ hmem ↦ absurd hmem (by simp), fun _ _ hmem ↦ absurd hmem (by simp),
    fun _ ↦ List.nodup_nil⟩

/-! ## What a step sends -/

/-- The task is out of the queue for good. -/
def Withdrawn (s : SchedulerState) (t : String) : Prop :=
  s.task t ≠ none ∧ ∀ b, t ∉ s.taskQueues b

theorem Withdrawn.step {t : String} (h : Withdrawn s t) (hs : step s act = some s') :
    Withdrawn s' t :=
  ⟨exists_of_step h.1 hs, fun b hmem ↦ h.2 b (mem_queue_of_move (move_of_step hs) h.1 hmem)⟩

/-- **A task that is out of the queue is not sent.** -/
theorem Withdrawn.outbox_step {t : String} (h : Withdrawn s t) (hm : Move s act s') :
    ∃ since, s'.outbox = since ++ s.outbox ∧ ∀ agentID, .startTask agentID t ∉ since := by
  rcases outbox_of_move hm with heq | ⟨f, k, task, hu, -, heq⟩ | ⟨agentID, k, heq⟩
  · exact ⟨[], heq, fun _ ↦ List.not_mem_nil⟩
  · refine ⟨[.startTask task.agentID k], heq, fun agentID hmem ↦ ?_⟩
    obtain ⟨-, rfl⟩ : agentID = task.agentID ∧ t = k := by simpa using hmem
    obtain ⟨-, -, -, rest, hqueue⟩ := underDispatch_eq_some hu
    exact h.2 f.agentID (hqueue ▸ List.mem_cons_self)
  · exact ⟨[.cancel agentID k], heq, fun agentID' hmem ↦ absurd hmem (by simp)⟩

/-- A call of `CancelTask` comes to its last stage by taking the task out. -/
theorem cancels_of_move (hm : Move s act s') {t : String}
    (h : (t, CancelStage.sendCancel) ∈ s'.cancels) : (t, CancelStage.sendCancel) ∈ s.cancels ∨
      ∃ task, s.task t = some task ∧
        s'.taskQueues = (s.removeQueued task.agentID t).taskQueues := by
  cases hm with
  | @cancelTask k =>
    rcases List.mem_cons.mp h with heq | h
    · exact absurd heq (by simp)
    · exact Or.inl h
  | @cancelContext k =>
    rcases List.mem_cons.mp h with heq | h
    · exact absurd heq (by simp)
    · exact Or.inl (List.mem_of_mem_erase h)
  | @cancelQueued k task _ htask =>
    rcases List.mem_cons.mp h with heq | h
    · obtain rfl : t = k := by simpa using heq
      exact Or.inr ⟨task, htask, rfl⟩
    · exact Or.inl (List.mem_of_mem_erase h)
  | cancelReturn => exact Or.inl (List.mem_of_mem_erase h)
  | @acknowledge _ d =>
    obtain ⟨_, _, heq⟩ := acknowledgeQueuedTask_eq s d.agentID (GoString.trimSpace d.currentTaskID)
    rw [heq] at h
    exact Or.inl h
  | @observed _ d | @dispatch _ d =>
    obtain ⟨_, heq⟩ := afterObserve_eq s d
    rw [heq] at h
    exact Or.inl h
  | @reserveError f k err x =>
    obtain ⟨_, _, _, _, _, heq⟩ := dispatchError_eq s f k x err
    rw [heq] at h
    exact Or.inl h
  | @sendError _ f k err x =>
    obtain ⟨_, _, _, _, _, heq⟩ := dispatchError_eq s f k
      { x with dispatchLeaseUntil := none, dispatchSent := false }
      ("send start_task failed for " ++ k ++ ": " ++ err)
    rw [heq] at h
    exact Or.inl h
  | _ => exact Or.inl h

/-! ## The invariant -/

structure CancelSentInv (t : String) (r : CancelRun) : Prop where
  shape : QueueShape r.sched
  /-- A call of `CancelTask` that has still to send the command has taken the task out. -/
  withdrawn : (t, CancelStage.sendCancel) ∈ r.sched.cancels → Withdrawn r.sched t
  sent : ∀ agentID, .startTask agentID t ∈ r.sched.outbox → Sent r.sched agentID t
  stopped : ∀ c ∈ r.returned, c.taskID = t → Withdrawn r.sched t
  reaches : CancelReaches t r

variable {r r' : CancelRun} {t : String}

/-- What `CancelTask` does when it returns. -/
theorem cancelReturn_eq_some {k : String} {failure : Option String}
    (h : s.cancelReturn k failure = some s') : (k, CancelStage.sendCancel) ∈ s.cancels ∧
      ∃ task, s.task k = some task ∧ s'.outbox =
        if task.dispatchSent ∧ failure = none then .cancel task.agentID k :: s.outbox
        else s.outbox := by
  rw [SchedulerState.cancelReturn] at h
  split at h
  · exact absurd h (by simp)
  · rename_i task htask
    split at h
    · rename_i hmem
      obtain rfl := Option.some.inj h
      exact ⟨hmem, task, htask, rfl⟩
    · exact absurd h (by simp)

/-- A call that returns without an error has cancelled what was started. -/
theorem CancelSentInv.cancelledAfter (h : CancelSentInv t r) {failure : Option String}
    {c : CancelReturn} (hs : r.sched.cancelReturn t failure = some s')
    (hc : c ∈ returnOf r.sched s' (.cancelReturn t failure)) (hfailed : c.failed = false) :
    CancelledAfter t c.outbox := by
  obtain ⟨-, task, htask, houtbox⟩ := cancelReturn_eq_some hs
  obtain rfl := List.mem_singleton.mp hc
  dsimp only at hfailed ⊢
  rw [htask, Option.any_some] at hfailed
  intro newer older agentID heq
  rw [houtbox] at heq
  have hstarted : .startTask agentID t ∈ r.sched.outbox → task.agentID = agentID ∧
      task.dispatchSent = true := fun hmem ↦ by
    obtain ⟨x, hx, hagent, hsent⟩ := h.sent agentID hmem
    obtain rfl : task = x := Option.some.inj (htask.symm.trans hx)
    exact ⟨hagent, hsent⟩
  split at heq
  · -- the command is the last message sent
    cases newer with
    | nil => exact absurd (List.cons.inj heq).1 (by simp)
    | cons m newer =>
      obtain ⟨rfl, hrest⟩ := List.cons.inj heq
      have hmem : .startTask agentID t ∈ r.sched.outbox := by
        rw [hrest]
        exact List.mem_append_right _ List.mem_cons_self
      rw [(hstarted hmem).1]
      exact List.mem_cons_self
  · rename_i hnone
    have hmem : .startTask agentID t ∈ r.sched.outbox := by
      rw [heq]
      exact List.mem_append_right _ List.mem_cons_self
    rw [(hstarted hmem).2, Bool.true_and, Option.isSome_eq_false_iff, Option.isNone_iff_eq_none]
      at hfailed
    exact absurd ⟨(hstarted hmem).2, hfailed⟩ hnone

theorem CancelSentInv.schedStep (h : CancelSentInv t r) (hs : step r.sched act = some s')
    (hok : resendFails t r (.act act) = false) :
    CancelSentInv t { sched := s', returned := returnOf r.sched s' act ++ r.returned } := by
  have hm := move_of_step hs
  have hresend : ∀ now err f task, act = .sendStartTask now (some err) →
      r.sched.underDispatch .send = some (f, t, task) → task.dispatchSent = false := by
    intro now err f task hact hu
    rw [hact, resendFails, hu] at hok
    simpa using hok
  have hreturn : ∀ c ∈ returnOf r.sched s' act, c.taskID = t →
      ∃ failure, act = .cancelReturn t failure ∧ c.outbox = s'.outbox := by
    intro c hc hct
    cases act with
    | cancelReturn k failure =>
      obtain rfl := List.mem_singleton.mp hc
      exact ⟨failure, by rw [← hct], rfl⟩
    | _ => exact absurd hc List.not_mem_nil
  refine ⟨queueShape_step h.shape hs, fun hmem ↦ ?_, fun agentID hmem ↦ ?_, fun c hc hct ↦ ?_,
    fun c hc hct ↦ ?_⟩
  · rcases cancels_of_move hm hmem with hold | ⟨task, htask, heq⟩
    · exact (h.withdrawn hold).step hs
    · refine ⟨exists_of_step (by simp [htask]) hs, fun b hb ↦ ?_⟩
      rw [heq] at hb
      exact h.shape.not_mem_removeQueued htask b hb
  · rcases outbox_of_move hm with heq | ⟨f, k, task, -, htask, heq⟩ | ⟨agentID', k, heq⟩
    · rw [heq] at hmem
      exact (h.sent agentID hmem).step hs hresend
    · rw [heq] at hmem
      rcases List.mem_cons.mp hmem with hmsg | hmem
      · obtain ⟨rfl, rfl⟩ : agentID = task.agentID ∧ t = k := by simpa using hmsg
        exact ⟨_, htask, rfl, rfl⟩
      · exact (h.sent agentID hmem).step hs hresend
    · rw [heq] at hmem
      rcases List.mem_cons.mp hmem with hmsg | hmem
      · exact absurd hmsg (by simp)
      · exact (h.sent agentID hmem).step hs hresend
  · rcases List.mem_append.mp hc with hnew | hold
    · obtain ⟨failure, rfl, -⟩ := hreturn c hnew hct
      exact (h.withdrawn (cancelReturn_eq_some (step_eq_some hs).2).1).step hs
    · exact (h.stopped c hold hct).step hs
  · rcases List.mem_append.mp hc with hnew | hold
    · obtain ⟨failure, rfl, houtbox⟩ := hreturn c hnew hct
      exact ⟨⟨[], houtbox.symm, fun _ ↦ List.not_mem_nil⟩,
        h.cancelledAfter (step_eq_some hs).2 hnew⟩
    · obtain ⟨⟨since, heq, hnone⟩, hcancelled⟩ := h.reaches c hold hct
      obtain ⟨since', heq', hnone'⟩ := (h.stopped c hold hct).outbox_step hm
      refine ⟨⟨since' ++ since, by rw [heq', heq, List.append_assoc], fun agentID hmem ↦ ?_⟩,
        hcancelled⟩
      rcases List.mem_append.mp hmem with hmem | hmem
      · exact hnone' agentID hmem
      · exact hnone agentID hmem

theorem CancelSentInv.notFound (h : CancelSentInv t r) {k : String}
    (hexists : r.sched.task k ≠ none) (hinactive : r.sched.active k = false) :
    CancelSentInv t { r with returned := ⟨k, r.sched.outbox, true⟩ :: r.returned } := by
  refine { h with stopped := fun c hc hct ↦ ?_, reaches := fun c hc hct ↦ ?_ }
  · rcases List.mem_cons.mp hc with rfl | hold
    · subst hct
      refine ⟨hexists, fun b hb ↦ ?_⟩
      rw [h.shape.live b k hb] at hinactive
      exact absurd hinactive (by simp)
    · exact h.stopped c hold hct
  · rcases List.mem_cons.mp hc with rfl | hold
    · exact ⟨⟨[], rfl, fun _ ↦ List.not_mem_nil⟩, fun hfailed ↦ absurd hfailed (by simp)⟩
    · exact h.reaches c hold hct

theorem cancelSentInv_step {a : CancelAction} (h : CancelSentInv t r)
    (hok : resendFails t r a = false) (hs : r.step a = some r') : CancelSentInv t r' := by
  cases a with
  | act act =>
    obtain ⟨s', hs', rfl⟩ := Option.map_eq_some_iff.mp hs
    exact h.schedStep hs' hok
  | notFound k =>
    rw [CancelRun.step] at hs
    split at hs
    · rename_i hg
      obtain rfl := Option.some.inj hs
      exact h.notFound hg.2.2.1 hg.2.2.2
    · exact absurd hs (by simp)

theorem cancelSentInv_init (h : r.Initial) : CancelSentInv t r := by
  obtain ⟨hsched, hreturned⟩ := h
  have hshape := queueShape_init hsched
  obtain ⟨manager, hsched⟩ := hsched
  refine ⟨hshape, fun hmem ↦ ?_, fun agentID hmem ↦ ?_, fun c hc ↦ ?_, fun c hc ↦ ?_⟩
  · rw [hsched] at hmem
    exact absurd hmem List.not_mem_nil
  · rw [hsched] at hmem
    exact absurd hmem List.not_mem_nil
  · rw [hreturned] at hc
    exact absurd hc List.not_mem_nil
  · rw [hreturned] at hc
    exact absurd hc List.not_mem_nil

/-- **Once `CancelTask` has returned, nothing is started for the task any more, and what was started
is cancelled at the agent** unless the call has returned an error, in every run in which no send of
the task fails after one has succeeded. -/
theorem cancelTask_reaches_agent
    (h : Reachable CancelRun.step (fun r a ↦ resendFails t r a = false) CancelRun.Initial r) :
    CancelReaches t r :=
  (h.invariant (I := CancelSentInv t) (fun _ ↦ cancelSentInv_init)
    fun _ _ _ _ hI hok hs ↦ cancelSentInv_step hI hok hs).reaches

/-! ## One task -/

/-- A call of `CancelTask`, from finding the task to the send of the command. -/
def cancelSteps (taskID : String) : List Action :=
  [.cancelTask taskID, .cancelContext taskID, .cancelQueued taskID, .cancelReturn taskID none]

/-- The lease of the task runs out, the robot is free again after a late report about another task,
and the task is sent again. -/
def resendSteps (failure : Option String) : List Action :=
  reportCompleted (10 ^ 11) "old" ++
    .heartbeat (10 ^ 11) "robot" false "" "" ::
    [Stage.acknowledge, .check, .dispatch].map (fun stage ↦
      .handlerStep (10 ^ 11) ⟨"robot", false, "", none, stage⟩) ++
    [.scan, .expireLease (10 ^ 11), .reserve .ready, .tryStart (10 ^ 11),
      .sendStartTask (10 ^ 11) failure]

theorem initial_oneRobot : CancelRun.Initial { sched := oneRobotScheduler } :=
  ⟨initial_oneRobotScheduler, rfl⟩

/-- A task that was sent twice is cancelled after both. -/
theorem sentTwice_cancelled : ∃ r, Reachable CancelRun.step
      (fun r a ↦ resendFails "task" r a = false) CancelRun.Initial r ∧
    r.returned = [⟨"task", [.cancel "robot" "task", .startTask "robot" "task",
      .startTask "robot" "task"], false⟩] ∧ CancelReaches "task" r := by
  obtain ⟨r, hr, hreturned⟩ := exists_reachable_of_run CancelRun.step
    (fun r a ↦ resendFails "task" r a = false) initial_oneRobot
    ((queueTask "task" :: .registerChannel "task" :: dispatchNext 1 ++ resendSteps none ++
      cancelSteps "task").map .act)
    (P := fun r ↦ r.returned = [⟨"task", [.cancel "robot" "task", .startTask "robot" "task",
      .startTask "robot" "task"], false⟩]) (by decide)
  exact ⟨r, hr, hreturned, cancelTask_reaches_agent hr⟩

/-- **A send that fails hides the one before it**: the task was sent, its lease runs out, it cannot
be sent again, and `CancelTask` returns without an error and without a command to the robot. -/
theorem failedResend_hides_start : ∃ r,
    Reachable CancelRun.step (fun _ _ ↦ True) CancelRun.Initial r ∧
    r.returned = [⟨"task", [.startTask "robot" "task"], false⟩] ∧
    r.sched.outbox = [.startTask "robot" "task"] ∧
    ((r.sched.task "task").any fun task ↦ !task.status.isTerminal) = true ∧
    ¬CancelReaches "task" r := by
  obtain ⟨r, hr, hreturned, houtbox, hlive⟩ := exists_reachable_of_run CancelRun.step
    (fun _ _ ↦ True) initial_oneRobot
    ((queueTask "task" :: .registerChannel "task" :: dispatchNext 1 ++
      resendSteps (some "stream closed") ++ cancelSteps "task").map .act)
    (P := fun r ↦ r.returned = [⟨"task", [.startTask "robot" "task"], false⟩] ∧
      r.sched.outbox = [.startTask "robot" "task"] ∧
      ((r.sched.task "task").any fun task ↦ !task.status.isTerminal) = true) (by decide)
  refine ⟨r, hr, hreturned, houtbox, hlive, fun hreaches ↦ ?_⟩
  have hcancelled := (hreaches _ (hreturned ▸ List.mem_cons_self) rfl).2 rfl [] [] "robot" rfl
  exact absurd hcancelled List.not_mem_nil

end Executor
end FleetServer
