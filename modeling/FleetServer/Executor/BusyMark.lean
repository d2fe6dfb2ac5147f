import FleetServer.Executor.TaskEnd

/-!
# One task at a time

An agent should be sent a task only when the tasks it was sent before have come to an end.  What the
scheduler has for this is one flag for each robot: the manager marks the robot busy with a task when
the task is dispatched, and refuses to start another one while the mark is there.

The mark is cleared by several steps that do not look at the task it was set for.
`sent_one_at_a_time` shows that nothing else can go wrong: in a run in which no such step takes the
mark of an outstanding task away, no task is ever sent next to another.  The example at the end is a
run in which the clean-up of a cancelled task clears the mark of a running one.
-/

set_option autoImplicit false

namespace FleetServer
namespace Executor

open GuardedRun SchedulerState State State.Manager

variable {s s' : SchedulerState}

/-! ## Outstanding tasks -/

/-- The task was sent to the agent, and has not come to an end. -/
def Outstanding (s : SchedulerState) (agentID t : String) : Prop :=
  .startTask agentID t ∈ s.outbox ∧ s.ended t = false

instance (s : SchedulerState) (agentID t : String) : Decidable (Outstanding s agentID t) :=
  inferInstanceAs (Decidable (_ ∧ _))

/-- The mark of the agent's robot is not that of an outstanding task. -/
def Unmarked (s : SchedulerState) (agentID : String) : Prop :=
  ∀ t ∈ s.manager.busyWith agentID, ¬Outstanding s agentID t

instance (s : SchedulerState) (agentID : String) : Decidable (Unmarked s agentID) :=
  inferInstanceAs (Decidable (∀ t ∈ s.manager.busyWith agentID, ¬Outstanding s agentID t))

/-- No step takes the mark of an outstanding task away: an execution is completed for a robot only
when its mark is not that of an outstanding task, an outstanding task that is acknowledged is the
one the robot is marked with, and a robot that is marked with an outstanding task reports about that
task, and that it runs or has ended. -/
def KeepsMarks (s : SchedulerState) : Action → Prop
  | .completeExecution _ t => ∀ task ∈ s.task t, Unmarked s task.agentID
  | .handlerStep _ h =>
    (h.stage = .complete → Unmarked s h.agentID) ∧
    (h.stage = .acknowledge → Outstanding s h.agentID (GoString.trimSpace h.currentTaskID) →
      s.manager.busyWith h.agentID = some (GoString.trimSpace h.currentTaskID))
  | .taskStateUpdate _ agentID t state _ _ => ∀ u ∈ s.manager.busyWith agentID,
    Outstanding s agentID u → u = t ∧ state ∈ [2, 4, 5, 6, 7]
  | _ => True

instance (s : SchedulerState) (a : Action) : Decidable (KeepsMarks s a) := by
  apply Action.casesOn (motive := fun a ↦ Decidable (KeepsMarks s a)) a <;> intros <;>
    dsimp only [KeepsMarks] <;> infer_instance

/-! ## The invariant -/

/-- A task of the agent. -/
def Belongs (s : SchedulerState) (agentID t : String) : Prop :=
  ∃ task, s.task t = some task ∧ task.agentID = agentID

/-- The task has a dispatch lease. -/
def Leased (s : SchedulerState) (t : String) : Prop :=
  ∃ task, s.task t = some task ∧ task.dispatchLeaseUntil ≠ none

/-- The task is the next one of the agent's queue. -/
def IsHead (s : SchedulerState) (agentID t : String) : Prop := (s.taskQueues agentID).head? = some t

structure MarkInv (s : SchedulerState) : Prop where
  sent : ∀ a u, .startTask a u ∈ s.outbox → Belongs s a u
  owner : ∀ a t, t ∈ s.taskQueues a → Belongs s a t
  nodup : ∀ a, (s.taskQueues a).Nodup
  blank : s.task "" = none
  unique : ∀ a u v, Outstanding s a u → Outstanding s a v → u = v
  /-- An outstanding task is marked, or it is the next one to be sent anyway. -/
  mark : ∀ a u, Outstanding s a u → s.manager.busyWith a = some u ∨ IsHead s a u
  /-- A task that is leased is at the head of its queue, and nothing else is outstanding there. -/
  lease : ∀ a t, t ∈ s.taskQueues a → Leased s t →
    IsHead s a t ∧ ∀ u, Outstanding s a u → u = t
  /-- A lease is being taken back or a task being sent: there is such a lease. -/
  lock : ∀ f, s.dispatching = some f → f.phase = .expire ∨ f.phase = .send →
    ∃ t, IsHead s f.agentID t ∧ Leased s t

theorem mem_of_isHead {agentID t : String} (h : IsHead s agentID t) : t ∈ s.taskQueues agentID :=
  List.mem_of_mem_head? h

theorem IsHead.inj {agentID t u : String} (ht : IsHead s agentID t) (hu : IsHead s agentID u) :
    t = u := Option.some.inj (ht.symm.trans hu)

theorem belongs_inj {a b t : String} (ha : Belongs s a t) (hb : Belongs s b t) : a = b := by
  obtain ⟨task, htask, rfl⟩ := ha
  obtain ⟨task', htask', rfl⟩ := hb
  rw [Option.some.inj (htask.symm.trans htask')]

theorem Belongs.setTask {a k t : String} {task task' : RunningTask} (h : Belongs s a k)
    (htask : s.task t = some task) (hagent : task'.agentID = task.agentID) :
    Belongs (s.setTask t task') a k := by
  obtain ⟨x, hx, rfl⟩ := h
  exact owner_setTask htask hagent hx

theorem Leased.of_setTask {k t : String} {task task' : RunningTask}
    (h : Leased (s.setTask t task') k) (htask : s.task t = some task)
    (hlease : task'.dispatchLeaseUntil ≠ none → task.dispatchLeaseUntil ≠ none) : Leased s k := by
  obtain ⟨x, hx, hleased⟩ := h
  rcases task_setTask_cases hx with ⟨rfl, rfl⟩ | ⟨-, hx⟩
  · exact ⟨task, htask, hlease hleased⟩
  · exact ⟨x, hx, hleased⟩

/-- A task that was sent has a name. -/
theorem MarkInv.ne_empty (h : MarkInv s) {a u : String} (hu : Outstanding s a u) : u ≠ "" := by
  rintro rfl
  obtain ⟨task, htask, -⟩ := h.sent a "" hu.1
  rw [h.blank] at htask
  exact absurd htask (by simp)

/-- A step that keeps the queues, sends nothing, forgets no end, gives no lease, and takes a mark
away from an outstanding task only when it is the next one to be sent anyway. -/
theorem MarkInv.weaken (h : MarkInv s) (hq : s'.taskQueues = s.taskQueues)
    (hbelongs : ∀ a t, Belongs s a t → Belongs s' a t) (hblank : s'.task "" = none)
    (hlease : ∀ a t, t ∈ s.taskQueues a → Leased s' t → Leased s t)
    (hsent : ∀ a u, .startTask a u ∈ s'.outbox → .startTask a u ∈ s.outbox)
    (hend : ∀ u, s.ended u = true → s'.ended u = true)
    (hmark : ∀ a u, Outstanding s a u → Outstanding s' a u → s.manager.busyWith a = some u →
      s'.manager.busyWith a = some u ∨ IsHead s a u)
    (hlock : ∀ f, s'.dispatching = some f → f.phase = .expire ∨ f.phase = .send →
      ∃ t, IsHead s f.agentID t ∧ Leased s' t) : MarkInv s' := by
  have hout : ∀ a u, Outstanding s' a u → Outstanding s a u := by
    intro a u hu
    refine ⟨hsent a u hu.1, ?_⟩
    by_contra hended
    rw [Bool.not_eq_false] at hended
    exact absurd (hu.2.symm.trans (hend u hended)) (by simp)
  have hhead : ∀ a t, IsHead s a t → IsHead s' a t := by
    intro a t ht
    rw [IsHead, hq]
    exact ht
  refine ⟨fun a u hu ↦ hbelongs a u (h.sent a u (hsent a u hu)), fun a t ht ↦ ?_, fun a ↦ ?_,
    hblank,
    fun a u v hu hv ↦ h.unique a u v (hout a u hu) (hout a v hv), fun a u hu ↦ ?_,
    fun a t ht hl ↦ ?_, fun f hf hphase ↦ ?_⟩
  · rw [hq] at ht
    exact hbelongs a t (h.owner a t ht)
  · rw [hq]
    exact h.nodup a
  · rcases h.mark a u (hout a u hu) with hbusy | hold
    · exact (hmark a u (hout a u hu) hu hbusy).imp id (hhead a u)
    · exact Or.inr (hhead a u hold)
  · rw [hq] at ht
    obtain ⟨hold, hall⟩ := h.lease a t ht (hlease a t ht hl)
    exact ⟨hhead a t hold, fun u hu ↦ hall u (hout a u hu)⟩
  · obtain ⟨t, ht, hl⟩ := hlock f hf hphase
    exact ⟨t, hhead _ t ht, hl⟩

/-- A step that changes nothing the invariant is about, except that a dispatch may move on. -/
theorem MarkInv.same (h : MarkInv s) (hq : s'.taskQueues = s.taskQueues) (ht : s'.task = s.task)
    (hout : s'.outbox = s.outbox) (he : s'.ended = s.ended) (hm : s'.manager = s.manager)
    (hlock : ∀ f, s'.dispatching = some f → f.phase = .expire ∨ f.phase = .send →
      ∃ t, IsHead s f.agentID t ∧ Leased s t) : MarkInv s' := by
  have hleased : ∀ t, Leased s' t ↔ Leased s t := fun t ↦ by rw [Leased, Leased, ht]
  refine h.weaken hq (fun a t hb ↦ ?_) (by rw [ht, h.blank]) (fun a t _ hl ↦ (hleased t).mp hl)
    (fun a u hu ↦ by rwa [hout] at hu) (fun u hu ↦ by rwa [he]) (fun a u _ _ hb ↦ ?_)
    fun f hf hphase ↦ ?_
  · rw [Belongs, ht]
    exact hb
  · rw [hm]
    exact Or.inl hb
  · obtain ⟨t, hhead, hl⟩ := hlock f hf hphase
    exact ⟨t, hhead, (hleased t).mpr hl⟩

/-- Completing an execution clears a mark. -/
theorem MarkInv.clearMark (h : MarkInv s) (now : ℕ) (agentID : String) (zones : List String)
    (hok : ∀ u, Outstanding s agentID u → s.manager.busyWith agentID = some u →
      IsHead s agentID u) :
    MarkInv { s with manager := s.manager.completeExecution now agentID zones } := by
  refine h.weaken rfl (fun _ _ hb ↦ hb) h.blank (fun _ _ _ hl ↦ hl) (fun _ _ hu ↦ hu)
    (fun _ hu ↦ hu) (fun a u hu _ hbusy ↦ ?_) h.lock
  by_cases ha : a = agentID
  · subst ha
    exact Or.inr (hok u hu hbusy)
  · exact Or.inl ((busyWith_completeExecution_of_ne ha zones).trans hbusy)

/-- Writing to a task object, when the dispatch it belongs to goes on or is done. -/
theorem MarkInv.setTask {t : String} {task : RunningTask} (h : MarkInv s) (task' : RunningTask)
    (htask : s.task t = some task) (hagent : task'.agentID = task.agentID)
    (hlease : task'.dispatchLeaseUntil ≠ none → task.dispatchLeaseUntil ≠ none)
    (dispatching : Option Frame)
    (hlock : ∀ f, dispatching = some f → f.phase = .expire ∨ f.phase = .send →
      ∃ t₁, IsHead s f.agentID t₁ ∧ Leased (s.setTask t task') t₁) :
    MarkInv { s.setTask t task' with dispatching } := by
  have hne : "" ≠ t := by
    rintro rfl
    rw [h.blank] at htask
    exact absurd htask (by simp)
  refine h.weaken rfl (fun a k hb ↦ hb.setTask htask hagent) ?_
    (fun a k _ hl ↦ Leased.of_setTask hl htask hlease) (fun _ _ hu ↦ hu) (fun _ hu ↦ hu)
    (fun _ _ _ _ hb ↦ Or.inl hb) hlock
  simpa [SchedulerState.setTask, Function.update_of_ne hne] using h.blank

theorem MarkInv.setEnded (h : MarkInv s) (t : String) : MarkInv (s.setEnded t) := by
  refine h.weaken rfl (fun _ _ hb ↦ hb) h.blank (fun _ _ _ hl ↦ hl) (fun _ _ hu ↦ hu)
    (fun u hu ↦ ?_) (fun _ _ _ _ hb ↦ Or.inl hb) h.lock
  by_cases hut : u = t
  · simp [SchedulerState.setEnded, hut]
  · simpa [SchedulerState.setEnded, Function.update_of_ne hut] using hu

/-- A task leaves a queue when it is not outstanding or the robot is marked with it. -/
theorem MarkInv.removeQueued (h : MarkInv s) (agentID t : String)
    (hok : Outstanding s agentID t → s.manager.busyWith agentID = some t)
    (hfree : ∀ f, s.dispatching = some f → f.phase ≠ .expire ∧ f.phase ≠ .send) :
    MarkInv (s.removeQueued agentID t) := by
  have hhead : ∀ a u, IsHead s a u → (a = agentID → u ≠ t) →
      IsHead (s.removeQueued agentID t) a u := by
    intro a u hu hne
    by_cases ha : a = agentID
    · subst ha
      rw [IsHead, taskQueues_removeQueued_self]
      rw [IsHead] at hu
      cases hqueue : s.taskQueues a with
      | nil => simp [hqueue] at hu
      | cons x rest =>
        obtain rfl : x = u := by simpa [hqueue] using hu
        rw [List.erase_cons_tail (by simpa using hne rfl)]
        rfl
    · rw [IsHead, taskQueues_removeQueued_of_ne ha]
      exact hu
  refine ⟨h.sent, fun a k hk ↦ h.owner a k (mem_of_mem_removeQueued hk), fun a ↦ ?_, h.blank,
    h.unique, fun a u hu ↦ ?_, fun a k hk hl ↦ ?_, fun f hf hphase ↦ ?_⟩
  · by_cases ha : a = agentID
    · subst ha
      rw [taskQueues_removeQueued_self]
      exact (h.nodup a).erase t
    · rw [taskQueues_removeQueued_of_ne ha]
      exact h.nodup a
  · by_cases hut : a = agentID ∧ u = t
    · obtain ⟨rfl, rfl⟩ := hut
      exact Or.inl (hok hu)
    · rcases h.mark a u hu with hbusy | hold
      · exact Or.inl hbusy
      · exact Or.inr (hhead a u hold fun ha hu ↦ hut ⟨ha, hu⟩)
  · obtain ⟨hold, hall⟩ := h.lease a k (mem_of_mem_removeQueued hk) hl
    refine ⟨hhead a k hold ?_, hall⟩
    -- a queue names no task twice, so the task that has left is another one
    rintro rfl rfl
    rw [taskQueues_removeQueued_self] at hk
    exact (h.nodup a).not_mem_erase hk
  · obtain ⟨hexpire, hsend⟩ := hfree f hf
    exact absurd hphase (by simp [hexpire, hsend])

/-! ## The steps -/

/-- No dispatch is under way. -/
theorem lock_of_free (hfree : s.dispatching = none) {f : Frame} (hf : s.dispatching = some f) :
    False := by
  rw [hfree] at hf
  exact absurd hf (by simp)

/-- A new task whose name is not taken, while no dispatch is under way. -/
theorem MarkInv.create (h : MarkInv s) {t : String} (task : RunningTask)
    (hfree : s.dispatching = none) (hnew : s.task t = none) (hne : t ≠ "") :
    MarkInv (s.create t task) := by
  have hold : ∀ k, s.task k ≠ none → (s.create t task).task k = s.task k := by
    intro k hk
    have hkt : k ≠ t := by
      rintro rfl
      exact hk hnew
    simp [SchedulerState.create, Function.update_of_ne hkt]
  refine h.weaken rfl (fun a k hb ↦ ?_) ?_ (fun a k hk hl ↦ ?_)
    (fun _ _ hu ↦ hu) (fun _ hu ↦ hu) (fun _ _ _ _ hb ↦ Or.inl hb)
    fun f hf ↦ absurd (lock_of_free hfree hf) id
  · obtain ⟨x, hx, howner⟩ := hb
    exact ⟨x, by rw [hold k (by simp [hx]), hx], howner⟩
  · simpa [SchedulerState.create, Function.update_of_ne hne.symm] using h.blank
  · obtain ⟨x, hx, hleased⟩ := hl
    obtain ⟨y, hy, -⟩ := h.owner a k hk
    exact ⟨x, by rwa [hold k (by simp [hy])] at hx, hleased⟩

/-- A task without a lease joins a queue. -/
theorem MarkInv.enqueue (h : MarkInv s) {agentID t : String} (hfree : s.dispatching = none)
    (hbelongs : Belongs s agentID t) (hlease : ¬Leased s t) (hnew : ∀ a, t ∉ s.taskQueues a) :
    MarkInv { s with
      taskQueues := Function.update s.taskQueues agentID (s.taskQueues agentID ++ [t]) } := by
  have hmem : ∀ a k, k ∈ Function.update s.taskQueues agentID (s.taskQueues agentID ++ [t]) a →
      k ∈ s.taskQueues a ∨ (a = agentID ∧ k = t) := by
    intro a k hk
    by_cases ha : a = agentID
    · subst ha
      simpa using hk
    · exact Or.inl (by simpa [Function.update_of_ne ha] using hk)
  have hhead : ∀ a k, IsHead s a k → (Function.update s.taskQueues agentID
      (s.taskQueues agentID ++ [t]) a).head? = some k := by
    intro a k hk
    rw [IsHead] at hk
    by_cases ha : a = agentID
    · subst ha
      simp [hk]
    · rwa [Function.update_of_ne ha]
  refine ⟨h.sent, fun a k hk ↦ ?_, fun a ↦ ?_, h.blank, h.unique,
    fun a u hu ↦ (h.mark a u hu).imp id (hhead a u), fun a k hk hl ↦ ?_,
    fun f hf ↦ absurd (lock_of_free hfree hf) id⟩
  · rcases hmem a k hk with hold | ⟨rfl, rfl⟩
    · exact h.owner a k hold
    · exact hbelongs
  · by_cases ha : a = agentID
    · subst ha
      simpa [List.nodup_append, h.nodup a] using fun x hx (hxt : x = t) ↦ hnew a (hxt ▸ hx)
    · simpa [Function.update_of_ne ha] using h.nodup a
  · rcases hmem a k hk with hold | ⟨rfl, rfl⟩
    · exact (h.lease a k hold hl).imp (hhead a k) id
    · exact absurd hl hlease

theorem MarkInv.startTask (h : MarkInv s) {r : StartRequest} (hfree : s.dispatching = none)
    (hnew : s.task r.taskID = none) (hne : r.taskID ≠ "") : MarkInv
      { s.create r.taskID r.toTask with
        taskQueues :=
          Function.update s.taskQueues r.agentID (s.taskQueues r.agentID ++ [r.taskID]) } := by
  have htask : (s.create r.taskID r.toTask).task r.taskID = some r.toTask := by
    simp [SchedulerState.create]
  have hlease : ¬Leased (s.create r.taskID r.toTask) r.taskID := by
    rintro ⟨x, hx, hleased⟩
    obtain rfl : r.toTask = x := Option.some.inj (htask.symm.trans hx)
    exact hleased rfl
  refine (h.create r.toTask hfree hnew hne).enqueue hfree ⟨r.toTask, htask, rfl⟩ hlease
    fun a hmem ↦ ?_
  obtain ⟨x, hx, -⟩ := h.owner a r.taskID hmem
  rw [hnew] at hx
  exact absurd hx (by simp)

theorem MarkInv.heartbeat (h : MarkInv s) (now : ℕ) (agentID : String) (isExecuting : Bool)
    (currentTaskID currentStepID : String) :
    MarkInv (s.heartbeat now agentID isExecuting currentTaskID currentStepID) := by
  refine h.weaken rfl (fun _ _ hb ↦ hb) h.blank (fun _ _ _ hl ↦ hl) (fun _ _ hu ↦ hu)
    (fun _ hu ↦ hu) (fun a u hu _ hbusy ↦ Or.inl ?_) h.lock
  by_cases ha : a = agentID
  · subst ha
    exact busyWith_heartbeat_self hbusy (h.ne_empty hu) isExecuting currentTaskID currentStepID
  · exact (busyWith_heartbeat_of_ne ha isExecuting currentTaskID currentStepID).trans hbusy

/-- A status that is neither running nor terminal would take the mark away. -/
theorem runs_or_reports {state : ℤ} (h : state ∈ [(2 : ℤ), 4, 5, 6, 7]) (taskID errorMsg : String) :
    (taskStateToString state = "running" || taskStateToString state = "executing") = true ∨
      (terminalReport taskID (taskStateToString state) errorMsg).isSome = true := by
  simp only [List.mem_cons, List.not_mem_nil, or_false] at h
  rcases h with rfl | rfl | rfl | rfl | rfl
  · exact Or.inl (by decide)
  · exact Or.inl (by decide)
  · exact Or.inr (by simp [taskStateToString, terminalReport])
  · exact Or.inr (by simp [taskStateToString, terminalReport])
  · exact Or.inr (by simp [taskStateToString, terminalReport])

theorem MarkInv.taskStateUpdate (h : MarkInv s) {now : ℕ} {agentID t : String} {state : ℤ}
    {currentStepID errorMsg : String}
    (hok : KeepsMarks s (.taskStateUpdate now agentID t state currentStepID errorMsg))
    (hs : Move s (.taskStateUpdate now agentID t state currentStepID errorMsg) s') :
    MarkInv s' := by
  cases hs
  have hmono : ∀ u, s.ended u = true →
      (if (terminalReport t (taskStateToString state) errorMsg).isSome then
        Function.update s.ended t true else s.ended) u = true := by
    intro u hu
    split
    · by_cases hut : u = t
      · simp [hut]
      · simpa [Function.update_of_ne hut] using hu
    · exact hu
  refine h.weaken rfl (fun _ _ hb ↦ hb) h.blank (fun _ _ _ hl ↦ hl) (fun _ _ hu ↦ hu) hmono
    (fun a u hu hu' hbusy ↦ Or.inl ?_) h.lock
  by_cases ha : a = agentID
  · subst ha
    obtain ⟨rfl, hstate⟩ := hok u hbusy hu
    rcases runs_or_reports hstate u errorMsg with hruns | hreports
    · dsimp only
      rw [hruns]
      exact busyWith_updateRobotExecution_self hbusy
    · -- the report has ended the task
      have hended := hu'.2
      simp [hreports] at hended
  · exact (busyWith_updateRobotExecution_of_ne ha _).trans hbusy

theorem MarkInv.acknowledge (h : MarkInv s) (agentID t : String) (hfree : s.dispatching = none)
    (hok : Outstanding s agentID t → s.manager.busyWith agentID = some t) :
    MarkInv (s.acknowledgeQueuedTask agentID t) := by
  have hremove : MarkInv (s.removeQueued agentID t) :=
    h.removeQueued agentID t hok fun f hf ↦ absurd (lock_of_free hfree hf) id
  rcases acknowledgeQueuedTask_cases s agentID t with ⟨-, heq⟩ | ⟨-, heq | ⟨task, htask, heq⟩⟩
  · rwa [heq]
  · rwa [heq]
  · rw [heq]
    exact hremove.setTask { task with dispatchLeaseUntil := none } htask rfl (absurd rfl)
      s.dispatching fun f hf ↦ absurd (lock_of_free hfree hf) id

theorem MarkInv.afterObserve (h : MarkInv s) (d : Handler) : MarkInv (s.afterObserve d) := by
  rw [SchedulerState.afterObserve]
  split <;> exact h.same rfl rfl rfl rfl rfl h.lock

/-! ## Dispatching -/

/-- The dispatch is over, or looks at its queue again. -/
theorem lock_of_phase {f : Frame} {phase : Phase} (hphase : phase ≠ .expire ∧ phase ≠ .send) :
    ∀ g, some { f with phase } = some g → g.phase = .expire ∨ g.phase = .send →
      ∃ t, IsHead s g.agentID t ∧ Leased s t := by
  intro g hg hlocked
  obtain rfl := Option.some.inj hg
  exact absurd hlocked (by simp [hphase.1, hphase.2])

theorem MarkInv.toPhase (h : MarkInv s) (f : Frame) {phase : Phase}
    (hphase : phase ≠ .expire ∧ phase ≠ .send) : MarkInv (s.toPhase f phase) :=
  h.same rfl rfl rfl rfl rfl (lock_of_phase hphase)

theorem MarkInv.unlock (h : MarkInv s) : MarkInv s.unlock :=
  h.same rfl rfl rfl rfl rfl fun f hf ↦ absurd hf (by simp [SchedulerState.unlock])

/-- What is known about the task under dispatch. -/
theorem MarkInv.underDispatch (h : MarkInv s) {phase : Phase} {f : Frame} {t : String}
    {task : RunningTask} (hu : s.underDispatch phase = some (f, t, task)) :
    s.task t = some task ∧ task.agentID = f.agentID ∧ IsHead s f.agentID t := by
  obtain ⟨-, -, htask, rest, hqueue⟩ := underDispatch_eq_some hu
  have hhead : IsHead s f.agentID t := by rw [IsHead, hqueue, List.head?_cons]
  exact ⟨htask, belongs_inj ⟨task, htask, rfl⟩ (h.owner _ _ (mem_of_isHead hhead)), hhead⟩

/-- While a lease is taken back or a task is sent, nothing else is outstanding at the agent. -/
theorem MarkInv.locked (h : MarkInv s) {phase : Phase} {f : Frame} {t : String}
    {task : RunningTask} (hu : s.underDispatch phase = some (f, t, task))
    (hphase : phase = .expire ∨ phase = .send) :
    Leased s t ∧ ∀ u, Outstanding s f.agentID u → u = t := by
  obtain ⟨hf, rfl, -, -⟩ := underDispatch_eq_some hu
  obtain ⟨-, -, hhead⟩ := h.underDispatch hu
  obtain ⟨k, hk, hl⟩ := h.lock f hf hphase
  obtain rfl := hk.inj hhead
  exact ⟨hl, (h.lease _ _ (mem_of_isHead hk) hl).2⟩

/-- The mark of the agent under a lock may be cleared. -/
theorem MarkInv.clearLocked (h : MarkInv s) {phase : Phase} {f : Frame} {t : String}
    {task : RunningTask} (hu : s.underDispatch phase = some (f, t, task))
    (hphase : phase = .expire ∨ phase = .send) (now : ℕ) :
    MarkInv { s with
      manager := s.manager.completeExecution now task.agentID task.reservedZones } := by
  obtain ⟨-, hagent, hhead⟩ := h.underDispatch hu
  refine h.clearMark now task.agentID task.reservedZones fun u hout _ ↦ ?_
  rw [hagent] at hout ⊢
  rw [(h.locked hu hphase).2 u hout]
  exact hhead

theorem MarkInv.dispatchReturns (h : MarkInv s) {t : String} {task : RunningTask}
    (task' : RunningTask) (htask : s.task t = some task) (hagent : task'.agentID = task.agentID)
    (hlease : task'.dispatchLeaseUntil = task.dispatchLeaseUntil) :
    MarkInv (s.dispatchReturns t task') :=
  h.setTask { task' with
    dispatchRetryAt := none, dispatchFirstError := none, errorMessage := "" } htask hagent
    (fun hl ↦ by rwa [← hlease]) none fun f hf ↦ absurd hf (by simp)

theorem dispatchError_manager (manager : Manager) (f : Frame) (t : String) (task : RunningTask)
    (err : String) : ({ s with manager } : SchedulerState).dispatchError f t task err =
      { s.dispatchError f t task err with manager } := by
  simp only [SchedulerState.dispatchError]
  split <;> rfl

/-- The end of a failed dispatch: the task stays at the head of the queue, or it has come to an end
and leaves it. -/
theorem MarkInv.dispatchError (h : MarkInv s) {f : Frame} {t : String} {task : RunningTask}
    (task' : RunningTask) (htask : s.task t = some task) (hhead : IsHead s f.agentID t)
    (hagent : task'.agentID = task.agentID)
    (hlease : task'.dispatchLeaseUntil ≠ none → task.dispatchLeaseUntil ≠ none) (err : String) :
    MarkInv (s.dispatchError f t task' err) := by
  rcases dispatchError_cases s f t task' err with ⟨x, heq, hx, -, -, hl⟩ |
    ⟨x, n, heq, hx, hl, -, -, -⟩
  · rw [heq]
    exact h.setTask x htask (hx.trans hagent) (fun hleased ↦ hlease (by rwa [← hl])) none
      fun f hf ↦ absurd hf (by simp)
  · have hset : MarkInv ((s.setTask t x).toPhase f .scan) :=
      h.setTask x htask (hx.trans hagent) (fun hleased ↦ hlease (by rwa [← hl])) _
        fun g hg hlocked ↦ absurd hlocked (by rw [← Option.some.inj hg]; simp)
    have hended := hset.setEnded t
    have hpop := hended.removeQueued f.agentID t
      (fun hout ↦ absurd hout.2 (by simp [SchedulerState.setEnded]))
      fun g hg ↦ by rw [← Option.some.inj hg]; simp
    obtain ⟨rest, hqueue⟩ : ∃ rest, s.taskQueues f.agentID = t :: rest :=
      List.head?_eq_some_iff.mp hhead
    rw [heq, popQueue_eq_removeQueued (s := s.setTask t x) hqueue]
    exact hpop.same rfl rfl rfl rfl rfl hpop.lock

/-- A task is started, and leased: its agent was not busy, so nothing else is outstanding there. -/
theorem MarkInv.started (h : MarkInv s) {now : ℕ} {f : Frame} {t : String} {task : RunningTask}
    {manager : Manager} (hu : s.underDispatch .tryStart = some (f, t, task))
    (hstart : s.manager.tryStartExecution now task.agentID task.id task.entryStepID
      task.behaviorTreeID task.reservedZones task.preconditions = (manager, none))
    (task' : RunningTask) (hagent' : task'.agentID = task.agentID)
    (hlease : task'.dispatchLeaseUntil ≠ none) :
    MarkInv { (s.setTask t task').toPhase f .send with manager } := by
  obtain ⟨htask, hagent, hhead⟩ := h.underDispatch hu
  obtain ⟨hidle, hothers⟩ := busyWith_of_started hstart
  have hall : ∀ u, Outstanding s f.agentID u → u = t := by
    intro u hout
    rcases h.mark f.agentID u hout with hbusy | hold
    · rw [← hagent, hidle] at hbusy
      exact absurd hbusy (by simp)
    · exact hold.inj hhead
  have hne : "" ≠ t := by
    rintro rfl
    exact absurd (h.blank.symm.trans htask) (by simp)
  have htask' : (s.setTask t task').task t = some task' := by simp [SchedulerState.setTask]
  have hbelongs : ∀ a k, Belongs s a k → Belongs (s.setTask t task') a k :=
    fun a k hb ↦ hb.setTask htask hagent'
  refine ⟨fun a u hs ↦ hbelongs a u (h.sent a u hs), fun a k hk ↦ hbelongs a k (h.owner a k hk),
    h.nodup, ?_, h.unique, fun a u hout ↦ ?_, fun a k hk hl ↦ ?_, fun g hg _ ↦ ?_⟩
  · simpa [SchedulerState.setTask, SchedulerState.toPhase, Function.update_of_ne hne] using h.blank
  · rcases h.mark a u hout with hbusy | hold
    · by_cases ha : a = task.agentID
      · rw [ha, hidle] at hbusy
        exact absurd hbusy (by simp)
      · exact Or.inl ((hothers a ha).trans hbusy)
    · exact Or.inr hold
  · by_cases hkt : k = t
    · subst hkt
      obtain rfl : a = f.agentID :=
        belongs_inj (h.owner a k hk) (h.owner f.agentID k (mem_of_isHead hhead))
      exact ⟨hhead, hall⟩
    · obtain ⟨x, hx, hleased⟩ := hl
      exact h.lease a k hk
        ⟨x, by simpa [SchedulerState.setTask, SchedulerState.toPhase, Function.update_of_ne hkt]
          using hx, hleased⟩
  · obtain rfl := Option.some.inj hg
    exact ⟨t, hhead, task', htask', hlease⟩

/-- The head of a queue is sent, when nothing else is outstanding at its agent. -/
theorem MarkInv.send (h : MarkInv s) {agentID t : String} (hhead : IsHead s agentID t)
    (hall : ∀ u, Outstanding s agentID u → u = t) :
    MarkInv { s with outbox := .startTask agentID t :: s.outbox } := by
  have hout : ∀ a u, Outstanding { s with outbox := .startTask agentID t :: s.outbox } a u →
      (a = agentID ∧ u = t) ∨ (a ≠ agentID ∧ Outstanding s a u) := by
    rintro a u ⟨hmem, hended⟩
    rcases List.mem_cons.mp hmem with heq | hold
    · injection heq with ha hu
      exact Or.inl ⟨ha, hu⟩
    · by_cases ha : a = agentID
      · rw [ha] at hold
        exact Or.inl ⟨ha, hall u ⟨hold, hended⟩⟩
      · exact Or.inr ⟨ha, hold, hended⟩
  refine ⟨fun a u hmem ↦ ?_, h.owner, h.nodup, h.blank, fun a u v hu hv ↦ ?_, fun a u hu ↦ ?_,
    fun a k hk hl ↦ ?_, h.lock⟩
  · rcases List.mem_cons.mp hmem with heq | hmem
    · injection heq with ha hu
      rw [ha, hu]
      exact h.owner agentID t (mem_of_isHead hhead)
    · exact h.sent a u hmem
  · rcases hout a u hu with ⟨rfl, rfl⟩ | ⟨ha, hu⟩
    · rcases hout a v hv with ⟨-, rfl⟩ | ⟨ha, -⟩
      · rfl
      · exact absurd rfl ha
    · rcases hout a v hv with ⟨rfl, -⟩ | ⟨-, hv⟩
      · exact absurd rfl ha
      · exact h.unique a u v hu hv
  · rcases hout a u hu with ⟨rfl, rfl⟩ | ⟨-, hu⟩
    · exact Or.inr hhead
    · exact h.mark a u hu
  · obtain ⟨hold, hrest⟩ := h.lease a k hk hl
    refine ⟨hold, fun u hu ↦ ?_⟩
    rcases hout a u hu with ⟨rfl, rfl⟩ | ⟨-, hu⟩
    · exact hhead.inj hold
    · exact hrest u hu

/-! ## Every run -/

/-- A task whose goroutine is done, or that has left `s.tasks`, or that has a terminal status, is
not outstanding. -/
theorem MarkInv.not_outstanding_of_over (h : MarkInv s) (he : EndInv s) {a t : String}
    (hover : s.task t = none ∨ s.task t ≠ none ∧ s.active t = false ∨
      ∃ task, s.task t = some task ∧ task.status.isTerminal = true) : ¬Outstanding s a t := by
  intro hout
  obtain ⟨x, hx, -⟩ := h.sent a t hout.1
  rcases hover with hnone | ⟨hne, hinactive⟩ | ⟨task, htask, hterm⟩
  · exact absurd (hnone.symm.trans hx) (by simp)
  · exact absurd (hout.2.symm.trans (he.inactive t hne hinactive)) (by simp)
  · exact absurd (hout.2.symm.trans (he.terminal t task htask hterm)) (by simp)

/-- The steps of a dispatch. -/
theorem MarkInv.dispatchStep {a : Action} (h : MarkInv s) (he : EndInv s) (hs : Move s a s')
    (ha : a = .scan ∨ (∃ now, a = .expireLease now) ∨ (∃ outcome, a = .reserve outcome) ∨
      (∃ now, a = .tryStart now) ∨ ∃ now failure, a = .sendStartTask now failure) : MarkInv s' := by
  cases hs with
  | unlock => exact h.unlock
  | drop hf hphase _ hover =>
    refine h.removeQueued _ _ (fun hout ↦ absurd hout (h.not_outstanding_of_over he hover))
      fun g hg ↦ ?_
    obtain rfl := Option.some.inj (hf.symm.trans hg)
    simp [hphase]
  | @expire f t rest task hf hphase hqueue htask hlease =>
    refine h.same rfl rfl rfl rfl rfl fun g hg _ ↦ ?_
    obtain rfl := Option.some.inj hg
    refine ⟨t, by rw [IsHead, hqueue, List.head?_cons], task, htask, ?_⟩
    rwa [← Option.isSome_iff_ne_none]
  | proceed => exact h.toPhase _ (by simp)
  | @expireLease now f t task hu =>
    obtain ⟨htask, -, -⟩ := h.underDispatch hu
    have hset := (h.clearLocked hu (Or.inl rfl) now).setTask
      { task with dispatchLeaseUntil := none, status := .pending } htask rfl (absurd rfl)
      (some { f with phase := .reserve })
      fun g hg hlocked ↦ absurd hlocked (by rw [← Option.some.inj hg]; simp)
    exact hset.same rfl rfl rfl rfl rfl hset.lock
  | reserved => exact h.toPhase _ (by simp)
  | notReady hu => exact h.dispatchReturns _ (h.underDispatch hu).1 rfl rfl
  | reserveError hu =>
    obtain ⟨htask, -, hhead⟩ := h.underDispatch hu
    exact h.dispatchError _ htask hhead rfl id _
  | @refused now f t task manager err hu hstart =>
    have hbusy := busyWith_of_refused hstart
    have hret := h.dispatchReturns task (h.underDispatch hu).1 rfl rfl
    exact hret.weaken rfl (fun _ _ hb ↦ hb) hret.blank (fun _ _ _ hl ↦ hl) (fun _ _ hu ↦ hu)
      (fun _ hu ↦ hu) (fun a u _ _ hb ↦ Or.inl ((hbusy a).trans hb)) hret.lock
  | started hu hstart => exact h.started hu hstart _ rfl (by simp)
  | @send now f t task hu =>
    obtain ⟨htask, hagent, hhead⟩ := h.underDispatch hu
    have hret := h.dispatchReturns { task with dispatchSent := true } htask rfl rfl
    have hsend := hret.send hhead (h.locked hu (Or.inr rfl)).2
    rwa [← hagent] at hsend
  | @sendError now f t err task hu =>
    obtain ⟨htask, -, hhead⟩ := h.underDispatch hu
    have herror := (h.clearLocked hu (Or.inr rfl) now).dispatchError (f := f)
      { task with dispatchLeaseUntil := none, dispatchSent := false } htask hhead rfl (absurd rfl)
      ("send start_task failed for " ++ t ++ ": " ++ err)
    rwa [dispatchError_manager] at herror
  | _ => simp at ha

/-- The goroutine of a task writes to it. -/
theorem MarkInv.finish (h : MarkInv s) {t : String} {task : RunningTask} (task' : RunningTask)
    (htask : s.task t = some task) (hagent : task'.agentID = task.agentID)
    (hlease : task'.dispatchLeaseUntil = task.dispatchLeaseUntil) :
    MarkInv (s.setTask t task') := by
  refine h.setTask task' htask hagent (fun hl ↦ by rwa [← hlease]) s.dispatching
    fun f hf hphase ↦ ?_
  obtain ⟨k, hhead, x, hx, hl⟩ := h.lock f hf hphase
  refine ⟨k, hhead, ?_⟩
  by_cases hkt : k = t
  · subst hkt
    obtain rfl : task = x := Option.some.inj (htask.symm.trans hx)
    exact ⟨task', by simp [SchedulerState.setTask], by rwa [hlease]⟩
  · exact ⟨x, by simpa [SchedulerState.setTask, Function.update_of_ne hkt] using hx, hl⟩

/-- A step of a goroutine that leaves tasks, queues and marks alone. -/
theorem MarkInv.setWorker (h : MarkInv s) (t : String) (w : Worker) : MarkInv (s.setWorker t w) :=
  h.same rfl rfl rfl rfl rfl h.lock

theorem markInv_step {a : Action} (h : MarkInv s) (he : EndInv s) (hok : KeepsMarks s a)
    (hs : step s a = some s') : MarkInv s' := by
  cases move_of_step hs with
  | startTask hfree hnew hne => exact h.startTask hfree hnew hne
  | startMultiAgentTask hstart =>
    exact h.weaken rfl (fun _ _ hb ↦ hb) h.blank (fun _ _ _ hl ↦ hl) (fun _ _ hu ↦ hu)
      (fun _ hu ↦ hu) (fun a u _ _ hb ↦ Or.inl (busyWith_tryStartMultiExecution hstart hb)) h.lock
  | @createMultiTask now exec _ hfree hnew hne =>
    have hcreate := h.create (multiTask now exec) hfree hnew hne
    exact hcreate.same rfl rfl rfl rfl rfl hcreate.lock
  | heartbeat => exact h.heartbeat ..
  | taskStateUpdate => exact h.taskStateUpdate hok (move_of_step hs)
  | acknowledge _ hstage hfree =>
    have hack := h.acknowledge _ _ hfree (hok.2 hstage)
    exact hack.same rfl rfl rfl rfl rfl hack.lock
  | observed => exact h.afterObserve _
  | idle | notify | dispatchIdleAgents | cancelTask | found | absent | panic | full | deliver =>
    exact h.same rfl rfl rfl rfl rfl h.lock
  | dispatch =>
    refine (h.afterObserve _).same rfl rfl rfl rfl rfl fun f hf hphase ↦ ?_
    obtain rfl := Option.some.inj hf
    exact absurd hphase (by simp)
  | @complete now d _ hstage =>
    have hclear := h.clearMark now d.agentID [] fun u hout hbusy ↦
      absurd hout (hok.1 hstage u hbusy)
    exact hclear.same rfl rfl rfl rfl rfl hclear.lock
  | unlock | drop | expire | proceed => exact h.dispatchStep he (move_of_step hs) (Or.inl rfl)
  | expireLease => exact h.dispatchStep he (move_of_step hs) (Or.inr (Or.inl ⟨_, rfl⟩))
  | reserved | notReady | reserveError =>
    exact h.dispatchStep he (move_of_step hs) (Or.inr (Or.inr (Or.inl ⟨_, rfl⟩)))
  | refused | started =>
    exact h.dispatchStep he (move_of_step hs) (Or.inr (Or.inr (Or.inr (Or.inl ⟨_, rfl⟩))))
  | send | sendError =>
    exact h.dispatchStep he (move_of_step hs) (Or.inr (Or.inr (Or.inr (Or.inr ⟨_, _, rfl⟩))))
  | registerChannel | unregisterChannel | closeChannel => exact h.setWorker _ _
  | receive htask _ _ hagent hlease => exact (h.finish _ htask hagent hlease).setWorker _ _
  | @contextDone t task htask =>
    exact (h.finish { task with
      status := .cancelled, errorMessage := "task context cancelled" } htask rfl rfl).setWorker _ _
  | @completeExecution now t task htask =>
    have hclear := h.clearMark now task.agentID task.reservedZones fun u hout hbusy ↦
      absurd hout (hok task htask u hbusy)
    exact hclear.same rfl rfl rfl rfl rfl hclear.lock
  | @removeTask t task hfree htask hpc =>
    have hended : s.ended t = true :=
      he.ended_of_pc (by simp [hpc]) (by simp [hpc]) (by simp [hpc])
    have hremove := h.removeQueued task.agentID t
      (fun hout ↦ absurd (hout.2.symm.trans hended) (by simp))
      fun f hf ↦ absurd (lock_of_free hfree hf) id
    exact hremove.same rfl rfl rfl rfl rfl hremove.lock
  | @cancelContext t =>
    have hended := h.setEnded t
    exact hended.same rfl rfl rfl rfl rfl hended.lock
  | @cancelQueued t task hfree htask hmem =>
    have hremove := h.removeQueued task.agentID t
      (fun hout ↦ absurd (hout.2.symm.trans (he.cancels t hmem)) (by simp))
      fun f hf ↦ absurd (lock_of_free hfree hf) id
    exact hremove.same rfl rfl rfl rfl rfl hremove.lock
  | cancelReturn =>
    refine h.weaken rfl (fun _ _ hb ↦ hb) h.blank (fun _ _ _ hl ↦ hl) (fun a u hu ↦ ?_)
      (fun _ hu ↦ hu) (fun _ _ _ _ hb ↦ Or.inl hb) h.lock
    dsimp only at hu
    split at hu
    · simpa using hu
    · exact hu

theorem markInv_init {s : SchedulerState} (h : Initial s) : MarkInv s := by
  obtain ⟨manager, rfl⟩ := h
  exact ⟨by simp, by simp, by simp, rfl, by simp [Outstanding], by simp [Outstanding], by simp,
    by simp⟩

theorem markInv_of_reachable (h : Reachable step KeepsMarks Initial s) : EndInv s ∧ MarkInv s :=
  h.invariant (I := fun s ↦ EndInv s ∧ MarkInv s)
    (fun _ hinit ↦ ⟨endInv_init hinit, markInv_init hinit⟩)
    fun _ _ _ _ hI hok hs ↦ ⟨endInv_step hI.1 hs, markInv_step hI.2 hI.1 hok hs⟩

/-- Only a dispatch sends a task, and it sends the one under dispatch. -/
theorem send_of_outbox {act : Action} {a t : String} (hs : Move s act s')
    (hsent : s'.outbox = .startTask a t :: s.outbox) :
    ∃ f task, s.underDispatch .send = some (f, t, task) ∧ task.agentID = a := by
  rcases outbox_of_move hs with heq | ⟨f, k, task, hu, -, heq⟩ | ⟨agentID, k, heq⟩ <;>
    rw [heq] at hsent
  · exact absurd hsent (by simp)
  · obtain ⟨ha, rfl⟩ : task.agentID = a ∧ k = t := by simpa using hsent
    exact ⟨f, task, hu, ha⟩
  · exact absurd hsent (by simp)

/-- **An agent is never sent a task while another one is outstanding**, in every run in which no
step takes the mark of an outstanding task away. -/
theorem sent_one_at_a_time {act : Action} {agentID t u : String}
    (h : Reachable step KeepsMarks Initial s) (hs : step s act = some s')
    (hsent : s'.outbox = .startTask agentID t :: s.outbox) (hu : Outstanding s agentID u) :
    u = t := by
  obtain ⟨-, hinv⟩ := markInv_of_reachable h
  obtain ⟨f, task, hunder, rfl⟩ := send_of_outbox (move_of_step hs) hsent
  obtain ⟨-, hagent, -⟩ := hinv.underDispatch hunder
  rw [hagent] at hu
  exact (hinv.locked hunder (Or.inr rfl)).2 u hu

/-- What a send of `t` to the robot finds: another task `u` is outstanding there. -/
def SendsNextTo (now : ℕ) (t u : String) (s : SchedulerState) : Prop :=
  ((step s (.sendStartTask now none)).any fun s' ↦
    s'.outbox = .startTask "robot" t :: s.outbox) = true ∧ Outstanding s "robot" u

instance (now : ℕ) (t u : String) : DecidablePred (SendsNextTo now t u) :=
  fun _ ↦ inferInstanceAs (Decidable (_ ∧ _))

/-- A task whose lease has run out is sent again, and only this task. -/
theorem sentAgain_one_at_a_time : ∃ s s', Reachable step KeepsMarks Initial s ∧
    step s (.sendStartTask (10 ^ 11) none) = some s' ∧
    s'.outbox = .startTask "robot" "task" :: s.outbox ∧
    ∃ u, Outstanding s "robot" u ∧ u = "task" := by
  obtain ⟨s, hreach, hsend, hout⟩ := exists_reachable_of_run step KeepsMarks
    initial_oneRobotScheduler
    (queueTask "task" :: .dispatchIdleAgents "robot" :: dispatchNext 1 ++
      [.handlerStep (10 ^ 11) ⟨"robot", false, "", none, .dispatch⟩, .scan,
        .expireLease (10 ^ 11), .reserve .ready, .tryStart (10 ^ 11)])
    (P := SendsNextTo (10 ^ 11) "task" "task") (by decide)
  obtain ⟨s', hs, hsent⟩ := (Option.any_eq_true _ _).mp hsend
  replace hsent : s'.outbox = .startTask "robot" "task" :: s.outbox := of_decide_eq_true hsent
  exact ⟨s, s', hreach, hs, hsent, "task", hout, sent_one_at_a_time hreach hs hsent hout⟩

/-- **Cancelling a queued task can free a busy robot**: the robot runs `first`, the clean-up of the
cancelled `second` clears its mark, and `third` is sent next to `first`. -/
theorem cancelledTask_frees_busyRobot : ∃ s s', Reachable step (fun _ _ ↦ True) Initial s ∧
    step s (.sendStartTask 3 none) = some s' ∧
    s'.outbox = .startTask "robot" "third" :: s.outbox ∧ Outstanding s "robot" "first" := by
  obtain ⟨s, hreach, hsend, hout⟩ := exists_reachable_of_run step (fun _ _ ↦ True)
    initial_oneRobotScheduler
    (queueTask "first" :: dispatchNext 1 ++ acknowledgeTask 2 "first" ++
      [queueTask "second", queueTask "third", .registerChannel "second", .cancelTask "second",
        .cancelContext "second", .cancelQueued "second", .contextDone "second",
        .unregisterChannel "second", .closeChannel "second", .completeExecution 3 "second",
        .dispatchIdleAgents "robot", .handlerStep 3 ⟨"robot", false, "", none, .dispatch⟩, .scan,
        .reserve .ready, .tryStart 3])
    (P := SendsNextTo 3 "third" "first") (by decide)
  obtain ⟨s', hs, hsent⟩ := (Option.any_eq_true _ _).mp hsend
  exact ⟨s, s', hreach, hs, of_decide_eq_true hsent, hout⟩

end Executor
end FleetServer
