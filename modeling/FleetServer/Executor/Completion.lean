import FleetServer.Executor.Steps

/-!
# Handing over the completion of a task

A terminal report reaches the goroutine `runTask` of its task through a channel: the goroutine
registers the channel, waits on it, and later unregisters and closes it; `NotifyTaskComplete` looks
the channel up, lets go of the lock, and only then sends.  Nothing orders the two sides.

`notify_never_panics` and `notify_delivered` say what order is needed: with the first, no send ever
meets a closed channel; with the second, every report for an unfinished task arrives.  The runs at
the end show that the scheduler allows other orders.
-/

set_option autoImplicit false

namespace FleetServer
namespace Executor

open GuardedRun SchedulerState State State.Manager

/-! ## Steps that leave the channels alone -/

/-- No channel, no goroutine and no call under way is touched, except that calls of
`NotifyTaskComplete` may be added. -/
structure Quiet (s s' : SchedulerState) : Prop where
  worker : s'.worker = s.worker
  returned : s'.returned = s.returned
  panicked : s'.panicked = s.panicked
  notifiers : ∀ n ∈ s'.notifiers, n ∈ s.notifiers ∨ n.found = false
  task : ∀ t, s'.task t = none → s.task t = none

variable {s s' : SchedulerState}

theorem eq_none_of_update {f : String → Option RunningTask} {k t : String} {task : RunningTask}
    (h : Function.update f k (some task) t = none) : f t = none := by
  by_cases ht : t = k
  · simp [ht] at h
  · rwa [Function.update_of_ne ht] at h

theorem quiet_of_same (hw : s'.worker = s.worker) (hr : s'.returned = s.returned)
    (hp : s'.panicked = s.panicked) (hn : s'.notifiers = s.notifiers)
    (ht : s'.task = s.task) : Quiet s s' :=
  ⟨hw, hr, hp, fun n h ↦ Or.inl (by rwa [hn] at h), fun t h ↦ by rwa [ht] at h⟩

theorem quiet_of_update (k : String) (task : RunningTask) (hw : s'.worker = s.worker)
    (hr : s'.returned = s.returned) (hp : s'.panicked = s.panicked)
    (hn : s'.notifiers = s.notifiers) (ht : s'.task = Function.update s.task k (some task)) :
    Quiet s s' :=
  ⟨hw, hr, hp, fun n h ↦ Or.inl (by rwa [hn] at h), fun t h ↦
    eq_none_of_update (k := k) (by rwa [ht] at h)⟩

theorem quiet_acknowledge (agentID t : String) : Quiet s (s.acknowledgeQueuedTask agentID t) := by
  rcases acknowledgeQueuedTask_cases s agentID t with ⟨-, heq⟩ | ⟨-, heq | ⟨task, -, heq⟩⟩
  · rw [heq]
    exact quiet_of_same rfl rfl rfl rfl rfl
  · rw [heq]
    exact quiet_of_same rfl rfl rfl rfl rfl
  · rw [heq]
    exact quiet_of_update _ _ rfl rfl rfl rfl rfl

theorem quiet_afterObserve (h : Handler) : Quiet s (s.afterObserve h) := by
  rw [afterObserve]
  split <;> exact quiet_of_same rfl rfl rfl rfl rfl

theorem quiet_dispatchError (f : Frame) (t : String) (task : RunningTask) (err : String) :
    Quiet s (s.dispatchError f t task err) := by
  rcases dispatchError_cases s f t task err with ⟨x, heq, -⟩ | ⟨x, m, heq, -, -, -, -, hfound⟩
  · rw [heq]
    exact quiet_of_update _ _ rfl rfl rfl rfl rfl
  · rw [heq]
    refine ⟨rfl, rfl, rfl, fun n hn ↦ ?_, fun t ht ↦ eq_none_of_update ht⟩
    rcases List.mem_cons.mp hn with rfl | hn
    · exact Or.inr hfound
    · exact Or.inl hn

/-! ## Steps of the goroutines -/

/-- How an action changes the goroutine of task `t`. -/
inductive WorkerMove (s s' : SchedulerState) (t : String) : Action → Worker → Prop
  | create {a : Action} (hnew : s.task t = none) (hnow : s'.task t ≠ none) :
      WorkerMove s s' t a { pc := .created }
  | register (hpc : (s.worker t).pc = .created) :
      WorkerMove s s' t (.registerChannel t) { s.worker t with pc := .waiting }
  | receive {result : TaskCompletionResult} (hpc : (s.worker t).pc = .waiting)
      (hbuffer : (s.worker t).buffer = some result) : WorkerMove s s' t (.receive t)
        { s.worker t with pc := .finishing, buffer := none, received := some result }
  | contextDone (hpc : (s.worker t).pc = .waiting) :
      WorkerMove s s' t (.contextDone t) { s.worker t with pc := .finishing }
  | unregister (hpc : (s.worker t).pc = .finishing) :
      WorkerMove s s' t (.unregisterChannel t) { s.worker t with pc := .unregistered }
  | close (hpc : (s.worker t).pc = .unregistered) :
      WorkerMove s s' t (.closeChannel t) { s.worker t with pc := .closed }
  | complete {now : ℕ} (hpc : (s.worker t).pc = .closed) :
      WorkerMove s s' t (.completeExecution now t) { s.worker t with pc := .released }
  | remove (hpc : (s.worker t).pc = .released) :
      WorkerMove s s' t (.removeTask t) { s.worker t with pc := .done }
  | cancel : WorkerMove s s' t (.cancelContext t) { s.worker t with contextDone := true }

/-- Of the channels and goroutines only the goroutine of task `t` is changed. -/
structure SetsWorker (s s' : SchedulerState) (t : String) (w : Worker) : Prop where
  worker : s'.worker = Function.update s.worker t w
  returned : s'.returned = s.returned
  panicked : s'.panicked = s.panicked
  notifiers : s'.notifiers = s.notifiers
  task : ∀ k, s'.task k = none → s.task k = none

theorem setsWorker_setWorker (t : String) (w : Worker) : SetsWorker s (s.setWorker t w) t w :=
  ⟨rfl, rfl, rfl, rfl, fun _ h ↦ h⟩

/-- **A step leaves the channels alone or moves one goroutine**, unless it is a step of
`NotifyTaskComplete`. -/
theorem quiet_or_setsWorker {a : Action} (hs : step s a = some s') : Quiet s s' ∨
    (∃ t w, SetsWorker s s' t w ∧ WorkerMove s s' t a w) ∨
      ∃ n, a = .lookup n ∨ a = .deliver n := by
  cases move_of_step hs with
  | @startTask r _ hnew =>
    exact Or.inr (Or.inl ⟨r.taskID, _, ⟨rfl, rfl, rfl, rfl, fun _ ↦ eq_none_of_update⟩,
      .create hnew (by simp [create])⟩)
  | @createMultiTask now exec _ _ hnew =>
    exact Or.inr (Or.inl ⟨exec.taskID, _, ⟨rfl, rfl, rfl, rfl, fun _ ↦ eq_none_of_update⟩,
      .create hnew (by simp [create])⟩)
  | startMultiAgentTask | heartbeat | taskStateUpdate | idle | complete | dispatchIdleAgents
  | unlock | drop | expire | proceed | reserved | cancelTask | cancelQueued | cancelReturn =>
    exact Or.inl (quiet_of_same rfl rfl rfl rfl rfl)
  | acknowledge =>
    have hq := quiet_acknowledge (s := s)
    exact Or.inl ⟨(hq _ _).worker, (hq _ _).returned, (hq _ _).panicked, (hq _ _).notifiers,
      (hq _ _).task⟩
  | observed => exact Or.inl (quiet_afterObserve _)
  | @dispatch _ h =>
    have hq := quiet_afterObserve (s := s) h
    exact Or.inl ⟨hq.worker, hq.returned, hq.panicked, hq.notifiers, hq.task⟩
  | notify =>
    refine Or.inl ⟨rfl, rfl, rfl, fun n hn ↦ ?_, fun t ht ↦ ht⟩
    rcases List.mem_cons.mp hn with rfl | hn
    · exact Or.inr rfl
    · exact Or.inl hn
  | expireLease | notReady | refused | started | send =>
    exact Or.inl (quiet_of_update _ _ rfl rfl rfl rfl rfl)
  | reserveError => exact Or.inl (quiet_dispatchError _ _ _ _)
  | @sendError _ f t err task =>
    have hq := quiet_dispatchError (s := s) f t
      { task with dispatchLeaseUntil := none, dispatchSent := false }
      ("send start_task failed for " ++ t ++ ": " ++ err)
    exact Or.inl ⟨hq.worker, hq.returned, hq.panicked, hq.notifiers, hq.task⟩
  | @registerChannel t hpc => exact Or.inr (Or.inl ⟨t, _, setsWorker_setWorker t _, .register hpc⟩)
  | @receive t _ _ _ _ hbuffer hpc =>
    exact Or.inr (Or.inl ⟨t, _, ⟨rfl, rfl, rfl, rfl, fun _ ↦ eq_none_of_update⟩,
      .receive hpc hbuffer⟩)
  | @contextDone t _ _ hpc =>
    exact Or.inr (Or.inl ⟨t, _, ⟨rfl, rfl, rfl, rfl, fun _ ↦ eq_none_of_update⟩, .contextDone hpc⟩)
  | @unregisterChannel t hpc =>
    exact Or.inr (Or.inl ⟨t, _, setsWorker_setWorker t _, .unregister hpc⟩)
  | @closeChannel t hpc => exact Or.inr (Or.inl ⟨t, _, setsWorker_setWorker t _, .close hpc⟩)
  | @completeExecution _ t _ _ hpc =>
    exact Or.inr (Or.inl ⟨t, _, ⟨rfl, rfl, rfl, rfl, fun _ h ↦ h⟩, .complete hpc⟩)
  | @removeTask t _ _ _ hpc =>
    exact Or.inr (Or.inl ⟨t, _, ⟨rfl, rfl, rfl, rfl, fun _ h ↦ h⟩, .remove hpc⟩)
  | @cancelContext t => exact Or.inr (Or.inl ⟨t, _, ⟨rfl, rfl, rfl, rfl, fun _ h ↦ h⟩, .cancel⟩)
  | @found n | @absent n => exact Or.inr (Or.inr ⟨n, Or.inl rfl⟩)
  | @panic n | @deliver n | @full n => exact Or.inr (Or.inr ⟨n, Or.inr rfl⟩)

/-! ## No send on a closed channel -/

/-- The channel is not closed while a call of `NotifyTaskComplete` holds it. -/
def ClosesUnheld (s : SchedulerState) : Action → Prop
  | .closeChannel t => ∀ n ∈ s.notifiers, n.found = true → n.result.taskID ≠ t
  | _ => True

instance (s : SchedulerState) (a : Action) : Decidable (ClosesUnheld s a) := by
  cases a <;> dsimp only [ClosesUnheld] <;> infer_instance

/-- No panic so far, and every channel that a call holds is open. -/
structure HoldsOpen (s : SchedulerState) : Prop where
  panicked : s.panicked = false
  isOpen : ∀ n ∈ s.notifiers, n.found = true → (s.worker n.result.taskID).isClosed = false

theorem HoldsOpen.quiet (h : HoldsOpen s) (hq : Quiet s s') : HoldsOpen s' := by
  refine ⟨by rw [hq.panicked, h.panicked], fun n hn hfound ↦ ?_⟩
  rcases hq.notifiers n hn with hn | hnew
  · rw [hq.worker]
    exact h.isOpen n hn hfound
  · exact absurd hfound (by simp [hnew])

theorem HoldsOpen.setsWorker {a : Action} {t : String} {w : Worker} (h : HoldsOpen s)
    (hok : ClosesUnheld s a) (hset : SetsWorker s s' t w) (hmove : WorkerMove s s' t a w) :
    HoldsOpen s' := by
  refine ⟨by rw [hset.panicked, h.panicked], fun n hn hfound ↦ ?_⟩
  rw [hset.notifiers] at hn
  have hopen := h.isOpen n hn hfound
  rw [hset.worker]
  by_cases ht : n.result.taskID = t
  · rw [ht] at hopen ⊢
    rw [Function.update_self]
    cases hmove with
    | create => rfl
    | register => rfl
    | receive => rfl
    | contextDone => rfl
    | unregister => rfl
    | close => exact absurd ht (hok n hn hfound)
    | complete hpc => simp [Worker.isClosed, hpc] at hopen
    | remove hpc => simp [Worker.isClosed, hpc] at hopen
    | cancel => exact hopen
  · rw [Function.update_of_ne ht]
    exact hopen

theorem not_isClosed_of_registered {w : Worker} (h : w.registered = true) : w.isClosed = false := by
  rcases (by simpa [Worker.registered] using h : w.pc = .waiting ∨ w.pc = .finishing) with hpc | hpc
  · simp [Worker.isClosed, hpc]
  · simp [Worker.isClosed, hpc]

theorem HoldsOpen.lookup {n : Notifier} (h : HoldsOpen s) (hs : Move s (.lookup n) s') :
    HoldsOpen s' := by
  cases hs with
  | found _ hreg =>
    refine ⟨h.panicked, fun n' hn' hfound ↦ ?_⟩
    rcases List.mem_cons.mp hn' with rfl | hn'
    · exact not_isClosed_of_registered hreg
    · exact h.isOpen n' (List.mem_of_mem_erase hn') hfound
  | absent =>
    exact ⟨h.panicked, fun n' hn' hfound ↦ h.isOpen n' (List.mem_of_mem_erase hn') hfound⟩

theorem HoldsOpen.deliver {n : Notifier} (h : HoldsOpen s) (hs : Move s (.deliver n) s') :
    HoldsOpen s' := by
  cases hs with
  | panic hmem hfound hclosed =>
    rw [h.isOpen n hmem hfound] at hclosed
    exact absurd hclosed (by simp)
  | deliver =>
    refine ⟨h.panicked, fun n' hn' hfound ↦ ?_⟩
    have hopen := h.isOpen n' (List.mem_of_mem_erase hn') hfound
    by_cases ht : n'.result.taskID = n.result.taskID
    · rw [ht] at hopen ⊢
      simpa [Worker.isClosed] using hopen
    · simpa [Function.update_of_ne ht] using hopen
  | full =>
    exact ⟨h.panicked, fun n' hn' hfound ↦ h.isOpen n' (List.mem_of_mem_erase hn') hfound⟩

theorem holdsOpen_step {a : Action} (h : HoldsOpen s) (hok : ClosesUnheld s a)
    (hs : step s a = some s') : HoldsOpen s' := by
  rcases quiet_or_setsWorker hs with hq | ⟨t, w, hset, hmove⟩ | ⟨n, rfl | rfl⟩
  · exact h.quiet hq
  · exact h.setsWorker hok hset hmove
  · exact h.lookup (move_of_step hs)
  · exact h.deliver (move_of_step hs)

theorem holdsOpen_init {s : SchedulerState} (h : Initial s) : HoldsOpen s := by
  obtain ⟨manager, rfl⟩ := h
  exact ⟨rfl, by simp⟩

/-- **No send ever meets a closed channel**, in every run in which no channel is closed while a call
of `NotifyTaskComplete` holds it. -/
theorem notify_never_panics {s : SchedulerState} (h : Reachable step ClosesUnheld Initial s) :
    s.panicked = false :=
  (h.invariant (fun _ ↦ holdsOpen_init) fun _ _ _ _ hI hok hs ↦ holdsOpen_step hI hok hs).panicked

/-- A task is dispatched and reported twice, and its channel closed between the two. -/
def reportedTwice : List Action :=
  queueTask "task" :: .registerChannel "task" :: dispatchNext 1 ++ reportCompleted 2 "task" ++
    [.lookup ⟨completedResult "task", true, false⟩, .deliver ⟨completedResult "task", true, true⟩,
      .receive "task"] ++ reportCompleted 3 "task" ++
    [.lookup ⟨completedResult "task", false, false⟩]

/-- The second report finds the channel and lets go of it before the channel is closed. -/
theorem reportedTwice_never_panics :
    ∃ s, Reachable step ClosesUnheld Initial s ∧ s.panicked = false ∧
      (s.worker "task").isClosed = true := by
  obtain ⟨s, hs, hclosed⟩ := exists_reachable_of_run step ClosesUnheld
    initial_oneRobotScheduler (reportedTwice ++ [.deliver ⟨completedResult "task", false, true⟩,
      .unregisterChannel "task", .closeChannel "task"])
    (P := fun s ↦ (s.worker "task").isClosed = true) (by decide)
  exact ⟨s, hs, notify_never_panics hs, hclosed⟩

/-- **A second report can meet the closed channel**: it looks the channel up, the goroutine closes
it, and the send stops the server. -/
theorem reportedTwice_panics :
    ∃ s, Reachable step (fun _ _ ↦ True) Initial s ∧ s.panicked = true :=
  exists_reachable_of_run step _ initial_oneRobotScheduler
    (reportedTwice ++ [.unregisterChannel "task", .closeChannel "task",
      .deliver ⟨completedResult "task", false, true⟩]) (by decide)

/-! ## Every report arrives -/

/-- The order a report for an unfinished task needs: the channel is registered when it is looked
up, the goroutine waits with an empty channel when the report is sent, and a goroutine does not
leave for its context with a report in its channel. -/
def HandsOver (s : SchedulerState) : Action → Prop
  | .lookup n => n.live = true → (s.worker n.result.taskID).registered = true
  | .deliver n => n.live = true →
    (s.worker n.result.taskID).pc = .waiting ∧ (s.worker n.result.taskID).buffer = none
  | .contextDone t => (s.worker t).buffer = none
  | _ => True

instance (s : SchedulerState) (a : Action) : Decidable (HandsOver s a) := by
  cases a <;> dsimp only [HandsOver] <;> infer_instance

/-- The goroutine has taken the result over, or waits with it in its channel. -/
def HasResult (w : Worker) (result : TaskCompletionResult) : Prop :=
  w.received = some result ∨ (w.pc = .waiting ∧ w.buffer = some result)

/-- A report has arrived: the goroutine of the task has taken its status over, or does so with its
next step. -/
def Delivered (s : SchedulerState) (n : Notifier) : Prop :=
  (s.worker n.result.taskID).received = some n.result ∨
    ∃ s' task, s.receive n.result.taskID = some s' ∧ s'.task n.result.taskID = some task ∧
      task.status = n.result.status

structure HandsOverInv (s : SchedulerState) : Prop where
  /-- Only a task that exists has a goroutine. -/
  known : ∀ t, s.task t = none → (s.worker t).pc = .absent
  /-- A goroutine that still waits has received nothing. -/
  early : ∀ t, (s.worker t).pc = .absent ∨ (s.worker t).pc = .created ∨
    (s.worker t).pc = .waiting → (s.worker t).received = none
  arrived : ∀ n ∈ s.returned, n.live = true → HasResult (s.worker n.result.taskID) n.result

theorem HandsOverInv.quiet (h : HandsOverInv s) (hq : Quiet s s') : HandsOverInv s' := by
  refine ⟨fun t ht ↦ ?_, fun t ht ↦ ?_, fun n hn hlive ↦ ?_⟩
  · rw [hq.worker]
    exact h.known t (hq.task t ht)
  · rw [hq.worker] at ht ⊢
    exact h.early t ht
  · rw [hq.returned] at hn
    rw [hq.worker]
    exact h.arrived n hn hlive

/-- Once `create` has been ruled out by the other results, a move keeps the result it was given. -/
theorem hasResult_of_move {a : Action} {t : String} {w : Worker} {result : TaskCompletionResult}
    (h : HandsOverInv s) (hok : HandsOver s a) (hmove : WorkerMove s s' t a w)
    (hres : HasResult (s.worker t) result) : HasResult w result := by
  cases hmove with
  | create hnew =>
    have hpc := h.known t hnew
    have hrec := h.early t (Or.inl hpc)
    rcases hres with hres | ⟨hwait, -⟩
    · rw [hrec] at hres
      exact absurd hres (by simp)
    · rw [hpc] at hwait
      exact absurd hwait (by simp)
  | register hpc => exact Or.inl (hres.resolve_right (by simp [hpc]))
  | receive hpc hbuffer =>
    have hrec := h.early t (Or.inr (Or.inr hpc))
    rcases hres with hres | ⟨-, hres⟩
    · rw [hrec] at hres
      exact absurd hres (by simp)
    · exact Or.inl (hbuffer.symm.trans hres)
  | contextDone hpc =>
    have hempty : (s.worker t).buffer = none := hok
    exact Or.inl (hres.resolve_right (by simp [hempty]))
  | unregister hpc => exact Or.inl (hres.resolve_right (by simp [hpc]))
  | close hpc => exact Or.inl (hres.resolve_right (by simp [hpc]))
  | complete hpc => exact Or.inl (hres.resolve_right (by simp [hpc]))
  | remove hpc => exact Or.inl (hres.resolve_right (by simp [hpc]))
  | cancel => exact hres

theorem early_of_move {a : Action} {t : String} {w : Worker} (h : HandsOverInv s)
    (hmove : WorkerMove s s' t a w) (hpc : w.pc = .absent ∨ w.pc = .created ∨ w.pc = .waiting) :
    w.received = none := by
  cases hmove with
  | create => rfl
  | register hpc' => exact h.early t (Or.inr (Or.inl hpc'))
  | cancel => exact h.early t hpc
  | receive | contextDone | unregister | close | complete | remove => simp at hpc

/-- The goroutine of a task that does not exist makes no move. -/
theorem known_of_move {a : Action} {t : String} {w : Worker} (h : HandsOverInv s)
    (hset : SetsWorker s s' t w) (hmove : WorkerMove s s' t a w) (hnone : s'.task t = none) :
    w.pc = .absent := by
  have habsent := h.known t (hset.task t hnone)
  cases hmove with
  | create _ hnow => exact absurd hnone hnow
  | cancel => exact habsent
  | register hpc | contextDone hpc | unregister hpc | close hpc | complete hpc | remove hpc =>
    rw [habsent] at hpc
    exact absurd hpc (by simp)
  | receive hpc =>
    rw [habsent] at hpc
    exact absurd hpc (by simp)

theorem HandsOverInv.setsWorker {a : Action} {t : String} {w : Worker} (h : HandsOverInv s)
    (hok : HandsOver s a) (hset : SetsWorker s s' t w) (hmove : WorkerMove s s' t a w) :
    HandsOverInv s' := by
  refine ⟨fun k hk ↦ ?_, fun k hk ↦ ?_, fun n hn hlive ↦ ?_⟩
  · rw [hset.worker]
    by_cases hkt : k = t
    · subst hkt
      rw [Function.update_self]
      exact known_of_move h hset hmove hk
    · rw [Function.update_of_ne hkt]
      exact h.known k (hset.task k hk)
  · rw [hset.worker] at hk ⊢
    by_cases hkt : k = t
    · subst hkt
      rw [Function.update_self] at hk ⊢
      exact early_of_move h hmove hk
    · rw [Function.update_of_ne hkt] at hk ⊢
      exact h.early k hk
  · rw [hset.returned] at hn
    have hres := h.arrived n hn hlive
    rw [hset.worker]
    by_cases hkt : n.result.taskID = t
    · subst hkt
      rw [Function.update_self]
      exact hasResult_of_move h hok hmove hres
    · rw [Function.update_of_ne hkt]
      exact hres

theorem HandsOverInv.lookup {n : Notifier} (h : HandsOverInv s) (hok : HandsOver s (.lookup n))
    (hs : Move s (.lookup n) s') : HandsOverInv s' := by
  cases hs with
  | found => exact ⟨h.known, h.early, h.arrived⟩
  | absent _ hreg =>
    refine ⟨h.known, h.early, fun n' hn' hlive ↦ ?_⟩
    rcases List.mem_cons.mp hn' with rfl | hn'
    · exact absurd (hreg.symm.trans (hok hlive)) (by simp)
    · exact h.arrived n' hn' hlive

/-- Sending fills an empty channel and leaves a full one. -/
theorem HandsOverInv.deliver {n : Notifier} (h : HandsOverInv s) (hok : HandsOver s (.deliver n))
    (hs : Move s (.deliver n) s') : HandsOverInv s' := by
  cases hs with
  | panic => exact ⟨h.known, h.early, h.arrived⟩
  | deliver _ _ hempty =>
    refine ⟨fun k hk ↦ ?_, fun k hk ↦ ?_, fun n' hn' hlive ↦ ?_⟩
    · by_cases hkt : k = n.result.taskID
      · subst hkt
        simpa using h.known n.result.taskID hk
      · simpa [Function.update_of_ne hkt] using h.known k hk
    · by_cases hkt : k = n.result.taskID
      · subst hkt
        simpa using h.early n.result.taskID (by simpa using hk)
      · simpa [Function.update_of_ne hkt] using
          h.early k (by simpa [Function.update_of_ne hkt] using hk)
    · rcases List.mem_cons.mp hn' with rfl | hn'
      · exact Or.inr (by simpa using (hok hlive).1)
      · have hres := h.arrived n' hn' hlive
        by_cases hkt : n'.result.taskID = n.result.taskID
        · rw [hkt] at hres ⊢
          have hrec := hres.resolve_right (by simp [hempty])
          exact Or.inl (by simpa using hrec)
        · simpa [Function.update_of_ne hkt, HasResult] using hres
  | full _ _ hfull =>
    refine ⟨h.known, h.early, fun n' hn' hlive ↦ ?_⟩
    rcases List.mem_cons.mp hn' with rfl | hn'
    · exact absurd (hok hlive).2 hfull
    · exact h.arrived n' hn' hlive

theorem handsOverInv_step {a : Action} (h : HandsOverInv s) (hok : HandsOver s a)
    (hs : step s a = some s') : HandsOverInv s' := by
  rcases quiet_or_setsWorker hs with hq | ⟨t, w, hset, hmove⟩ | ⟨n, rfl | rfl⟩
  · exact h.quiet hq
  · exact h.setsWorker hok hset hmove
  · exact h.lookup hok (move_of_step hs)
  · exact h.deliver hok (move_of_step hs)

theorem handsOverInv_init {s : SchedulerState} (h : Initial s) : HandsOverInv s := by
  obtain ⟨manager, rfl⟩ := h
  exact ⟨fun _ _ ↦ rfl, fun _ _ ↦ rfl, by simp⟩

theorem HandsOverInv.delivered (h : HandsOverInv s) {n : Notifier} (hn : n ∈ s.returned)
    (hlive : n.live = true) : Delivered s n := by
  rcases h.arrived n hn hlive with hrec | ⟨hpc, hbuffer⟩
  · exact Or.inl hrec
  · cases htask : s.task n.result.taskID with
    | none => exact absurd (h.known _ htask) (by simp [hpc])
    | some task =>
      right
      simp only [SchedulerState.receive, htask, hbuffer, hpc, if_true]
      exact ⟨_, _, rfl, Function.update_self .., rfl⟩

/-- **Every report for an unfinished task is delivered**, in every run in which the channel is
registered before it is looked up and the goroutine waits with an empty channel when the report is
sent. -/
theorem notify_delivered {s : SchedulerState} (h : Reachable step HandsOver Initial s) :
    ∀ n ∈ s.returned, n.live = true → Delivered s n := fun _ hn hlive ↦
  (h.invariant (fun _ ↦ handsOverInv_init) fun _ _ _ _ hI hok hs ↦
    handsOverInv_step hI hok hs).delivered hn hlive

/-- A report that comes after the channel was registered. -/
theorem registeredTask_delivered :
    ∃ s, Reachable step HandsOver Initial s ∧ ∃ n ∈ s.returned, n.live = true ∧ Delivered s n := by
  obtain ⟨s, hs, n, hn, hlive⟩ := exists_reachable_of_run step HandsOver
    initial_oneRobotScheduler (queueTask "task" :: .registerChannel "task" :: dispatchNext 1 ++
      reportCompleted 2 "task" ++ [.lookup ⟨completedResult "task", true, false⟩,
        .deliver ⟨completedResult "task", true, true⟩])
    (P := fun s ↦ ∃ n ∈ s.returned, n.live = true) (by decide)
  exact ⟨s, hs, n, hn, hlive, notify_delivered hs n hn hlive⟩

/-- **A report can come before the channel is registered**: it is dropped, and the goroutine waits
for a result that nobody will send. -/
theorem unregisteredTask_lost :
    ∃ s, Reachable step (fun _ _ ↦ True) Initial s ∧
      (∃ n ∈ s.returned, n.live = true ∧ ¬Delivered s n) ∧
      (s.worker "task").pc = .waiting ∧ s.notifiers = [] ∧ s.handlers = [] := by
  obtain ⟨s, hs, ⟨n, hn, hlive, hrec, hnone⟩, hrest⟩ := exists_reachable_of_run step
    (fun _ _ ↦ True) initial_oneRobotScheduler
    (queueTask "task" :: dispatchNext 1 ++ reportCompleted 2 "task" ++
      [.lookup ⟨completedResult "task", true, false⟩, .registerChannel "task"])
    (P := fun s ↦ (∃ n ∈ s.returned, n.live = true ∧
        (s.worker n.result.taskID).received = none ∧ (s.receive n.result.taskID).isNone) ∧
      (s.worker "task").pc = .waiting ∧ s.notifiers = [] ∧ s.handlers = []) (by decide)
  refine ⟨s, hs, ⟨n, hn, hlive, ?_⟩, hrest⟩
  rintro (h | ⟨s', task, hrecv, -⟩)
  · rw [hrec] at h
    exact absurd h (by simp)
  · rw [hrecv] at hnone
    exact absurd hnone (by simp)

end Executor
end FleetServer
