import FleetServer.Executor.TaskEnd

/-!
# What decides the status of a task

Seen from one task, a step of the scheduler does one of a few things (`Turn`): it reports a terminal
status for the task, hands a result over to `runTask`, lets `runTask` notice that its context is
cancelled, takes the lease of the task back, or gives its dispatch up.  Every other step leaves the
status alone, and adds no result to those on their way.
-/

set_option autoImplicit false

namespace FleetServer
namespace Executor

open SchedulerState State State.Manager

variable {s s' : SchedulerState} {act : Action} {t : String}

/-! ## One task -/

namespace SchedulerState

/-- The status of the task object. -/
def statusOf (s : SchedulerState) (t : String) : Option TaskStatus :=
  (s.task t).map RunningTask.status

/-- `runTask` has taken the status over, and only cleans up. -/
def decided (s : SchedulerState) (t : String) : Bool :=
  (s.worker t).pc ≠ .absent && (s.worker t).pc ≠ .created && (s.worker t).pc ≠ .waiting

/-- A result is on its way to `runTask`: in the channel, or about to be sent. -/
def InFlight (s : SchedulerState) (t : String) (r : TaskCompletionResult) : Prop :=
  (s.worker t).buffer = some r ∨
    r.taskID = t ∧ ((∃ n ∈ s.notifiers, n.result = r) ∨ ∃ h ∈ s.handlers, h.report = some r)

/-- An error makes the dispatch of the task fail for good. -/
def givesUp (f : Frame) (task : RunningTask) : Bool :=
  maxDispatchAttempts ≤ task.dispatchAttempts &&
    maxDispatchErrorWindow ≤ f.now - task.dispatchFirstError.getD f.now

/-- The task whose dispatch an action gives up. -/
def givenUp (s : SchedulerState) : Action → Option String
  | .reserve (.error _) =>
    (s.underDispatch .reserve).bind fun (f, t, task) ↦ if givesUp f task then some t else none
  | .sendStartTask _ (some _) =>
    (s.underDispatch .send).bind fun (f, t, task) ↦ if givesUp f task then some t else none
  | _ => none

end SchedulerState

/-- The action creates a task. -/
def Action.creates : Action → Bool
  | .startTask _ => true
  | .createMultiTask _ => true
  | _ => false

/-- What a step means for the task `t`. -/
inductive Turn (s s' : SchedulerState) (t : String) : Action → Prop
  | same {act : Action} (hstatus : s'.statusOf t = s.statusOf t)
      (hdecided : s'.decided t = s.decided t) (hin : ∀ r, s'.InFlight t r → s.InFlight t r) :
      Turn s s' t act
  | report {now : ℕ} {agentID stepID errorMsg : String} {state : ℤ}
      (hstatus : s'.statusOf t = s.statusOf t) (hdecided : s'.decided t = s.decided t)
      (hin : ∀ r, s'.InFlight t r → s.InFlight t r ∨
        terminalReport t (taskStateToString state) errorMsg = some r) :
      Turn s s' t (.taskStateUpdate now agentID t state stepID errorMsg)
  | created {act : Action} {status : TaskStatus} (hact : act.creates = true)
      (hnew : s.task t = none) (hopen : status.isTerminal = false)
      (hstatus : s'.statusOf t = some status) (hdecided : s'.decided t = false)
      (hin : ∀ r, s'.InFlight t r → s.InFlight t r) : Turn s s' t act
  | received {r : TaskCompletionResult} (hfrom : s.InFlight t r)
      (hexists : (s.task t).isSome = true) (hwaits : s.decided t = false)
      (hstatus : s'.statusOf t = some r.status) (hdecided : s'.decided t = true) :
      Turn s s' t (.receive t)
  | cancelled (hexists : (s.task t).isSome = true) (hwaits : s.decided t = false)
      (hstatus : s'.statusOf t = some .cancelled) (hdecided : s'.decided t = true) :
      Turn s s' t (.contextDone t)
  | expired {now : ℕ} {f : Frame} {task : RunningTask}
      (hu : s.underDispatch .expire = some (f, t, task)) (hstatus : s'.statusOf t = some .pending)
      (hdecided : s'.decided t = s.decided t) (hin : ∀ r, s'.InFlight t r → s.InFlight t r) :
      Turn s s' t (.expireLease now)
  | gaveUp {act : Action} (hgiven : s.givenUp act = some t)
      (hexists : (s.task t).isSome = true) (hstatus : s'.statusOf t = some .failed)
      (hdecided : s'.decided t = s.decided t)
      (hin : ∀ r, s'.InFlight t r → s.InFlight t r ∨ r.status = .failed) : Turn s s' t act

/-! ## Steps that add no result -/

/-- The results on their way are in a channel, or belong to calls and handlers that were there. -/
theorem inFlight_of_parts (hbuffer : (s'.worker t).buffer = (s.worker t).buffer)
    (hnotifiers : ∀ n ∈ s'.notifiers, n.result.taskID = t →
      (∃ n' ∈ s.notifiers, n'.result = n.result) ∨ ∃ h ∈ s.handlers, h.report = some n.result)
    (hhandlers : ∀ h ∈ s'.handlers, ∀ r ∈ h.report, r.taskID = t →
      ∃ h' ∈ s.handlers, h'.report = some r) (r : TaskCompletionResult) (h : s'.InFlight t r) :
    s.InFlight t r := by
  rcases h with hbuf | ⟨htask, ⟨n, hn, rfl⟩ | ⟨d, hd, hreport⟩⟩
  · exact Or.inl (hbuffer ▸ hbuf)
  · exact Or.inr ⟨htask, hnotifiers n hn htask⟩
  · exact Or.inr ⟨htask, Or.inr (hhandlers d hd r hreport htask)⟩

/-- A step that changes neither tasks nor goroutines, and adds no result. -/
theorem Turn.of_parts (htask : s'.task = s.task) (hworker : s'.worker = s.worker)
    (hnotifiers : ∀ n ∈ s'.notifiers, n.result.taskID = t →
      (∃ n' ∈ s.notifiers, n'.result = n.result) ∨ ∃ h ∈ s.handlers, h.report = some n.result)
    (hhandlers : ∀ h ∈ s'.handlers, ∀ r ∈ h.report, r.taskID = t →
      ∃ h' ∈ s.handlers, h'.report = some r) : Turn s s' t act :=
  .same (by rw [statusOf, statusOf, htask]) (by rw [decided, decided, hworker])
    (inFlight_of_parts (by rw [hworker]) hnotifiers hhandlers)

/-- A step of a handler that calls nothing. -/
theorem Turn.of_handlers (htask : s'.task = s.task) (hworker : s'.worker = s.worker)
    (hnotifiers : s'.notifiers = s.notifiers)
    (hhandlers : ∀ h ∈ s'.handlers, ∀ r ∈ h.report, r.taskID = t →
      ∃ h' ∈ s.handlers, h'.report = some r) : Turn s s' t act :=
  .of_parts htask hworker (fun n hn _ ↦ Or.inl ⟨n, hnotifiers ▸ hn, rfl⟩) hhandlers

/-- A step that leaves the handlers alone as well. -/
theorem Turn.of_same (htask : s'.task = s.task) (hworker : s'.worker = s.worker)
    (hnotifiers : s'.notifiers = s.notifiers) (hhandlers : s'.handlers = s.handlers) :
    Turn s s' t act :=
  .of_handlers htask hworker hnotifiers fun h hh _ hr _ ↦ ⟨h, hhandlers ▸ hh, hr⟩

/-- A step that writes to a task object and keeps its status. -/
theorem Turn.of_write {k : String} {task task' : RunningTask} (hold : s.task k = some task)
    (htask : s'.task = Function.update s.task k (some task')) (hkeeps : task'.status = task.status)
    (hworker : s'.worker = s.worker) (hnotifiers : s'.notifiers = s.notifiers)
    (hhandlers : ∀ h ∈ s'.handlers, ∀ r ∈ h.report, r.taskID = t →
      ∃ h' ∈ s.handlers, h'.report = some r) : Turn s s' t act := by
  refine .same ?_ (by rw [decided, decided, hworker]) (inFlight_of_parts (by rw [hworker])
    (fun n hn _ ↦ Or.inl ⟨n, hnotifiers ▸ hn, rfl⟩) hhandlers)
  rw [statusOf, statusOf, htask]
  by_cases hk : t = k
  · rw [hk, Function.update_self, hold, Option.map_some, Option.map_some, hkeeps]
  · rw [Function.update_of_ne hk]

/-- A step of a goroutine that does not touch the status. -/
theorem Turn.of_worker {k : String} {w : Worker} (htask : s'.task = s.task)
    (hworker : s'.worker = Function.update s.worker k w)
    (hbuffer : w.buffer = (s.worker k).buffer)
    (hpc : (w.pc ≠ .absent && w.pc ≠ .created && w.pc ≠ .waiting) = s.decided k)
    (hnotifiers : s'.notifiers = s.notifiers) (hhandlers : s'.handlers = s.handlers) :
    Turn s s' t act := by
  refine .same (by rw [statusOf, statusOf, htask]) ?_ (inFlight_of_parts ?_
    (fun n hn _ ↦ Or.inl ⟨n, hnotifiers ▸ hn, rfl⟩) fun h hh _ hr _ ↦ ⟨h, hhandlers ▸ hh, hr⟩)
  · rw [decided, hworker]
    by_cases hk : t = k
    · rw [hk, Function.update_self]
      exact hpc
    · rw [Function.update_of_ne hk, decided]
  · rw [hworker]
    by_cases hk : t = k
    · rw [hk, Function.update_self, hbuffer]
    · rw [Function.update_of_ne hk]

/-! ## Handlers and dispatches -/

theorem report_of_moveHandler {d : Handler} (hd : d ∈ s.handlers) (stage : Stage)
    (h : Handler) (hh : h ∈ ({ d with stage } : Handler) :: s.handlers.erase d)
    (r : TaskCompletionResult) (hr : r ∈ h.report) (_ : r.taskID = t) :
    ∃ h' ∈ s.handlers, h'.report = some r := by
  rcases List.mem_cons.mp hh with rfl | hh
  · exact ⟨d, hd, hr⟩
  · exact ⟨h, List.mem_of_mem_erase hh, hr⟩

theorem report_of_afterObserve {d : Handler} (hd : d ∈ s.handlers) (h : Handler)
    (hh : h ∈ (s.afterObserve d).handlers) (r : TaskCompletionResult) (hr : r ∈ h.report)
    (htask : r.taskID = t) : ∃ h' ∈ s.handlers, h'.report = some r := by
  rw [SchedulerState.afterObserve] at hh
  split at hh
  · exact report_of_moveHandler hd _ h hh r hr htask
  · exact ⟨h, List.mem_of_mem_erase hh, hr⟩

/-- The turn of an acknowledgement: the lease of the task ends. -/
theorem Turn.of_acknowledge {d : Handler} (hd : d ∈ s.handlers) (k : String) :
    Turn s ((s.acknowledgeQueuedTask d.agentID k).moveHandler d .check) t act := by
  have hreports := report_of_moveHandler (t := t) hd .check
  rcases acknowledgeQueuedTask_cases s d.agentID k with ⟨-, heq⟩ | ⟨-, heq | ⟨x, hx, heq⟩⟩ <;>
    rw [heq]
  · exact .of_handlers rfl rfl rfl hreports
  · exact .of_handlers rfl rfl rfl hreports
  · exact .of_write hx rfl rfl rfl rfl hreports

/-- A dispatch that fails is given up, and the failure is on its way, or it is tried again. -/
theorem dispatchError_outcome (s : SchedulerState) (f : Frame) (k : String) (x : RunningTask)
    (err : String) : ∃ y, (s.dispatchError f k x err).task = Function.update s.task k (some y) ∧
      (givesUp f x = true ∧ y.status = .failed ∧ (∃ n : Notifier,
          (s.dispatchError f k x err).notifiers = n :: s.notifiers ∧ n.result.status = .failed ∧
            n.result.taskID = k) ∨
        givesUp f x = false ∧ y.status = x.status ∧
          (s.dispatchError f k x err).notifiers = s.notifiers) := by
  simp only [dispatchError]
  split
  · rename_i hg
    exact ⟨_, rfl, Or.inl ⟨by simp [givesUp, hg.1, hg.2], rfl, _, rfl, rfl, rfl⟩⟩
  · rename_i hg
    exact ⟨_, rfl, Or.inr ⟨by simpa [givesUp] using hg, rfl, rfl⟩⟩

/-- The turn of a dispatch that fails, whatever happens to the manager. -/
theorem Turn.of_dispatchError {f : Frame} {k err : String} {x : RunningTask} (x' : RunningTask)
    (hold : s.task k = some x) (hkeeps : x'.status = x.status) (hgives : givesUp f x' = givesUp f x)
    (hgiven : s.givenUp act = if givesUp f x then some k else none)
    (htask : s'.task = (s.dispatchError f k x' err).task)
    (hworker : s'.worker = (s.dispatchError f k x' err).worker)
    (hhandlers : s'.handlers = (s.dispatchError f k x' err).handlers)
    (hnotifiers : s'.notifiers = (s.dispatchError f k x' err).notifiers) : Turn s s' t act := by
  obtain ⟨_, _, _, _, _, heq⟩ := dispatchError_eq s f k x' err
  replace hworker : s'.worker = s.worker := hworker.trans (by rw [heq])
  replace hhandlers : s'.handlers = s.handlers := hhandlers.trans (by rw [heq])
  obtain ⟨y, htask', ⟨hup, hfailed, n, hn, hstatus, hname⟩ | ⟨-, hsame, hn⟩⟩ :=
    dispatchError_outcome s f k x' err
  · rw [← hgives, if_pos hup] at hgiven
    rw [htask'] at htask
    rw [hn] at hnotifiers
    by_cases hk : t = k
    · subst hk
      refine .gaveUp hgiven (by rw [hold]; rfl) ?_ (by rw [decided, decided, hworker]) ?_
      · rw [statusOf, htask, Function.update_self, Option.map_some, hfailed]
      · rintro r (hbuffer | ⟨hr, ⟨m, hm, rfl⟩ | ⟨d, hd, hreport⟩⟩)
        · exact Or.inl (Or.inl (hworker ▸ hbuffer))
        · rw [hnotifiers] at hm
          rcases List.mem_cons.mp hm with rfl | hm
          · exact Or.inr hstatus
          · exact Or.inl (Or.inr ⟨hr, Or.inl ⟨m, hm, rfl⟩⟩)
        · exact Or.inl (Or.inr ⟨hr, Or.inr ⟨d, hhandlers ▸ hd, hreport⟩⟩)
    · refine .same ?_ (by rw [decided, decided, hworker]) (inFlight_of_parts (by rw [hworker])
        (fun m hm hmt ↦ ?_) fun d hd _ hr _ ↦ ⟨d, hhandlers ▸ hd, hr⟩)
      · rw [statusOf, statusOf, htask, Function.update_of_ne hk]
      · rw [hnotifiers] at hm
        rcases List.mem_cons.mp hm with rfl | hm
        · exact absurd (hmt.symm.trans hname) hk
        · exact Or.inl ⟨m, hm, rfl⟩
  · exact .of_write hold (htask.trans htask') (hsame.trans hkeeps) hworker (hnotifiers.trans hn)
      fun d hd _ hr _ ↦ ⟨d, hhandlers ▸ hd, hr⟩

/-- A new goroutine has no result in its channel. -/
theorem inFlight_of_create {k : String}
    (hworker : s'.worker = Function.update s.worker k { pc := .created })
    (hnotifiers : s'.notifiers = s.notifiers) (hhandlers : s'.handlers = s.handlers)
    (r : TaskCompletionResult) (h : s'.InFlight t r) : s.InFlight t r := by
  rcases h with hbuffer | ⟨hr, ⟨n, hn, hres⟩ | ⟨d, hd, hreport⟩⟩
  · rw [hworker] at hbuffer
    by_cases hk : t = k
    · rw [hk, Function.update_self] at hbuffer
      exact absurd hbuffer (by simp)
    · rw [Function.update_of_ne hk] at hbuffer
      exact Or.inl hbuffer
  · exact Or.inr ⟨hr, Or.inl ⟨n, hnotifiers ▸ hn, hres⟩⟩
  · exact Or.inr ⟨hr, Or.inr ⟨d, hhandlers ▸ hd, hreport⟩⟩

/-- The turn of a new task. -/
theorem Turn.of_create {k : String} {task : RunningTask} (hact : act.creates = true)
    (hnew : s.task k = none) (hopen : task.status.isTerminal = false)
    (htask : s'.task = Function.update s.task k (some task))
    (hworker : s'.worker = Function.update s.worker k { pc := .created })
    (hnotifiers : s'.notifiers = s.notifiers) (hhandlers : s'.handlers = s.handlers) :
    Turn s s' t act := by
  have hin := inFlight_of_create (t := t) hworker hnotifiers hhandlers
  by_cases hk : t = k
  · subst hk
    refine .created hact hnew hopen ?_ ?_ hin
    · rw [statusOf, htask, Function.update_self, Option.map_some]
    · rw [decided, hworker, Function.update_self]
      rfl
  · refine .same ?_ ?_ hin
    · rw [statusOf, statusOf, htask, Function.update_of_ne hk]
    · rw [decided, decided, hworker, Function.update_of_ne hk]

/-! ## Every step -/

/-- **What a step means for a task.** -/
theorem turn_of_step (hs : step s act = some s') (t : String) : Turn s s' t act := by
  have hkept : ∀ h ∈ s.handlers, ∀ r ∈ h.report, r.taskID = t →
      ∃ h' ∈ s.handlers, h'.report = some r := fun h hh r hr _ ↦ ⟨h, hh, hr⟩
  cases move_of_step hs with
  | startTask _ hnew => exact .of_create rfl hnew rfl rfl rfl rfl rfl
  | createMultiTask _ hnew => exact .of_create rfl hnew rfl rfl rfl rfl rfl
  | startMultiAgentTask | unlock | drop | expire | proceed | reserved | cancelTask | cancelQueued
  | cancelReturn | panic => exact .of_same rfl rfl rfl rfl
  | heartbeat | dispatchIdleAgents =>
    refine .of_handlers rfl rfl rfl fun h hh r hr hrt ↦ ?_
    rcases List.mem_cons.mp hh with rfl | hh
    · exact absurd hr (by simp)
    · exact hkept h hh r hr hrt
  | @taskStateUpdate now agentID taskID stepID errorMsg state =>
    by_cases hk : taskID = t
    · subst hk
      refine .report rfl rfl ?_
      rintro r (hbuffer | ⟨hr, hnotifier | ⟨h, hh, hreport⟩⟩)
      · exact Or.inl (Or.inl hbuffer)
      · exact Or.inl (Or.inr ⟨hr, Or.inl hnotifier⟩)
      · rcases List.mem_cons.mp hh with rfl | hh
        · exact Or.inr hreport
        · exact Or.inl (Or.inr ⟨hr, Or.inr ⟨h, hh, hreport⟩⟩)
    · refine .of_handlers rfl rfl rfl fun h hh r hr hrt ↦ ?_
      rcases List.mem_cons.mp hh with rfl | hh
      · exact absurd ((taskID_of_terminalReport hr).symm.trans hrt) hk
      · exact hkept h hh r hr hrt
  | acknowledge hmem => exact .of_acknowledge hmem _
  | @observed _ d hmem | @dispatch _ d hmem =>
    have hreports := report_of_afterObserve (t := t) hmem
    obtain ⟨_, heq⟩ := afterObserve_eq s d
    rw [heq] at hreports ⊢
    exact .of_handlers rfl rfl rfl hreports
  | idle hmem | complete hmem =>
    exact .of_handlers rfl rfl rfl (report_of_moveHandler hmem _)
  | @notify _ d result hmem hreport =>
    refine .of_parts rfl rfl (fun n hn _ ↦ ?_) fun h hh r hr _ ↦ ⟨h, List.mem_of_mem_erase hh, hr⟩
    rcases List.mem_cons.mp hn with rfl | hn
    · exact Or.inr ⟨d, hmem, hreport⟩
    · exact Or.inl ⟨n, hn, rfl⟩
  | @expireLease now f k task hu =>
    by_cases hk : t = k
    · subst hk
      refine .expired hu ?_ rfl
        (inFlight_of_parts rfl (fun n hn _ ↦ Or.inl ⟨n, hn, rfl⟩) hkept)
      simp [statusOf, toPhase, setTask]
    · refine .same ?_ rfl (inFlight_of_parts rfl (fun n hn _ ↦ Or.inl ⟨n, hn, rfl⟩) hkept)
      simp [statusOf, toPhase, setTask, Function.update_of_ne hk]
  | notReady hu | refused hu | started hu | send hu =>
    exact .of_write (underDispatch_eq_some hu).2.2.1 rfl rfl rfl rfl hkept
  | @reserveError f k err task hu =>
    refine .of_dispatchError task (underDispatch_eq_some hu).2.2.1 rfl rfl ?_ rfl rfl rfl rfl
    rw [givenUp, hu]
    rfl
  | @sendError now f k err task hu =>
    refine .of_dispatchError { task with dispatchLeaseUntil := none, dispatchSent := false }
      (underDispatch_eq_some hu).2.2.1 rfl rfl ?_ rfl rfl rfl rfl
    rw [givenUp, hu]
    rfl
  | registerChannel hpc | unregisterChannel hpc | closeChannel hpc | completeExecution _ hpc
  | removeTask _ _ hpc => exact .of_worker rfl rfl rfl (by simp [decided, hpc]) rfl rfl
  | @receive k task task' result htask hbuffer hpc _ _ hstatus =>
    by_cases hk : t = k
    · subst hk
      refine .received (Or.inl hbuffer) (by simp [htask]) (by simp [decided, hpc]) ?_ ?_
      · simp [statusOf, setWorker, setTask, hstatus]
      · simp [decided, setWorker]
    · refine .same ?_ ?_ (inFlight_of_parts ?_ (fun n hn _ ↦ Or.inl ⟨n, hn, rfl⟩) hkept)
      · simp [statusOf, setWorker, setTask, Function.update_of_ne hk]
      · simp [decided, setWorker, setTask, Function.update_of_ne hk]
      · simp [setWorker, setTask, Function.update_of_ne hk]
  | @contextDone k task htask hpc =>
    by_cases hk : t = k
    · subst hk
      refine .cancelled (by simp [htask]) (by simp [decided, hpc]) ?_ ?_
      · simp [statusOf, setWorker, setTask]
      · simp [decided, setWorker]
    · refine .same ?_ ?_ (inFlight_of_parts ?_ (fun n hn _ ↦ Or.inl ⟨n, hn, rfl⟩) hkept)
      · simp [statusOf, setWorker, setTask, Function.update_of_ne hk]
      · simp [decided, setWorker, setTask, Function.update_of_ne hk]
      · simp [setWorker, setTask, Function.update_of_ne hk]
  | cancelContext => exact .of_worker rfl rfl rfl rfl rfl rfl
  | @found n hmem =>
    refine .of_parts rfl rfl (fun m hm _ ↦ ?_) hkept
    rcases List.mem_cons.mp hm with rfl | hm
    · exact Or.inl ⟨n, hmem, rfl⟩
    · exact Or.inl ⟨m, List.mem_of_mem_erase hm, rfl⟩
  | absent | full =>
    exact .of_parts rfl rfl (fun m hm _ ↦ Or.inl ⟨m, List.mem_of_mem_erase hm, rfl⟩) hkept
  | @deliver n hmem =>
    refine .same rfl ?_ ?_
    · by_cases hk : t = n.result.taskID
      · subst hk
        simp [decided]
      · simp [decided, Function.update_of_ne hk]
    · rintro r (hbuffer | ⟨hr, ⟨m, hm, hres⟩ | hhandler⟩)
      · dsimp only at hbuffer
        by_cases hk : t = n.result.taskID
        · rw [hk, Function.update_self] at hbuffer
          obtain rfl := Option.some.inj hbuffer
          exact Or.inr ⟨hk.symm, Or.inl ⟨n, hmem, rfl⟩⟩
        · rw [Function.update_of_ne hk] at hbuffer
          exact Or.inl hbuffer
      · exact Or.inr ⟨hr, Or.inl ⟨m, List.mem_of_mem_erase hm, hres⟩⟩
      · exact Or.inr ⟨hr, Or.inr hhandler⟩

end Executor
end FleetServer
