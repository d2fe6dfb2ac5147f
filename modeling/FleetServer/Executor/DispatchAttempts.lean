import FleetServer.Executor.CancelSent

/-!
# When a task is given up

`dispatchNextQueuedTask` gives a task up once its dispatch has failed `maxDispatchAttempts` times
over `maxDispatchErrorWindow`.  The attempts are counted when the execution is started in the
manager, the time runs from the first error since a dispatch that returned none.  So an attempt that
fails before the execution is started is not counted, and a task whose attempts all do is never
given up; `given_up` is about the others.
-/

set_option autoImplicit false

namespace FleetServer
namespace Executor

open GuardedRun SchedulerState State State.Manager

/-! ## The attempts -/

/-- The end of a call of `dispatchQueuedTaskLocked`: for which task, in a call of
`dispatchNextQueuedTask` from when, and whether it returned an error. -/
structure AttemptEnd where
  taskID : String
  now : ℕ
  failed : Bool
  deriving DecidableEq, Repr

/-- The attempt that an action ends. -/
def attemptEnd (s : SchedulerState) : Action → Option AttemptEnd
  | .reserve .ready => none
  | .reserve .notReady => (s.underDispatch .reserve).map fun (f, taskID, _) ↦ ⟨taskID, f.now, false⟩
  | .reserve (.error _) => (s.underDispatch .reserve).map fun (f, taskID, _) ↦ ⟨taskID, f.now, true⟩
  | .tryStart now => (s.underDispatch .tryStart).bind fun (f, taskID, task) ↦
    if (s.manager.tryStartExecution now task.agentID task.id task.entryStepID task.behaviorTreeID
        task.reservedZones task.preconditions).2.isSome then some ⟨taskID, f.now, false⟩
    else none
  | .sendStartTask _ failure => (s.underDispatch .send).map fun (f, taskID, _) ↦
    ⟨taskID, f.now, failure.isSome⟩
  | _ => none

/-- The scheduler with the times of the attempts that have failed since the last one that did not,
for one task, the latest first. -/
structure AttemptRun where
  sched : SchedulerState
  errors : List ℕ := []

def errorsAfter (t : String) (errors : List ℕ) : Option AttemptEnd → List ℕ
  | some attempt =>
    if attempt.taskID = t then (if attempt.failed then attempt.now :: errors else []) else errors
  | none => errors

namespace AttemptRun

def step (t : String) (r : AttemptRun) (act : Action) : Option AttemptRun :=
  (Executor.step r.sched act).map fun s ↦
    { sched := s, errors := errorsAfter t r.errors (attemptEnd r.sched act) }

def Initial (r : AttemptRun) : Prop := Executor.Initial r.sched ∧ r.errors = []

end AttemptRun

/-- Enough attempts have failed, and the last one long enough after the first. -/
def Due (errors : List ℕ) : Prop :=
  maxDispatchAttempts ≤ errors.length ∧
    maxDispatchErrorWindow ≤ errors.head?.getD 0 - errors.getLast?.getD 0

instance (errors : List ℕ) : Decidable (Due errors) :=
  inferInstanceAs (Decidable (_ ∧ _))

/-- An attempt for the task fails before the execution is started only when enough attempts have
been counted. -/
def CountsFailures (t : String) (r : AttemptRun) : Action → Prop
  | .reserve (.error _) => ∀ f task, r.sched.underDispatch .reserve = some (f, t, task) →
    maxDispatchAttempts ≤ task.dispatchAttempts
  | _ => True

variable {s s' : SchedulerState} {act : Action} {r r' : AttemptRun} {t : String}

/-! ## What a step does to the attempts of a task -/

/-- The task is the one that is sent next. -/
def SendsNext (s : SchedulerState) (t : String) : Prop :=
  ∃ f rest, s.dispatching = some f ∧ f.phase = .send ∧ s.taskQueues f.agentID = t :: rest

/-- The count and the first error of a task are as they were, and a task that is over is still over
if it is in no queue. -/
def SameAttempts (s : SchedulerState) (t : String) (task task' : RunningTask) : Prop :=
  task'.dispatchAttempts = task.dispatchAttempts ∧
    task'.dispatchFirstError = task.dispatchFirstError ∧
    ((∀ b, t ∉ s.taskQueues b) → task.status.isTerminal = true → task'.status.isTerminal = true)

/-- A step that is not part of an attempt for the task. -/
structure Aside (s s' : SchedulerState) (act : Action) (t : String) : Prop where
  errors : ∀ errors, errorsAfter t errors (attemptEnd s act) = errors
  record : ∀ task', s'.task t = some task' →
    (∃ task, s.task t = some task ∧ SameAttempts s t task task') ∨
      s.task t = none ∧ task'.dispatchAttempts = 0 ∧ task'.dispatchFirstError = none
  sending : SendsNext s' t → SendsNext s t

theorem SameAttempts.refl (s : SchedulerState) (t : String) (task : RunningTask) :
    SameAttempts s t task task := ⟨rfl, rfl, fun _ ↦ id⟩

/-- A step that writes at most to one task, and nothing of its attempts. -/
theorem aside_of_write {k : String} {x y : RunningTask}
    (hattempt : attemptEnd s act = none) (htask : s'.task = Function.update s.task k (some y))
    (hx : s.task k = some x) (hsame : SameAttempts s k x y)
    (hsending : SendsNext s' t → SendsNext s t) : Aside s s' act t := by
  refine ⟨fun errors ↦ by rw [hattempt]; rfl, fun task' htask' ↦ .inl ?_, hsending⟩
  rw [htask] at htask'
  by_cases hk : t = k
  · subst hk
    rw [Function.update_self] at htask'
    obtain rfl := Option.some.inj htask'
    exact ⟨x, hx, hsame⟩
  · rw [Function.update_of_ne hk] at htask'
    exact ⟨task', htask', .refl s t task'⟩

theorem aside_of_same (hattempt : attemptEnd s act = none) (htask : s'.task = s.task)
    (hsending : SendsNext s' t → SendsNext s t) : Aside s s' act t :=
  ⟨fun errors ↦ by rw [hattempt]; rfl,
    fun task' htask' ↦ .inl ⟨task', htask ▸ htask', .refl s t task'⟩, hsending⟩

theorem aside_of_create {k : String} {y : RunningTask} (hattempt : attemptEnd s act = none)
    (htask : s'.task = Function.update s.task k (some y)) (hnew : s.task k = none)
    (hnone : y.dispatchAttempts = 0 ∧ y.dispatchFirstError = none)
    (hsending : SendsNext s' t → SendsNext s t) : Aside s s' act t := by
  refine ⟨fun errors ↦ by rw [hattempt]; rfl, fun task' htask' ↦ ?_, hsending⟩
  rw [htask] at htask'
  by_cases hk : t = k
  · subst hk
    rw [Function.update_self] at htask'
    obtain rfl := Option.some.inj htask'
    exact .inr ⟨hnew, hnone⟩
  · rw [Function.update_of_ne hk] at htask'
    exact .inl ⟨task', htask', .refl s t task'⟩

theorem not_sendsNext_of_free (h : s'.dispatching = none) : ¬SendsNext s' t := by
  rintro ⟨f, rest, hf, -⟩
  rw [h] at hf
  exact absurd hf (by simp)

theorem not_sendsNext_of_phase {f : Frame} (h : s'.dispatching = some f)
    (hphase : f.phase ≠ .send) : ¬SendsNext s' t := by
  rintro ⟨g, rest, hg, hsend, -⟩
  rw [h] at hg
  exact hphase (Option.some.inj hg ▸ hsend)

theorem SendsNext.of_same (hdispatching : s'.dispatching = s.dispatching)
    (hqueues : s'.taskQueues = s.taskQueues) (h : SendsNext s' t) : SendsNext s t := by
  obtain ⟨f, rest, hf, hphase, hqueue⟩ := h
  exact ⟨f, rest, hdispatching ▸ hf, hphase, hqueues ▸ hqueue⟩

/-- What a failed dispatch makes of its task, and where it leaves it. -/
theorem dispatchError_spec (s : SchedulerState) (f : Frame) (k : String) (task : RunningTask)
    (err : String) :
    ∃ task', (s.dispatchError f k task err).task = Function.update s.task k (some task') ∧
      task'.dispatchAttempts = task.dispatchAttempts ∧
      task'.dispatchFirstError = some (task.dispatchFirstError.getD f.now) ∧
      task'.status = (if maxDispatchAttempts ≤ task.dispatchAttempts ∧
        maxDispatchErrorWindow ≤ f.now - task.dispatchFirstError.getD f.now then .failed
        else task.status) ∧
      (s.dispatchError f k task err).taskQueues =
        (if maxDispatchAttempts ≤ task.dispatchAttempts ∧
          maxDispatchErrorWindow ≤ f.now - task.dispatchFirstError.getD f.now then
          (s.popQueue f.agentID).taskQueues else s.taskQueues) ∧
      ¬SendsNext (s.dispatchError f k task err) t := by
  simp only [dispatchError]
  split
  · exact ⟨_, rfl, rfl, rfl, rfl, rfl, not_sendsNext_of_phase (f := { f with phase := .scan }) rfl
      (by simp)⟩
  · exact ⟨_, rfl, rfl, rfl, rfl, rfl, not_sendsNext_of_free rfl⟩

/-- What an error makes of the task at the head of the queue of a frame. -/
structure Fails (s s' : SchedulerState) (f : Frame) (t : String) (task : RunningTask) : Prop where
  queued : ∃ rest, s.taskQueues f.agentID = t :: rest
  record : ∃ task', s'.task t = some task' ∧ task'.dispatchAttempts = task.dispatchAttempts ∧
    task'.dispatchFirstError = some (task.dispatchFirstError.getD f.now) ∧
    (maxDispatchAttempts ≤ task.dispatchAttempts →
      maxDispatchErrorWindow ≤ f.now - task.dispatchFirstError.getD f.now →
        task'.status = .failed ∧ s'.taskQueues = (s.popQueue f.agentID).taskQueues)
  sending : ¬SendsNext s' t

/-- The task may have been written to since, but not its attempts. -/
theorem fails_of_dispatchError {f : Frame} {task x : RunningTask} {err : String}
    (hattempts : x.dispatchAttempts = task.dispatchAttempts)
    (hfirst : x.dispatchFirstError = task.dispatchFirstError)
    (hqueue : ∃ rest, s.taskQueues f.agentID = t :: rest)
    (htask : s'.task = (s.dispatchError f t x err).task)
    (hqueues : s'.taskQueues = (s.dispatchError f t x err).taskQueues)
    (hdispatching : s'.dispatching = (s.dispatchError f t x err).dispatching) :
    Fails s s' f t task := by
  obtain ⟨task', htask', hcount, herror, hstatus, hpop, hsending⟩ :=
    dispatchError_spec (t := t) s f t x err
  rw [hattempts, hfirst] at hstatus hpop
  refine ⟨hqueue, ⟨task', ?_, hcount.trans hattempts, hfirst ▸ herror, fun hmany hlong ↦ ⟨?_, ?_⟩⟩,
    fun h ↦ hsending (h.of_same hdispatching hqueues)⟩
  · rw [htask, htask', Function.update_self]
  · rw [hstatus, if_pos ⟨hmany, hlong⟩]
  · rw [hqueues, hpop, if_pos ⟨hmany, hlong⟩]

/-- What a step is for a task: it starts its execution, ends an attempt for it without an error or
with one, or is no part of an attempt for it. -/
inductive AttemptStep (s s' : SchedulerState) (act : Action) (t : String) : Prop
  | aside (h : Aside s s' act t)
  | started {f : Frame} {task task' : RunningTask}
      (hu : s.underDispatch .tryStart = some (f, t, task)) (hattempt : attemptEnd s act = none)
      (htask' : s'.task t = some task')
      (hcount : task'.dispatchAttempts = task.dispatchAttempts + 1)
      (hfirst : task'.dispatchFirstError = task.dispatchFirstError)
  | returned {now : ℕ} {task' : RunningTask}
      (hattempt : attemptEnd s act = some ⟨t, now, false⟩) (htask' : s'.task t = some task')
      (hfirst : task'.dispatchFirstError = none) (hsending : ¬SendsNext s' t)
  | failed {f : Frame} {phase : Phase} {task : RunningTask}
      (hu : s.underDispatch phase = some (f, t, task))
      (hphase : phase = .send ∨ phase = .reserve ∧ ∃ err, act = .reserve (.error err))
      (hattempt : attemptEnd s act = some ⟨t, f.now, true⟩) (h : Fails s s' f t task)

/-- An attempt that ends for another task. -/
theorem aside_of_other {k : String} {now : ℕ} {failed : Bool} {y : RunningTask} (hk : t ≠ k)
    (hattempt : attemptEnd s act = some ⟨k, now, failed⟩)
    (htask : s'.task = Function.update s.task k (some y)) (hsending : ¬SendsNext s' t) :
    Aside s s' act t := by
  refine ⟨fun errors ↦ ?_, fun task' htask' ↦ .inl ⟨task', ?_, .refl s t task'⟩,
    fun h ↦ absurd h hsending⟩
  · rw [hattempt, errorsAfter, if_neg hk.symm]
  · rwa [htask, Function.update_of_ne hk] at htask'

/-- A result on the channel leaves the attempts alone, and the task over. -/
theorem sameAttempts_receive {k : String} {task task' : RunningTask}
    (h : s.receive k = some s') (htask : s.task k = some task) (htask' : s'.task k = some task') :
    SameAttempts s k task task' := by
  rw [SchedulerState.receive, htask] at h
  split at h
  · rename_i result heq _
    obtain rfl := Option.some.inj heq
    split at h
    · obtain rfl := Option.some.inj h
      simp only [SchedulerState.setWorker, SchedulerState.setTask, Function.update_self,
        Option.some.injEq] at htask'
      rw [← htask']
      exact ⟨rfl, rfl, fun _ _ ↦ result.terminal⟩
    · exact absurd h (by simp)
  · exact absurd h (by simp)

theorem attemptStep_of_step (hs : step s act = some s') (t : String) : AttemptStep s s' act t := by
  cases move_of_step hs with
  | startTask hfree hnew =>
    exact .aside (aside_of_create rfl rfl hnew ⟨rfl, rfl⟩
      fun h ↦ absurd h (not_sendsNext_of_free hfree))
  | createMultiTask hfree hnew =>
    exact .aside (aside_of_create rfl rfl hnew ⟨rfl, rfl⟩
      fun h ↦ absurd h (not_sendsNext_of_free hfree))
  | @acknowledge _ d _ _ hfree =>
    have hsending : ¬SendsNext ((s.acknowledgeQueuedTask d.agentID
        (GoString.trimSpace d.currentTaskID)).moveHandler d .check) t := by
      obtain ⟨_, _, heq⟩ :=
        acknowledgeQueuedTask_eq s d.agentID (GoString.trimSpace d.currentTaskID)
      rw [heq]
      exact not_sendsNext_of_free hfree
    rcases acknowledgeQueuedTask_cases s d.agentID (GoString.trimSpace d.currentTaskID) with
      ⟨-, heq⟩ | ⟨-, heq | ⟨x, hx, heq⟩⟩ <;> have heq := congrArg SchedulerState.task heq
    · exact .aside (aside_of_same rfl heq fun h ↦ absurd h hsending)
    · exact .aside (aside_of_same rfl heq fun h ↦ absurd h hsending)
    · exact .aside (aside_of_write rfl heq hx ⟨rfl, rfl, fun _ ↦ id⟩ fun h ↦ absurd h hsending)
  | @observed _ d =>
    obtain ⟨_, heq⟩ := afterObserve_eq s d
    rw [heq]
    exact .aside (aside_of_same rfl rfl fun h ↦ h.of_same rfl rfl)
  | @dispatch _ d =>
    obtain ⟨_, heq⟩ := afterObserve_eq s d
    rw [heq]
    exact .aside (aside_of_same rfl rfl fun h ↦
      absurd h (not_sendsNext_of_phase rfl (by simp)))
  | unlock =>
    exact .aside (aside_of_same rfl rfl fun h ↦ absurd h (not_sendsNext_of_free rfl))
  | @drop f k rest hf hphase =>
    exact .aside (aside_of_same rfl rfl fun h ↦
      absurd h (not_sendsNext_of_phase (f := f) hf (by simp [hphase])))
  | expire | proceed | reserved =>
    exact .aside (aside_of_same rfl rfl fun h ↦
      absurd h (not_sendsNext_of_phase rfl (by simp)))
  | @expireLease _ f k x hu =>
    obtain ⟨-, -, hx, rest, hqueue⟩ := underDispatch_eq_some hu
    exact .aside (aside_of_write rfl rfl hx
      ⟨rfl, rfl, fun hout ↦ absurd (hqueue ▸ List.mem_cons_self) (hout f.agentID)⟩
      fun h ↦ absurd h (not_sendsNext_of_phase rfl (by simp)))
  | @notReady f k x hu =>
    have hattempt : attemptEnd s (.reserve .notReady) = some ⟨k, f.now, false⟩ := by
      rw [attemptEnd, hu]
      rfl
    by_cases hk : t = k
    · subst hk
      exact .returned hattempt (Function.update_self ..) rfl (not_sendsNext_of_free rfl)
    · exact .aside (aside_of_other hk hattempt rfl (not_sendsNext_of_free rfl))
  | @refused now f k x manager err hu hstart =>
    have hattempt : attemptEnd s (.tryStart now) = some ⟨k, f.now, false⟩ := by
      rw [attemptEnd, hu, Option.bind_some]
      dsimp only
      rw [hstart]
      rfl
    by_cases hk : t = k
    · subst hk
      exact .returned hattempt (Function.update_self ..) rfl (not_sendsNext_of_free rfl)
    · exact .aside (aside_of_other hk hattempt rfl (not_sendsNext_of_free rfl))
  | @started now f k x manager hu hstart =>
    have hattempt : attemptEnd s (.tryStart now) = none := by
      rw [attemptEnd, hu, Option.bind_some]
      dsimp only
      rw [hstart]
      rfl
    by_cases hk : t = k
    · subst hk
      exact .started hu hattempt (Function.update_self ..) rfl rfl
    · refine .aside ⟨fun errors ↦ by rw [hattempt]; rfl, fun task' htask' ↦ .inl ⟨task', ?_,
        .refl s t task'⟩, fun h ↦ ?_⟩
      · exact (Function.update_of_ne hk _ _).symm.trans htask'
      · obtain ⟨-, -, -, rest, hqueue⟩ := underDispatch_eq_some hu
        obtain ⟨g, rest', hg, -, hqueue'⟩ := h
        obtain rfl : { f with phase := Phase.send } = g := Option.some.inj hg
        exact absurd (List.cons.inj (hqueue'.symm.trans hqueue)).1 hk
  | @send now f k x hu =>
    have hattempt : attemptEnd s (.sendStartTask now none) = some ⟨k, f.now, false⟩ := by
      rw [attemptEnd, hu]
      rfl
    by_cases hk : t = k
    · subst hk
      exact .returned hattempt (Function.update_self ..) rfl (not_sendsNext_of_free rfl)
    · exact .aside (aside_of_other hk hattempt rfl (not_sendsNext_of_free rfl))
  | @reserveError f k err x hu =>
    have hattempt : attemptEnd s (.reserve (.error err)) = some ⟨k, f.now, true⟩ := by
      rw [attemptEnd, hu]
      rfl
    by_cases hk : t = k
    · subst hk
      exact .failed hu (.inr ⟨rfl, err, rfl⟩) hattempt
        (fails_of_dispatchError rfl rfl (underDispatch_eq_some hu).2.2.2 rfl rfl rfl)
    · obtain ⟨y, hy, -, -, -, -, hsending⟩ := dispatchError_spec (t := t) s f k x err
      exact .aside (aside_of_other hk hattempt hy hsending)
  | @sendError now f k err x hu =>
    have hattempt : attemptEnd s (.sendStartTask now (some err)) = some ⟨k, f.now, true⟩ := by
      rw [attemptEnd, hu]
      rfl
    by_cases hk : t = k
    · subst hk
      exact .failed hu (.inl rfl) hattempt
        (fails_of_dispatchError (x := { x with dispatchLeaseUntil := none, dispatchSent := false })
          rfl rfl (underDispatch_eq_some hu).2.2.2 rfl rfl rfl)
    · obtain ⟨y, hy, -, -, -, -, hsending⟩ := dispatchError_spec (t := t) s f k
        { x with dispatchLeaseUntil := none, dispatchSent := false }
        ("send start_task failed for " ++ k ++ ": " ++ err)
      exact .aside (aside_of_other hk hattempt hy fun h ↦ hsending (h.of_same rfl rfl))
  | @receive k x y result hx =>
    exact .aside (aside_of_write rfl rfl hx
      (sameAttempts_receive (step_eq_some hs).2 hx (Function.update_self ..))
      fun h ↦ h.of_same rfl rfl)
  | contextDone hx =>
    exact .aside (aside_of_write rfl rfl hx ⟨rfl, rfl, fun _ _ ↦ rfl⟩ fun h ↦ h.of_same rfl rfl)
  | removeTask hfree | cancelQueued hfree =>
    exact .aside (aside_of_same rfl rfl fun h ↦ absurd h (not_sendsNext_of_free hfree))
  | _ => exact .aside (aside_of_same rfl rfl fun h ↦ h.of_same rfl rfl)

/-! ## The invariant -/

theorem not_due_nil : ¬Due [] := by decide

structure AttemptInv (t : String) (r : AttemptRun) : Prop where
  shape : QueueShape r.sched
  untouched : r.sched.task t = none → r.errors = []
  first : ∀ task, r.sched.task t = some task → task.dispatchFirstError = r.errors.getLast?
  counted : ∀ task, r.sched.task t = some task →
    min r.errors.length maxDispatchAttempts ≤ task.dispatchAttempts
  /-- The attempt under way is counted already. -/
  sending : SendsNext r.sched t → ∀ task, r.sched.task t = some task →
    min (r.errors.length + 1) maxDispatchAttempts ≤ task.dispatchAttempts
  ended : Due r.errors → (∃ task, r.sched.task t = some task ∧ task.status.isTerminal = true) ∧
    ∀ b, t ∉ r.sched.taskQueues b

theorem attemptInv_init (h : r.Initial) : AttemptInv t r := by
  obtain ⟨hsched, herrors⟩ := h
  have hshape := queueShape_init hsched
  obtain ⟨manager, hsched⟩ := hsched
  refine ⟨hshape, fun _ ↦ herrors, ?_, ?_, ?_, fun hdue ↦ ?_⟩
  · simp [hsched]
  · simp [hsched]
  · simp [hsched]
  · rw [herrors] at hdue
    exact absurd hdue not_due_nil

/-- The task at the head of a queue has not been given up. -/
theorem AttemptInv.not_due (h : AttemptInv t r) {b : String} {rest : List String}
    (hqueue : r.sched.taskQueues b = t :: rest) : ¬Due r.errors :=
  fun hdue ↦ (h.ended hdue).2 b (hqueue ▸ List.mem_cons_self)

theorem AttemptInv.aside (h : AttemptInv t r) (hs : Executor.step r.sched act = some s')
    (haside : Aside r.sched s' act t) : AttemptInv t ⟨s', r.errors⟩ := by
  have hshape := queueShape_step h.shape hs
  refine ⟨hshape, fun hnone ↦ h.untouched ?_, fun task' htask' ↦ ?_, fun task' htask' ↦ ?_,
    fun hsending task' htask' ↦ ?_, fun hdue ↦ ?_⟩
  · by_contra hsome
    exact exists_of_step hsome hs hnone
  · rcases haside.record task' htask' with ⟨task, htask, -, hfirst, -⟩ | ⟨hnone, -, hfirst⟩
    · rw [hfirst, h.first task htask]
    · rw [hfirst, h.untouched hnone]
      rfl
  · rcases haside.record task' htask' with ⟨task, htask, hcount, -⟩ | ⟨hnone, -⟩
    · rw [hcount]
      exact h.counted task htask
    · rw [h.untouched hnone]
      exact Nat.zero_le _
  · rcases haside.record task' htask' with ⟨task, htask, hcount, -⟩ | ⟨hnone, -⟩
    · rw [hcount]
      exact h.sending (haside.sending hsending) task htask
    · -- what is in a queue exists
      obtain ⟨f, rest, -, -, hqueue⟩ := haside.sending hsending
      obtain ⟨x, hx, -⟩ := h.shape.owner f.agentID t (hqueue ▸ List.mem_cons_self)
      exact absurd (hnone.symm.trans hx) (by simp)
  · obtain ⟨⟨task, htask, hterminal⟩, hout⟩ := h.ended hdue
    refine ⟨?_, fun b hmem ↦
      hout b (mem_queue_of_move (move_of_step hs) (by rw [htask]; simp) hmem)⟩
    obtain ⟨task', htask', -⟩ := task_of_step htask hs
    rcases haside.record task' htask' with ⟨x, hx, -, -, hkept⟩ | ⟨hnone, -⟩
    · obtain rfl := Option.some.inj (htask.symm.trans hx)
      exact ⟨task', htask', hkept hout hterminal⟩
    · exact absurd (hnone.symm.trans htask) (by simp)

/-- **A failed attempt that makes the task due is its last**: the task has failed, and is in no
queue. -/
theorem AttemptInv.failed (h : AttemptInv t r) (hs : Executor.step r.sched act = some s')
    (hok : CountsFailures t r act) {f : Frame} {phase : Phase} {task : RunningTask}
    (hu : r.sched.underDispatch phase = some (f, t, task))
    (hphase : phase = .send ∨ phase = .reserve ∧ ∃ err, act = .reserve (.error err))
    (hfails : Fails r.sched s' f t task) :
    AttemptInv t ⟨s', f.now :: r.errors⟩ ∧ (Due (f.now :: r.errors) →
      (∃ task', s'.task t = some task' ∧ task'.status = .failed) ∧ ∀ b, t ∉ s'.taskQueues b) := by
  obtain ⟨hf, hfphase, htask, rest, hqueue⟩ := underDispatch_eq_some hu
  obtain ⟨task', htask', hattempts, hfirst, hover⟩ := hfails.record
  -- the attempt has been counted, or enough others have
  have hcount : min (r.errors.length + 1) maxDispatchAttempts ≤ task.dispatchAttempts := by
    rcases hphase with rfl | ⟨rfl, err, rfl⟩
    · exact h.sending ⟨f, rest, hf, hfphase, hqueue⟩ task htask
    · exact (Nat.min_le_right _ _).trans (hok f task hu)
  have hfirst' : task'.dispatchFirstError = (f.now :: r.errors).getLast? := by
    rw [hfirst, h.first task htask, List.getLast?_cons]
  have hout : Due (f.now :: r.errors) →
      (∃ task', s'.task t = some task' ∧ task'.status = .failed) ∧ ∀ b, t ∉ s'.taskQueues b := by
    rintro ⟨hmany, hlong⟩
    rw [← hfirst', hfirst] at hlong
    have hmany' : maxDispatchAttempts ≤ task.dispatchAttempts := by
      rw [List.length_cons] at hmany
      omega
    obtain ⟨hfailed, hpop⟩ := hover hmany' hlong
    refine ⟨⟨task', htask', hfailed⟩, fun b hmem ↦ ?_⟩
    obtain ⟨x, hx, hagent⟩ := h.shape.owner f.agentID t (hqueue ▸ List.mem_cons_self)
    rw [hpop, popQueue_eq_removeQueued hqueue, ← hagent] at hmem
    exact h.shape.not_mem_removeQueued hx b hmem
  refine ⟨⟨queueShape_step h.shape hs, fun hnone ↦ ?_, fun x hx ↦ ?_, fun x hx ↦ ?_,
    fun hsending ↦ absurd hsending hfails.sending, fun hdue ↦ ?_⟩, hout⟩
  · exact absurd (hnone.symm.trans htask') (by simp)
  · obtain rfl := Option.some.inj (htask'.symm.trans hx)
    exact hfirst'
  · obtain rfl := Option.some.inj (htask'.symm.trans hx)
    rw [hattempts, List.length_cons]
    exact hcount
  · obtain ⟨⟨x, hx, hfailed⟩, hnot⟩ := hout hdue
    exact ⟨⟨x, hx, by rw [hfailed]; rfl⟩, hnot⟩

theorem AttemptInv.started (h : AttemptInv t r) (hs : Executor.step r.sched act = some s')
    {f : Frame} {task task' : RunningTask}
    (hu : r.sched.underDispatch .tryStart = some (f, t, task)) (htask' : s'.task t = some task')
    (hcount : task'.dispatchAttempts = task.dispatchAttempts + 1)
    (hfirst : task'.dispatchFirstError = task.dispatchFirstError) :
    AttemptInv t ⟨s', r.errors⟩ := by
  obtain ⟨-, -, htask, rest, hqueue⟩ := underDispatch_eq_some hu
  have hcounted := h.counted task htask
  refine ⟨queueShape_step h.shape hs, fun hnone ↦ ?_, fun x hx ↦ ?_, fun x hx ↦ ?_,
    fun _ x hx ↦ ?_, fun hdue ↦ absurd hdue (h.not_due hqueue)⟩
  · exact absurd (hnone.symm.trans htask') (by simp)
  · obtain rfl := Option.some.inj (htask'.symm.trans hx)
    rw [hfirst, h.first task htask]
  · obtain rfl := Option.some.inj (htask'.symm.trans hx)
    dsimp only
    omega
  · obtain rfl := Option.some.inj (htask'.symm.trans hx)
    dsimp only
    omega

theorem AttemptInv.returned (h : AttemptInv t r) (hs : Executor.step r.sched act = some s')
    {task' : RunningTask} (htask' : s'.task t = some task')
    (hfirst : task'.dispatchFirstError = none) (hsending : ¬SendsNext s' t) :
    AttemptInv t ⟨s', []⟩ := by
  refine ⟨queueShape_step h.shape hs, fun _ ↦ rfl, fun x hx ↦ ?_, fun _ _ ↦ Nat.zero_le _,
    fun hnext ↦ absurd hnext hsending, fun hdue ↦ absurd hdue not_due_nil⟩
  obtain rfl := Option.some.inj (htask'.symm.trans hx)
  exact hfirst

theorem attemptInv_step (h : AttemptInv t r) (hok : CountsFailures t r act)
    (hs : r.step t act = some r') :
    AttemptInv t r' ∧ (¬Due r.errors → Due r'.errors →
      (∃ task, r'.sched.task t = some task ∧ task.status = .failed) ∧
        ∀ b, t ∉ r'.sched.taskQueues b) := by
  obtain ⟨s', hs', rfl⟩ := Option.map_eq_some_iff.mp hs
  cases attemptStep_of_step hs' t with
  | aside haside =>
    rw [haside.errors]
    exact ⟨h.aside hs' haside, fun hnot hdue ↦ absurd hdue hnot⟩
  | started hu hattempt htask' hcount hfirst =>
    rw [hattempt]
    exact ⟨h.started hs' hu htask' hcount hfirst, fun hnot hdue ↦ absurd hdue hnot⟩
  | returned hattempt htask' hfirst hsending =>
    rw [hattempt, errorsAfter, if_pos rfl]
    exact ⟨h.returned hs' htask' hfirst hsending, fun _ hdue ↦ absurd hdue not_due_nil⟩
  | failed hu hphase hattempt hfails =>
    rw [hattempt, errorsAfter, if_pos rfl]
    obtain ⟨hinv, hfailed⟩ := h.failed hs' hok hu hphase hfails
    exact ⟨hinv, fun _ ↦ hfailed⟩

/-! ## Runs -/

/-- **A task whose dispatch has failed often enough and long enough is given up**, in the runs in
which an attempt for it fails before the execution is started only when enough have been counted:
with the last failure the task has failed and is out of its queue, and it stays over and out. -/
theorem given_up
    (hr : Reachable (AttemptRun.step t) (CountsFailures t) AttemptRun.Initial r) :
    (Due r.errors → (∃ task, r.sched.task t = some task ∧ task.status.isTerminal = true) ∧
      ∀ b, t ∉ r.sched.taskQueues b) ∧
    ∀ act r', CountsFailures t r act → r.step t act = some r' → ¬Due r.errors → Due r'.errors →
      (∃ task, r'.sched.task t = some task ∧ task.status = .failed) ∧
        ∀ b, t ∉ r'.sched.taskQueues b := by
  have h : AttemptInv t r := hr.invariant (fun _ ↦ attemptInv_init) fun _ _ _ _ hi hok hs ↦
    (attemptInv_step hi hok hs).1
  exact ⟨h.ended, fun act r' hok hs ↦ (attemptInv_step h hok hs).2⟩

/-! ## A task that cannot be dispatched -/

theorem initial_attemptRun : AttemptRun.Initial { sched := oneRobotScheduler } :=
  ⟨initial_oneRobotScheduler, rfl⟩

/-- The idle robot is given the task, as far as its resources. -/
def tryDispatch (now : ℕ) : List Action :=
  [.dispatchIdleAgents "robot", .handlerStep now ⟨"robot", false, "", none, .dispatch⟩, .scan]

/-- The task cannot be sent. -/
def failingSend (now : ℕ) : List Action :=
  tryDispatch now ++
    [.reserve .ready, .tryStart now, .sendStartTask now (some "agent robot not connected")]

/-- A resource of the task does not exist. -/
def failingReserve (now : ℕ) : List Action :=
  tryDispatch now ++ [.reserve (.error "unknown instance id \"dock\"")]

/-- A task that cannot be sent for a minute is over, and the queue is empty. -/
theorem unsent_given_up : ∃ r,
    Reachable (AttemptRun.step "task") (CountsFailures "task") AttemptRun.Initial r ∧
    Due r.errors ∧ (∃ task, r.sched.task "task" = some task ∧ task.status.isTerminal = true) ∧
    ∀ b, "task" ∉ r.sched.taskQueues b := by
  let acts : List Action :=
    queueTask "task" :: failingSend 0 ++ failingSend (30 * 10 ^ 9) ++ failingSend (60 * 10 ^ 9)
  have hcounts : ∀ a ∈ acts, ∀ r, CountsFailures "task" r a := by
    simp [acts, CountsFailures, queueTask, failingSend, tryDispatch]
  obtain ⟨r, hr, hdue⟩ := exists_reachable_of_foldlM (AttemptRun.step "task") initial_attemptRun
    acts hcounts (P := fun r ↦ Due r.errors) (by decide)
  exact ⟨r, hr, hdue, (given_up hr).1 hdue⟩

/-- A task that cannot be reserved for a minute is at the head of the queue as before. -/
theorem unreserved_stays : ∃ r,
    Reachable (AttemptRun.step "task") (fun _ _ ↦ True) AttemptRun.Initial r ∧
    r.errors = [60 * 10 ^ 9, 30 * 10 ^ 9, 0] ∧ Due r.errors ∧
    r.sched.taskQueues "robot" = ["task"] ∧
    ((r.sched.task "task").map (·.status)) = some .pending := by
  refine exists_reachable_of_foldlM (AttemptRun.step "task") initial_attemptRun
    (queueTask "task" :: failingReserve 0 ++ failingReserve (30 * 10 ^ 9) ++
      failingReserve (60 * 10 ^ 9)) (fun _ _ _ ↦ trivial)
    (P := fun r ↦ r.errors = [60 * 10 ^ 9, 30 * 10 ^ 9, 0] ∧ Due r.errors ∧
      r.sched.taskQueues "robot" = ["task"] ∧
      ((r.sched.task "task").map (·.status)) = some .pending) (by decide)

end Executor
end FleetServer
