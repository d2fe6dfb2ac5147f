import FleetServer.Api.RealtimeEffects
import FleetServer.Executor.Outcomes
import FleetServer.Grpc.AgentMessages

/-!
# The stored status of a task

The status of a task in the database is written in four places, and none of them looks at what is
there: `handleTaskStateUpdate` and `handleGraphStatus` when a message comes in, the latter a second
time when the message says that the task has ended; `dispatchQueuedTaskLocked` between starting the
execution and sending the task; and the clean-up of `runTask`.  A `StoredRun` is a run of the
scheduler with these writes as steps of their own.

`outcome_kept` says what the messages, the dispatches and the cancellations have to respect for the
first outcome that is stored to stay.  Then the last of the writes, that of `runTask`, stores the
same outcome again, however it was reached.
-/

set_option autoImplicit false

namespace FleetServer
namespace Grpc

open GuardedRun State Executor Executor.SchedulerState

/-! ## The writers -/

/-- A call of `handleTaskStateUpdate` that has written the status, with what it still needs. -/
structure TaskUpdate where
  agentID : String
  taskID : String
  state : ℤ
  currentStepID : String := ""
  errorMsg : String := ""
  deriving DecidableEq

/-- What a call of `handleGraphStatus` does next, once it has written the status. -/
inductive GraphStage
  | execution
  | complete
  | store
  deriving DecidableEq

structure GraphUpdate where
  status : GraphExecutionStatusMsg
  stage : GraphStage
  deriving DecidableEq

/-- The scheduler with the stored statuses.  `first` records the first outcome that was stored, and
is read by no step. -/
structure StoredRun where
  sched : SchedulerState
  stored : String → Option String := fun _ ↦ none
  updates : List TaskUpdate := []
  graphs : List GraphUpdate := []
  /-- The status of the task under dispatch has been written. -/
  dispatchWritten : Bool := false
  /-- The clean-up of `runTask` has written the status. -/
  finalWritten : String → Bool := fun _ ↦ false
  first : String → Option String := fun _ ↦ none

namespace StoredRun

variable (r : StoredRun)

/-- `CreateTask`. -/
def create (taskID status : String) : StoredRun :=
  { r with stored := Function.update r.stored taskID (some status) }

/-- `UpdateTaskStatus` and `UpdateTask`: a task that is not stored is not written. -/
def write (taskID status : String) : StoredRun :=
  match r.stored taskID with
  | none => r
  | some _ =>
    { r with
      stored := Function.update r.stored taskID (some status)
      first :=
        if r.first taskID = none ∧ isTerminal status = true then
          Function.update r.first taskID (some status)
        else r.first }

/-- A step of the scheduler.  A task is stored when it is created; a task state update goes on to
the manager after its write, a dispatch to the send, and the clean-up to the removal of the task. -/
def act (a : Action) : Option StoredRun :=
  (Executor.step r.sched a).bind fun sched ↦
    match a with
    | .startTask q => some ({ r with sched }.create q.taskID TaskStatus.pending.text)
    | .createMultiTask _ => r.sched.creating.head?.map fun exec ↦
        { r with sched }.create exec.taskID TaskStatus.running.text
    | .taskStateUpdate _ agentID taskID state currentStepID errorMsg =>
      let update : TaskUpdate := { agentID, taskID, state, currentStepID, errorMsg }
      if update ∈ r.updates then some { r with sched, updates := r.updates.erase update } else none
    | .sendStartTask _ _ =>
      if r.dispatchWritten then some { r with sched, dispatchWritten := false } else none
    | .removeTask taskID => if r.finalWritten taskID then some { r with sched } else none
    | _ => some { r with sched }

/-- The status of a task state update is written.  An agent has the id of a task from the server. -/
def taskStateUpdate (update : TaskUpdate) : Option StoredRun :=
  if update.taskID ≠ "__planning_state__" ∧ update.taskID ≠ "" ∧
      (r.stored update.taskID).isSome = true then
    some { r.write update.taskID (taskStateToString update.state) with
      updates := update :: r.updates }
  else none

def graphStatus (status : GraphExecutionStatusMsg) : Option StoredRun :=
  if status.executionID ≠ "" ∧ (r.stored status.executionID).isSome = true then
    some { r.write status.executionID (graphTaskStatus status.state) with
      graphs := ⟨status, .execution⟩ :: r.graphs }
  else none

/-- A call of `handleGraphStatus` goes on to a stage, or returns. -/
def moveGraph (g : GraphUpdate) (next : Option GraphStage) : StoredRun :=
  { r with graphs := (next.toList.map fun stage ↦ { g with stage }) ++ r.graphs.erase g }

def withManager (manager : Manager) : StoredRun := { r with sched := { r.sched with manager } }

/-- The next step of a call of `handleGraphStatus`. -/
def graphStep (now : ℕ) (g : GraphUpdate) : Option StoredRun :=
  let status := g.status
  let taskStatus := graphTaskStatus status.state
  let manager := r.sched.manager
  if g ∉ r.graphs then none
  else match g.stage with
    | .execution =>
      let isExecuting : Bool := taskStatus = "running" || taskStatus = "paused"
      some (((if status.agentID ≠ "" then
          r.withManager (manager.updateRobotExecution now status.agentID isExecuting
            status.executionID status.currentVertexID)
        else r)).moveGraph g (if isTerminal taskStatus then some .complete else none))
    | .complete =>
      some ((if status.agentID ≠ "" then
          r.withManager (manager.completeExecution now status.agentID [])
        else r).moveGraph g (some .store))
    | .store => some ((r.write status.executionID taskStatus).moveGraph g none)

/-- `dispatchQueuedTaskLocked` writes the status of the task before it sends it. -/
def dispatchWrite : Option StoredRun :=
  if r.dispatchWritten then none
  else (r.sched.underDispatch .send).map fun (_, taskID, _) ↦
    { r.write taskID TaskStatus.pending.text with dispatchWritten := true }

/-- The clean-up of `runTask` writes the status of the task object. -/
def finalWrite (taskID : String) : Option StoredRun :=
  if (r.sched.worker taskID).pc = .released ∧ r.finalWritten taskID = false then
    (r.sched.statusOf taskID).map fun status ↦
      { r.write taskID status.text with
        finalWritten := Function.update r.finalWritten taskID true }
  else none

end StoredRun

inductive StoredAction
  | act (action : Action)
  | taskStateUpdate (update : TaskUpdate)
  | graphStatus (status : GraphExecutionStatusMsg)
  | graphStep (now : ℕ) (g : GraphUpdate)
  | dispatchWrite
  | finalWrite (taskID : String)

/-- One step.  A server that has panicked does nothing. -/
def StoredRun.step (r : StoredRun) (a : StoredAction) : Option StoredRun :=
  if r.sched.panicked then none
  else match a with
    | .act action => r.act action
    | .taskStateUpdate update => r.taskStateUpdate update
    | .graphStatus status => r.graphStatus status
    | .graphStep now g => r.graphStep now g
    | .dispatchWrite => r.dispatchWrite
    | .finalWrite taskID => r.finalWrite taskID

def StoredRun.Initial (r : StoredRun) : Prop := ∃ sched, Executor.Initial sched ∧ r = { sched }

/-- What `waitForTask` makes of the stored status of a task that has left the scheduler; it goes on
waiting when it is `none`. -/
def waitForTaskFallback (status : Option String) : Option TaskStatus :=
  if status = some TaskStatus.completed.text then some .completed
  else if status = some TaskStatus.failed.text then some .failed
  else if status = some TaskStatus.cancelled.text then some .cancelled
  else none

/-- The first outcome that was stored for a task is still stored, and is what `waitForTask`
returns. -/
def OutcomeStays (r : StoredRun) : Prop :=
  ∀ t x, r.first t = some x →
    r.stored t = some x ∧ (waitForTaskFallback (r.stored t)).map TaskStatus.text = some x

/-! ## What has to be respected -/

namespace StoredRun

variable (r : StoredRun)

/-- No outcome is stored for the task, or it is this status. -/
def openFor (taskID status : String) : Bool :=
  (r.stored taskID).all fun x ↦ !isTerminal x || x = status

/-- A reported status contradicts neither the stored outcome nor the one the scheduler has come
to. -/
def agreesWith (taskID status : String) : Bool :=
  r.openFor taskID status && (!isTerminal status ||
    (r.sched.statusOf taskID).all fun m ↦ !m.isTerminal || m.text = status)

/-- A step respects the outcomes: messages agree with them; no task is dispatched, given up or
cancelled once another outcome is stored; no lease is taken back once the task has an outcome. -/
def respects : StoredAction → Bool
  | .taskStateUpdate update => r.agreesWith update.taskID (taskStateToString update.state)
  | .graphStatus status => r.agreesWith status.executionID (graphTaskStatus status.state)
  | .dispatchWrite => (r.sched.underDispatch .send).all fun u ↦ r.openFor u.2.1 ""
  | .act (.contextDone taskID) => r.openFor taskID TaskStatus.cancelled.text
  | .act (.expireLease _) => (r.sched.underDispatch .expire).all fun u ↦ !u.2.2.status.isTerminal
  | .act a => (r.sched.givenUp a).all fun taskID ↦ r.openFor taskID TaskStatus.failed.text
  | _ => true

end StoredRun

variable {r : StoredRun} {s' : SchedulerState} {act : Action} {t k status : String}

/-! ## Statuses as texts -/

theorem isTerminal_text (m : TaskStatus) : isTerminal m.text = m.isTerminal := by
  cases m <;> decide

/-- What an agent's report says of a task is the status it has written. -/
theorem text_of_terminalReport {error : String} {res : TaskCompletionResult}
    (h : terminalReport t status error = some res) : res.status.text = status := by
  rw [terminalReport] at h
  split_ifs at h with h1 h2 h3 <;> obtain rfl := Option.some.inj h
  · exact h1.symm
  · exact h2.symm
  · exact h3.symm

theorem isTerminal_of_terminalReport {error : String} {res : TaskCompletionResult}
    (h : terminalReport t status error = some res) : isTerminal status = true := by
  rw [← text_of_terminalReport h, isTerminal_text]
  exact res.terminal

/-- The fallback reads the terminal statuses as they were written. -/
theorem waitForTaskFallback_of_isTerminal (h : isTerminal status = true) :
    (waitForTaskFallback (some status)).map TaskStatus.text = some status := by
  simp only [isTerminal, Bool.or_eq_true, decide_eq_true_eq] at h
  rcases h with (rfl | rfl) | rfl <;> rfl

/-! ## Writes -/

namespace StoredRun

@[simp] theorem sched_write : (r.write k status).sched = r.sched := by
  rw [write]
  split <;> rfl

@[simp] theorem updates_write : (r.write k status).updates = r.updates := by
  rw [write]
  split <;> rfl

@[simp] theorem graphs_write : (r.write k status).graphs = r.graphs := by
  rw [write]
  split <;> rfl

@[simp] theorem finalWritten_write : (r.write k status).finalWritten = r.finalWritten := by
  rw [write]
  split <;> rfl

theorem stored_write_of_ne (hne : t ≠ k) : (r.write k status).stored t = r.stored t := by
  rw [write]
  split
  · rfl
  · exact Function.update_of_ne hne ..

theorem first_write_of_ne (hne : t ≠ k) : (r.write k status).first t = r.first t := by
  rw [write]
  split
  · rfl
  · dsimp only
    split
    · exact Function.update_of_ne hne ..
    · rfl

theorem stored_write_self (h : (r.stored t).isSome = true) :
    (r.write t status).stored t = some status := by
  obtain ⟨x, hx⟩ := Option.isSome_iff_exists.mp h
  simp [write, hx]

theorem isSome_stored_write :
    ((r.write k status).stored t).isSome = (r.stored t).isSome := by
  by_cases hk : t = k
  · subst hk
    cases hx : r.stored t with
    | none => simp [write, hx]
    | some x => simp [write, hx]
  · rw [stored_write_of_ne hk]

theorem first_write_self (h : (r.stored t).isSome = true) (hnone : r.first t = none) :
    (r.write t status).first t = if isTerminal status = true then some status else none := by
  obtain ⟨x, hx⟩ := Option.isSome_iff_exists.mp h
  simp only [write, hx, hnone, true_and]
  split
  · exact Function.update_self ..
  · exact hnone

/-- What a status has to agree with. -/
theorem agreesWith_iff : r.agreesWith t status = true ↔
    (∀ x ∈ r.stored t, isTerminal x = false ∨ x = status) ∧
      (isTerminal status = true →
        ∀ m ∈ r.sched.statusOf t, m.isTerminal = true → m.text = status) := by
  simp only [agreesWith, openFor, Bool.and_eq_true, Bool.or_eq_true, Bool.not_eq_true',
    Option.all_eq_true, decide_eq_true_eq, Option.mem_def]
  grind

end StoredRun

/-! ## The invariant -/

/-- What holds of a task in the runs that respect the outcomes. -/
structure OutcomeInv (r : StoredRun) (t : String) : Prop where
  known : (r.sched.task t).isSome = (r.stored t).isSome
  first : ∀ x, r.first t = some x ↔ r.stored t = some x ∧ isTerminal x = true
  born : r.sched.task t = none →
    r.sched.decided t = false ∧ ∀ res, ¬ r.sched.InFlight t res
  late : r.sched.decided t = true → ∀ m ∈ r.sched.statusOf t, m.isTerminal = true
  early : r.sched.decided t = false →
    ∀ m ∈ r.sched.statusOf t, m.isTerminal = true → m = .failed
  /-- A result on its way is stored, or is the failure that the task object already has. -/
  flight : r.sched.decided t = false → ∀ res, r.sched.InFlight t res →
    r.stored t = some res.status.text ∨ r.sched.statusOf t = some res.status
  agree : r.finalWritten t = false → ∀ x ∈ r.stored t, isTerminal x = true →
    ∀ m ∈ r.sched.statusOf t, m.isTerminal = true → x = m.text
  updates : ∀ u ∈ r.updates, u.taskID = t → isTerminal (taskStateToString u.state) = true →
    r.stored t = some (taskStateToString u.state)
  graphs : ∀ g ∈ r.graphs, g.status.executionID = t →
    (g.stage = .execution ∨ isTerminal (graphTaskStatus g.status.state) = true) ∧
      (isTerminal (graphTaskStatus g.status.state) = true →
        r.stored t = some (graphTaskStatus g.status.state))
  written : r.finalWritten t = true →
    r.sched.decided t = true ∧ ∃ x, r.stored t = some x ∧ isTerminal x = true

namespace OutcomeInv

/-! ## Writing a status -/

/-- A status that is there already is written without effect. -/
theorem write_eq_self (h : OutcomeInv r t) (hx : r.stored t = some status) :
    r.write t status = r := by
  have hstored : Function.update r.stored t (some status) = r.stored := by
    rw [← hx, Function.update_eq_self]
  have hfirst : ¬ (r.first t = none ∧ isTerminal status = true) := by
    rintro ⟨hnone, hterm⟩
    exact absurd ((h.first status).mpr ⟨hx, hterm⟩) (by simp [hnone])
  simp only [StoredRun.write, hx, hstored, if_neg hfirst]

/-- Nothing but the write itself decides about a task without a stored outcome. -/
theorem write_of_open {x : String} (h : OutcomeInv r t) (hx : r.stored t = some x)
    (hopen : isTerminal x = false) (hsched : isTerminal status = true →
      ∀ m ∈ r.sched.statusOf t, m.isTerminal = true → m.text = status) :
    OutcomeInv (r.write t status) t := by
  have hsome : (r.stored t).isSome = true := by simp [hx]
  have hnone : r.first t = none := by
    rw [Option.eq_none_iff_forall_ne_some]
    intro y hy
    obtain ⟨hy, hterm⟩ := (h.first y).mp hy
    obtain rfl := Option.some.inj (hx.symm.trans hy)
    exact absurd hterm (by simp [hopen])
  have hstored : (r.write t status).stored t = some status := StoredRun.stored_write_self hsome
  have hfirst : (r.write t status).first t =
      if isTerminal status = true then some status else none :=
    StoredRun.first_write_self hsome hnone
  -- a pending call for a terminal status would have stored it
  have hpending : ∀ {y : String}, isTerminal y = true → r.stored t ≠ some y := by
    intro y hy heq
    obtain rfl := Option.some.inj (hx.symm.trans heq)
    exact absurd hy (by simp [hopen])
  refine ⟨?_, fun y ↦ ?_, ?_, ?_, ?_, ?_, ?_, ?_, ?_, ?_⟩
  · rw [StoredRun.sched_write, StoredRun.isSome_stored_write]
    exact h.known
  · rw [hfirst, hstored]
    split
    · rename_i hterm
      grind
    · rename_i hterm
      grind
  · rw [StoredRun.sched_write]
    exact h.born
  · rw [StoredRun.sched_write]
    exact h.late
  · rw [StoredRun.sched_write]
    exact h.early
  · rw [StoredRun.sched_write]
    intro hwaits res hin
    rcases h.flight hwaits res hin with heq | heq
    · exact absurd heq (hpending (by rw [isTerminal_text]; exact res.terminal))
    · exact Or.inr heq
  · rw [StoredRun.sched_write, hstored]
    rintro - y hy hterm m hm hmterm
    obtain rfl := Option.some.inj hy
    exact (hsched hterm m hm hmterm).symm
  · rw [StoredRun.updates_write]
    intro u hu hut hterm
    exact absurd (h.updates u hu hut hterm) (hpending hterm)
  · rw [StoredRun.graphs_write]
    intro g hg hgt
    obtain ⟨hstage, hagree⟩ := h.graphs g hg hgt
    exact ⟨hstage, fun hterm ↦ absurd (hagree hterm) (hpending hterm)⟩
  · rw [StoredRun.finalWritten_write]
    intro hwritten
    obtain ⟨-, y, hy, hterm⟩ := h.written hwritten
    exact absurd hy (hpending hterm)

/-- Only what is stored about the task matters. -/
theorem congr {r' : StoredRun} (h : OutcomeInv r t) (hsched : r'.sched = r.sched)
    (hstored : r'.stored t = r.stored t) (hfirst : r'.first t = r.first t)
    (hupdates : r'.updates = r.updates) (hgraphs : r'.graphs = r.graphs)
    (hwritten : r'.finalWritten = r.finalWritten) : OutcomeInv r' t := by
  refine ⟨?_, ?_, ?_, ?_, ?_, ?_, ?_, ?_, ?_, ?_⟩ <;>
    simp only [hsched, hstored, hfirst, hupdates, hgraphs, hwritten]
  · exact h.known
  · exact h.first
  · exact h.born
  · exact h.late
  · exact h.early
  · exact h.flight
  · exact h.agree
  · exact h.updates
  · exact h.graphs
  · exact h.written

theorem write_of_ne (h : OutcomeInv r t) (hne : t ≠ k) : OutcomeInv (r.write k status) t :=
  h.congr StoredRun.sched_write (StoredRun.stored_write_of_ne hne)
    (StoredRun.first_write_of_ne hne) StoredRun.updates_write StoredRun.graphs_write
    StoredRun.finalWritten_write

/-- **A write that contradicts neither the stored outcome nor the scheduler.** -/
theorem write (h : OutcomeInv r t) (hok : t = k → r.agreesWith t status = true) :
    OutcomeInv (r.write k status) t := by
  by_cases hk : t = k
  · subst hk
    obtain ⟨hopen, hsched⟩ := StoredRun.agreesWith_iff.mp (hok rfl)
    cases hx : r.stored t with
    | none => simpa [StoredRun.write, hx] using h
    | some x =>
      rcases hopen x hx with hopen | rfl
      · exact h.write_of_open hx hopen hsched
      · rw [h.write_eq_self hx]
        exact h
  · exact h.write_of_ne hk

/-! ## The steps of the scheduler -/

theorem isSome_task_eq_statusOf (s : SchedulerState) (t : String) :
    (s.task t).isSome = (s.statusOf t).isSome := by
  simp [statusOf]

variable {updates : List TaskUpdate} {dispatchWritten : Bool} {m : TaskStatus}

/-- The status stays, and what is on its way was so before, or is stored. -/
theorem of_keeps (h : OutcomeInv r t) (hupdates : ∀ u ∈ updates, u ∈ r.updates)
    (hstatus : s'.statusOf t = r.sched.statusOf t) (hdecided : s'.decided t = r.sched.decided t)
    (hin : ∀ res, s'.InFlight t res →
      r.sched.InFlight t res ∨ r.stored t = some res.status.text) :
    OutcomeInv { r with sched := s', updates, dispatchWritten } t := by
  have htask : (s'.task t).isSome = (r.sched.task t).isSome := by
    rw [isSome_task_eq_statusOf, isSome_task_eq_statusOf, hstatus]
  refine ⟨htask.trans h.known, h.first, fun (hnone : s'.task t = none) ↦ ?_, ?_, ?_,
    fun hwaits res hres ↦ ?_, ?_, fun u hu ↦ h.updates u (hupdates u hu), h.graphs, ?_⟩
  · have hnone : r.sched.task t = none := by simpa [hnone] using htask
    obtain ⟨hwaits, hno⟩ := h.born hnone
    refine ⟨hdecided.trans hwaits, fun res hres ↦ ?_⟩
    rcases hin res hres with hres | hstored
    · exact hno res hres
    · have hknown := h.known
      simp [hnone, hstored] at hknown
  · rw [hdecided, hstatus]
    exact h.late
  · rw [hdecided, hstatus]
    exact h.early
  · rcases hin res hres with hres | hstored
    · rw [hstatus]
      exact h.flight (hdecided ▸ hwaits) res hres
    · exact Or.inl hstored
  · rw [hstatus]
    exact h.agree
  · rw [hdecided]
    exact h.written

/-- The goroutine of the task takes over a status that agrees with the stored outcome. -/
theorem of_decides (h : OutcomeInv r t) (hupdates : ∀ u ∈ updates, u ∈ r.updates)
    (hexists : (r.sched.task t).isSome = true) (hwaits : r.sched.decided t = false)
    (hstatus : s'.statusOf t = some m) (hdecided : s'.decided t = true)
    (hterm : m.isTerminal = true)
    (hagree : r.finalWritten t = false →
      ∀ x, r.stored t = some x → isTerminal x = true → x = m.text) :
    OutcomeInv { r with sched := s', updates, dispatchWritten } t := by
  have htask : (s'.task t).isSome = true := by rw [isSome_task_eq_statusOf, hstatus]; rfl
  have hopen : r.finalWritten t = false := by
    by_contra hwritten
    exact absurd (h.written (by simpa using hwritten)).1 (by simp [hwaits])
  refine ⟨?_, h.first, fun (hnone : s'.task t = none) ↦ ?_, fun _ m' hm ↦ ?_, ?_, ?_,
    fun _ x hx hxterm m' hm _ ↦ ?_, fun u hu ↦ h.updates u (hupdates u hu), h.graphs, ?_⟩
  · exact htask.trans (hexists.symm.trans h.known)
  · exact absurd htask (by simp [hnone])
  · obtain rfl := Option.some.inj (hstatus.symm.trans hm)
    exact hterm
  · simp [hdecided]
  · simp [hdecided]
  · obtain rfl := Option.some.inj (hstatus.symm.trans hm)
    exact hagree hopen x hx hxterm
  · simp [hopen]

/-- The status of the task object is set while its goroutine goes on. -/
theorem of_sets (h : OutcomeInv r t) (hupdates : ∀ u ∈ updates, u ∈ r.updates)
    (hexists : (r.sched.task t).isSome = true) (hstatus : s'.statusOf t = some m)
    (hdecided : s'.decided t = r.sched.decided t)
    (hlate : r.sched.decided t = true → m.isTerminal = true)
    (hearly : m.isTerminal = true → m = .failed)
    (hflight : r.sched.decided t = false → ∀ res, s'.InFlight t res →
      r.stored t = some res.status.text ∨ m = res.status)
    (hagree : m.isTerminal = true →
      ∀ x, r.stored t = some x → isTerminal x = true → x = m.text) :
    OutcomeInv { r with sched := s', updates, dispatchWritten } t := by
  have htask : (s'.task t).isSome = true := by rw [isSome_task_eq_statusOf, hstatus]; rfl
  refine ⟨?_, h.first, fun (hnone : s'.task t = none) ↦ ?_, fun hdec m' hm ↦ ?_,
    fun _ m' hm hterm ↦ ?_, fun hwaits res hres ↦ ?_, fun _ x hx hxterm m' hm hterm ↦ ?_,
    fun u hu ↦ h.updates u (hupdates u hu), h.graphs, ?_⟩
  · exact htask.trans (hexists.symm.trans h.known)
  · exact absurd htask (by simp [hnone])
  · obtain rfl := Option.some.inj (hstatus.symm.trans hm)
    exact hlate (hdecided.symm.trans hdec)
  · obtain rfl := Option.some.inj (hstatus.symm.trans hm)
    exact hearly hterm
  · rcases hflight (hdecided.symm.trans hwaits) res hres with hstored | rfl
    · exact Or.inl hstored
    · exact Or.inr hstatus
  · obtain rfl := Option.some.inj (hstatus.symm.trans hm)
    exact hagree hterm x hx hxterm
  · rw [hdecided]
    exact h.written

/-- A dispatch is given up only while no other outcome than the failure is stored. -/
theorem openFor_of_givenUp (hok : r.respects (.act act) = true)
    (hgiven : r.sched.givenUp act = some t) : r.openFor t TaskStatus.failed.text = true := by
  cases act with
  | contextDone | expireLease => exact absurd hgiven (by simp [givenUp])
  | _ => simpa [StoredRun.respects, hgiven] using hok

theorem eq_of_openFor {x : String} (hopen : r.openFor t status = true) (hx : r.stored t = some x)
    (hterm : isTerminal x = true) : x = status := by
  simpa [StoredRun.openFor, hx, hterm] using hopen

/-- **A step of the scheduler that writes no status.**  The calls that are not over are among those
that were under way. -/
theorem of_turn (h : OutcomeInv r t) (hturn : Turn r.sched s' t act)
    (hact : act.creates = false) (hok : r.respects (.act act) = true)
    (hupdates : ∀ u ∈ updates, u ∈ r.updates)
    (hreport : ∀ {now agentID state stepID errorMsg},
      act = .taskStateUpdate now agentID t state stepID errorMsg →
        (⟨agentID, t, state, stepID, errorMsg⟩ : TaskUpdate) ∈ r.updates) :
    OutcomeInv { r with sched := s', updates, dispatchWritten } t := by
  cases hturn with
  | same hstatus hdecided hin =>
    exact h.of_keeps hupdates hstatus hdecided fun res hres ↦ Or.inl (hin res hres)
  | @report now agentID stepID errorMsg state hstatus hdecided hin =>
    refine h.of_keeps hupdates hstatus hdecided fun res hres ↦ (hin res hres).imp_right fun hr ↦ ?_
    rw [text_of_terminalReport hr]
    exact h.updates _ (hreport rfl) rfl (isTerminal_of_terminalReport hr)
  | created hcreates => simp [hact] at hcreates
  | @received res hfrom hexists hwaits hstatus hdecided =>
    refine h.of_decides hupdates hexists hwaits hstatus hdecided res.terminal
      fun hopen x hx hterm ↦ ?_
    rcases h.flight hwaits res hfrom with hstored | hold
    · exact Option.some.inj (hx.symm.trans hstored)
    · exact h.agree hopen x hx hterm _ hold res.terminal
  | cancelled hexists hwaits hstatus hdecided =>
    exact h.of_decides hupdates hexists hwaits hstatus hdecided rfl
      fun _ x hx hterm ↦ eq_of_openFor hok hx hterm
  | @expired now f task hu hstatus hdecided hin =>
    have hopen : task.status.isTerminal = false := by
      simpa [StoredRun.respects, hu] using hok
    have htask : r.sched.task t = some task := (underDispatch_eq_some hu).2.2.1
    have hold : r.sched.statusOf t = some task.status := by rw [statusOf, htask, Option.map_some]
    have hpending : TaskStatus.pending.isTerminal = false := rfl
    refine h.of_sets hupdates (by rw [htask]; rfl) hstatus hdecided (fun hdec ↦ ?_)
      (by simp [hpending]) (fun hwaits res hres ↦ ?_) (by simp [hpending])
    · exact absurd (h.late hdec _ hold) (by simp [hopen])
    · rcases h.flight hwaits res (hin res hres) with hstored | hres
      · exact Or.inl hstored
      · have hsame : task.status = res.status := Option.some.inj (hold.symm.trans hres)
        exact absurd res.terminal (by simp [← hsame, hopen])
  | gaveUp hgiven hexists hstatus hdecided hin =>
    refine h.of_sets hupdates hexists hstatus hdecided (fun _ ↦ rfl) (fun _ ↦ rfl)
      (fun hwaits res hres ↦ ?_) fun _ x hx hterm ↦
        eq_of_openFor (openFor_of_givenUp hok hgiven) hx hterm
    rcases hin res hres with hres | hfailed
    · refine (h.flight hwaits res hres).imp_right fun hold ↦ ?_
      exact (h.early hwaits _ hold res.terminal).symm
    · exact Or.inr hfailed.symm

/-- A task is created while nothing is known of it. -/
theorem of_create {task : RunningTask} (h : OutcomeInv r t) (hnew : r.sched.task k = none)
    (hopen : task.status.isTerminal = false) (hstored : isTerminal status = false)
    (htask : s'.task = Function.update r.sched.task k (some task))
    (hworker : s'.worker = Function.update r.sched.worker k { pc := .created })
    (hnotifiers : s'.notifiers = r.sched.notifiers)
    (hhandlers : s'.handlers = r.sched.handlers) :
    OutcomeInv ({ r with sched := s' }.create k status) t := by
  have hin := inFlight_of_create (t := t) hworker hnotifiers hhandlers
  by_cases hk : t = k
  · subst hk
    have hnone : r.stored t = none := by simpa [hnew] using h.known
    obtain ⟨-, hno⟩ := h.born hnew
    have hstatus : s'.statusOf t = some task.status := by
      rw [statusOf, htask, Function.update_self, Option.map_some]
    have hwaits : s'.decided t = false := by
      rw [decided, hworker, Function.update_self]
      rfl
    have hnothing : ∀ {y : String}, r.stored t ≠ some y := by simp [hnone]
    have hread : ({ r with sched := s' }.create t status).stored t = some status :=
      Function.update_self ..
    refine ⟨?_, fun x ↦ ?_, fun (hgone : s'.task t = none) ↦ ?_, fun hdec ↦ ?_,
      fun _ m hm hterm ↦ ?_, fun _ res hres ↦ ?_, fun _ x _ _ m hm hterm ↦ ?_,
      fun u hu hut hterm ↦ ?_, fun g hg hgt ↦ ?_, fun hwritten ↦ ?_⟩
    · rw [hread, isSome_task_eq_statusOf]
      exact congrArg Option.isSome hstatus
    · rw [hread]
      refine ⟨fun hx ↦ absurd ((h.first x).mp hx).1 hnothing, ?_⟩
      rintro ⟨hx, hterm⟩
      obtain rfl := Option.some.inj hx
      exact absurd hterm (by simp [hstored])
    · simp [statusOf, hgone] at hstatus
    · exact absurd (hwaits.symm.trans hdec) (by simp)
    · obtain rfl := Option.some.inj (hstatus.symm.trans hm)
      exact absurd hterm (by simp [hopen])
    · exact absurd (hin res hres) (hno res)
    · obtain rfl := Option.some.inj (hstatus.symm.trans hm)
      exact absurd hterm (by simp [hopen])
    · exact absurd (h.updates u hu hut hterm) hnothing
    · obtain ⟨hstage, hagree⟩ := h.graphs g hg hgt
      exact ⟨hstage, fun hterm ↦ absurd (hagree hterm) hnothing⟩
    · obtain ⟨-, x, hx, -⟩ := h.written hwritten
      exact absurd hx hnothing
  · have hkept : OutcomeInv { r with sched := s' } t :=
      h.of_keeps (fun _ ↦ id) (by rw [statusOf, statusOf, htask, Function.update_of_ne hk])
        (by rw [decided, decided, hworker, Function.update_of_ne hk])
        fun res hres ↦ Or.inl (hin res hres)
    exact hkept.congr rfl (Function.update_of_ne hk ..) rfl rfl rfl rfl

/-- A step of the scheduler, with the write it may come with. -/
theorem of_act {a : Action} {r' : StoredRun} (h : OutcomeInv r t)
    (hok : r.respects (.act a) = true) (hs : r.act a = some r') : OutcomeInv r' t := by
  obtain ⟨s', hstep, hs⟩ := Option.bind_eq_some_iff.mp hs
  have hturn := turn_of_step hstep t
  cases a with
  | startTask q =>
    obtain rfl := Option.some.inj hs
    cases move_of_step hstep with
    | startTask _ hnew => exact h.of_create hnew rfl (by decide) rfl rfl rfl rfl
  | createMultiTask now =>
    obtain ⟨exec, hexec, rfl⟩ := Option.map_eq_some_iff.mp hs
    have hmove : r.sched.createMultiTask now = some s' := (step_eq_some hstep).2
    rw [createMultiTask] at hmove
    split at hmove
    · exact absurd hmove (by simp)
    · rename_i exec' rest hcreating
      obtain rfl : exec' = exec := by simpa [hcreating] using hexec
      split at hmove
      · rename_i hguard
        obtain rfl := Option.some.inj hmove
        exact h.of_create hguard.2.1 rfl (by decide) rfl rfl rfl rfl
      · exact absurd hmove (by simp)
  | taskStateUpdate now agentID taskID state stepID errorMsg =>
    dsimp only at hs
    split at hs
    · rename_i hmem
      obtain rfl := Option.some.inj hs
      refine h.of_turn hturn rfl hok (fun u ↦ List.mem_of_mem_erase) ?_
      rintro _ _ _ _ _ ⟨⟩
      exact hmem
    · exact absurd hs (by simp)
  | sendStartTask now failure =>
    dsimp only at hs
    split at hs
    · obtain rfl := Option.some.inj hs
      exact h.of_turn hturn rfl hok (fun _ ↦ id) (by simp)
    · exact absurd hs (by simp)
  | removeTask taskID =>
    dsimp only at hs
    split at hs
    · obtain rfl := Option.some.inj hs
      exact h.of_turn hturn rfl hok (fun _ ↦ id) (by simp)
    · exact absurd hs (by simp)
  | _ =>
    obtain rfl := Option.some.inj hs
    exact h.of_turn hturn rfl hok (fun _ ↦ id) (by simp)

/-! ## The messages and the other writes -/

theorem of_taskStateUpdate {update : TaskUpdate} {r' : StoredRun} (h : OutcomeInv r t)
    (hok : r.respects (.taskStateUpdate update) = true)
    (hs : r.taskStateUpdate update = some r') : OutcomeInv r' t := by
  rw [StoredRun.taskStateUpdate] at hs
  split at hs
  · rename_i hguard
    obtain rfl := Option.some.inj hs
    have hwrite : OutcomeInv (r.write update.taskID (taskStateToString update.state)) t :=
      h.write fun heq ↦ heq ▸ hok
    refine { hwrite with updates := fun u hu hut hterm ↦ ?_ }
    rcases List.mem_cons.mp hu with rfl | hu
    · subst hut
      exact StoredRun.stored_write_self hguard.2.2
    · exact hwrite.updates u (by rwa [StoredRun.updates_write]) hut hterm
  · exact absurd hs (by simp)

theorem of_graphStatus {msg : GraphExecutionStatusMsg} {r' : StoredRun} (h : OutcomeInv r t)
    (hok : r.respects (.graphStatus msg) = true) (hs : r.graphStatus msg = some r') :
    OutcomeInv r' t := by
  rw [StoredRun.graphStatus] at hs
  split at hs
  · rename_i hguard
    obtain rfl := Option.some.inj hs
    have hwrite : OutcomeInv (r.write msg.executionID (graphTaskStatus msg.state)) t :=
      h.write fun heq ↦ heq ▸ hok
    refine { hwrite with graphs := fun g hg hgt ↦ ?_ }
    rcases List.mem_cons.mp hg with rfl | hg
    · subst hgt
      exact ⟨Or.inl rfl, fun _ ↦ StoredRun.stored_write_self hguard.2⟩
    · exact hwrite.graphs g (by rwa [StoredRun.graphs_write]) hgt
  · exact absurd hs (by simp)

/-- A call goes on only when its status is terminal. -/
theorem moveGraph {g : GraphUpdate} {next : Option GraphStage} (h : OutcomeInv r t)
    (hg : g ∈ r.graphs) (hnext : g.status.executionID = t → next ≠ none →
      isTerminal (graphTaskStatus g.status.state) = true) : OutcomeInv (r.moveGraph g next) t := by
  refine { h with graphs := fun g' hg' hgt ↦ ?_ }
  rcases List.mem_append.mp hg' with hnew | hold
  · obtain ⟨stage, hstage, rfl⟩ := List.mem_map.mp hnew
    have hsome : next ≠ none := by
      rintro rfl
      exact absurd hstage (by simp)
    exact ⟨Or.inr (hnext hgt hsome), (h.graphs g hg hgt).2⟩
  · exact h.graphs g' (List.mem_of_mem_erase hold) hgt

theorem withManager (h : OutcomeInv r t) (manager : Manager) :
    OutcomeInv (r.withManager manager) t :=
  ⟨h.known, h.first, h.born, h.late, h.early, h.flight, h.agree, h.updates, h.graphs, h.written⟩

theorem of_graphStep {now : ℕ} {g : GraphUpdate} {r' : StoredRun} (h : OutcomeInv r t)
    (hs : r.graphStep now g = some r') : OutcomeInv r' t := by
  simp only [StoredRun.graphStep] at hs
  split at hs
  · exact absurd hs (by simp)
  · rename_i hg
    rw [not_not] at hg
    have hlater : g.stage ≠ .execution → g.status.executionID = t →
        isTerminal (graphTaskStatus g.status.state) = true := fun hstage hgt ↦
      (h.graphs g hg hgt).1.resolve_left hstage
    split at hs <;> rename_i hstage <;> obtain rfl := Option.some.inj hs
    · have hnext : g.status.executionID = t →
          (if isTerminal (graphTaskStatus g.status.state) = true then some GraphStage.complete
            else none) ≠ none →
          isTerminal (graphTaskStatus g.status.state) = true := by
        rintro - hnone
        by_contra hopen
        exact hnone (if_neg hopen)
      split
      · exact (h.withManager _).moveGraph hg hnext
      · exact h.moveGraph hg hnext
    · have hnext := fun hgt (_ : some GraphStage.store ≠ none) ↦ hlater (by simp [hstage]) hgt
      split
      · exact (h.withManager _).moveGraph hg hnext
      · exact h.moveGraph hg hnext
    · have hwrite :
          OutcomeInv (r.write g.status.executionID (graphTaskStatus g.status.state)) t := by
        by_cases hgt : t = g.status.executionID
        · subst hgt
          have hterm := hlater (by simp [hstage]) rfl
          rw [h.write_eq_self ((h.graphs g hg rfl).2 hterm)]
          exact h
        · exact h.write_of_ne hgt
      exact hwrite.moveGraph (by rwa [StoredRun.graphs_write]) fun _ hnone ↦ absurd rfl hnone

theorem of_dispatchWrite {r' : StoredRun} (h : OutcomeInv r t)
    (hok : r.respects .dispatchWrite = true) (hs : r.dispatchWrite = some r') :
    OutcomeInv r' t := by
  rw [StoredRun.dispatchWrite] at hs
  split at hs
  · exact absurd hs (by simp)
  · obtain ⟨⟨f, k, task⟩, hu, rfl⟩ := Option.map_eq_some_iff.mp hs
    have hopen : r.openFor k "" = true := by simpa [StoredRun.respects, hu] using hok
    have hwrite : OutcomeInv (r.write k TaskStatus.pending.text) t := by
      refine h.write fun hk ↦ StoredRun.agreesWith_iff.mpr ⟨fun x hx ↦ ?_, nofun⟩
      subst hk
      by_contra hterm
      rw [not_or, Bool.not_eq_false] at hterm
      exact absurd hterm.1 (by rw [eq_of_openFor hopen hx hterm.1]; decide)
    exact { hwrite with }

theorem of_finalWrite {r' : StoredRun} (h : OutcomeInv r t) (hs : r.finalWrite k = some r') :
    OutcomeInv r' t := by
  rw [StoredRun.finalWrite] at hs
  split at hs
  · rename_i hguard
    obtain ⟨m, hm, rfl⟩ := Option.map_eq_some_iff.mp hs
    by_cases hk : t = k
    · subst hk
      have hdecided : r.sched.decided t = true := by simp [decided, hguard.1]
      have hterm : m.isTerminal = true := h.late hdecided m hm
      have hwrite : OutcomeInv (r.write t m.text) t := by
        refine h.write fun _ ↦ StoredRun.agreesWith_iff.mpr ⟨fun x hx ↦ ?_, fun _ m' hm' _ ↦ ?_⟩
        · cases hx' : isTerminal x with
          | false => exact Or.inl rfl
          | true => exact Or.inr (h.agree hguard.2 x hx hx' m hm hterm)
        · rw [Option.some.inj (hm.symm.trans hm')]
      have hsome : (r.stored t).isSome = true := by
        rw [← h.known, isSome_task_eq_statusOf, hm]
        rfl
      have hstored : (r.write t m.text).stored t = some m.text :=
        StoredRun.stored_write_self hsome
      refine { hwrite with agree := fun hopen ↦ ?_, written := fun _ ↦ ⟨?_, m.text, hstored, ?_⟩ }
      · simp at hopen
      · simpa using hdecided
      · rw [isTerminal_text]
        exact hterm
    · have hwrite : OutcomeInv (r.write k m.text) t := h.write_of_ne hk
      have hsame : Function.update r.finalWritten k true t =
          (r.write k m.text).finalWritten t := by
        rw [Function.update_of_ne hk, StoredRun.finalWritten_write]
      exact { hwrite with
        agree := fun hopen ↦ hwrite.agree (hsame.symm.trans hopen)
        written := fun hwritten ↦ hwrite.written (hsame.symm.trans hwritten) }
  · exact absurd hs (by simp)

/-- **Every step that respects the outcomes keeps the invariant.** -/
theorem step {a : StoredAction} {r' : StoredRun} (h : OutcomeInv r t) (hok : r.respects a = true)
    (hs : r.step a = some r') : OutcomeInv r' t := by
  rw [StoredRun.step.eq_def] at hs
  split at hs
  · exact absurd hs (by simp)
  · cases a with
    | act action => exact h.of_act hok hs
    | taskStateUpdate update => exact h.of_taskStateUpdate hok hs
    | graphStatus msg => exact h.of_graphStatus hok hs
    | graphStep now g => exact h.of_graphStep hs
    | dispatchWrite => exact h.of_dispatchWrite hok hs
    | finalWrite taskID => exact h.of_finalWrite hs

theorem initial (hinit : StoredRun.Initial r) : OutcomeInv r t := by
  obtain ⟨_, ⟨manager, rfl⟩, rfl⟩ := hinit
  constructor <;> simp [decided, statusOf, InFlight]

end OutcomeInv

/-! ## The outcome -/

/-- The task is queued, sent to its robot, and acknowledged. -/
def sendTask (taskID : String) : List StoredAction :=
  ((queueTask taskID :: .registerChannel taskID :: dispatchNext 1).dropLast.map .act) ++
    .dispatchWrite :: (.sendStartTask 1 none :: acknowledgeTask 2 taskID).map .act

/-- The robot reports the task completed, up to the call of `NotifyTaskComplete`. -/
def completeTask (taskID : String) : List StoredAction :=
  .taskStateUpdate ⟨"robot", taskID, 5, "step", ""⟩ :: (reportCompleted 3 taskID).map .act

/-- The result is sent on the channel of the task and received there. -/
def receiveCompleted (taskID : String) : List StoredAction :=
  [.act (.lookup ⟨completedResult taskID, true, false⟩),
    .act (.deliver ⟨completedResult taskID, true, true⟩), .act (.receive taskID)]

/-- The clean-up of `runTask`. -/
def cleanUpTask (taskID : String) : List StoredAction :=
  [.act (.unregisterChannel taskID), .act (.closeChannel taskID),
    .act (.completeExecution 4 taskID), .finalWrite taskID, .act (.removeTask taskID)]

theorem initial_storedRun : StoredRun.Initial { sched := oneRobotScheduler } :=
  ⟨oneRobotScheduler, initial_oneRobotScheduler, rfl⟩

end Grpc
end FleetServer
