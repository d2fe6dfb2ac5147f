import FleetServer.Executor.StepEffects
import FleetServer.Lib.RangeOrder

/-!
# The effects of a plan on a session

A realtime session (`internal/api/realtime_pddl.go`) keeps a state of its own.  It does not see the
planning state of the executor: once an execution is over it reads the status and the error text of
every step and works out from these which effects the step must have had
(`applyRealtimeExecutionEffects`).

Both the executor and the session turn each step into the values it writes (`executorWrites`,
`sessionWrites`), and a plan into these writes one after the other.
-/

set_option autoImplicit false

namespace FleetServer

/-- The value of the constant. -/
def Executor.TaskStatus.text : TaskStatus → String
  | .pending => "pending"
  | .running => "running"
  | .completed => "completed"
  | .failed => "failed"
  | .cancelled => "cancelled"
  | .paused => "paused"

namespace Api

open GoString Pddl Executor PlanExecution

/-! ## What the session reads -/

structure StepStatusSnapshot where
  taskID : String
  status : String
  error : String
  deriving DecidableEq, Repr

/-- What `Snapshot` copies of a step. -/
def snapshotOf (step : RunStep) : StepStatusSnapshot :=
  match step.stepEnd with
  | none => ⟨step.assignment.taskID, TaskStatus.pending.text, ""⟩
  | some stepEnd =>
    ⟨step.assignment.taskID, stepEnd.stepStatus.1.text, stepEnd.stepStatus.2⟩

/-! ## Its effects -/

/-- `classifyRealtimeTaskResultMessage` is the same code as the executor's. -/
def classifyRealtimeTaskResultMessage (message : String) : TaskResultMessageClass × String :=
  classifyTaskResultMessage message

/-- `appendRealtimePlanningMessageEffect` is the same code as the executor's. -/
def appendRealtimePlanningMessageEffect (effects : List PlanningEffect)
    (messageVariable message : String) : List PlanningEffect :=
  appendPlanningMessageEffect effects messageVariable message

def realtimePlanningEffectsForStep (assignment : TaskAssignment) (step : StepStatusSnapshot) :
    List PlanningEffect :=
  let stepStatus := toLower (trimSpace step.status)
  let rawMessage := trimSpace step.error
  let (messageClass, normalizedMessage) := classifyRealtimeTaskResultMessage step.error
  if stepStatus = "failed" ∨ stepStatus = "cancelled" then
    let message := if trimSpace normalizedMessage = "" then rawMessage else normalizedMessage
    appendRealtimePlanningMessageEffect (assignment.resultStates ++ assignment.errorResultStates)
      assignment.errorMessageVariable message
  else
    match messageClass with
    | .warning =>
      appendRealtimePlanningMessageEffect
        (assignment.resultStates ++ assignment.warningResultStates)
        assignment.warningMessageVariable normalizedMessage
    | .error =>
      appendRealtimePlanningMessageEffect (assignment.resultStates ++ assignment.errorResultStates)
        assignment.errorMessageVariable normalizedMessage
    | .none => assignment.resultStates

/-- The steps by their trimmed ids, without those that have not come to an end.  Of two steps with
one id the later one counts. -/
def stepByTaskID (steps : List StepStatusSnapshot) (taskID : String) :
    Option StepStatusSnapshot :=
  if taskID = "" then none
  else steps.reverse.find? fun step ↦ trimSpace step.taskID = taskID &&
    toLower (trimSpace step.status) ∈ ["completed", "failed", "cancelled"]

/-- An effect on the state of the session. -/
def writeEffect (state : PlanningState) (effect : PlanningEffect) : PlanningState :=
  let key := trimSpace effect.var
  if key ≠ "" then Function.update state key (some effect.value) else state

def applyRealtimeExecutionEffects (state : PlanningState) (assignments : List TaskAssignment)
    (steps : List StepStatusSnapshot) : PlanningState :=
  assignments.foldl (fun state assignment ↦
    match stepByTaskID steps (trimSpace assignment.taskID) with
    | none => state
    | some step => (realtimePlanningEffectsForStep assignment step).foldl writeEffect state) state

/-- The state of the session after an execution.  The steps of a snapshot come from a map. -/
def sessionState (order : RangeOrder StepStatusSnapshot) (initial : PlanningState)
    (steps : List RunStep) : PlanningState :=
  applyRealtimeExecutionEffects initial (steps.map RunStep.assignment)
    (order.range (steps.map snapshotOf))

/-! ## What is written -/

/-- What a list of effects leaves in a session, if it writes the variable at all. -/
def sessionEffects (effects : List PlanningEffect) : PlanningState :=
  finalWrite ((effects.map fun effect ↦ { effect with var := trimSpace effect.var }).filter
    fun effect ↦ effect.var ≠ "")

theorem sessionEffects_cons (effect : PlanningEffect) (rest : List PlanningEffect) (v : String) :
    sessionEffects (effect :: rest) v = (sessionEffects rest v).or
      (if trimSpace effect.var = v ∧ v ≠ "" then some effect.value else none) := by
  rw [sessionEffects, List.map_cons]
  by_cases hblank : trimSpace effect.var = ""
  · rw [List.filter_cons_of_neg (by simp [hblank]), if_neg (by rw [hblank]; tauto), Option.or_none,
      sessionEffects]
  · rw [List.filter_cons_of_pos (by simpa using hblank), finalWrite_cons, ← sessionEffects]
    by_cases hv : trimSpace effect.var = v
    · rw [if_pos hv, if_pos ⟨hv, hv ▸ hblank⟩]
    · rw [if_neg hv, if_neg fun h ↦ hv h.1]

theorem finalWrite_ne_none {effects : List PlanningEffect} {v : String} :
    finalWrite effects v ≠ none ↔ ∃ effect ∈ effects, effect.var = v := by
  induction effects with
  | nil => simp [finalWrite]
  | cons effect rest ih =>
    rw [finalWrite_cons, Ne, Option.or_eq_none_iff, not_and_or, ← Ne, ih]
    simp only [List.exists_mem_cons_iff, ite_eq_right_iff, reduceCtorEq, imp_false, not_not]
    exact or_comm

theorem sessionEffects_ne_none {effects : List PlanningEffect} {v : String} :
    sessionEffects effects v ≠ none ↔ v ≠ "" ∧ ∃ effect ∈ effects, trimSpace effect.var = v := by
  rw [sessionEffects, finalWrite_ne_none]
  constructor
  · rintro ⟨effect, hmem, rfl⟩
    obtain ⟨hmem, hblank⟩ := List.mem_filter.mp hmem
    obtain ⟨original, horiginal, rfl⟩ := List.mem_map.mp hmem
    exact ⟨by simpa using hblank, original, horiginal, rfl⟩
  · rintro ⟨hblank, effect, hmem, rfl⟩
    exact ⟨_, List.mem_filter.mpr ⟨List.mem_map_of_mem hmem, by simpa using hblank⟩, rfl⟩

theorem foldl_writeEffect (effects : List PlanningEffect) (state : PlanningState) :
    effects.foldl writeEffect state = updatePlanningState state (sessionEffects effects) := by
  induction effects generalizing state with
  | nil => rfl
  | cons effect rest ih =>
    rw [List.foldl_cons, ih]
    funext v
    rw [updatePlanningState, updatePlanningState, sessionEffects_cons, Option.or_assoc, writeEffect]
    refine congrArg (Option.or _) ?_
    by_cases hkey : trimSpace effect.var = ""
    · rw [if_neg (by simpa using hkey), if_neg (by rw [hkey]; tauto), Option.none_or]
    · rw [if_pos hkey]
      by_cases hv : trimSpace effect.var = v
      · rw [if_pos ⟨hv, hv ▸ hkey⟩, hv, Function.update_self, Option.some_or]
      · rw [if_neg fun h ↦ hv h.1, Function.update_of_ne (Ne.symm hv), Option.none_or]

/-! ## The step of an assignment -/

/-- The task ids of the steps tell them apart, also when they are trimmed. -/
structure WellNamed (steps : List RunStep) : Prop where
  nodup : (steps.map fun step ↦ trimSpace step.assignment.taskID).Nodup
  named : ∀ step ∈ steps, trimSpace step.assignment.taskID ≠ ""

theorem taskID_snapshotOf (step : RunStep) :
    (snapshotOf step).taskID = step.assignment.taskID := by
  rw [snapshotOf]
  split <;> rfl

theorem text_isTerminal (status : TaskStatus) :
    toLower (trimSpace status.text) ∈ ["completed", "failed", "cancelled"] ↔
      status.isTerminal = true := by
  cases status <;> decide

theorem isTerminal_stepStatus (stepEnd : StepEnd) : stepEnd.stepStatus.1.isTerminal = true := by
  cases stepEnd with
  | notStarted err => rfl
  | ended contextDone err message =>
    cases err with
    | some err =>
      simp only [StepEnd.stepStatus, stepOutcome]
      split <;> rfl
    | none =>
      simp only [StepEnd.stepStatus, stepOutcome]
      split <;> rfl

/-- A step that was dispatched has one of the three statuses the session looks for. -/
theorem status_snapshotOf (step : RunStep) :
    toLower (trimSpace (snapshotOf step).status) ∈ ["completed", "failed", "cancelled"] ↔
      step.stepEnd ≠ none := by
  rw [snapshotOf]
  split
  · rename_i hnone
    rw [text_isTerminal, hnone]
    simp [TaskStatus.isTerminal]
  · rename_i stepEnd hend
    rw [text_isTerminal, hend, isTerminal_stepStatus]
    simp

/-- **The session finds the step of each assignment.** -/
theorem stepByTaskID_eq {steps : List RunStep} (hnamed : WellNamed steps)
    (order : RangeOrder StepStatusSnapshot) {step : RunStep} (hmem : step ∈ steps) :
    stepByTaskID (order.range (steps.map snapshotOf)) (trimSpace step.assignment.taskID) =
      if step.stepEnd = none then none else some (snapshotOf step) := by
  let found (snapshot : StepStatusSnapshot) : Bool :=
    trimSpace snapshot.taskID = trimSpace step.assignment.taskID &&
      toLower (trimSpace snapshot.status) ∈ ["completed", "failed", "cancelled"]
  have honly : ∀ snapshot ∈ (order.range (steps.map snapshotOf)).reverse, found snapshot = true →
      snapshot = snapshotOf step ∧ step.stepEnd ≠ none := by
    intro snapshot hsnapshot hfound
    rw [List.mem_reverse, order.mem_range] at hsnapshot
    obtain ⟨other, hother, rfl⟩ := List.mem_map.mp hsnapshot
    obtain ⟨hid, hstatus⟩ := Bool.and_eq_true_iff.mp hfound
    rw [taskID_snapshotOf, decide_eq_true_eq] at hid
    obtain rfl := List.inj_on_of_nodup_map hnamed.nodup hother hmem hid
    exact ⟨rfl, (status_snapshotOf other).mp (of_decide_eq_true hstatus)⟩
  rw [stepByTaskID, if_neg (hnamed.named step hmem)]
  split
  · rename_i hnone
    rw [List.find?_eq_none]
    exact fun snapshot hsnapshot hfound ↦ (honly snapshot hsnapshot hfound).2 hnone
  · rename_i hsome
    have hself : found (snapshotOf step) = true := by
      refine Bool.and_eq_true_iff.mpr ⟨?_, decide_eq_true ((status_snapshotOf step).mpr hsome)⟩
      rw [taskID_snapshotOf, decide_eq_true_eq]
    have hsnapshot : snapshotOf step ∈ (order.range (steps.map snapshotOf)).reverse := by
      rw [List.mem_reverse, order.mem_range]
      exact List.mem_map_of_mem hmem
    obtain ⟨snapshot, hfind⟩ := Option.isSome_iff_exists.mp
      (List.find?_isSome.mpr ⟨snapshotOf step, hsnapshot, hself⟩)
    rw [← (honly snapshot (List.mem_of_find?_eq_some hfind) (List.find?_some hfind)).1]
    exact hfind

/-! ## The writes of a step, on both sides -/

def executorWrites (step : RunStep) : PlanningState :=
  match step.stepEnd with
  | none => fun _ ↦ none
  | some stepEnd => planningEffects (stepEffects step.assignment stepEnd)

def sessionWrites (step : RunStep) : PlanningState :=
  match step.stepEnd with
  | none => fun _ ↦ none
  | some _ => sessionEffects (realtimePlanningEffectsForStep step.assignment (snapshotOf step))

theorem executedState_eq (initial : PlanningState) (steps : List RunStep) :
    executedState initial steps =
      steps.foldl (fun state step ↦ updatePlanningState state (executorWrites step)) initial := by
  rw [executedState]
  congr 1
  funext state step
  rw [afterStep, executorWrites]
  cases step.stepEnd <;> rfl

theorem sessionState_eq {steps : List RunStep} (hnamed : WellNamed steps)
    (order : RangeOrder StepStatusSnapshot) (initial : PlanningState) :
    sessionState order initial steps =
      steps.foldl (fun state step ↦ updatePlanningState state (sessionWrites step)) initial := by
  rw [sessionState, applyRealtimeExecutionEffects, List.foldl_map]
  refine List.foldl_ext _ _ _ fun state step hmem ↦ ?_
  rw [stepByTaskID_eq hnamed order hmem, sessionWrites]
  cases hend : step.stepEnd with
  | none => rfl
  | some stepEnd => exact foldl_writeEffect _ state

end Api
end FleetServer
