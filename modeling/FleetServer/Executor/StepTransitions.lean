import FleetServer.Executor.Scheduler
import FleetServer.Graph.RoundTrip

/-!
# The next step after a result

`handleStepResult` of `internal/executor/scheduler.go` reads off the transition of a step, and the
result of it, which step comes next.  The agent is sent a graph instead, whose edges `extractEdges`
makes of the transitions (`Graph.SchemaConverter`).

The edges leave out `on_success` when some outcome looks like a success and `on_failure` when some
outcome does not, whatever the results these outcomes stand for.  `edgesCover_iff` says when the
edges have all the same what the scheduler would do.

The wait before a retry has no effect here, and the variables that are made of a result are read by
nothing.
-/

set_option autoImplicit false

namespace FleetServer
namespace Executor

open GoString Schema

/-! ## Outcomes -/

/-- A number that is not one of the constants is kept as it is. -/
inductive ActionStatus
  | unknown
  | succeeded
  | failed
  | cancelled
  | timeout
  | rejected
  | other (code : ℤ)
  deriving DecidableEq, Repr

def actionStatusToOutcome : ActionStatus → String
  | .succeeded => "success"
  | .cancelled => "cancelled"
  | .timeout => "timeout"
  | .rejected => "rejected"
  | .failed => "failed"
  | _ => "failed"

def normalizeOutcomeValue (value : String) : String :=
  let value := toLower (trimSpace value)
  if value ∈ ["success", "succeeded"] then "success"
  else if value ∈ ["failed", "failure", "error"] then "failed"
  else if value ∈ ["aborted", "abort"] then "aborted"
  else if value ∈ ["cancelled", "canceled", "cancel"] then "cancelled"
  else if value ∈ ["timeout", "timed_out"] then "timeout"
  else if value = "rejected" then "rejected"
  else value

def outcomeMatches (actual expected : String) : Bool :=
  if trimSpace expected = "" then true
  else
    let actualNorm := normalizeOutcomeValue actual
    let expectedNorm := normalizeOutcomeValue expected
    actualNorm = expectedNorm || actualNorm = "failed" && expectedNorm = "aborted" ||
      actualNorm = "aborted" && expectedNorm = "failed"

/-- The loop over the outcomes: `defaultNext` is the first step named without an outcome so far. -/
def resolveOutcomes (outcome : String) : String → List OutcomeTransition → String
  | defaultNext, [] => defaultNext
  | defaultNext, transition :: rest =>
    if transition.outcome = "" then
      resolveOutcomes outcome (if defaultNext = "" then transition.next else defaultNext) rest
    else if outcomeMatches outcome transition.outcome then transition.next
    else resolveOutcomes outcome defaultNext rest

def resolveOutcomeTransition (transitions : List OutcomeTransition) (outcome : String) : String :=
  resolveOutcomes outcome "" transitions

/-! ## Transitions -/

def resolveTransition : TransitionValue → String
  | .string stepID => stepID
  | .object fields => fields.next.getD ""
  | _ => ""

structure TransitionOnFailure where
  retry : ℤ := 0
  fallback : String := ""
  next : String := ""
  deriving DecidableEq, Repr

def parseFailureTransition : TransitionValue → Option TransitionOnFailure
  | .object fields =>
    some
      { retry := (fields.retry.map truncate).getD 0, fallback := fields.fallback.getD ""
        next := fields.next.getD "" }
  | _ => none

/-- What `handleStepResult` reads and writes of a task. -/
structure StepTask where
  steps : List Step
  currentStep : ℕ := 0
  status : TaskStatus := .running
  retryCount : String → ℤ := fun _ ↦ 0

/-- The branch for a failure: a retry, the fallback, the next step, in this order. -/
def handleFailure (task : StepTask) (stepID : String) (onFailure : TransitionValue) :
    String × StepTask :=
  let fail : String × StepTask := ("", { task with status := .failed })
  let simple := if resolveTransition onFailure ≠ "" then (resolveTransition onFailure, task)
    else fail
  match parseFailureTransition onFailure with
  | none => simple
  | some failureTransition =>
    let retryCount := task.retryCount stepID
    if 0 < failureTransition.retry ∧ retryCount < failureTransition.retry then
      (stepID, { task with retryCount := Function.update task.retryCount stepID (retryCount + 1) })
    else if failureTransition.fallback ≠ "" then (failureTransition.fallback, task)
    else if failureTransition.next ≠ "" then (failureTransition.next, task)
    else simple

/-- The branches for each status. -/
def handleStatus (task : StepTask) (stepID : String) (transition : StepTransition) :
    ActionStatus → String × StepTask
  | .succeeded => (resolveTransition transition.onSuccess, task)
  | .failed => handleFailure task stepID transition.onFailure
  | .cancelled => ("", { task with status := .cancelled })
  | .timeout =>
    if transition.onTimeout ≠ "" then (transition.onTimeout, task)
    else ("", { task with status := .failed })
  | _ => ("", { task with status := .failed })

/-- The id of the next step, or an empty one, and the task. -/
def handleStepResult (task : StepTask) (step : Step) (status : ActionStatus) : String × StepTask :=
  if step.type = "terminal" then
    ("", { task with status := if step.terminalType = "success" then .completed else .failed })
  else
    match step.transition with
    | none =>
      match task.steps[task.currentStep + 1]? with
      | some next => (next.id, task)
      | none => ("", { task with status := .completed })
    | some transition =>
      let next := if transition.onOutcomes ≠ [] then
          resolveOutcomeTransition transition.onOutcomes (actionStatusToOutcome status)
        else ""
      if next ≠ "" then (next, task) else handleStatus task step.id transition status

/-! ## What the outcomes answer -/

section Outcomes

variable {outcomes : List OutcomeTransition} {outcome : String}

/-- The outcomes name a step for a result: the first that is meant for it does, or none is meant for
it and one without an outcome does. -/
def Answers (outcomes : List OutcomeTransition) (outcome : String) : Prop :=
  (outcomes.find? fun transition ↦
      transition.outcome ≠ "" && outcomeMatches outcome transition.outcome).elim
    (∃ transition ∈ outcomes, transition.outcome = "" ∧ transition.next ≠ "") (·.next ≠ "")

theorem resolveOutcomes_ne_iff (defaultNext : String) :
    resolveOutcomes outcome defaultNext outcomes ≠ "" ↔
      (outcomes.find? fun transition ↦
          transition.outcome ≠ "" && outcomeMatches outcome transition.outcome).elim
        (defaultNext ≠ "" ∨ ∃ transition ∈ outcomes, transition.outcome = "" ∧
          transition.next ≠ "") (·.next ≠ "") := by
  induction outcomes generalizing defaultNext with
  | nil => simp [resolveOutcomes]
  | cons first rest ih =>
    rw [resolveOutcomes]
    split
    · rename_i hdefault
      rw [ih, List.find?_cons_of_neg (by simp [hdefault])]
      cases rest.find? fun transition ↦
          transition.outcome ≠ "" && outcomeMatches outcome transition.outcome with
      | some transition => rfl
      | none => by_cases hnone : defaultNext = "" <;> simp [hnone, hdefault]
    · rename_i hnamed
      split
      · rename_i hmatch
        rw [List.find?_cons_of_pos (by simp [hnamed, hmatch])]
        rfl
      · rename_i hother
        rw [ih, List.find?_cons_of_neg (by simp [hother])]
        simp [hnamed]

theorem resolveOutcomeTransition_ne_iff :
    resolveOutcomeTransition outcomes outcome ≠ "" ↔ Answers outcomes outcome := by
  rw [resolveOutcomeTransition, resolveOutcomes_ne_iff, Answers]
  simp

instance : Decidable (Answers outcomes outcome) :=
  decidable_of_iff _ resolveOutcomeTransition_ne_iff

theorem resolveOutcomes_mem (outcome defaultNext : String) (outcomes : List OutcomeTransition) :
    resolveOutcomes outcome defaultNext outcomes = defaultNext ∨
      ∃ transition ∈ outcomes, transition.next = resolveOutcomes outcome defaultNext outcomes := by
  induction outcomes generalizing defaultNext with
  | nil => exact Or.inl rfl
  | cons first rest ih =>
    rw [resolveOutcomes]
    split
    · split
      · rcases ih first.next with h | ⟨transition, hmem, h⟩
        · exact Or.inr ⟨first, List.mem_cons_self, h.symm⟩
        · exact Or.inr ⟨transition, List.mem_cons_of_mem _ hmem, h⟩
      · exact (ih defaultNext).imp_right fun ⟨transition, hmem, h⟩ ↦
          ⟨transition, List.mem_cons_of_mem _ hmem, h⟩
    · split
      · exact Or.inr ⟨first, List.mem_cons_self, rfl⟩
      · exact (ih defaultNext).imp_right fun ⟨transition, hmem, h⟩ ↦
          ⟨transition, List.mem_cons_of_mem _ hmem, h⟩

/-- What the outcomes name is named by an outcome that leads somewhere. -/
theorem resolveOutcomeTransition_mem {t : StepTransition}
    (h : resolveOutcomeTransition t.onOutcomes outcome ≠ "") :
    resolveOutcomeTransition t.onOutcomes outcome ∈ t.outcomes.map (·.next) := by
  rcases resolveOutcomes_mem outcome "" t.onOutcomes with hnone | ⟨transition, hmem, hnext⟩
  · exact absurd hnone h
  · have hleads : transition.next ≠ "" := fun hempty ↦ h (hnext.symm.trans hempty)
    exact List.mem_map.mpr ⟨transition, List.mem_filter.mpr ⟨hmem, by simpa using hleads⟩, hnext⟩

end Outcomes

/-! ## What can come next -/

/-- How often a failure is retried. -/
def failureRetries : TransitionValue → ℤ
  | .object fields => fields.retries
  | _ => 0

/-- The step that comes after a failure that is not retried. -/
def failureTarget : TransitionValue → String
  | .string stepID => stepID
  | .object fields =>
    if fields.fallback.getD "" ≠ "" then fields.fallback.getD "" else fields.next.getD ""
  | _ => ""

/-- The scheduler may go on with the step `next`. -/
def CanFollow (step : Step) (next : String) : Prop :=
  ∃ task status, (handleStepResult task step status).1 = next

section Next

variable {step : Step} {t : StepTransition} {next : String}

/-- A failure is retried, or the failure target comes next. -/
theorem handleFailure_fst (task : StepTask) (stepID : String) (onFailure : TransitionValue) :
    (handleFailure task stepID onFailure).1 =
      if 0 < failureRetries onFailure ∧ task.retryCount stepID < failureRetries onFailure then
        stepID
      else failureTarget onFailure := by
  cases onFailure with
  | object fields =>
    by_cases hretry : 0 < failureRetries (.object fields) ∧
        task.retryCount stepID < failureRetries (.object fields)
    · rw [if_pos hretry]
      exact congrArg Prod.fst (if_pos hretry)
    · rw [if_neg hretry]
      refine (congrArg Prod.fst (if_neg hretry)).trans ?_
      simp only [failureTarget, resolveTransition]
      by_cases hfallback : fields.fallback.getD "" = ""
      · by_cases hnext : fields.next.getD "" = "" <;> simp [hfallback, hnext]
      · simp [hfallback]
  | string target =>
    by_cases hnext : target = "" <;>
      simp [handleFailure, parseFailureTransition, resolveTransition, failureTarget,
        failureRetries, hnext]
  | _ =>
    simp [handleFailure, parseFailureTransition, resolveTransition, failureTarget, failureRetries]

/-- The retries come to an end. -/
theorem exists_handleFailure (stepID : String) (onFailure : TransitionValue) :
    ∃ task, (handleFailure task stepID onFailure).1 = failureTarget onFailure := by
  refine ⟨{ steps := [], retryCount := fun _ ↦ failureRetries onFailure }, ?_⟩
  rw [handleFailure_fst, if_neg fun h ↦ lt_irrefl _ h.2]

/-- Without an outcome for a result its status decides. -/
theorem handleStepResult_fst (hstep : step.type ≠ "terminal") (ht : step.transition = some t)
    (task : StepTask) (status : ActionStatus) :
    (handleStepResult task step status).1 =
      if Answers t.onOutcomes (actionStatusToOutcome status) then
        resolveOutcomeTransition t.onOutcomes (actionStatusToOutcome status)
      else (handleStatus task step.id t status).1 := by
  simp only [handleStepResult, if_neg hstep, ht, ← resolveOutcomeTransition_ne_iff]
  by_cases hnone : t.onOutcomes = []
  · simp [hnone, resolveOutcomeTransition, resolveOutcomes]
  · rw [if_pos hnone]
    split <;> rfl

/-- **What can come next**, other than an empty step or the step itself. -/
theorem canFollow_iff (hstep : step.type ≠ "terminal") (ht : step.transition = some t)
    (hnext : next ≠ "") (hself : next ≠ step.id) :
    CanFollow step next ↔
      (∃ status, resolveOutcomeTransition t.onOutcomes (actionStatusToOutcome status) = next) ∨
      (¬Answers t.onOutcomes "success" ∧ resolveTransition t.onSuccess = next) ∨
      (¬Answers t.onOutcomes "failed" ∧ failureTarget t.onFailure = next) ∨
      (¬Answers t.onOutcomes "timeout" ∧ t.onTimeout = next) := by
  constructor
  · rintro ⟨task, status, rfl⟩
    rw [handleStepResult_fst hstep ht] at hnext hself ⊢
    split at hnext
    · rename_i hanswers
      rw [if_pos hanswers]
      exact Or.inl ⟨status, rfl⟩
    · rename_i hsilent
      rw [if_neg hsilent] at hself ⊢
      refine Or.inr ?_
      cases status with
      | succeeded => exact Or.inl ⟨hsilent, rfl⟩
      | failed =>
        refine Or.inr (Or.inl ⟨hsilent, ?_⟩)
        simp only [handleStatus, handleFailure_fst] at hself ⊢
        split at hself
        · exact absurd rfl hself
        · rename_i hretried
          rw [if_neg hretried]
      | timeout =>
        refine Or.inr (Or.inr ⟨hsilent, ?_⟩)
        simp only [handleStatus] at hnext ⊢
        split at hnext
        · rename_i hnamed
          rw [if_pos hnamed]
        · exact absurd rfl hnext
      | _ => exact absurd rfl hnext
  · rintro (⟨status, h⟩ | ⟨hsilent, h⟩ | ⟨hsilent, h⟩ | ⟨hsilent, h⟩)
    · have hanswers : Answers t.onOutcomes (actionStatusToOutcome status) :=
        resolveOutcomeTransition_ne_iff.mp (h ▸ hnext)
      exact ⟨{ steps := [] }, status, by rw [handleStepResult_fst hstep ht, if_pos hanswers, h]⟩
    · refine ⟨{ steps := [] }, .succeeded, ?_⟩
      rw [handleStepResult_fst hstep ht, actionStatusToOutcome, if_neg hsilent]
      exact h
    · obtain ⟨task, htask⟩ := exists_handleFailure step.id t.onFailure
      refine ⟨task, .failed, ?_⟩
      rw [handleStepResult_fst hstep ht, actionStatusToOutcome, if_neg hsilent]
      exact htask.trans h
    · refine ⟨{ steps := [] }, .timeout, ?_⟩
      rw [handleStepResult_fst hstep ht, actionStatusToOutcome, if_neg hsilent, handleStatus,
        if_pos (h ▸ hnext)]
      exact h

end Next

/-! ## What the edges name -/

/-- Some edge names the step. -/
def EdgeNames (t : StepTransition) (next : String) : Prop :=
  next ∈ t.outcomes.map (·.next) ∨
    (t.hasSuccessOutcome = false ∧ t.onSuccess.successNext = some next) ∨
    (t.hasFailureLikeOutcome = false ∧ t.onFailure.failureNext = some next) ∨
    next ≠ "" ∧ next ∈ [t.onTimeout, t.onConfirm, t.onCancel]

section Edges

variable {t : StepTransition} {stepID next : String}

theorem toID_successEdges (value : TransitionValue) :
    (successEdges stepID value).map (·.toID) = value.successNext.toList := by
  cases value with
  | object fields => cases hnext : fields.next <;>
      simp [successEdges, TransitionValue.successNext, hnext]
  | _ => rfl

theorem toID_failureEdges (value : TransitionValue) :
    (failureEdges stepID value).map (·.toID) = value.failureNext.toList := by
  cases value with
  | object fields =>
    cases hfallback : fields.fallback <;> cases hnext : fields.next <;>
      simp [failureEdges, TransitionValue.failureNext, hfallback, hnext]
  | _ => rfl

theorem toID_namedEdge {type : EdgeType} {name : String} :
    next ∈ (namedEdge stepID type name).map (·.toID) ↔ next ≠ "" ∧ next = name := by
  rw [namedEdge]
  by_cases hname : name = ""
  · simp [hname]
  · simp only [hname, ne_eq, not_false_eq_true, if_true, List.map_cons, List.map_nil,
      List.mem_singleton]
    exact ⟨fun h ↦ ⟨h ▸ hname, h⟩, And.right⟩

theorem mem_toID_edges (stepID : String) :
    next ∈ (t.edges stepID).map (·.toID) ↔ EdgeNames t next := by
  have houtcomes : (t.outcomes.map (outcomeEdge stepID)).map (·.toID) = t.outcomes.map (·.next) :=
    List.map_map
  have hsuccess : next ∈ (if t.hasSuccessOutcome then [] else
      successEdges stepID t.onSuccess).map (·.toID) ↔
      t.hasSuccessOutcome = false ∧ t.onSuccess.successNext = some next := by
    cases t.hasSuccessOutcome <;> simp [toID_successEdges]
  have hfailure : next ∈ (if t.hasFailureLikeOutcome then [] else
      failureEdges stepID t.onFailure).map (·.toID) ↔
      t.hasFailureLikeOutcome = false ∧ t.onFailure.failureNext = some next := by
    cases t.hasFailureLikeOutcome <;> simp [toID_failureEdges]
  rw [edges_eq, List.map_append, List.map_append, List.map_append, List.map_append,
    List.map_append]
  simp only [List.mem_append, toID_namedEdge, houtcomes, hsuccess, hfailure, EdgeNames,
    List.mem_cons, List.not_mem_nil, or_false, or_assoc, and_or_left]

end Edges

/-! ## When the edges cover the results -/

/-- The edges of the step lead to every other step that may come next, and none leads nowhere. -/
def EdgesCover (step : Step) : Prop :=
  (∀ next, CanFollow step next → next ≠ "" → next ≠ step.id →
    ∃ e ∈ extractEdges step, e.toID = next) ∧
  ∀ e ∈ extractEdges step, e.toID ≠ ""

/-- What a transition has to be like for its edges to cover its results. -/
structure CoveringTransition (stepID : String) (t : StepTransition) : Prop where
  /-- `on_success` names a step if it has an edge. -/
  success : t.hasSuccessOutcome = false → t.onSuccess.successNext ≠ some ""
  /-- So does `on_failure`. -/
  failure : t.hasFailureLikeOutcome = false → t.onFailure.failureNext ≠ some ""
  /-- Where `on_success` is left out, the outcomes answer a success or it is named otherwise. -/
  keepsSuccess : t.hasSuccessOutcome = true → ¬Answers t.onOutcomes "success" →
    resolveTransition t.onSuccess ∈ ["", stepID] ∨ EdgeNames t (resolveTransition t.onSuccess)
  /-- So it is with `on_failure`. -/
  keepsFailure : t.hasFailureLikeOutcome = true → ¬Answers t.onOutcomes "failed" →
    failureTarget t.onFailure ∈ ["", stepID] ∨ EdgeNames t (failureTarget t.onFailure)

section Cover

variable {step : Step} {t : StepTransition}

theorem successNext_eq_some {value : TransitionValue} (h : resolveTransition value ≠ "") :
    value.successNext = some (resolveTransition value) := by
  cases value with
  | string stepID => rfl
  | object fields =>
    cases hnext : fields.next with
    | none => exact absurd (by simp [resolveTransition, hnext]) h
    | some next => simp [TransitionValue.successNext, resolveTransition, hnext]
  | _ => exact absurd rfl h

/-- A failure edge that names a step names the one that comes after the retries. -/
theorem failureNext_eq_some {value : TransitionValue} (hnamed : value.failureNext ≠ some "")
    (h : failureTarget value ≠ "") : value.failureNext = some (failureTarget value) := by
  cases value with
  | string stepID => rfl
  | object fields =>
    cases hfallback : fields.fallback with
    | some fallback =>
      have hne : fallback ≠ "" := fun heq ↦ hnamed (by
        simp [TransitionValue.failureNext, hfallback, heq])
      simp [TransitionValue.failureNext, failureTarget, hfallback, hne]
    | none =>
      cases hnext : fields.next with
      | none => exact absurd (by simp [failureTarget, hfallback, hnext]) h
      | some next => simp [TransitionValue.failureNext, failureTarget, hfallback, hnext]
  | _ => exact absurd rfl h

theorem exists_edge_iff (ht : step.transition = some t) (next : String) :
    (∃ e ∈ extractEdges step, e.toID = next) ↔ EdgeNames t next := by
  have hedges : extractEdges step = t.edges step.id := by rw [extractEdges, ht]
  rw [hedges, ← mem_toID_edges step.id, List.mem_map]

/-- No edge leads nowhere. -/
theorem edges_named_iff : ¬EdgeNames t "" ↔
    (t.hasSuccessOutcome = false → t.onSuccess.successNext ≠ some "") ∧
      (t.hasFailureLikeOutcome = false → t.onFailure.failureNext ≠ some "") := by
  have houtcomes : "" ∉ t.outcomes.map (·.next) := by simp [StepTransition.outcomes]
  simp only [EdgeNames, houtcomes, false_or, not_or, not_and, ne_eq, not_true_eq_false,
    false_and, or_false]

/-- **When the edges of a step cover its results.** -/
theorem edgesCover_iff (hstep : step.type ≠ "terminal") (ht : step.transition = some t) :
    EdgesCover step ↔ CoveringTransition step.id t := by
  have hnowhere : (∀ e ∈ extractEdges step, e.toID ≠ "") ↔ ¬EdgeNames t "" := by
    rw [← exists_edge_iff ht]
    simp
  rw [EdgesCover, hnowhere]
  simp only [exists_edge_iff ht]
  constructor
  · rintro ⟨hcover, hnamed⟩
    obtain ⟨hsuccess, hfailure⟩ := edges_named_iff.mp hnamed
    refine ⟨hsuccess, hfailure, fun _ hsilent ↦ ?_, fun _ hsilent ↦ ?_⟩
    · by_cases hshort : resolveTransition t.onSuccess ∈ ["", step.id]
      · exact Or.inl hshort
      · obtain ⟨hne, hself⟩ : resolveTransition t.onSuccess ≠ "" ∧
            resolveTransition t.onSuccess ≠ step.id := by simpa using hshort
        exact Or.inr (hcover _ ((canFollow_iff hstep ht hne hself).mpr
          (Or.inr (Or.inl ⟨hsilent, rfl⟩))) hne hself)
    · by_cases hshort : failureTarget t.onFailure ∈ ["", step.id]
      · exact Or.inl hshort
      · obtain ⟨hne, hself⟩ : failureTarget t.onFailure ≠ "" ∧
            failureTarget t.onFailure ≠ step.id := by simpa using hshort
        exact Or.inr (hcover _ ((canFollow_iff hstep ht hne hself).mpr
          (Or.inr (Or.inr (Or.inl ⟨hsilent, rfl⟩)))) hne hself)
  · intro h
    refine ⟨fun next hfollow hne hself ↦ ?_, edges_named_iff.mpr ⟨h.success, h.failure⟩⟩
    have hshort : next ∉ ["", step.id] := by simp [hne, hself]
    rcases (canFollow_iff hstep ht hne hself).mp hfollow with
      ⟨status, rfl⟩ | ⟨hsilent, rfl⟩ | ⟨hsilent, rfl⟩ | ⟨-, rfl⟩
    · exact Or.inl (resolveOutcomeTransition_mem hne)
    · cases hoccurs : t.hasSuccessOutcome with
      | true => exact (h.keepsSuccess hoccurs hsilent).resolve_left hshort
      | false => exact Or.inr (Or.inl ⟨hoccurs, successNext_eq_some hne⟩)
    · cases hoccurs : t.hasFailureLikeOutcome with
      | true => exact (h.keepsFailure hoccurs hsilent).resolve_left hshort
      | false =>
        exact Or.inr (Or.inr (Or.inl ⟨hoccurs, failureNext_eq_some (h.failure hoccurs) hne⟩))
    · exact Or.inr (Or.inr (Or.inr ⟨hne, List.mem_cons_self⟩))

/-- A step with a way out for a success and, after two retries, for a failure. -/
def retriedStep : Step :=
  { id := "dock"
    transition := some
      { onSuccess := .string "leave"
        onFailure := .object { retry := some 2, fallback := some "recover" } } }

theorem retriedStep_covers : EdgesCover retriedStep :=
  (edgesCover_iff (by decide) rfl).mpr
    ⟨fun _ ↦ by decide, fun _ ↦ by decide, fun h ↦ absurd h (by decide),
      fun h ↦ absurd h (by decide)⟩

/-- An outcome for a cancellation takes the edge of a failure away. -/
def cancelledStep : Step :=
  { id := "dock"
    transition := some
      { onFailure := .string "recover"
        onOutcomes := [{ outcome := "cancelled", next := "tidy" }] } }

theorem cancelledStep_not_covers : ¬EdgesCover cancelledStep := by
  intro h
  have hfollow : CanFollow cancelledStep "recover" := ⟨{ steps := [] }, .failed, by decide⟩
  obtain ⟨e, he, hto⟩ := h.1 "recover" hfollow (by decide) (by decide)
  have hedges : ∀ e ∈ extractEdges cancelledStep, e.toID ≠ "recover" := by decide
  exact hedges e he hto

end Cover

end Executor
end FleetServer
