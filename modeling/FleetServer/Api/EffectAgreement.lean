import FleetServer.Api.RealtimeEffects

/-!
# The session and the executor

The state of a session should be the planning state that the executor ended with.  But the session
works out the effects of a step a second time, and from less: it goes wrong in three ways.  A step
that could not be started had no effects, but its status says that it failed; a failure without a
message leaves the text of the error in the step, which the session takes for the message; and of an
error message without text the session writes the class.  A variable with white space around it is
also a different variable for the executor.  `StepAgrees` excludes these, and
`session_follows_executor_iff` shows that there are no others.
-/

set_option autoImplicit false

namespace FleetServer
namespace Api

open GoString Pddl Executor PlanExecution

/-! ## Messages -/

theorem classify_trimSpace (message : String) :
    classifyTaskResultMessage (trimSpace message) = classifyTaskResultMessage message := by
  rw [classifyTaskResultMessage, classifyTaskResultMessage, trimSpace_trimSpace]

theorem classify_blank {message : String} (h : trimSpace message = "") :
    classifyTaskResultMessage message = (.none, "") := by
  rw [classifyTaskResultMessage, h]
  rfl

theorem trimSpace_classify (message : String) :
    trimSpace (classifyTaskResultMessage message).2 = (classifyTaskResultMessage message).2 := by
  rw [classifyTaskResultMessage]
  split
  · split
    · exact trimSpace_trimSpace _
    · split <;> exact trimSpace_trimSpace _
  · exact trimSpace_trimSpace _

theorem appendMessage_blank (effects : List PlanningEffect) (message : String) :
    appendPlanningMessageEffect effects "" message = effects := rfl

/-- What a failed step writes to the variable of its error message. -/
def failureText (message : String) : String :=
  let normalizedMessage := (classifyTaskResultMessage message).2
  if trimSpace normalizedMessage = "" then trimSpace message else normalizedMessage

theorem failureText_trimSpace (message : String) :
    failureText (trimSpace message) = failureText message := by
  rw [failureText, failureText, classify_trimSpace, trimSpace_trimSpace]

theorem trimSpace_failureText (message : String) :
    trimSpace (failureText message) = failureText message := by
  rw [failureText]
  split
  · exact trimSpace_trimSpace message
  · exact trimSpace_classify message

theorem failureText_eq_empty {message : String} :
    failureText message = "" ↔ trimSpace message = "" := by
  rw [failureText]
  split
  · exact Iff.rfl
  · rename_i hshown
    refine iff_of_false (fun hempty ↦ hshown ?_) fun hblank ↦ hshown ?_
    · rw [hempty]
      rfl
    · rw [classify_blank hblank]
      rfl

/-- The session cannot read the message of a step that failed without one, nor that of an error
message without text. -/
def LosesMessage : Option String → String → Prop
  | some err, message => trimSpace message = "" ∧ trimSpace err ≠ ""
  | none, message => classifyTaskResultMessage message = (.error, "")

/-! ## The variables of a step -/

/-- Trimming leaves every variable as it is, except that blank ones are left out on both sides. -/
def Plain (effects : List PlanningEffect) : Prop :=
  ∀ effect ∈ effects, trimSpace effect.var = effect.var ∨ trimSpace effect.var = ""

/-- No effect has a variable to write. -/
def Silent (effects : List PlanningEffect) : Prop :=
  ∀ effect ∈ effects, trimSpace effect.var = ""

theorem planningEffects_eq_of_plain {effects : List PlanningEffect} (h : Plain effects) :
    planningEffects effects = sessionEffects effects := by
  rw [planningEffects, sessionEffects]
  refine congrArg finalWrite ?_
  induction effects with
  | nil => rfl
  | cons effect rest ih =>
    have ih := ih fun other hmem ↦ h other (List.mem_cons_of_mem effect hmem)
    rw [List.map_cons]
    by_cases hblank : trimSpace effect.var = ""
    · rw [List.filter_cons_of_neg (by simp [hblank]), List.filter_cons_of_neg (by simp [hblank]),
        ih]
    · have hplain := (h effect List.mem_cons_self).resolve_right hblank
      rw [List.filter_cons_of_pos (by simpa using hblank),
        List.filter_cons_of_pos (by simpa using hblank), ih, hplain]

/-- If both sides write the same variables, these have no white space around them. -/
theorem plain_of_eq {effects effects' : List PlanningEffect}
    (h : planningEffects effects = sessionEffects effects') : Plain effects := by
  intro effect hmem
  refine or_iff_not_imp_right.mpr fun hblank ↦ ?_
  have hwritten : planningEffects effects effect.var ≠ none :=
    finalWrite_ne_none.mpr ⟨effect, List.mem_filter.mpr ⟨hmem, by simpa using hblank⟩, rfl⟩
  rw [h] at hwritten
  obtain ⟨-, other, -, hother⟩ := sessionEffects_ne_none.mp hwritten
  rw [← hother, trimSpace_trimSpace]

theorem sessionEffects_eq_none {effects : List PlanningEffect} :
    (sessionEffects effects = fun _ ↦ none) ↔ Silent effects := by
  constructor
  · intro h effect hmem
    by_contra hblank
    exact sessionEffects_ne_none.mpr ⟨hblank, effect, hmem, rfl⟩ (congrFun h _)
  · intro h
    funext v
    by_contra hwritten
    obtain ⟨hv, effect, hmem, heffect⟩ := sessionEffects_ne_none.mp hwritten
    exact hv (heffect.symm.trans (h effect hmem))

/-! ## The effect of a message -/

section Message

variable {effects : List PlanningEffect} {messageVariable message message' : String}

theorem plain_writeMessage (hvariable : trimSpace messageVariable = messageVariable) :
    Plain (writeMessage messageVariable message effects) ↔ Plain effects := by
  induction effects with
  | nil => simp [Plain, writeMessage, hvariable]
  | cons effect rest ih =>
    rw [writeMessage]
    split
    · simp only [Plain, List.forall_mem_cons]
    · rw [Plain, Plain, List.forall_mem_cons, List.forall_mem_cons]
      exact and_congr_right fun _ ↦ ih

theorem plain_appendMessage :
    Plain (appendPlanningMessageEffect effects messageVariable message) ↔ Plain effects := by
  rw [appendPlanningMessageEffect]
  split
  · exact Iff.rfl
  · exact plain_writeMessage (trimSpace_trimSpace messageVariable)

theorem exists_mem_writeMessage (hvariable : trimSpace messageVariable = messageVariable) :
    ∃ effect ∈ writeMessage messageVariable message effects,
      trimSpace effect.var = messageVariable := by
  induction effects with
  | nil => exact ⟨_, List.mem_cons_self, hvariable⟩
  | cons effect rest ih =>
    rw [writeMessage]
    split
    · rename_i heffect
      exact ⟨_, List.mem_cons_self, heffect⟩
    · obtain ⟨other, hmem, hother⟩ := ih
      exact ⟨other, List.mem_cons_of_mem effect hmem, hother⟩

theorem silent_appendMessage :
    Silent (appendPlanningMessageEffect effects messageVariable message) ↔
      Silent effects ∧ trimSpace messageVariable = "" := by
  rw [appendPlanningMessageEffect]
  split
  · rename_i hblank
    exact (and_iff_left hblank).symm
  · rename_i hvariable
    refine iff_of_false (fun hsilent ↦ hvariable ?_) fun h ↦ hvariable h.2
    obtain ⟨effect, hmem, heffect⟩ : ∃ effect ∈ writeMessage (trimSpace messageVariable)
        (trimSpace message) effects, trimSpace effect.var = trimSpace messageVariable :=
      exists_mem_writeMessage (trimSpace_trimSpace messageVariable)
    rw [← heffect, hsilent effect hmem]

theorem sessionEffects_writeMessage_of_ne {v : String}
    (hvariable : trimSpace messageVariable = messageVariable) (hv : v ≠ messageVariable) :
    sessionEffects (writeMessage messageVariable message effects) v = sessionEffects effects v := by
  induction effects with
  | nil =>
    rw [writeMessage, sessionEffects_cons, hvariable, if_neg fun h ↦ hv h.1.symm]
    rfl
  | cons effect rest ih =>
    rw [writeMessage]
    split
    · rename_i heffect
      rw [sessionEffects_cons, sessionEffects_cons, heffect, if_neg fun h ↦ hv h.1.symm,
        if_neg fun h ↦ hv h.1.symm]
    · rw [sessionEffects_cons, sessionEffects_cons, ih]

/-- The message is the value of its variable, unless a later effect writes the variable again. -/
theorem sessionEffects_writeMessage_self (hvariable : trimSpace messageVariable = messageVariable)
    (hne : messageVariable ≠ "") :
    sessionEffects (writeMessage messageVariable message effects) messageVariable =
      if 2 ≤ effects.countP (trimSpace ·.var = messageVariable) then
        sessionEffects effects messageVariable
      else some message := by
  induction effects with
  | nil =>
    rw [writeMessage, sessionEffects_cons, if_pos ⟨hvariable, hne⟩]
    rfl
  | cons effect rest ih =>
    rw [writeMessage]
    by_cases heffect : trimSpace effect.var = messageVariable
    · have hwritten : trimSpace effect.var = messageVariable ∧ messageVariable ≠ "" :=
        ⟨heffect, hne⟩
      rw [if_pos heffect, List.countP_cons_of_pos (by simpa using heffect), sessionEffects_cons,
        sessionEffects_cons, if_pos hwritten, if_pos hwritten]
      cases hrest : sessionEffects rest messageVariable with
      | none =>
        have hcount : rest.countP (trimSpace ·.var = messageVariable) = 0 := by
          rw [List.countP_eq_zero]
          intro other hmem hother
          exact sessionEffects_ne_none.mpr ⟨hne, other, hmem, by simpa using hother⟩ hrest
        rw [if_neg (by omega)]
        rfl
      | some value =>
        have hagain : sessionEffects rest messageVariable ≠ none := by simp [hrest]
        obtain ⟨-, other, hmem, hother⟩ := sessionEffects_ne_none.mp hagain
        have hcount : 0 < rest.countP (trimSpace ·.var = messageVariable) :=
          List.countP_pos_iff.mpr ⟨other, hmem, by simpa using hother⟩
        rw [if_pos (by omega)]
        rfl
    · rw [if_neg heffect, sessionEffects_cons, sessionEffects_cons, if_neg fun h ↦ heffect h.1,
        Option.or_none, Option.or_none, ih, List.countP_cons_of_neg (by simpa using heffect)]

/-- **Two messages leave the same values** when they are the same, have no variable, or are written
over. -/
theorem sessionEffects_appendMessage_eq_iff :
    sessionEffects (appendPlanningMessageEffect effects messageVariable message) =
        sessionEffects (appendPlanningMessageEffect effects messageVariable message') ↔
      trimSpace message = trimSpace message' ∨ trimSpace messageVariable = "" ∨
        2 ≤ effects.countP (trimSpace ·.var = trimSpace messageVariable) := by
  rw [appendPlanningMessageEffect, appendPlanningMessageEffect]
  split
  · rename_i hblank
    exact iff_of_true rfl (.inr (.inl hblank))
  · rename_i hne
    have hvariable := trimSpace_trimSpace messageVariable
    rw [or_iff_right hne]
    constructor
    · intro h
      have hself := congrFun h (trimSpace messageVariable)
      rw [sessionEffects_writeMessage_self hvariable hne,
        sessionEffects_writeMessage_self hvariable hne] at hself
      split at hself
      · rename_i hagain
        exact .inr hagain
      · exact .inl (Option.some.inj hself)
    · intro h
      funext v
      by_cases hv : v = trimSpace messageVariable
      · rw [hv, sessionEffects_writeMessage_self hvariable hne,
          sessionEffects_writeMessage_self hvariable hne]
        rcases h with h | h
        · rw [h]
        · rw [if_pos h, if_pos h]
      · rw [sessionEffects_writeMessage_of_ne hvariable hv,
          sessionEffects_writeMessage_of_ne hvariable hv]

end Message

/-! ## Both sides as effects with a message -/

/-- The effects that come with an end, and the variable of its message. -/
def endEffects (assignment : TaskAssignment) (err : Option String) (message : String) :
    List PlanningEffect × String :=
  let withErrors :=
    (assignment.resultStates ++ assignment.errorResultStates, assignment.errorMessageVariable)
  if err.isSome then withErrors
  else match (classifyTaskResultMessage message).1 with
    | .warning =>
      (assignment.resultStates ++ assignment.warningResultStates, assignment.warningMessageVariable)
    | .error => withErrors
    | .none => (assignment.resultStates, "")

/-- The message the executor writes. -/
def executorMessage (err : Option String) (message : String) : String :=
  if err.isSome then failureText message else (classifyTaskResultMessage message).2

/-- The message the session writes. -/
def sessionMessage (err : Option String) (message : String) : String :=
  match err with
  | some e => failureText (if trimSpace message ≠ "" then message else e)
  | none =>
    if (classifyTaskResultMessage message).1 = .error then failureText message
    else (classifyTaskResultMessage message).2

section Ends

variable (assignment : TaskAssignment) (contextDone : Bool) (err : Option String)
  (message : String)

theorem stepEffects_ended :
    stepEffects assignment (.ended contextDone err message) =
      appendPlanningMessageEffect (endEffects assignment err message).1
        (endEffects assignment err message).2 (executorMessage err message) := by
  cases err with
  | some e => simp only [stepEffects, endEffects, executorMessage, failureText, Option.isSome_some,
      if_true]
  | none =>
    simp only [stepEffects, endEffects, executorMessage, Option.isSome_none, Bool.false_eq_true,
      if_false]
    cases hclass : (classifyTaskResultMessage message).1 with
    | warning => rfl
    | error => rfl
    | none => exact (appendMessage_blank _ _).symm

theorem realtimeEffects_of_failed {taskID status error : String}
    (h : toLower (trimSpace status) = "failed" ∨ toLower (trimSpace status) = "cancelled") :
    realtimePlanningEffectsForStep assignment ⟨taskID, status, error⟩ =
      appendPlanningMessageEffect (assignment.resultStates ++ assignment.errorResultStates)
        assignment.errorMessageVariable (failureText error) := by
  simp only [realtimePlanningEffectsForStep, if_pos h, failureText,
    appendRealtimePlanningMessageEffect, classifyRealtimeTaskResultMessage]
  rfl

theorem realtimeEffects_of_completed {taskID status error : String}
    (h : toLower (trimSpace status) = "completed")
    (hclass : (classifyTaskResultMessage error).1 ≠ .error) :
    realtimePlanningEffectsForStep assignment ⟨taskID, status, error⟩ =
      appendPlanningMessageEffect (endEffects assignment none error).1
        (endEffects assignment none error).2 (classifyTaskResultMessage error).2 := by
  have hneither : ¬ ("completed" = "failed" ∨ "completed" = "cancelled") := by decide
  simp only [realtimePlanningEffectsForStep, h, if_neg hneither, endEffects, Option.isSome_none,
    Bool.false_eq_true, if_false, appendRealtimePlanningMessageEffect,
    classifyRealtimeTaskResultMessage]
  cases hstep : (classifyTaskResultMessage error).1 with
  | warning => rfl
  | error => exact absurd hstep hclass
  | none => exact (appendMessage_blank _ _).symm

/-- The error text that is left in a step whose wait failed. -/
theorem stepOutcome_failed (e : String) :
    (stepOutcome contextDone (some e) message).2.1 =
      if trimSpace message ≠ "" then trimSpace message else e := by
  by_cases hblank : trimSpace message = ""
  · simp [stepOutcome, classify_blank hblank, hblank]
  · simp [stepOutcome, hblank]

theorem classify_some {messageClass : TaskResultMessageClass} {message : String}
    (h : (classifyTaskResultMessage message).1 = messageClass) (hclass : messageClass ≠ .none) :
    trimSpace message ≠ "" := by
  intro hblank
  rw [classify_blank hblank] at h
  exact hclass h.symm

/-- The status and the error text after a wait that did not fail. -/
theorem stepOutcome_completed :
    ((stepOutcome contextDone none message).1, (stepOutcome contextDone none message).2.1) =
      match (classifyTaskResultMessage message).1 with
      | .warning => (.completed, trimSpace message)
      | .error => (.failed, trimSpace message)
      | .none => (.completed, "") := by
  cases hclass : (classifyTaskResultMessage message).1 with
  | warning => simp [stepOutcome, hclass, classify_some hclass]
  | error => simp [stepOutcome, hclass, classify_some hclass]
  | none => simp [stepOutcome, hclass]

theorem realtimeEffects_ended :
    realtimePlanningEffectsForStep assignment
        (snapshotOf ⟨assignment, some (.ended contextDone err message)⟩) =
      appendPlanningMessageEffect (endEffects assignment err message).1
        (endEffects assignment err message).2 (sessionMessage err message) := by
  have hfailed : toLower (trimSpace TaskStatus.failed.text) = "failed" := by decide
  have hcancelled : toLower (trimSpace TaskStatus.cancelled.text) = "cancelled" := by decide
  have hcompleted : toLower (trimSpace TaskStatus.completed.text) = "completed" := by decide
  simp only [snapshotOf, StepEnd.stepStatus]
  cases err with
  | some e =>
    have hstatus : (stepOutcome contextDone (some e) message).1 = .cancelled ∨
        (stepOutcome contextDone (some e) message).1 = .failed := by
      simp only [stepOutcome]
      split
      · exact .inl rfl
      · exact .inr rfl
    rw [stepOutcome_failed, realtimeEffects_of_failed]
    · simp only [endEffects, sessionMessage, Option.isSome_some, if_true]
      split
      · rw [failureText_trimSpace]
      · rfl
    · rcases hstatus with h | h
      · rw [h]
        exact .inr hcancelled
      · rw [h]
        exact .inl hfailed
  | none =>
    have hstatus := stepOutcome_completed contextDone message
    cases hclass : (classifyTaskResultMessage message).1 with
    | warning =>
      rw [hclass] at hstatus
      obtain ⟨h, herror⟩ := Prod.mk.inj hstatus
      rw [h, herror, realtimeEffects_of_completed assignment hcompleted]
      · simp only [endEffects, classify_trimSpace, sessionMessage, hclass, reduceCtorEq, if_false]
      · simp [classify_trimSpace, hclass]
    | error =>
      rw [hclass] at hstatus
      obtain ⟨h, herror⟩ := Prod.mk.inj hstatus
      rw [h, herror, realtimeEffects_of_failed assignment (.inl hfailed), failureText_trimSpace]
      simp only [endEffects, sessionMessage, hclass, Option.isSome_none, Bool.false_eq_true,
        if_false, if_true]
    | none =>
      rw [hclass] at hstatus
      obtain ⟨h, herror⟩ := Prod.mk.inj hstatus
      have hblank : classifyTaskResultMessage "" = (.none, "") := by decide
      rw [h, herror, realtimeEffects_of_completed assignment hcompleted]
      · simp only [endEffects, hblank, hclass, Option.isSome_none, Bool.false_eq_true, if_false,
          appendMessage_blank]
      · simp [hblank]

/-- **The session writes the message of the executor, unless it loses it.** -/
theorem messages_agree_iff :
    trimSpace (executorMessage err message) = trimSpace (sessionMessage err message) ↔
      ¬ LosesMessage err message := by
  cases err with
  | some e =>
    rw [executorMessage, sessionMessage, Option.isSome_some, if_pos rfl, trimSpace_failureText,
      trimSpace_failureText, LosesMessage, not_and_not_right]
    by_cases hblank : trimSpace message = ""
    · rw [if_neg (not_not.mpr hblank), failureText_eq_empty.mpr hblank, eq_comm,
        failureText_eq_empty]
      exact (imp_iff_right hblank).symm
    · rw [if_pos hblank]
      exact iff_of_true rfl fun h ↦ absurd h hblank
  | none =>
    rw [executorMessage, sessionMessage, Option.isSome_none, if_neg Bool.false_ne_true,
      LosesMessage]
    split
    · rename_i hclass
      rw [trimSpace_failureText, trimSpace_classify, failureText, trimSpace_classify]
      split
      · rename_i hnormalized
        refine iff_of_false (fun h ↦ ?_) (not_not.mpr (Prod.ext hclass hnormalized))
        exact classify_some hclass (by decide) (h.symm.trans hnormalized)
      · rename_i hnormalized
        exact iff_of_true rfl fun h ↦ hnormalized (congrArg Prod.snd h)
    · rename_i hclass
      exact iff_of_true rfl fun h ↦ hclass (congrArg Prod.fst h)

end Ends

/-! ## When the two agree -/

/-- **The condition on a step.**  One that could not be started has no effects at all.  For every
other, the variables of the effects that apply have no white space around them; and where the
session loses the message, there is no variable to write it to, or a later effect writes it
again. -/
def StepAgrees (assignment : TaskAssignment) : StepEnd → Prop
  | .notStarted _ =>
    Silent (assignment.resultStates ++ assignment.errorResultStates) ∧
      trimSpace assignment.errorMessageVariable = ""
  | .ended _ err message =>
    Plain (endEffects assignment err message).1 ∧
      (LosesMessage err message →
        trimSpace assignment.errorMessageVariable = "" ∨
          2 ≤ (assignment.resultStates ++ assignment.errorResultStates).countP
            (trimSpace ·.var = trimSpace assignment.errorMessageVariable))

instance (err : Option String) (message : String) : Decidable (LosesMessage err message) := by
  cases err <;> dsimp only [LosesMessage] <;> infer_instance

instance (assignment : TaskAssignment) (stepEnd : StepEnd) :
    Decidable (StepAgrees assignment stepEnd) := by
  cases stepEnd <;> dsimp only [StepAgrees, Silent, Plain] <;> infer_instance

theorem endEffects_of_loses {assignment : TaskAssignment} {err : Option String} {message : String}
    (h : LosesMessage err message) :
    endEffects assignment err message =
      (assignment.resultStates ++ assignment.errorResultStates,
        assignment.errorMessageVariable) := by
  cases err with
  | some e => rfl
  | none =>
    have hclass := congrArg Prod.fst h
    simp only [endEffects, hclass, ite_self]

/-- **A step writes the same on both sides exactly under the condition.** -/
theorem writes_eq_iff (assignment : TaskAssignment) (stepEnd : StepEnd) :
    executorWrites ⟨assignment, some stepEnd⟩ = sessionWrites ⟨assignment, some stepEnd⟩ ↔
      StepAgrees assignment stepEnd := by
  rw [executorWrites, sessionWrites]
  cases stepEnd with
  | notStarted err =>
    have hfailed : toLower (trimSpace TaskStatus.failed.text) = "failed" := by decide
    simp only [snapshotOf, StepEnd.stepStatus, stepEffects]
    rw [realtimeEffects_of_failed assignment (.inl hfailed), StepAgrees, ← silent_appendMessage,
      ← sessionEffects_eq_none, eq_comm]
    exact Iff.rfl
  | ended contextDone err message =>
    have hplain : planningEffects (stepEffects assignment (.ended contextDone err message)) =
          sessionEffects (realtimePlanningEffectsForStep assignment
            (snapshotOf ⟨assignment, some (.ended contextDone err message)⟩)) ↔
        Plain (endEffects assignment err message).1 ∧
          sessionEffects (stepEffects assignment (.ended contextDone err message)) =
            sessionEffects (realtimePlanningEffectsForStep assignment
              (snapshotOf ⟨assignment, some (.ended contextDone err message)⟩)) := by
      have hvariables : Plain (stepEffects assignment (.ended contextDone err message)) ↔
          Plain (endEffects assignment err message).1 := by
        rw [stepEffects_ended, plain_appendMessage]
      constructor
      · intro h
        have hplain := plain_of_eq h
        exact ⟨hvariables.mp hplain, (planningEffects_eq_of_plain hplain).symm.trans h⟩
      · rintro ⟨hplain, h⟩
        exact (planningEffects_eq_of_plain (hvariables.mpr hplain)).trans h
    dsimp only
    rw [hplain, stepEffects_ended, realtimeEffects_ended, sessionEffects_appendMessage_eq_iff,
      messages_agree_iff, ← imp_iff_not_or, StepAgrees]
    refine and_congr_right fun _ ↦ forall_congr' fun hloses ↦ ?_
    rw [endEffects_of_loses hloses]

/-- The condition on the steps of a plan that were dispatched. -/
def StepsAgree (steps : List RunStep) : Prop :=
  ∀ step ∈ steps, ∀ stepEnd, step.stepEnd = some stepEnd → StepAgrees step.assignment stepEnd

theorem stepsAgree_iff {steps : List RunStep} :
    StepsAgree steps ↔ ∀ step ∈ steps, executorWrites step = sessionWrites step := by
  refine forall₂_congr fun step _ ↦ ?_
  cases hend : step.stepEnd with
  | none =>
    rw [executorWrites, sessionWrites, hend]
    simp
  | some stepEnd =>
    have hstep : step = ⟨step.assignment, some stepEnd⟩ := by rw [← hend]
    rw [hstep, writes_eq_iff]
    simp

theorem WellNamed.sublist {steps part : List RunStep} (h : WellNamed steps)
    (hpart : part.Sublist steps) : WellNamed part :=
  ⟨h.nodup.sublist (hpart.map _), fun step hmem ↦ h.named step (hpart.subset hmem)⟩

/-- **The session ends in the state of the executor exactly when every step meets the condition**,
for a plan and everything that is a part of it.  (In one plan alone a later step may write over what
an earlier one got wrong.) -/
theorem session_follows_executor_iff {steps : List RunStep} (hnamed : WellNamed steps) :
    (∀ part, part.Sublist steps → ∀ order initial,
        sessionState order initial part = executedState initial part) ↔ StepsAgree steps := by
  rw [stepsAgree_iff]
  constructor
  · intro h step hmem
    have hpart : [step].Sublist steps := List.singleton_sublist.mpr hmem
    have hstep := h [step] hpart (.asListed _) fun _ ↦ none
    rw [sessionState_eq (hnamed.sublist hpart), executedState_eq] at hstep
    funext v
    simpa [updatePlanningState] using (congrFun hstep v).symm
  · intro h part hpart order initial
    rw [sessionState_eq (hnamed.sublist hpart), executedState_eq]
    refine List.foldl_ext _ _ _ fun state step hmem ↦ ?_
    rw [h step (hpart.subset hmem)]

/-! ## Opening a door -/

/-- A task that opens a door, and says what went wrong with it. -/
def openDoor (taskID : String) : TaskAssignment where
  taskID
  taskName := "open door"
  behaviorTreeID := "door"
  stepID := "step"
  stepName := "open door"
  agentID := "robot"
  agentName := "robot"
  order := 0
  reason := ""
  runtimeParams := ∅
  resultStates := [⟨"door", "open"⟩]
  warningResultStates := []
  errorResultStates := [⟨"door", "stuck"⟩]
  warningMessageVariable := "note"
  errorMessageVariable := "problem"

/-- One door opens with a warning, the other is stuck. -/
def doorSteps : List RunStep :=
  [⟨openDoor "front", some (.ended false none "w: slow")⟩,
    ⟨openDoor "back", some (.ended false (some "task failed: jammed") "jammed")⟩]

theorem doorSteps_followed :
    WellNamed doorSteps ∧ StepsAgree doorSteps ∧
    sessionState (.asListed _) (fun _ ↦ none) doorSteps =
      executedState (fun _ ↦ none) doorSteps ∧
    ["door", "note", "problem"].map (executedState (fun _ ↦ none) doorSteps) =
      [some "stuck", some "slow", some "jammed"] := by
  have hnamed : WellNamed doorSteps := ⟨by decide, by decide⟩
  have hagree : StepsAgree doorSteps := by
    intro step hmem stepEnd hend
    simp only [doorSteps, List.mem_cons, List.not_mem_nil, or_false] at hmem
    rcases hmem with rfl | rfl
    · obtain rfl := Option.some.inj hend
      decide
    · obtain rfl := Option.some.inj hend
      decide
  exact ⟨hnamed, hagree, (session_follows_executor_iff hnamed).mpr hagree doorSteps
    (List.Sublist.refl _) (.asListed _) _, by decide⟩

/-- **A door nobody tried to open is stuck** for the session; and after a task that failed without
a message the session has one. -/
theorem notStarted_leaves_door_stuck :
    WellNamed [⟨openDoor "front", some (.notStarted "no robot")⟩] ∧
    sessionState (.asListed _) (fun _ ↦ none)
      [⟨openDoor "front", some (.notStarted "no robot")⟩] "door" = some "stuck" ∧
    executedState (fun _ ↦ none)
      [⟨openDoor "front", some (.notStarted "no robot")⟩] "door" = none ∧
    sessionState (.asListed _) (fun _ ↦ none)
      [⟨openDoor "front", some (.ended false (some "task failed") "")⟩] "problem" =
        some "task failed" ∧
    executedState (fun _ ↦ none)
      [⟨openDoor "front", some (.ended false (some "task failed") "")⟩] "problem" = some "" ∧
    ¬ ∀ steps, WellNamed steps → ∀ order initial,
      sessionState order initial steps = executedState initial steps := by
  refine ⟨⟨by decide, by decide⟩, by decide, by decide, by decide, by decide, fun h ↦ ?_⟩
  have hdoor := congrFun (h [⟨openDoor "front", some (.notStarted "no robot")⟩]
    ⟨by decide, by decide⟩ (.asListed _) fun _ ↦ none) "door"
  exact absurd hdoor (by decide)

end Api
end FleetServer
