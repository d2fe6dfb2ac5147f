import FleetServer.Api.EffectAgreement

/-!
# The message of a step in the planning state

A step that ends with a warning or an error leaves its message in the variable that its task names
for it.  `appendPlanningMessageEffect` compares trimmed names and overwrites the *first* effect of
the variable; `applyPlanningEffects` stores the names as they are and lets the *last* effect of a
name count.  `message_shown_iff` says which lists of effects the message survives.
-/

set_option autoImplicit false

namespace FleetServer
namespace Executor

open Api GoString Pddl

variable {effects : List PlanningEffect} {v message : String} {current : PlanningState}

/-- What the effects leave of a message for the variable `v`.  After the first effect whose variable
reads `v` when it is trimmed, either some effect writes `v` again, and the last of these has the
text of the message itself; or none does, and that first effect has no white space around its
variable, or the text was there before. -/
def KeepsMessage (current : PlanningState) (effects : List PlanningEffect) (v message : String) :
    Prop :=
  match effects.dropWhile (trimSpace ·.var ≠ v) with
  | [] => True
  | first :: later =>
    match finalWrite later v with
    | some value => value = message
    | none => first.var = v ∨ current v = some message

/-! ## Writing the message -/

theorem finalWrite_writeMessage (hv : trimSpace v = v) :
    finalWrite (writeMessage v message effects) v =
      match effects.dropWhile (trimSpace ·.var ≠ v) with
      | [] => some message
      | first :: later =>
        (finalWrite later v).or (if first.var = v then some message else none) := by
  induction effects with
  | nil =>
    rw [writeMessage, finalWrite_cons, if_pos rfl]
    rfl
  | cons effect rest ih =>
    rw [writeMessage]
    by_cases heffect : trimSpace effect.var = v
    · rw [if_pos heffect, List.dropWhile_cons_of_neg (by simpa using heffect), finalWrite_cons]
    · have hne : effect.var ≠ v := fun h ↦ heffect (h ▸ hv)
      rw [if_neg heffect, List.dropWhile_cons_of_pos (by simpa using heffect), finalWrite_cons,
        if_neg hne, Option.or_none, ih]

/-- Leaving out the blank variables changes nothing for one that is not blank. -/
theorem planningEffects_apply (hv : trimSpace v ≠ "") :
    planningEffects effects v = finalWrite effects v := by
  rw [planningEffects]
  induction effects with
  | nil => rfl
  | cons effect rest ih =>
    rw [finalWrite_cons, ← ih]
    by_cases hblank : trimSpace effect.var = ""
    · have hne : effect.var ≠ v := fun h ↦ hv (h ▸ hblank)
      rw [List.filter_cons_of_neg (by simpa using hblank), if_neg hne, Option.or_none]
    · rw [List.filter_cons_of_pos (by simpa using hblank), finalWrite_cons]

/-- **The message that is written is the one that is read when the effects keep it.** -/
theorem applyPlanningEffects_writeMessage_iff (hv : trimSpace v = v) (hne : v ≠ "") :
    applyPlanningEffects current (writeMessage v message effects) v = some message ↔
      KeepsMessage current effects v message := by
  have hblank : trimSpace v ≠ "" := hv.symm ▸ hne
  rw [applyPlanningEffects, updatePlanningState, planningEffects_apply hblank,
    finalWrite_writeMessage hv, KeepsMessage]
  split
  · simp
  · rename_i first later _
    cases hlater : finalWrite later v with
    | some value => simp
    | none =>
      by_cases hfirst : first.var = v
      · simp [hfirst]
      · simp [hfirst]

/-! ## The end of a step -/

/-- **The planning state shows the message of a step** in its variable exactly when the effects of
the step keep it. -/
theorem message_shown_iff (assignment : TaskAssignment) (contextDone : Bool) (err : Option String)
    (message : String) (current : PlanningState)
    (hvariable : trimSpace (endEffects assignment err message).2 ≠ "") :
    afterStep current ⟨assignment, some (.ended contextDone err message)⟩
        (trimSpace (endEffects assignment err message).2) =
        some (trimSpace (executorMessage err message)) ↔
      KeepsMessage current (endEffects assignment err message).1
        (trimSpace (endEffects assignment err message).2)
        (trimSpace (executorMessage err message)) := by
  have hafter : afterStep current ⟨assignment, some (.ended contextDone err message)⟩ =
      applyPlanningEffects current (stepEffects assignment (.ended contextDone err message)) := rfl
  rw [hafter, stepEffects_ended, appendPlanningMessageEffect, if_neg hvariable]
  exact applyPlanningEffects_writeMessage_iff (trimSpace_trimSpace _) hvariable

/-! ## A door that jams -/

/-- The message of the jam is kept: no other effect of the task writes its variable. -/
theorem jammedDoor_shown :
    afterStep (fun _ ↦ none) ⟨openDoor "front", some (.ended false none "e: jammed ")⟩ "problem" =
      some "jammed" :=
  (message_shown_iff (openDoor "front") false none "e: jammed " (fun _ ↦ none) (by decide)).mpr
    trivial

/-- A task that first clears the variable of its message, and names the problem if there is one. -/
def openDoorClearing : TaskAssignment :=
  { openDoor "front" with
    resultStates := [⟨"problem", ""⟩], errorResultStates := [⟨"problem", "stuck"⟩] }

/-- **The message is written over what the task clears**, and the effect after it hides it. -/
theorem clearedMessage_hidden :
    afterStep (fun _ ↦ none) ⟨openDoorClearing, some (.ended false none "e: jammed")⟩ "problem" =
      some "stuck" ∧
    ¬ ∀ (assignment : TaskAssignment) (contextDone : Bool) (err : Option String)
      (message : String) (current : PlanningState),
      trimSpace (endEffects assignment err message).2 ≠ "" →
        afterStep current ⟨assignment, some (.ended contextDone err message)⟩
          (trimSpace (endEffects assignment err message).2) =
          some (trimSpace (executorMessage err message)) := by
  refine ⟨by decide, fun h ↦ ?_⟩
  exact absurd (h openDoorClearing false none "e: jammed" (fun _ ↦ none) (by decide)) (by decide)

end Executor
end FleetServer
