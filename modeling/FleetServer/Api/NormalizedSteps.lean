import FleetServer.Api.StepNormalization

/-!
# Steps that are normalized again

What has been normalized is not changed when it is normalized again: a condition, a target, an end
state or a transition, and with them a step.

A step is rewritten group by group of its keys (`stepRewrites`).  No key is in two groups, so it is
enough that each group is left alone when it is rewritten again.
-/

set_option autoImplicit false

namespace FleetServer
namespace Api

open JsonObject

variable (letters : LetterCase)

/-! ## Conditions that are not rewritten -/

section Conditions

variable {letters} {cond : JsonObject}

structure NormalCondition (letters : LetterCase) (cond : JsonObject) : Prop where
  moved : ∀ pair ∈ conditionMoves, cond pair.1 = none
  online : (cond "require_online").isNone = false
  operator : ∀ op, cond "operator" = some (.string op) → letters.toLower op = op
  quantifier : ∀ q, cond "quantifier" = some (.string q) → normalizeQuantifier letters q = q

theorem normalizeQuantifier_idem (q : String) :
    normalizeQuantifier letters (normalizeQuantifier letters q) =
      normalizeQuantifier letters q := by
  have hall : letters.toLower "all" = "all" := letters.toLower_of_ascii (by decide)
  by_cases hevery : letters.toLower q = "every"
  · simp [normalizeQuantifier, hevery, hall]
  · simp [normalizeQuantifier, hevery]

theorem normalizeStartConditionKeys_of_normal (h : NormalCondition letters cond) :
    normalizeStartConditionKeys letters cond = cond := by
  rw [normalizeStartConditionKeys, moveAll_eq_self h.moved, h.online, if_neg Bool.false_ne_true,
    mapString_eq_self h.operator, mapString_eq_self h.quantifier]

theorem normalizeStartConditionKeys_of_ne {k : String} (honline : k ≠ "require_online")
    (hoperator : k ≠ "operator") (hquantifier : k ≠ "quantifier") :
    normalizeStartConditionKeys letters cond k = moveAll conditionMoves cond k := by
  rw [normalizeStartConditionKeys, mapString_of_ne hquantifier, mapString_of_ne hoperator]
  split
  · exact set_of_ne honline
  · rfl

theorem normal_normalizeStartConditionKeys (cond : JsonObject) :
    NormalCondition letters (normalizeStartConditionKeys letters cond) where
  moved pair hpair := by
    have hother : pair.1 ≠ "require_online" ∧ pair.1 ≠ "operator" ∧ pair.1 ≠ "quantifier" := by
      revert pair
      decide
    rw [normalizeStartConditionKeys_of_ne hother.1 hother.2.1 hother.2.2]
    exact moveAll_source (by decide) cond pair hpair
  online := by
    rw [normalizeStartConditionKeys, mapString_of_ne (by decide), mapString_of_ne (by decide)]
    split
    · rw [set_self, Option.isNone_some]
    · rename_i hpresent
      exact Bool.not_eq_true _ ▸ hpresent
  operator op hop := by
    rw [normalizeStartConditionKeys, mapString_of_ne (by decide)] at hop
    obtain ⟨raw, rfl⟩ := exists_of_mapString hop
    exact letters.toLower_toLower raw
  quantifier q hq := by
    obtain ⟨raw, rfl⟩ := exists_of_mapString hq
    exact normalizeQuantifier_idem raw

theorem setStartTarget_of_ne {k : String} (htarget : k ≠ "target_type") (hagent : k ≠ "agent_id")
    (quantifier agentID legacyAgentID : String) :
    setStartTarget cond quantifier agentID legacyAgentID k = cond k := by
  unfold setStartTarget
  split_ifs <;> simp only [set_of_ne htarget, set_of_ne hagent]

/-- The keys that a condition made of a start state can have besides those of its target. -/
def startConditionKeys : List String :=
  ["id", "quantifier", "state", "state_operator", "require_online", "operator"]

section StartStates

variable {state : JsonObject} {k : String}

theorem startConditionBase_of_not_mem (hk : k ∉ startConditionKeys) :
    startConditionBase letters state k = none := by
  simp only [startConditionKeys, List.mem_cons, List.not_mem_nil, or_false, not_or] at hk
  obtain ⟨hid, hquantifier, hstate, hstateOperator, honline, hoperator⟩ := hk
  rw [startConditionBase]
  split <;> simp only [set_of_ne, ne_eq, not_false_eq_true, hid, hquantifier, hstate,
    hstateOperator, honline, hoperator]

/-- Only the keys of its target are set later. -/
theorem startConditionFromStartState_of_ne
    (h : startConditionFromStartState letters state = some cond) (htarget : k ≠ "target_type")
    (hagent : k ≠ "agent_id") : cond k = startConditionBase letters state k := by
  rw [startConditionFromStartState] at h
  split at h
  · cases h
  · rw [← Option.some.inj h, setStartTarget_of_ne htarget hagent]

theorem normalizeQuantifier_startQuantifier (state : JsonObject) :
    normalizeQuantifier letters (startQuantifier letters state) =
      startQuantifier letters state := by
  have hself : letters.toLower "self" = "self" := letters.toLower_of_ascii (by decide)
  rw [startQuantifier]
  split
  · simp [normalizeQuantifier, hself]
  · exact normalizeQuantifier_idem _

theorem normal_startConditionFromStartState
    (h : startConditionFromStartState letters state = some cond) :
    NormalCondition letters cond where
  moved pair hpair := by
    have hother : pair.1 ≠ "target_type" ∧ pair.1 ≠ "agent_id" ∧ pair.1 ∉ startConditionKeys := by
      revert pair
      decide
    rw [startConditionFromStartState_of_ne h hother.1 hother.2.1]
    exact startConditionBase_of_not_mem hother.2.2
  online := by
    rw [startConditionFromStartState_of_ne h (by decide) (by decide), startConditionBase]
    split <;> simp [set_of_ne]
  operator op hop := by
    rw [startConditionFromStartState_of_ne h (by decide) (by decide), startConditionBase] at hop
    split at hop
    · rw [set_self] at hop
      obtain rfl : letters.toLower (extractString state "operator") = op := by simpa using hop
      exact letters.toLower_toLower _
    · simp [set_of_ne] at hop
  quantifier q hq := by
    have hvalue : startConditionBase letters state "quantifier" =
        some (.string (startQuantifier letters state)) := by
      rw [startConditionBase]
      split <;> simp [set_of_ne]
    rw [startConditionFromStartState_of_ne h (by decide) (by decide), hvalue] at hq
    obtain rfl : startQuantifier letters state = q := by simpa using hq
    exact normalizeQuantifier_startQuantifier state

end StartStates

/-- Conditions that are not rewritten are read as they are. -/
theorem normalizeStartConditions_of_normal {l : List JsonObject}
    (h : ∀ cond ∈ l, NormalCondition letters cond) :
    normalizeStartConditions letters (.array (l.map .object)) = l := by
  rw [normalizeStartConditions, extractMapList_objects]
  exact (List.map_congr_left fun cond hcond ↦
    normalizeStartConditionKeys_of_normal (h cond hcond)).trans (List.map_id l)

theorem normal_startConditionsOf {step : JsonObject} :
    ∀ cond ∈ startConditionsOf letters step, NormalCondition letters cond := by
  have hlist (raw : JsonValue) :
      ∀ cond ∈ normalizeStartConditions letters raw, NormalCondition letters cond := by
    intro cond hcond
    obtain ⟨source, -, rfl⟩ := List.mem_map.mp hcond
    exact normal_normalizeStartConditionKeys source
  intro cond hcond
  rcases mem_orElseList hcond with hcond | hcond
  · exact hlist _ cond hcond
  · rcases mem_orElseList hcond with hcond | hcond
    · exact hlist _ cond hcond
    · obtain ⟨state, -, hstate⟩ := List.mem_filterMap.mp hcond
      exact normal_startConditionFromStartState hstate

end Conditions

/-! ## Targets that are not rewritten -/

section Targets

variable {letters} {target : JsonObject}

structure NormalTarget (letters : LetterCase) (target : JsonObject) : Prop where
  moved : ∀ pair ∈ targetMoves, target pair.1 = none
  targetType : ∃ s, target "target_type" = some (.string s) ∧ s ≠ "" ∧ letters.toLower s = s

theorem normalizeStateTarget_of_normal (h : NormalTarget letters target) :
    normalizeStateTarget letters target = target := by
  obtain ⟨s, hs, hne, hlower⟩ := h.targetType
  have htype : extractString target "target_type" = s := by simp only [extractString, hs]
  rw [normalizeStateTarget, normalizeStateTargetKeys, moveAll_eq_self h.moved, htype, if_pos hne,
    hlower]
  exact set_eq_self hs

theorem normal_normalizeStateTarget (target : JsonObject) :
    NormalTarget letters (normalizeStateTarget letters target) where
  moved pair hpair := by
    have hother : pair.1 ≠ "target_type" := by
      revert pair
      decide
    have hmoved : normalizeStateTargetKeys target pair.1 = none :=
      moveAll_source (by decide) target pair hpair
    rw [normalizeStateTarget]
    split <;> rw [set_of_ne hother, hmoved]
  targetType := by
    rw [normalizeStateTarget]
    split
    · rename_i hne
      exact ⟨_, set_self .., by simpa using hne, letters.toLower_toLower _⟩
    · exact ⟨"self", set_self .., by decide, letters.toLower_of_ascii (by decide)⟩

theorem normal_selfTarget (state : String) : NormalTarget letters (selfTarget state) where
  moved pair hpair := by
    have hother : pair.1 ≠ "state" ∧ pair.1 ≠ "target_type" := by
      revert pair
      decide
    rw [selfTarget, set_of_ne hother.2, set_of_ne hother.1]
  targetType := ⟨"self", set_self .., by decide, letters.toLower_of_ascii (by decide)⟩

theorem normalizeStateTargets_of_normal {l : List JsonObject}
    (h : ∀ target ∈ l, NormalTarget letters target) :
    normalizeStateTargets letters (.array (l.map .object)) = l := by
  have hmap : l.map (normalizeStateTarget letters) = l :=
    (List.map_congr_left fun target htarget ↦
      normalizeStateTarget_of_normal (h target htarget)).trans (List.map_id l)
  rw [normalizeStateTargets, extractMapList_objects]
  split
  · rename_i hnone
    -- without objects there are no states of objects either
    have hnil : l = [] := by simpa using (Bool.and_eq_true_iff.mp hnone).2
    rw [hnil]
    rfl
  · exact hmap

theorem normal_duringTargetsOf {step : JsonObject} :
    ∀ target ∈ duringTargetsOf letters step, NormalTarget letters target := by
  have hlist (raw : JsonValue) :
      ∀ target ∈ normalizeStateTargets letters raw, NormalTarget letters target := by
    intro target htarget
    rw [normalizeStateTargets] at htarget
    split at htarget
    · obtain ⟨state, -, rfl⟩ := List.mem_map.mp htarget
      exact normal_selfTarget state
    · obtain ⟨source, -, rfl⟩ := List.mem_map.mp htarget
      exact normal_normalizeStateTarget source
  exact fun target htarget ↦ (mem_orElseList htarget).elim (hlist _ target) (hlist _ target)

end Targets

/-! ## End states and transitions that are not rewritten -/

section Outcomes

variable {letters} {m : JsonObject}

/-- The words for an outcome. -/
def outcomeWords : List String :=
  ["success", "failed", "aborted", "cancelled", "timeout", "rejected"]

theorem normalizeOutcome_of_mem {word : String} (h : word ∈ outcomeWords) :
    normalizeOutcome letters word = word := by
  have hlower : letters.toLower word = word := letters.toLower_of_ascii (by
    revert word
    decide)
  rw [normalizeOutcome, hlower]
  clear hlower
  revert word
  decide

theorem normalizeOutcome_toLower (value : String) :
    normalizeOutcome letters (letters.toLower value) = normalizeOutcome letters value := by
  simp only [normalizeOutcome, LetterCase.toLower_toLower]

variable (letters) in
theorem normalizeOutcome_mem_or (value : String) :
    normalizeOutcome letters value ∈ outcomeWords ∨
      normalizeOutcome letters value = letters.toLower value := by
  rw [normalizeOutcome]
  iterate 6
    split
    · exact Or.inl (by decide)
  exact Or.inr rfl

theorem normalizeOutcome_idem (value : String) :
    normalizeOutcome letters (normalizeOutcome letters value) =
      normalizeOutcome letters value := by
  rcases normalizeOutcome_mem_or letters value with hword | hlower
  · exact normalizeOutcome_of_mem hword
  · rw [hlower, normalizeOutcome_toLower, hlower]

theorem eq_empty_of_normalizeOutcome {value : String}
    (h : normalizeOutcome letters value = "") : value = "" := by
  rcases normalizeOutcome_mem_or letters value with hword | hlower
  · rw [h] at hword
    exact absurd hword (by decide)
  · exact letters.toLower_eq_empty.mp (hlower.symm.trans h)

variable (letters) in
theorem inferOutcomeFromEndState_mem (endState : JsonObject) (index : ℕ) :
    inferOutcomeFromEndState letters endState index ∈ outcomeWords := by
  rw [inferOutcomeFromEndState]
  split_ifs <;> decide

structure NormalEndState (letters : LetterCase) (endState : JsonObject) : Prop where
  condition : endState "condition" = none
  outcome : ∃ o, endState "outcome" = some (.string o) ∧ o ≠ "" ∧ normalizeOutcome letters o = o

theorem normalizeEndState_of_normal (h : NormalEndState letters m) (index : ℕ) :
    normalizeEndState letters index m = m := by
  obtain ⟨o, ho, hne, hnormal⟩ := h.outcome
  have houtcome : extractString m "outcome" = o := by simp only [extractString, ho]
  rw [normalizeEndState, houtcome, hnormal, if_neg hne, if_pos hne, set_eq_self ho,
    delete_eq_self h.condition]

theorem normal_normalizeEndState (endState : JsonObject) (index : ℕ) :
    NormalEndState letters (normalizeEndState letters index endState) where
  condition := delete_self ..
  outcome := by
    have hwords : ∀ word ∈ outcomeWords, word ≠ "" := by decide
    have hinferred := inferOutcomeFromEndState_mem letters endState index
    rw [normalizeEndState, delete_of_ne (by decide)]
    by_cases hnone : normalizeOutcome letters (extractString endState "outcome") = ""
    · -- an outcome that is inferred is one of the words
      rw [if_pos hnone, if_pos (hwords _ hinferred), set_self]
      exact ⟨_, rfl, hwords _ hinferred, normalizeOutcome_of_mem hinferred⟩
    · rw [if_neg hnone, if_pos hnone, set_self]
      exact ⟨_, rfl, hnone, normalizeOutcome_idem _⟩

theorem normalizeEndStates_of_normal {l : List JsonObject}
    (h : ∀ endState ∈ l, NormalEndState letters endState) :
    normalizeEndStates letters (.array (l.map .object)) = l := by
  rw [normalizeEndStates, extractMapList_objects]
  refine List.ext_getElem List.length_mapIdx fun i hi hi' ↦ ?_
  rw [List.getElem_mapIdx]
  exact normalizeEndState_of_normal (h _ (List.getElem_mem hi')) i

theorem normal_endStatesOf {step : JsonObject} :
    ∀ endState ∈ endStatesOf letters step, NormalEndState letters endState := by
  have hlist (raw : JsonValue) :
      ∀ endState ∈ normalizeEndStates letters raw, NormalEndState letters endState := by
    intro endState hendState
    obtain ⟨index, hindex, rfl⟩ := List.mem_mapIdx.mp hendState
    exact normal_normalizeEndState _ index
  exact fun endState h ↦ (mem_orElseList h).elim (hlist _ endState) (hlist _ endState)

theorem normalizeOutcomeTransition_idem (transition : JsonObject) :
    normalizeOutcomeTransition letters (normalizeOutcomeTransition letters transition) =
      normalizeOutcomeTransition letters transition := by
  have hcondition : normalizeOutcomeTransition letters transition "condition" = none :=
    delete_self ..
  have houtcome : normalizeOutcome letters
      (extractString (normalizeOutcomeTransition letters transition) "outcome") =
        extractString (normalizeOutcomeTransition letters transition) "outcome" := by
    rw [extractString, normalizeOutcomeTransition, delete_of_ne (by decide)]
    by_cases hnone : normalizeOutcome letters (extractString transition "outcome") = ""
    · rw [if_neg (not_not_intro hnone)]
      show normalizeOutcome letters (extractString transition "outcome") =
        extractString transition "outcome"
      rw [hnone, eq_empty_of_normalizeOutcome hnone]
    · rw [if_pos hnone, set_self]
      exact normalizeOutcome_idem _
  generalize normalizeOutcomeTransition letters transition = out at *
  rw [normalizeOutcomeTransition, houtcome]
  split
  · rename_i hne
    rw [set_eq_self (extractString_of_ne hne), delete_eq_self hcondition]
  · exact delete_eq_self hcondition

theorem normalizeOutcomeTransitions_idem (raw : JsonValue) :
    normalizeOutcomeTransitions letters (normalizeOutcomeTransitions letters raw) =
      normalizeOutcomeTransitions letters raw := by
  by_cases hnone : (extractMapList raw).isEmpty
  · have hnull : normalizeOutcomeTransitions letters raw = .null := if_pos hnone
    rw [hnull]
    rfl
  · have hlist : normalizeOutcomeTransitions letters raw =
        .array (((extractMapList raw).map (normalizeOutcomeTransition letters)).map .object) := by
      rw [normalizeOutcomeTransitions, if_neg hnone, List.map_map]
      rfl
    rw [hlist, normalizeOutcomeTransitions, extractMapList_objects,
      if_neg (by simpa using hnone), List.map_map, List.map_map]
    exact congrArg JsonValue.array (List.map_congr_left fun transition _ ↦
      congrArg JsonValue.object (normalizeOutcomeTransition_idem transition))

theorem normalizeTransitionKeys_onOutcomes (raw : JsonObject) :
    normalizeTransitionKeys letters raw "onOutcomes" = none := by
  rw [normalizeTransitionKeys, mapMember_of_ne (by decide)]
  cases hold : raw "onOutcomes" with
  | none => exact hold
  | some v => exact delete_self ..

/-- Outcomes that are written are not rewritten again. -/
theorem normalizeTransitionKeys_on_outcomes {raw : JsonObject} {v : JsonValue}
    (h : normalizeTransitionKeys letters raw "on_outcomes" = some v) :
    normalizeOutcomeTransitions letters v = v := by
  rw [normalizeTransitionKeys, mapMember_self] at h
  obtain ⟨source, -, rfl⟩ := Option.map_eq_some_iff.mp h
  exact normalizeOutcomeTransitions_idem source

theorem normalizeTransitionKeys_idem (raw : JsonObject) :
    normalizeTransitionKeys letters (normalizeTransitionKeys letters raw) =
      normalizeTransitionKeys letters raw := by
  have hnew : mapMember (normalizeTransitionKeys letters raw) "on_outcomes"
      (normalizeOutcomeTransitions letters) = normalizeTransitionKeys letters raw :=
    mapMember_eq_self fun _ ↦ normalizeTransitionKeys_on_outcomes
  rw [normalizeTransitionKeys, normalizeTransitionKeys_onOutcomes]
  exact hnew

end Outcomes

/-! ## The groups of keys of a step

For each group: rewriting it again changes nothing, and it is rewritten by itself. -/

section Groups

variable {letters} {step out : JsonObject}

theorem normalizeStartFields_idem (step : JsonObject) :
    normalizeStartFields letters (normalizeStartFields letters step) =
      normalizeStartFields letters step := by
  have hkey : normalizeStartFields letters step "start_conditions" =
      setObjects step "start_conditions" (startConditionsOf letters step) "start_conditions" := by
    rw [normalizeStartFields, delete_of_ne (by decide), delete_of_ne (by decide)]
  have hstates : normalizeStartFields letters step "startStates" = none := by
    rw [normalizeStartFields, delete_of_ne (by decide), delete_self]
  have hold : normalizeStartFields letters step "startConditions" = none := delete_self ..
  generalize normalizeStartFields letters step = out at *
  have hconditions : startConditionsOf letters out = startConditionsOf letters step := by
    rw [startConditionsOf, objects_again hkey
      (normalizeStartConditions_of_normal normal_startConditionsOf)
      (fun hnil ↦ (orElseList_eq_nil.mp hnil).1), read_eq_null hold, read_eq_null hstates]
    exact orElseList_nil _
  rw [normalizeStartFields, hconditions, setObjects_again hkey, delete_eq_self hstates,
    delete_eq_self hold]

theorem normalizeJobName_idem (step : JsonObject) :
    normalizeJobName (normalizeJobName step) = normalizeJobName step := by
  have hold : normalizeJobName step "jobName" = none := delete_self ..
  generalize normalizeJobName step = out at *
  rw [normalizeJobName, hold]
  exact delete_eq_self hold

theorem removeAutoGenerateStates_idem (step : JsonObject) :
    removeAutoGenerateStates (removeAutoGenerateStates step) = removeAutoGenerateStates step := by
  have hold : removeAutoGenerateStates step "autoGenerateStates" = none := by
    rw [removeAutoGenerateStates, delete_of_ne (by decide), delete_self]
  have hnew : removeAutoGenerateStates step "auto_generate_states" = none := delete_self ..
  generalize removeAutoGenerateStates step = out at *
  rw [removeAutoGenerateStates, delete_eq_self hold, delete_eq_self hnew]

theorem normalizePreStates_idem (step : JsonObject) :
    normalizePreStates (normalizePreStates step) = normalizePreStates step := by
  have hkey : normalizePreStates step "pre_states" =
      setStrings step "pre_states" (statesOf step "pre_states" "preStates") "pre_states" := by
    rw [normalizePreStates, delete_of_ne (by decide)]
  have hold : normalizePreStates step "preStates" = none := delete_self ..
  generalize normalizePreStates step = out at *
  rw [normalizePreStates, statesOf_again hold hkey (distinct_statesOf ..) id,
    setStrings_again hkey, delete_eq_self hold]

/-- The states during a step, or those of its targets. -/
def duringStatesOf (letters : LetterCase) (step : JsonObject) : List String :=
  orElseList (statesOf step "during_states" "duringStates")
    (extractSelfStatesFromTargets letters (duringTargetsOf letters step))

theorem distinct_extractSelfStatesFromTargets (targets : List JsonObject) :
    Distinct (extractSelfStatesFromTargets letters targets) := by
  rw [extractSelfStatesFromTargets]
  cases hfound : targets.findSome? (selfState letters) with
  | none => exact ⟨List.nodup_nil, List.not_mem_nil⟩
  | some state =>
    obtain ⟨target, -, hstate⟩ := List.exists_of_findSome?_eq_some hfound
    have hne : state ≠ "" := by
      rw [selfState] at hstate
      split_ifs at hstate with hother hnonempty
      exact Option.some.inj hstate ▸ hnonempty
    exact ⟨by simp, by simpa using hne.symm⟩

theorem distinct_duringStatesOf (step : JsonObject) : Distinct (duringStatesOf letters step) := by
  rw [duringStatesOf, orElseList]
  split
  · exact distinct_extractSelfStatesFromTargets _
  · exact distinct_statesOf ..

theorem normalizeDuringStates_of_ne {k : String} (h : k ≠ "during_states") :
    normalizeDuringStates letters step k =
      delete (setObjects
        (delete (setStrings step "during_states" (statesOf step "during_states" "duringStates"))
          "duringStates")
        "during_state_targets" (duringTargetsOf letters step)) "duringStateTargets" k := by
  rw [normalizeDuringStates]
  split
  · exact setStrings_of_ne h _
  · rfl

variable (letters) in
theorem normalizeDuringStates_during_states (step : JsonObject) :
    normalizeDuringStates letters step "during_states" =
      setStrings step "during_states" (duringStatesOf letters step) "during_states" := by
  rw [normalizeDuringStates]
  by_cases hnone : statesOf step "during_states" "duringStates" = []
  · have hstates : duringStatesOf letters step =
        extractSelfStatesFromTargets letters (duringTargetsOf letters step) := by
      rw [duringStatesOf, hnone]
      rfl
    rw [if_pos (by simpa using hnone), hstates]
    refine setStrings_congr ?_ _
    rw [delete_of_ne (by decide), setObjects_of_ne (by decide), delete_of_ne (by decide), hnone,
      setStrings_nil]
  · rw [if_neg (by simpa using hnone), duringStatesOf, orElseList_of_ne hnone,
      delete_of_ne (by decide), setObjects_of_ne (by decide), delete_of_ne (by decide)]

theorem normalizeDuringStates_idem (step : JsonObject) :
    normalizeDuringStates letters (normalizeDuringStates letters step) =
      normalizeDuringStates letters step := by
  have hstates := normalizeDuringStates_during_states letters step
  have hold : normalizeDuringStates letters step "duringStates" = none := by
    rw [normalizeDuringStates_of_ne (by decide), delete_of_ne (by decide),
      setObjects_of_ne (by decide), delete_self]
  have htargets : normalizeDuringStates letters step "during_state_targets" =
      setObjects step "during_state_targets" (duringTargetsOf letters step)
        "during_state_targets" := by
    rw [normalizeDuringStates_of_ne (by decide), delete_of_ne (by decide)]
    exact setObjects_congr (by rw [delete_of_ne (by decide), setStrings_of_ne (by decide)]) _
  have holdTargets : normalizeDuringStates letters step "duringStateTargets" = none := by
    rw [normalizeDuringStates_of_ne (by decide), delete_self]
  generalize normalizeDuringStates letters step = out at *
  have hstatesOf : statesOf out "during_states" "duringStates" = duringStatesOf letters step :=
    statesOf_again hold hstates (distinct_duringStatesOf step)
      fun hnil ↦ (orElseList_eq_nil.mp hnil).1
  have htargetsOf : duringTargetsOf letters out = duringTargetsOf letters step := by
    rw [duringTargetsOf, objects_again htargets
      (normalizeStateTargets_of_normal normal_duringTargetsOf)
      (fun hnil ↦ (orElseList_eq_nil.mp hnil).1), read_eq_null holdTargets]
    exact orElseList_nil _
  rw [normalizeDuringStates, hstatesOf, htargetsOf, setStrings_again hstates, delete_eq_self hold,
    setObjects_again htargets, delete_eq_self holdTargets]
  split
  · rename_i hnone
    -- without states there is none among the targets either
    have hself := (orElseList_eq_nil.mp (List.isEmpty_iff.mp hnone)).2
    rw [hself, setStrings_nil]
  · rfl

section ResultStates

variable {successStates failureStates : List String} {endStates : JsonValue}

theorem resultStatesOf_idem :
    resultStatesOf letters (resultStatesOf letters successStates failureStates endStates).1
        (resultStatesOf letters successStates failureStates endStates).2 endStates =
      resultStatesOf letters successStates failureStates endStates := by
  by_cases hnone : successStates.isEmpty && failureStates.isEmpty
  · have hclassified : resultStatesOf letters successStates failureStates endStates =
        classifyEndStates letters endStates := if_pos hnone
    rw [hclassified, resultStatesOf]
    split <;> rfl
  · have hgiven : resultStatesOf letters successStates failureStates endStates =
        (successStates, failureStates) := if_neg hnone
    rw [hgiven]
    exact hgiven

/-- No states are given up for those of the end states. -/
theorem eq_nil_of_resultStatesOf :
    ((resultStatesOf letters successStates failureStates endStates).1 = [] → successStates = []) ∧
      ((resultStatesOf letters successStates failureStates endStates).2 = [] →
        failureStates = []) := by
  rw [resultStatesOf]
  split
  · rename_i hnone
    rw [Bool.and_eq_true, List.isEmpty_iff, List.isEmpty_iff] at hnone
    exact ⟨fun _ ↦ hnone.1, fun _ ↦ hnone.2⟩
  · exact ⟨id, id⟩

theorem distinct_resultStatesOf (hsuccess : Distinct successStates)
    (hfailure : Distinct failureStates) :
    Distinct (resultStatesOf letters successStates failureStates endStates).1 ∧
      Distinct (resultStatesOf letters successStates failureStates endStates).2 := by
  rw [resultStatesOf]
  split
  · exact ⟨distinct_dedupeStrings _, distinct_dedupeStrings _⟩
  · exact ⟨hsuccess, hfailure⟩

end ResultStates

/-- The states that are written for a success and for a failure. -/
def writtenResultStates (letters : LetterCase) (step : JsonObject) : List String × List String :=
  resultStatesOf letters (statesOf step "success_states" "successStates")
    (statesOf step "failure_states" "failureStates")
    (read (setObjects step "end_states" (endStatesOf letters step)) "end_states")

theorem normalizeResultStates_eq (step : JsonObject) :
    normalizeResultStates letters step =
      delete (delete (delete
        (setStrings
          (setStrings (setObjects step "end_states" (endStatesOf letters step)) "success_states"
            (writtenResultStates letters step).1)
          "failure_states" (writtenResultStates letters step).2)
        "successStates") "failureStates") "endStates" :=
  rfl

theorem normalizeResultStates_idem (step : JsonObject) :
    normalizeResultStates letters (normalizeResultStates letters step) =
      normalizeResultStates letters step := by
  have hend : normalizeResultStates letters step "end_states" =
      setObjects step "end_states" (endStatesOf letters step) "end_states" := by
    rw [normalizeResultStates_eq]
    simp only [delete_of_ne, setStrings_of_ne, ne_eq, String.reduceEq, not_false_eq_true]
  have hsuccess : normalizeResultStates letters step "success_states" =
      setStrings step "success_states" (writtenResultStates letters step).1 "success_states" := by
    rw [normalizeResultStates_eq]
    simp only [delete_of_ne, setStrings_of_ne, ne_eq, String.reduceEq, not_false_eq_true]
    exact setStrings_congr (setObjects_of_ne (by decide) _) _
  have hfailure : normalizeResultStates letters step "failure_states" =
      setStrings step "failure_states" (writtenResultStates letters step).2 "failure_states" := by
    rw [normalizeResultStates_eq]
    simp only [delete_of_ne, ne_eq, String.reduceEq, not_false_eq_true]
    exact setStrings_congr
      (by rw [setStrings_of_ne (by decide), setObjects_of_ne (by decide)]) _
  have holdSuccess : normalizeResultStates letters step "successStates" = none := by
    rw [normalizeResultStates_eq, delete_of_ne (by decide), delete_of_ne (by decide), delete_self]
  have holdFailure : normalizeResultStates letters step "failureStates" = none := by
    rw [normalizeResultStates_eq, delete_of_ne (by decide), delete_self]
  have holdEnd : normalizeResultStates letters step "endStates" = none := delete_self ..
  have hdistinct : Distinct (writtenResultStates letters step).1 ∧
      Distinct (writtenResultStates letters step).2 :=
    distinct_resultStatesOf (distinct_statesOf ..) (distinct_statesOf ..)
  have hread : read (normalizeResultStates letters step) "end_states" =
      read (setObjects step "end_states" (endStatesOf letters step)) "end_states" := by
    rw [JsonObject.read, JsonObject.read, hend]
  generalize normalizeResultStates letters step = out at *
  have hendStates : endStatesOf letters out = endStatesOf letters step := by
    rw [endStatesOf, objects_again hend (normalizeEndStates_of_normal normal_endStatesOf)
      (fun hnil ↦ (orElseList_eq_nil.mp hnil).1), read_eq_null holdEnd]
    exact orElseList_nil _
  have hwritten : writtenResultStates letters out = writtenResultStates letters step := by
    rw [writtenResultStates,
      statesOf_again holdSuccess hsuccess hdistinct.1 eq_nil_of_resultStatesOf.1,
      statesOf_again holdFailure hfailure hdistinct.2 eq_nil_of_resultStatesOf.2, hendStates,
      setObjects_again hend, hread]
    exact resultStatesOf_idem
  rw [normalizeResultStates_eq, hendStates, hwritten, setObjects_again hend,
    setStrings_again hsuccess, setStrings_again hfailure, delete_eq_self holdSuccess,
    delete_eq_self holdFailure, delete_eq_self holdEnd]

theorem normalizeTransition_idem (step : JsonObject) :
    normalizeTransition letters (normalizeTransition letters step) =
      normalizeTransition letters step := by
  by_cases hobject : ∃ raw, step "transition" = some (.object raw)
  · obtain ⟨raw, hraw⟩ := hobject
    have hset : normalizeTransition letters step =
        set step "transition" (.object (normalizeTransitionKeys letters raw)) := by
      simp only [normalizeTransition, hraw]
    rw [hset, normalizeTransition, set_self]
    exact set_eq_self (by rw [set_self, normalizeTransitionKeys_idem])
  · have hself : normalizeTransition letters step = step := by
      rw [normalizeTransition]
      split
      · exact absurd ⟨_, by assumption⟩ hobject
      · rfl
    rw [hself, hself]

theorem localTo_normalizeStartFields :
    LocalTo ["start_conditions", "startStates", "startConditions"]
      (normalizeStartFields letters) where
  frame m k hk := by
    simp only [List.mem_cons, List.not_mem_nil, or_false, not_or] at hk
    rw [normalizeStartFields, delete_of_ne hk.2.2, delete_of_ne hk.2.1, setObjects_of_ne hk.1]
  congr m m' h := by
    have hconditions : startConditionsOf letters m = startConditionsOf letters m' := by
      simp only [startConditionsOf, h.read_eq, List.mem_cons, true_or, or_true]
    rw [normalizeStartFields, normalizeStartFields, hconditions]
    exact ((agreeOn_setObjects h _ _).delete _).delete _

theorem localTo_normalizeJobName : LocalTo ["job_name", "jobName"] normalizeJobName where
  frame m k hk := by
    simp only [List.mem_cons, List.not_mem_nil, or_false, not_or] at hk
    rw [normalizeJobName, delete_of_ne hk.2]
    cases m "jobName" with
    | none => rfl
    | some v =>
      cases v with
      | string jobName =>
        dsimp only
        split
        · exact set_of_ne hk.1
        · rfl
      | _ => rfl
  congr m m' h := by
    rw [normalizeJobName, normalizeJobName, h "jobName" (by decide)]
    refine AgreeOn.delete ?_ _
    split
    · split
      · exact h.set _ _
      · exact h
    · exact h

theorem localTo_removeAutoGenerateStates :
    LocalTo ["autoGenerateStates", "auto_generate_states"] removeAutoGenerateStates where
  frame m k hk := by
    simp only [List.mem_cons, List.not_mem_nil, or_false, not_or] at hk
    rw [removeAutoGenerateStates, delete_of_ne hk.2, delete_of_ne hk.1]
  congr m m' h := (h.delete _).delete _

theorem localTo_normalizePreStates : LocalTo ["pre_states", "preStates"] normalizePreStates where
  frame m k hk := by
    simp only [List.mem_cons, List.not_mem_nil, or_false, not_or] at hk
    rw [normalizePreStates, delete_of_ne hk.2, setStrings_of_ne hk.1]
  congr m m' h := by
    rw [normalizePreStates, normalizePreStates, agreeOn_statesOf h (by decide) (by decide)]
    exact (agreeOn_setStrings h _ _).delete _

theorem localTo_normalizeDuringStates :
    LocalTo ["during_states", "duringStates", "during_state_targets", "duringStateTargets"]
      (normalizeDuringStates letters) where
  frame m k hk := by
    simp only [List.mem_cons, List.not_mem_nil, or_false, not_or] at hk
    rw [normalizeDuringStates_of_ne hk.1, delete_of_ne hk.2.2.2, setObjects_of_ne hk.2.2.1,
      delete_of_ne hk.2.1, setStrings_of_ne hk.1]
  congr m m' h := by
    have htargets : duringTargetsOf letters m = duringTargetsOf letters m' := by
      simp only [duringTargetsOf, h.read_eq, List.mem_cons, true_or, or_true]
    rw [normalizeDuringStates, normalizeDuringStates, htargets,
      agreeOn_statesOf h (by decide) (by decide)]
    have hout := (agreeOn_setObjects ((agreeOn_setStrings h "during_states"
      (statesOf m' "during_states" "duringStates")).delete "duringStates") "during_state_targets"
      (duringTargetsOf letters m')).delete "duringStateTargets"
    split
    · exact agreeOn_setStrings hout _ _
    · exact hout

theorem localTo_normalizeResultStates :
    LocalTo ["success_states", "successStates", "failure_states", "failureStates", "end_states",
      "endStates"] (normalizeResultStates letters) where
  frame m k hk := by
    simp only [List.mem_cons, List.not_mem_nil, or_false, not_or] at hk
    obtain ⟨hsuccess, holdSuccess, hfailure, holdFailure, hend, holdEnd⟩ := hk
    rw [normalizeResultStates_eq, delete_of_ne holdEnd, delete_of_ne holdFailure,
      delete_of_ne holdSuccess, setStrings_of_ne hfailure, setStrings_of_ne hsuccess,
      setObjects_of_ne hend]
  congr m m' h := by
    have hend : endStatesOf letters m = endStatesOf letters m' := by
      simp only [endStatesOf, h.read_eq, List.mem_cons, true_or, or_true]
    have hwritten : writtenResultStates letters m = writtenResultStates letters m' := by
      rw [writtenResultStates, writtenResultStates, hend,
        agreeOn_statesOf h (by decide) (by decide), agreeOn_statesOf h (by decide) (by decide),
        (agreeOn_setObjects h "end_states" (endStatesOf letters m')).read_eq (by decide)]
    rw [normalizeResultStates_eq, normalizeResultStates_eq, hend, hwritten]
    exact (((agreeOn_setStrings (agreeOn_setStrings (agreeOn_setObjects h _ _) _ _) _ _).delete
      _).delete _).delete _

theorem localTo_normalizeTransition : LocalTo ["transition"] (normalizeTransition letters) where
  frame m k hk := by
    rw [normalizeTransition]
    cases m "transition" with
    | none => rfl
    | some v =>
      cases v with
      | object raw => exact set_of_ne (by simpa using hk)
      | _ => rfl
  congr m m' h := by
    rw [normalizeTransition, normalizeTransition, h "transition" (by decide)]
    split
    · exact h.set _ _
    · exact h

end Groups

/-! ## Steps that are normalized again -/

section Steps

/-- The groups of keys of a step, in the order in which they are rewritten. -/
def stepRewrites : List Rewrite :=
  [⟨_, normalizeStartFields letters, localTo_normalizeStartFields, normalizeStartFields_idem⟩,
    ⟨_, normalizeJobName, localTo_normalizeJobName, normalizeJobName_idem⟩,
    ⟨_, removeAutoGenerateStates, localTo_removeAutoGenerateStates, removeAutoGenerateStates_idem⟩,
    ⟨_, normalizePreStates, localTo_normalizePreStates, normalizePreStates_idem⟩,
    ⟨_, normalizeDuringStates letters, localTo_normalizeDuringStates, normalizeDuringStates_idem⟩,
    ⟨_, normalizeResultStates letters, localTo_normalizeResultStates, normalizeResultStates_idem⟩,
    ⟨_, normalizeTransition letters, localTo_normalizeTransition, normalizeTransition_idem⟩]

theorem normalizeBehaviorTreeStep_eq (step : JsonObject) :
    normalizeBehaviorTreeStep letters step = applyAll (stepRewrites letters) step := by
  simp only [normalizeBehaviorTreeStep, applyAll, stepRewrites, List.foldl_cons, List.foldl_nil]

/-- No key is in two groups. -/
theorem nodup_stepRewrites : ((stepRewrites letters).flatMap Rewrite.keys).Nodup := by
  show List.Nodup ["start_conditions", "startStates", "startConditions", "job_name", "jobName",
    "autoGenerateStates", "auto_generate_states", "pre_states", "preStates", "during_states",
    "duringStates", "during_state_targets", "duringStateTargets", "success_states",
    "successStates", "failure_states", "failureStates", "end_states", "endStates", "transition"]
  decide +kernel

theorem normalizeBehaviorTreeStep_idem (step : JsonObject) :
    normalizeBehaviorTreeStep letters (normalizeBehaviorTreeStep letters step) =
      normalizeBehaviorTreeStep letters step := by
  rw [normalizeBehaviorTreeStep_eq, normalizeBehaviorTreeStep_eq]
  exact applyAll_idem (nodup_stepRewrites letters) step

/-- **Normalized steps are not changed when they are normalized again**, whatever JSON the steps of
a request are: the steps of a tree that was saved and loaded are saved as they are. -/
theorem normalizeBehaviorTreeSteps_idem (raw : Option (List (Option JsonObject))) :
    normalizeBehaviorTreeSteps letters
        ((normalizeBehaviorTreeSteps letters raw).map (List.map some)) =
      normalizeBehaviorTreeSteps letters raw := by
  cases raw with
  | none => rfl
  | some steps =>
    refine congrArg some ?_
    show List.filterMap _ (List.map some (List.filterMap _ steps)) = List.filterMap _ steps
    rw [List.filterMap_map, List.filterMap_filterMap]
    refine List.filterMap_congr fun step _ ↦ ?_
    cases step with
    | none => rfl
    | some step => exact congrArg some (normalizeBehaviorTreeStep_idem letters step)

/-- A step in the old spelling, with end states that have no outcome. -/
def oldStep : JsonObject := fun key ↦
  if key = "endStates" then
    some (.array [.object (set (fun _ ↦ none) "state" (.string "Idle")),
      .object (set (fun _ ↦ none) "state" (.string "Error"))])
  else none

example :
    let step := normalizeBehaviorTreeStep LetterCase.asciiLetters oldStep
    (extractStateList (read step "success_states"), extractStateList (read step "failure_states"),
      (endStatesOf LetterCase.asciiLetters step).map (extractString · "outcome")) =
      (["Idle"], ["Error"], ["success", "failed"]) := by
  decide +kernel

end Steps

end Api
end FleetServer
