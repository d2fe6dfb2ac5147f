import FleetServer.Lib.GoString
import FleetServer.Lib.JsonValue
import FleetServer.Lib.LetterCase

/-!
# Normalization of behavior tree steps

`normalizeBehaviorTreeSteps` (`internal/api/behavior_tree_normalize.go`) rewrites the steps of a
request before they are stored: keys in the old spelling are moved to the new one, and some members
are derived from others.  It works on any JSON objects.

A Go value is the JSON value it is written as; a slice that is nil is a null.
-/

set_option autoImplicit false

namespace FleetServer
namespace Api

open GoString JsonObject

variable (letters : LetterCase)

/-! ## Reading values -/

def extractMapList : JsonValue → List JsonObject
  | .array items => items.filterMap JsonValue.asObject
  | _ => []

def extractString (values : JsonObject) (key : String) : String :=
  match values key with
  | some (.string s) => s
  | _ => ""

/-- The text of an item of a list of states: a text, or the state of an object. -/
def stateText : JsonValue → Option String
  | .string s => if s ≠ "" then some s else none
  | .object members =>
    if extractString members "state" ≠ "" then some (extractString members "state") else none
  | _ => none

def extractStringList : JsonValue → List String
  | .array items => items.filterMap stateText
  | _ => []

/-- The loop of `dedupeStrings`; `seen` are the texts that are kept already. -/
def dedupe (seen : List String) : List String → List String
  | [] => []
  | value :: rest =>
    if value = "" ∨ value ∈ seen then dedupe seen rest else value :: dedupe (value :: seen) rest

def dedupeStrings (values : List String) : List String := dedupe [] values

def extractStateList (raw : JsonValue) : List String := dedupeStrings (extractStringList raw)

def containsAny (value : String) (terms : List String) : Bool := terms.any (contains value ·)

/-- The first list, or the second if the first is empty. -/
def orElseList {α : Type} (first second : List α) : List α :=
  if first.isEmpty then second else first

def setObjects (m : JsonObject) (key : String) (objects : List JsonObject) : JsonObject :=
  if objects.isEmpty then m else set m key (.array (objects.map .object))

def setStrings (m : JsonObject) (key : String) (strings : List String) : JsonObject :=
  if strings.isEmpty then m else set m key (.array (strings.map .string))

/-! ## Start conditions -/

/-- The old keys of a condition with the new ones, in the order in which they are moved. -/
def conditionMoves : List (String × String) :=
  [("stateOperator", "state_operator"), ("allowedStates", "allowed_states"),
    ("maxStalenessSec", "max_staleness_sec"), ("requireOnline", "require_online"),
    ("targetType", "target_type"), ("robotId", "agent_id"), ("agentId", "agent_id"),
    ("robot_id", "agent_id"), ("agentType", "agent_id")]

/-- A quantifier in lower case, with its other name for all. -/
def normalizeQuantifier (quantifier : String) : String :=
  if letters.toLower quantifier = "every" then "all" else letters.toLower quantifier

def normalizeStartConditionKeys (cond : JsonObject) : JsonObject :=
  let cond := moveAll conditionMoves cond
  let cond := if (cond "require_online").isNone then set cond "require_online" (.bool true)
    else cond
  let cond := mapString cond "operator" letters.toLower
  mapString cond "quantifier" (normalizeQuantifier letters)

def normalizeStartConditions (raw : JsonValue) : List JsonObject :=
  (extractMapList raw).map (normalizeStartConditionKeys letters)

/-- The target of a condition that is made of a start state. -/
def setStartTarget (cond : JsonObject) (quantifier agentID legacyAgentID : String) : JsonObject :=
  if quantifier = "self" then set cond "target_type" (.string "self")
  else if quantifier = "specific" then
    let cond := set cond "target_type" (.string "agent")
    if agentID ≠ "" then set cond "agent_id" (.string agentID)
    else if legacyAgentID ≠ "" then set cond "agent_id" (.string legacyAgentID)
    else cond
  else if agentID ≠ "" then
    set (set cond "target_type" (.string "agent")) "agent_id" (.string agentID)
  else set cond "target_type" (.string "all")

def startQuantifier (state : JsonObject) : String :=
  let quantifier := normalizeQuantifier letters (extractString state "quantifier")
  if quantifier = "" then "self" else quantifier

/-- The condition that a start state stands for, without its target. -/
def startConditionBase (state : JsonObject) : JsonObject :=
  let operator := letters.toLower (extractString state "operator")
  let cond : JsonObject := fun _ ↦ none
  let cond := set cond "id" (.string (extractString state "id"))
  let cond := set cond "quantifier" (.string (startQuantifier letters state))
  let cond := set cond "state" (.string (extractString state "state"))
  let cond := set cond "state_operator" (.string "==")
  let cond := set cond "require_online" (.bool true)
  if operator ≠ "" then set cond "operator" (.string operator) else cond

/-- The loop body of `startConditionsFromStartStates`.  A state without a value is skipped. -/
def startConditionFromStartState (state : JsonObject) : Option JsonObject :=
  let agentID := if extractString state "agentId" = "" then extractString state "agentType"
    else extractString state "agentId"
  if extractString state "state" = "" then none
  else
    some (setStartTarget (startConditionBase letters state) (startQuantifier letters state) agentID
      (extractString state "robotId"))

def startConditionsFromStartStates (raw : JsonValue) : List JsonObject :=
  (extractMapList raw).filterMap (startConditionFromStartState letters)

/-- The conditions of a step: under the key, under its old spelling, or made of start states. -/
def startConditionsOf (step : JsonObject) : List JsonObject :=
  orElseList (normalizeStartConditions letters (read step "start_conditions"))
    (orElseList (normalizeStartConditions letters (read step "startConditions"))
      (startConditionsFromStartStates letters (read step "startStates")))

def normalizeStartFields (step : JsonObject) : JsonObject :=
  let step := setObjects step "start_conditions" (startConditionsOf letters step)
  delete (delete step "startStates") "startConditions"

/-! ## Names and states -/

def normalizeJobName (step : JsonObject) : JsonObject :=
  let step := match step "jobName" with
    | some (.string jobName) =>
      if jobName ≠ "" then set step "job_name" (.string jobName) else step
    | _ => step
  delete step "jobName"

def removeAutoGenerateStates (step : JsonObject) : JsonObject :=
  delete (delete step "autoGenerateStates") "auto_generate_states"

/-- The states under a key, or under its old spelling. -/
def statesOf (step : JsonObject) (key oldKey : String) : List String :=
  orElseList (extractStateList (read step key)) (extractStateList (read step oldKey))

def normalizePreStates (step : JsonObject) : JsonObject :=
  delete (setStrings step "pre_states" (statesOf step "pre_states" "preStates")) "preStates"

/-! ## Targets of the states during a step -/

def targetMoves : List (String × String) := [("targetType", "target_type"), ("agentId", "agent_id")]

def normalizeStateTargetKeys (target : JsonObject) : JsonObject := moveAll targetMoves target

def normalizeStateTarget (target : JsonObject) : JsonObject :=
  let out := normalizeStateTargetKeys target
  let targetType := extractString out "target_type"
  if targetType ≠ "" then set out "target_type" (.string (letters.toLower targetType))
  else set out "target_type" (.string "self")

/-- The target that a bare state stands for. -/
def selfTarget (state : String) : JsonObject :=
  set (set (fun _ ↦ none) "state" (.string state)) "target_type" (.string "self")

def normalizeStateTargets (raw : JsonValue) : List JsonObject :=
  if !(extractStringList raw).isEmpty && (extractMapList raw).isEmpty then
    (extractStringList raw).map selfTarget
  else (extractMapList raw).map (normalizeStateTarget letters)

/-- The state of a target, if it is one for the agent itself. -/
def selfState (target : JsonObject) : Option String :=
  let targetType := letters.toLower (extractString target "target_type")
  if targetType ≠ "" ∧ targetType ≠ "self" ∧ targetType ≠ "all" then none
  else if extractString target "state" ≠ "" then some (extractString target "state") else none

def extractSelfStatesFromTargets (targets : List JsonObject) : List String :=
  (targets.findSome? (selfState letters)).toList

def duringTargetsOf (step : JsonObject) : List JsonObject :=
  orElseList (normalizeStateTargets letters (read step "during_state_targets"))
    (normalizeStateTargets letters (read step "duringStateTargets"))

def normalizeDuringStates (step : JsonObject) : JsonObject :=
  let duringStates := statesOf step "during_states" "duringStates"
  let duringTargets := duringTargetsOf letters step
  let step := delete (setStrings step "during_states" duringStates) "duringStates"
  let step := delete (setObjects step "during_state_targets" duringTargets) "duringStateTargets"
  if duringStates.isEmpty then
    setStrings step "during_states" (extractSelfStatesFromTargets letters duringTargets)
  else step

/-! ## End states -/

def normalizeOutcome (value : String) : String :=
  -- a blank value, for which the source returns early, falls through to the last case
  let lowered := letters.toLower value
  if lowered ∈ ["success", "succeeded"] then "success"
  else if lowered ∈ ["failed", "failure", "error"] then "failed"
  else if lowered ∈ ["aborted", "abort"] then "aborted"
  else if lowered ∈ ["cancelled", "canceled", "cancel"] then "cancelled"
  else if lowered ∈ ["timeout", "timed_out"] then "timeout"
  else if lowered = "rejected" then "rejected"
  else lowered

def inferOutcomeFromEndState (endState : JsonObject) (index : ℕ) : String :=
  let label := letters.toLower (extractString endState "label")
  let state := letters.toLower (extractString endState "state")
  if containsAny label ["timeout"] || containsAny state ["timeout"] then "timeout"
  else if containsAny label ["cancel"] || containsAny state ["cancel"] then "cancelled"
  else if containsAny label ["abort"] || containsAny state ["abort"] then "aborted"
  else if containsAny label ["fail", "error"] || containsAny state ["fail", "error"] then "failed"
  else if containsAny label ["success", "complete"] ||
      containsAny state ["idle", "ready", "complete", "success"] then "success"
  else if index = 0 then "success"
  else "failed"

/-- The loop body of `normalizeEndStates`. -/
def normalizeEndState (index : ℕ) (endState : JsonObject) : JsonObject :=
  let outcome := normalizeOutcome letters (extractString endState "outcome")
  let outcome := if outcome = "" then inferOutcomeFromEndState letters endState index else outcome
  let out := if outcome ≠ "" then set endState "outcome" (.string outcome) else endState
  delete out "condition"

def normalizeEndStates (raw : JsonValue) : List JsonObject :=
  (extractMapList raw).mapIdx (normalizeEndState letters)

/-- The outcome of an end state that has none, by its label and its state. -/
def looksSuccessful (endState : JsonObject) (first : Bool) : Bool :=
  let label := letters.toLower (extractString endState "label")
  let stateLower := letters.toLower (extractString endState "state")
  let isFailure := containsAny label ["fail", "error", "abort", "timeout", "cancel"] ||
    containsAny stateLower ["error", "fail", "abort", "timeout", "cancel"]
  let isSuccess := containsAny label ["success", "complete"] ||
    containsAny stateLower ["idle", "ready", "complete", "success"]
  if isFailure && !isSuccess then false
  else if isSuccess && !isFailure then true
  else first

/-- The loop body of `classifyEndStates`; the states that stand for a success come first. -/
def classifyEndState (acc : List String × List String) (entry : JsonObject × ℕ) :
    List String × List String :=
  let endState := entry.1
  let state := extractString endState "state"
  let outcome := normalizeOutcome letters (extractString endState "outcome")
  if state = "" then acc
  else
    let successful := if outcome ≠ "" then outcome = "success"
      else looksSuccessful letters endState (entry.2 = 0 && acc.1.isEmpty)
    if successful then (acc.1 ++ [state], acc.2) else (acc.1, acc.2 ++ [state])

def classifyEndStates (raw : JsonValue) : List String × List String :=
  let classified := (extractMapList raw).zipIdx.foldl (classifyEndState letters) ([], [])
  (dedupeStrings classified.1, dedupeStrings classified.2)

def endStatesOf (step : JsonObject) : List JsonObject :=
  orElseList (normalizeEndStates letters (read step "end_states"))
    (normalizeEndStates letters (read step "endStates"))

/-- The states that stand for a success and for a failure; without any, those of the end states. -/
def resultStatesOf (successStates failureStates : List String) (endStates : JsonValue) :
    List String × List String :=
  if successStates.isEmpty && failureStates.isEmpty then classifyEndStates letters endStates
  else (successStates, failureStates)

def normalizeResultStates (step : JsonObject) : JsonObject :=
  let successStates := statesOf step "success_states" "successStates"
  let failureStates := statesOf step "failure_states" "failureStates"
  let step := setObjects step "end_states" (endStatesOf letters step)
  let derived := resultStatesOf letters successStates failureStates (read step "end_states")
  let step := setStrings step "success_states" derived.1
  let step := setStrings step "failure_states" derived.2
  delete (delete (delete step "successStates") "failureStates") "endStates"

/-! ## Transitions -/

/-- The loop body of `normalizeOutcomeTransitions`. -/
def normalizeOutcomeTransition (transition : JsonObject) : JsonObject :=
  let outcome := normalizeOutcome letters (extractString transition "outcome")
  let out := if outcome ≠ "" then set transition "outcome" (.string outcome) else transition
  delete out "condition"

def normalizeOutcomeTransitions (raw : JsonValue) : JsonValue :=
  if (extractMapList raw).isEmpty then .null
  else .array ((extractMapList raw).map fun transition ↦
    .object (normalizeOutcomeTransition letters transition))

def normalizeTransitionKeys (raw : JsonObject) : JsonObject :=
  let raw := match raw "onOutcomes" with
    | some v => delete (set raw "on_outcomes" (normalizeOutcomeTransitions letters v)) "onOutcomes"
    | none => raw
  mapMember raw "on_outcomes" (normalizeOutcomeTransitions letters)

def normalizeTransition (step : JsonObject) : JsonObject :=
  match step "transition" with
  | some (.object raw) => set step "transition" (.object (normalizeTransitionKeys letters raw))
  | _ => step

/-! ## Steps -/

def normalizeBehaviorTreeStep (step : JsonObject) : JsonObject :=
  let step := normalizeStartFields letters step
  let step := normalizeJobName step
  let step := removeAutoGenerateStates step
  let step := normalizePreStates step
  let step := normalizeDuringStates letters step
  let step := normalizeResultStates letters step
  normalizeTransition letters step

/-- A null in the list is skipped, and a null for the list stays one. -/
def normalizeBehaviorTreeSteps (raw : Option (List (Option JsonObject))) :
    Option (List JsonObject) :=
  raw.map fun steps ↦ steps.filterMap fun step ↦ step.map (normalizeBehaviorTreeStep letters)

/-! ## Lists of objects and of states -/

section Lists

variable {m : JsonObject} {key oldKey : String} {v : JsonValue}

theorem orElseList_eq_nil {α : Type} {l l' : List α} :
    orElseList l l' = [] ↔ l = [] ∧ l' = [] := by
  cases l <;> simp [orElseList]

theorem orElseList_nil {α : Type} (l : List α) : orElseList l [] = l := by
  cases l <;> rfl

theorem orElseList_of_ne {α : Type} {l l' : List α} (h : l ≠ []) : orElseList l l' = l := by
  cases l with
  | nil => exact absurd rfl h
  | cons a l => rfl

theorem mem_orElseList {α : Type} {l l' : List α} {a : α} (h : a ∈ orElseList l l') :
    a ∈ l ∨ a ∈ l' := by
  cases l with
  | nil => exact Or.inr h
  | cons b l => exact Or.inl h

@[simp] theorem extractMapList_objects (l : List JsonObject) :
    extractMapList (.array (l.map .object)) = l := by
  rw [extractMapList, List.filterMap_map]
  exact List.filterMap_some

/-- Texts that are kept by `dedupeStrings`. -/
def Distinct (l : List String) : Prop := l.Nodup ∧ "" ∉ l

theorem mem_dedupe {seen values : List String} {s : String} (h : s ∈ dedupe seen values) :
    s ≠ "" ∧ s ∉ seen := by
  induction values generalizing seen with
  | nil => exact absurd h List.not_mem_nil
  | cons value rest ih =>
    rw [dedupe] at h
    split at h
    · exact ih h
    · rename_i hnew
      rcases List.mem_cons.mp h with rfl | h
      · exact not_or.mp hnew
      · exact (ih h).imp_right fun hs hseen ↦ hs (List.mem_cons_of_mem value hseen)

theorem nodup_dedupe (seen values : List String) : (dedupe seen values).Nodup := by
  induction values generalizing seen with
  | nil => exact List.nodup_nil
  | cons value rest ih =>
    rw [dedupe]
    split
    · exact ih seen
    · exact List.nodup_cons.mpr ⟨fun h ↦ (mem_dedupe h).2 List.mem_cons_self, ih _⟩

theorem dedupe_eq_self {seen values : List String} (h : Distinct values)
    (hseen : ∀ s ∈ values, s ∉ seen) : dedupe seen values = values := by
  induction values generalizing seen with
  | nil => rfl
  | cons value rest ih =>
    obtain ⟨hnodup, hblank⟩ := h
    rw [List.nodup_cons] at hnodup
    rw [List.mem_cons, not_or] at hblank
    rw [dedupe, if_neg (not_or.mpr ⟨Ne.symm hblank.1, hseen value List.mem_cons_self⟩)]
    refine congrArg (value :: ·) (ih ⟨hnodup.2, hblank.2⟩ fun s hs ↦ ?_)
    rw [List.mem_cons, not_or]
    exact ⟨fun heq ↦ hnodup.1 (heq ▸ hs), hseen s (List.mem_cons_of_mem value hs)⟩

theorem distinct_dedupeStrings (values : List String) : Distinct (dedupeStrings values) :=
  ⟨nodup_dedupe [] values, fun h ↦ (mem_dedupe h).1 rfl⟩

theorem distinct_extractStateList (raw : JsonValue) : Distinct (extractStateList raw) :=
  distinct_dedupeStrings _

theorem extractStateList_strings {l : List String} (h : Distinct l) :
    extractStateList (.array (l.map .string)) = l := by
  have hlist : extractStringList (.array (l.map .string)) = l := by
    rw [extractStringList, List.filterMap_map]
    have hkept : ∀ s ∈ l, (stateText ∘ .string) s = some s := fun s hs ↦
      if_pos fun heq : s = "" ↦ h.2 (heq ▸ hs)
    exact (List.filterMap_congr hkept).trans List.filterMap_some
  rw [extractStateList, hlist]
  exact dedupe_eq_self h fun _ _ ↦ List.not_mem_nil

theorem extractString_of_ne (h : extractString m key ≠ "") :
    m key = some (.string (extractString m key)) := by
  cases hm : m key with
  | none => exact absurd (by simp only [extractString, hm]) h
  | some v =>
    cases v with
    | string s => simp only [extractString, hm]
    | _ => exact absurd (by simp only [extractString, hm]) h

theorem setObjects_of_ne {k : String} (h : k ≠ key) (l : List JsonObject) :
    setObjects m key l k = m k := by
  rw [setObjects]
  split
  · rfl
  · exact set_of_ne h

theorem setStrings_of_ne {k : String} (h : k ≠ key) (l : List String) :
    setStrings m key l k = m k := by
  rw [setStrings]
  split
  · rfl
  · exact set_of_ne h

theorem setObjects_nil (m : JsonObject) (key : String) : setObjects m key [] = m := rfl

theorem setStrings_nil (m : JsonObject) (key : String) : setStrings m key [] = m := rfl

theorem setObjects_self {l : List JsonObject} (h : l ≠ []) :
    setObjects m key l key = some (.array (l.map .object)) := by
  rw [setObjects, if_neg (by simpa using h), set_self]

theorem setStrings_self {l : List String} (h : l ≠ []) :
    setStrings m key l key = some (.array (l.map .string)) := by
  rw [setStrings, if_neg (by simpa using h), set_self]

variable {out : JsonObject}

/-- A list that has been written is not written again. -/
theorem setObjects_again {l : List JsonObject} (h : out key = setObjects m key l key) :
    setObjects out key l = out := by
  by_cases hl : l = []
  · rw [hl, setObjects_nil]
  · rw [setObjects, if_neg (by simpa using hl)]
    exact set_eq_self (h.trans (setObjects_self hl))

theorem setStrings_again {l : List String} (h : out key = setStrings m key l key) :
    setStrings out key l = out := by
  by_cases hl : l = []
  · rw [hl, setStrings_nil]
  · rw [setStrings, if_neg (by simpa using hl)]
    exact set_eq_self (h.trans (setStrings_self hl))

theorem setObjects_congr (h : out key = m key) (l : List JsonObject) :
    setObjects out key l key = setObjects m key l key := by
  by_cases hl : l = []
  · rw [hl, setObjects_nil, setObjects_nil, h]
  · rw [setObjects_self hl, setObjects_self hl]

theorem setStrings_congr (h : out key = m key) (l : List String) :
    setStrings out key l key = setStrings m key l key := by
  by_cases hl : l = []
  · rw [hl, setStrings_nil, setStrings_nil, h]
  · rw [setStrings_self hl, setStrings_self hl]

theorem distinct_statesOf (m : JsonObject) (key oldKey : String) :
    Distinct (statesOf m key oldKey) := by
  rw [statesOf, orElseList]
  split <;> exact distinct_extractStateList _

/-- States that have been written are read again, under the new key only. -/
theorem statesOf_again {l : List String} (hold : out oldKey = none)
    (hkey : out key = setStrings m key l key) (hl : Distinct l)
    (hnone : l = [] → statesOf m key oldKey = []) : statesOf out key oldKey = l := by
  by_cases hnil : l = []
  · have hread : extractStateList (read out key) = extractStateList (read m key) := by
      rw [JsonObject.read, JsonObject.read, hkey, hnil, setStrings_nil]
    rw [statesOf, hread, (orElseList_eq_nil.mp (hnone hnil)).1, read_eq_null hold, hnil]
    rfl
  · rw [statesOf, read_eq (hkey.trans (setStrings_self hnil)), extractStateList_strings hl,
      orElseList_of_ne hnil]

/-- Objects that have been written are read again, if they are read as they are. -/
theorem objects_again {objects : JsonValue → List JsonObject} {l : List JsonObject}
    (hkey : out key = setObjects m key l key) (hl : objects (.array (l.map .object)) = l)
    (hnone : l = [] → objects (read m key) = []) : objects (read out key) = l := by
  by_cases hnil : l = []
  · rw [JsonObject.read, hkey, hnil, setObjects_nil]
    exact hnone hnil
  · rw [read_eq (hkey.trans (setObjects_self hnil)), hl]

theorem agreeOn_setObjects {keys : List String} {m' : JsonObject} (h : AgreeOn keys m m')
    (key : String) (l : List JsonObject) :
    AgreeOn keys (setObjects m key l) (setObjects m' key l) := by
  unfold setObjects
  split
  · exact h
  · exact h.set key _

theorem agreeOn_setStrings {keys : List String} {m' : JsonObject} (h : AgreeOn keys m m')
    (key : String) (l : List String) :
    AgreeOn keys (setStrings m key l) (setStrings m' key l) := by
  unfold setStrings
  split
  · exact h
  · exact h.set key _

theorem agreeOn_statesOf {keys : List String} {m' : JsonObject} (h : AgreeOn keys m m')
    (hkey : key ∈ keys) (hold : oldKey ∈ keys) :
    statesOf m key oldKey = statesOf m' key oldKey := by
  rw [statesOf, statesOf, h.read_eq hkey, h.read_eq hold]

end Lists

end Api
end FleetServer
