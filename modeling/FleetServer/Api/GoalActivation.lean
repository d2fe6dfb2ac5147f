import Mathlib.Data.List.ProdSigma
import Mathlib.Data.List.Rotate
import FleetServer.Pddl.Grounding

/-!
# Goals of a realtime session

A goal of a realtime session (`internal/api/realtime_pddl.go`) has activation conditions and a state
to reach.  In both, `{{agent.*}}` and `{{resource.*}}` may stand for the agent a plan is made for
and for a resource; `realtimeActivationConditionsMet` looks for the first agent and resource for
which the conditions hold, and returns them as the binding of the goal.

A function whose value is `none` has panicked: `planningConditionsMet` slices a key without looking
at its length.
-/

set_option autoImplicit false

namespace FleetServer
namespace Api

open GoString Pddl

structure RealtimeGoal where
  id : String
  name : String := ""
  priority : ℤ := 0
  enabled : Bool := true
  activationConditions : List PlanningCondition := []
  resourceTypeIDs : List String := []
  goalState : StringMap := ∅

instance : DecidableEq RealtimeGoal := fun a b ↦
  decidable_of_iff (a.id = b.id ∧ a.name = b.name ∧ a.priority = b.priority ∧
      a.enabled = b.enabled ∧ a.activationConditions = b.activationConditions ∧
      a.resourceTypeIDs = b.resourceTypeIDs ∧ a.goalState.entries = b.goalState.entries) (by
    cases a
    cases b
    simp only [RealtimeGoal.mk.injEq, AList.ext_iff])

/-- The agent and the resource a goal is bound to.  A part that the goal does not speak of is
blank. -/
structure RealtimeGoalBinding where
  agentID : String := ""
  agentName : String := ""
  resourceID : String := ""
  resourceName : String := ""
  deriving DecidableEq, Repr

/-- The zero value. -/
def noAgent : AgentInfo := { id := "", name := "", capabilities := [], isOnline := false }

/-- The zero value. -/
def noResource : ResourceInfo := { id := "", name := "", kind := "", parentResourceID := "" }

/-- Reading a map at a key: a missing key has the empty value. -/
def readKey (state : StringMap) (key : String) : String := (state.lookup key).getD ""

/-! ## Placeholders -/

def containsResourcePlaceholder (text : String) : Bool := contains text "\x7b\x7bresource."

def containsAgentPlaceholder (text : String) : Bool := contains text "\x7b\x7bagent."

def applyResourcePlaceholders (order : SubstitutionOrder) (text : String)
    (resource : ResourceInfo) : String :=
  substitute order
    [("\x7b\x7bresource.id\x7d\x7d", resource.id), ("\x7b\x7bresource.name\x7d\x7d", resource.name),
      ("\x7b\x7bresource.kind\x7d\x7d", resource.kind),
      ("\x7b\x7bresource.parent_id\x7d\x7d", resource.parentResourceID),
      ("\x7b\x7bresource.parent_resource_id\x7d\x7d", resource.parentResourceID)] text

def applyAgentPlaceholders (order : SubstitutionOrder) (text : String) (agent : AgentInfo) :
    String :=
  substitute order
    [("\x7b\x7bagent.id\x7d\x7d", agent.id), ("\x7b\x7bagent.name\x7d\x7d", agent.name)] text

/-- A placeholder stands in a condition or in the goal state. -/
def goalUses (placeholder : String → Bool) (conditions : List PlanningCondition)
    (goalState : StringMap) : Bool :=
  conditions.any (fun condition ↦ placeholder condition.var || placeholder condition.value) ||
    goalState.entries.any fun entry ↦ placeholder entry.1 || placeholder entry.2

def goalUsesAgentPlaceholders (conditions : List PlanningCondition) (goalState : StringMap) :
    Bool :=
  goalUses containsAgentPlaceholder conditions goalState

def goalUsesResourcePlaceholders (conditions : List PlanningCondition) (goalState : StringMap) :
    Bool :=
  goalUses containsResourcePlaceholder conditions goalState

/-! ## Candidates -/

def isResourceType (resource : ResourceInfo) : Bool := toLower (trimSpace resource.kind) = "type"

def resourceInstances (resources : List ResourceInfo) : List ResourceInfo :=
  resources.filter fun resource ↦ !isResourceType resource

def filterRealtimeResourcesByType (resources : List ResourceInfo) (resourceTypeIDs : List String) :
    List ResourceInfo :=
  let typeSet := (resourceTypeIDs.map trimSpace).filter (· ≠ "")
  if typeSet = [] then resources
  else resources.filter fun resource ↦
    !isResourceType resource && trimSpace resource.parentResourceID ∈ typeSet

/-- The agents in a circle, from the one after the preferred agent. -/
def rotateAgentsByPreferred (agents : List AgentInfo) (preferredAgentID : String) :
    List AgentInfo :=
  let preferred := trimSpace preferredAgentID
  if agents.length ≤ 1 ∨ preferred = "" then agents
  else match agents.findIdx? (trimSpace ·.id = preferred) with
    | none => agents
    | some pivot => agents.rotate (pivot + 1)

@[simp] theorem mem_rotateAgentsByPreferred {agents : List AgentInfo} {preferredAgentID : String}
    {agent : AgentInfo} :
    agent ∈ rotateAgentsByPreferred agents preferredAgentID ↔ agent ∈ agents := by
  simp only [rotateAgentsByPreferred]
  split
  · rfl
  · split
    · rfl
    · exact List.mem_rotate

/-! ## Conditions -/

def expandCondition (order : SubstitutionOrder) (agent : AgentInfo) (resource : ResourceInfo)
    (condition : PlanningCondition) : PlanningCondition :=
  let bindResource (text : String) : String :=
    if resource.id ≠ "" ∨ resource.name ≠ "" then applyResourcePlaceholders order text resource
    else text
  let bindAgent (text : String) : String :=
    if agent.id ≠ "" ∨ agent.name ≠ "" then applyAgentPlaceholders order text agent else text
  { var := bindAgent (bindResource (trimSpace condition.var))
    operator := condition.operator
    value := bindAgent (bindResource (trimSpace condition.value)) }

def expandRealtimeActivationConditions (order : SubstitutionOrder)
    (conditions : List PlanningCondition) (agent : AgentInfo) (resource : ResourceInfo) :
    List PlanningCondition :=
  conditions.map (expandCondition order agent resource)

def hasUnresolvedConditionPlaceholders (conditions : List PlanningCondition) : Bool :=
  conditions.any fun condition ↦
    containsAgentPlaceholder condition.var || containsAgentPlaceholder condition.value ||
      (containsResourcePlaceholder condition.var || containsResourcePlaceholder condition.value)

/-- A status or mode that is expected to be idle or ready counts as idle when it reads as an error
or a warning of an agent that is known not to execute. -/
def normalizePlanningConditionCurrentValue (current : StringMap) (key expected : String) :
    Option String :=
  let currentValue := readKey current key
  let normalizedExpected := toLower (trimSpace expected)
  let lowerKey := toLower (trimSpace key)
  if normalizedExpected ≠ "idle" ∧ normalizedExpected ≠ "ready" then some currentValue
  else if !(hasSuffix lowerKey "_status" || hasSuffix lowerKey "_mode") then some currentValue
  -- the slice of the length of `_status` is taken for both suffixes
  else if byteLength key < byteLength "_status" then none
  else
    let suffixLength := if hasSuffix lowerKey "_mode" then 5 else 7
    let statePrefix := trimSpace (String.ofList (key.toList.rdrop suffixLength))
    if statePrefix = "" then some currentValue
    else match current.lookup (statePrefix ++ "_is_executing") with
      | none => some currentValue
      | some execRaw =>
        if toLower (trimSpace execRaw) ∈ ["true", "1", "yes", "running", "executing"] then
          some currentValue
        else if toLower (trimSpace currentValue) ∈ ["error", "warning"] then some "idle"
        else some currentValue

def planningConditionsMet (current : StringMap) : List PlanningCondition → Option Bool
  | [] => some true
  | condition :: rest =>
    let key := trimSpace condition.var
    if key = "" then planningConditionsMet current rest
    else do
      let currentValue ← normalizePlanningConditionCurrentValue current key condition.value
      let met : Bool :=
        if trimSpace condition.operator = "!=" then currentValue ≠ condition.value
        else currentValue = condition.value
      if met then planningConditionsMet current rest else some false

/-- The loop over the candidates. -/
def firstCandidateMet (order : SubstitutionOrder) (current : StringMap)
    (conditions : List PlanningCondition) :
    List (AgentInfo × ResourceInfo) → Option (Option (AgentInfo × ResourceInfo))
  | [] => some none
  | (agent, resource) :: rest => do
    let expanded := expandRealtimeActivationConditions order conditions agent resource
    if hasUnresolvedConditionPlaceholders expanded then
      firstCandidateMet order current conditions rest
    else if ← planningConditionsMet current expanded then some (some (agent, resource))
    else firstCandidateMet order current conditions rest

/-- The id and the name of a binding: the id stands for a name that is missing. -/
def bindingName (id name : String) : String :=
  if trimSpace name = "" then trimSpace id else trimSpace name

/-- There is no binding when the conditions are not met. -/
def realtimeActivationConditionsMet (order : SubstitutionOrder) (current : StringMap)
    (conditions : List PlanningCondition) (goalState : StringMap) (resourceTypeIDs : List String)
    (agents : List AgentInfo) (resources : List ResourceInfo) (preferredAgentID : String) :
    Option (Option RealtimeGoalBinding) :=
  let needsAgent := goalUsesAgentPlaceholders conditions goalState
  let needsResource := goalUsesResourcePlaceholders conditions goalState
  if conditions = [] ∧ !needsAgent ∧ !needsResource then some (some {})
  else if !needsAgent ∧ !needsResource then do
    if ← planningConditionsMet current conditions then some (some {}) else some none
  else
    let agentCandidates :=
      if needsAgent then rotateAgentsByPreferred agents preferredAgentID else [noAgent]
    let resourceCandidates :=
      if needsResource then
        filterRealtimeResourcesByType (resourceInstances resources) resourceTypeIDs
      else [noResource]
    (firstCandidateMet order current conditions (agentCandidates ×ˢ resourceCandidates)).map
      (Option.map fun candidate ↦
        { agentID := if needsAgent then trimSpace candidate.1.id else ""
          agentName := if needsAgent then bindingName candidate.1.id candidate.1.name else ""
          resourceID := if needsResource then trimSpace candidate.2.id else ""
          resourceName :=
            if needsResource then bindingName candidate.2.id candidate.2.name else "" })

/-! ## The state of a goal -/

/-- Of two variables that read alike once they are bound, the one that the loop over the map meets
last counts. -/
def applyRealtimeGoalBinding (order : SubstitutionOrder)
    (goalOrder : RangeOrder (Σ _ : String, String)) (goalState : StringMap)
    (binding : RealtimeGoalBinding) : StringMap :=
  let agent : AgentInfo :=
    { noAgent with id := trimSpace binding.agentID, name := trimSpace binding.agentName }
  let resource : ResourceInfo :=
    { noResource with
      id := trimSpace binding.resourceID, name := trimSpace binding.resourceName }
  let bindText (text : String) : String :=
    let text := trimSpace text
    let text := if agent.id ≠ "" ∨ agent.name ≠ "" then applyAgentPlaceholders order text agent
      else text
    if resource.id ≠ "" ∨ resource.name ≠ "" then applyResourcePlaceholders order text resource
    else text
  (goalOrder.range goalState.entries).foldl
    (fun result entry ↦ result.insert (bindText entry.1) (bindText entry.2)) ∅

def realtimeGoalSatisfied (current goal : StringMap) : Bool :=
  goal.entries.all fun entry ↦ readKey current entry.1 = entry.2

/-! ## Where the slice fails -/

/-- The value a condition is compared with, were it not for the slice. -/
def shownValue (current : StringMap) (key expected : String) : String :=
  let currentValue := readKey current key
  let lowerKey := toLower (trimSpace key)
  let suffixLength := if hasSuffix lowerKey "_mode" then 5 else 7
  let statePrefix := trimSpace (String.ofList (key.toList.rdrop suffixLength))
  let execRaw := (current.lookup (statePrefix ++ "_is_executing")).map fun raw ↦
    toLower (trimSpace raw)
  if (toLower (trimSpace expected) = "idle" ∨ toLower (trimSpace expected) = "ready") ∧
      (hasSuffix lowerKey "_status" || hasSuffix lowerKey "_mode") = true ∧ statePrefix ≠ "" ∧
      execRaw.any (· ∉ ["true", "1", "yes", "running", "executing"]) = true ∧
      toLower (trimSpace currentValue) ∈ ["error", "warning"] then "idle"
  else currentValue

/-- A condition holds in a state: its variable is blank, or the value that is shown is the expected
one, or another one for `!=`. -/
def ConditionHolds (current : StringMap) (condition : PlanningCondition) : Prop :=
  trimSpace condition.var = "" ∨
    if trimSpace condition.operator = "!=" then
      shownValue current (trimSpace condition.var) condition.value ≠ condition.value
    else shownValue current (trimSpace condition.var) condition.value = condition.value

instance (current : StringMap) (condition : PlanningCondition) :
    Decidable (ConditionHolds current condition) :=
  inferInstanceAs (Decidable (_ ∨ _))

/-- A condition that a mode is idle or ready, whose variable is `_mode` with at most one byte in
front: it is shorter than `_status`. -/
def ShortMode (condition : PlanningCondition) : Prop :=
  let key := trimSpace condition.var
  let expected := toLower (trimSpace condition.value)
  (expected = "idle" ∨ expected = "ready") ∧ hasSuffix (toLower key) "_mode" = true ∧
    byteLength key < 7

instance (condition : PlanningCondition) : Decidable (ShortMode condition) :=
  inferInstanceAs (Decidable (_ ∧ _))

section Slice

variable {current : StringMap} {conditions : List PlanningCondition}
  {condition : PlanningCondition}

theorem length_le_byteLength (s : String) : s.toList.length ≤ byteLength s := by
  rw [byteLength]
  induction s.toList with
  | nil => exact le_rfl
  | cons c rest ih =>
    have hpos := Char.utf8Size_pos c
    rw [List.length_cons, List.map_cons, List.sum_cons]
    omega

/-- A key that ends in `_status` is long enough. -/
theorem seven_le_byteLength {key : String} (h : hasSuffix (toLower key) "_status" = true) :
    7 ≤ byteLength key := by
  rw [hasSuffix, List.isSuffixOf_iff_suffix] at h
  have hlower : (toLower key).toList.length = key.toList.length := by
    rw [toLower, String.toList_ofList, List.length_map]
  have hlength : 7 ≤ key.toList.length := hlower ▸ h.length_le
  exact hlength.trans (length_le_byteLength key)

/-- The slice is out of range for a short mode, and otherwise the value is the one shown. -/
theorem normalizePlanningConditionCurrentValue_eq (current : StringMap) {key : String}
    (hkey : trimSpace key = key) (expected : String) :
    normalizePlanningConditionCurrentValue current key expected =
      if (toLower (trimSpace expected) = "idle" ∨ toLower (trimSpace expected) = "ready") ∧
          hasSuffix (toLower key) "_mode" = true ∧ byteLength key < 7 then none
      else some (shownValue current key expected) := by
  rw [normalizePlanningConditionCurrentValue, shownValue]
  dsimp only
  rw [hkey]
  by_cases hexpected : toLower (trimSpace expected) = "idle" ∨
      toLower (trimSpace expected) = "ready"
  · rw [if_neg fun h ↦ hexpected.elim h.1 h.2]
    by_cases hsuffix : (hasSuffix (toLower key) "_status" || hasSuffix (toLower key) "_mode") = true
    · have hseven : byteLength "_status" = 7 := by decide
      rw [if_neg (by rw [hsuffix]; decide), hseven]
      by_cases hshort : byteLength key < 7
      · -- only the shorter suffix fits
        have hmode : hasSuffix (toLower key) "_mode" = true := by
          rcases (Bool.or_eq_true _ _).mp hsuffix with hstatus | hmode
          · exact absurd (seven_le_byteLength hstatus) (by omega)
          · exact hmode
        rw [if_pos hshort, if_pos ⟨hexpected, hmode, hshort⟩]
      · have hlong : ¬((toLower (trimSpace expected) = "idle" ∨
            toLower (trimSpace expected) = "ready") ∧
              hasSuffix (toLower key) "_mode" = true ∧ byteLength key < 7) := fun h ↦ hshort h.2.2
        rw [if_neg hshort, if_neg hlong]
        generalize trimSpace (String.ofList (key.toList.rdrop
          (if hasSuffix (toLower key) "_mode" = true then 5 else 7))) = statePrefix
        by_cases hempty : statePrefix = ""
        · rw [if_pos hempty, if_neg fun h ↦ h.2.2.1 hempty]
        · rw [if_neg hempty]
          cases hlookup : current.lookup (statePrefix ++ "_is_executing") with
          | none => simp
          | some execRaw =>
            dsimp only
            simp only [hexpected, hsuffix, hempty, true_and, ne_eq, not_false_eq_true,
              Option.map_some, Option.any_some, decide_eq_true_eq]
            split
            · rename_i hexec
              rw [if_neg fun h ↦ h.1 hexec]
            · rename_i hexec
              simp only [hexec, not_false_eq_true, true_and]
              split <;> rfl
    · rw [if_pos (by simpa using hsuffix), if_neg fun h ↦ hsuffix ?_, if_neg fun h ↦ hsuffix h.2.1]
      rw [h.2.1, Bool.or_true]
  · rw [if_pos (not_or.mp hexpected), if_neg fun h ↦ hexpected h.1, if_neg fun h ↦ hexpected h.1]

/-- One round of the loop. -/
theorem planningConditionsMet_cons (current : StringMap) (condition : PlanningCondition)
    (rest : List PlanningCondition) :
    planningConditionsMet current (condition :: rest) =
      if ShortMode condition then none
      else if ConditionHolds current condition then planningConditionsMet current rest
      else some false := by
  rw [planningConditionsMet]
  by_cases hblank : trimSpace condition.var = ""
  · have hholds : ConditionHolds current condition := Or.inl hblank
    have hlong : ¬ShortMode condition := fun h ↦ by
      rw [ShortMode, hblank] at h
      exact absurd h.2.1 (by decide)
    simp [hblank, hlong, hholds]
  · have hvalue : normalizePlanningConditionCurrentValue current (trimSpace condition.var)
        condition.value = if ShortMode condition then none
          else some (shownValue current (trimSpace condition.var) condition.value) :=
      normalizePlanningConditionCurrentValue_eq current (trimSpace_trimSpace condition.var) _
    simp only [hblank, if_false, hvalue]
    by_cases hshort : ShortMode condition
    · simp [hshort]
    · by_cases hoperator : trimSpace condition.operator = "!="
      · simp [ConditionHolds, hblank, hshort, hoperator]
      · simp [ConditionHolds, hblank, hshort, hoperator]

/-- **The conditions of a goal are evaluated without a slice out of range exactly when no short
mode is reached**: none comes after conditions that all hold. -/
theorem planningConditionsMet_ne_none_iff (current : StringMap)
    (conditions : List PlanningCondition) :
    planningConditionsMet current conditions ≠ none ↔
      ∀ before condition after, conditions = before ++ condition :: after →
        (∀ earlier ∈ before, ConditionHolds current earlier) → ¬ShortMode condition := by
  induction conditions with
  | nil => simp [planningConditionsMet]
  | cons first rest ih =>
    rw [planningConditionsMet_cons]
    by_cases hshort : ShortMode first
    · rw [if_pos hshort]
      exact iff_of_false (fun h ↦ h rfl) fun h ↦ h [] first rest rfl (by simp) hshort
    · rw [if_neg hshort]
      by_cases hholds : ConditionHolds current first
      · rw [if_pos hholds, ih]
        constructor
        · intro h before condition after heq hearlier
          cases before with
          | nil =>
            obtain ⟨rfl, -⟩ := List.cons_eq_cons.mp heq
            exact hshort
          | cons b before =>
            obtain ⟨rfl, hrest⟩ := List.cons_eq_cons.mp heq
            exact h before condition after hrest fun e he ↦
              hearlier e (List.mem_cons_of_mem _ he)
        · intro h before condition after heq hearlier
          exact h (first :: before) condition after (by rw [heq, List.cons_append])
            (List.forall_mem_cons.mpr ⟨hholds, hearlier⟩)
      · rw [if_neg hholds]
        refine iff_of_true (by simp) fun before condition after heq hearlier ↦ ?_
        cases before with
        | nil =>
          obtain ⟨rfl, -⟩ := List.cons_eq_cons.mp heq
          exact hshort
        | cons b before =>
          -- the loop stops before it gets there
          obtain ⟨rfl, -⟩ := List.cons_eq_cons.mp heq
          exact absurd (hearlier first List.mem_cons_self) hholds

/-- **A condition that the mode of nobody in particular is idle slices out of range.** -/
theorem bareMode_slices_outOfRange :
    planningConditionsMet ∅ [{ var := "_mode", operator := "==", value := "idle" }] = none := by
  decide

end Slice

/-! ## What a goal is bound to -/

section Binding

variable {order : SubstitutionOrder} {current goalState : StringMap}
  {conditions : List PlanningCondition} {resourceTypeIDs : List String}
  {agents : List AgentInfo} {resources : List ResourceInfo} {preferredAgentID : String}
  {binding : RealtimeGoalBinding}

theorem mem_of_firstCandidateMet {candidates : List (AgentInfo × ResourceInfo)}
    {candidate : AgentInfo × ResourceInfo}
    (h : firstCandidateMet order current conditions candidates = some (some candidate)) :
    candidate ∈ candidates := by
  induction candidates with
  | nil => exact absurd h (by simp [firstCandidateMet])
  | cons first rest ih =>
    rw [firstCandidateMet] at h
    split at h
    · exact List.mem_cons_of_mem first (ih h)
    · obtain ⟨met, -, h⟩ := Option.bind_eq_some_iff.mp h
      split at h
      · rw [← Option.some.inj (Option.some.inj h)]
        exact List.mem_cons_self
      · exact List.mem_cons_of_mem first (ih h)

/-- **A goal that speaks of an agent is bound to one of the agents.** -/
theorem exists_agent_of_conditionsMet
    (huses : goalUsesAgentPlaceholders conditions goalState = true)
    (h : realtimeActivationConditionsMet order current conditions goalState resourceTypeIDs agents
      resources preferredAgentID = some (some binding)) :
    ∃ agent ∈ agents, binding.agentID = trimSpace agent.id := by
  simp only [realtimeActivationConditionsMet, huses, Bool.not_true, Bool.false_eq_true, false_and,
    and_false, if_false, if_true] at h
  obtain ⟨found, hfound, hbinding⟩ := Option.map_eq_some_iff.mp h
  obtain ⟨candidate, rfl, rfl⟩ := Option.map_eq_some_iff.mp hbinding
  have hmem := (List.mem_product.mp (mem_of_firstCandidateMet hfound)).1
  exact ⟨candidate.1, mem_rotateAgentsByPreferred.mp hmem, rfl⟩

end Binding

end Api
end FleetServer
