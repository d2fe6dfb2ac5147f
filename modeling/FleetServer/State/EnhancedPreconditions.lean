import FleetServer.Lib.GoString
import FleetServer.State.StateRegistry
import Mathlib.Algebra.Ring.Int.Defs

/-!
# Preconditions on the agents' states

`EvaluateEnhancedPrecondition` of `internal/state/state_registry.go`.  A precondition is about the
agent that is to start, about another one, about the agents with a semantic tag, or about all
agents; the last two count the agents that match.  The agents with a tag are read from the index,
all agents from the entries, in an order of its own each time.

Whichever way the agents are found, they are the same: `evaluateEnhancedPrecondition_spec` says that
in every registry that comes about the ids reported are those of the agents that the condition
selects, each once, and that the verdict is the count condition on how many there are.

A count condition is read with `Sscanf`: a threshold that cannot be read is zero, and so is one that
does not follow a space.
-/

set_option autoImplicit false

namespace FleetServer
namespace State

open GoString

/-! ## Conditions -/

structure PreconditionFilter where
  graphID : String := ""
  tags : List String := []
  onlineOnly : Bool := false
  executingOnly : Bool := false
  includeSelf : Bool := false
  deriving DecidableEq, Repr

structure EnhancedPrecondition where
  type : String
  stateCode : String := ""
  operator : String := ""
  targetAgentID : String := ""
  semanticTag : String := ""
  filter : Option PreconditionFilter := none
  countCondition : String := ""
  message : String := ""
  deriving DecidableEq, Repr

structure PreconditionResult where
  passed : Bool := false
  error : String := ""
  matchedCount : ℕ := 0
  matchedIDs : List String := []
  deriving DecidableEq, Repr

/-! ## Counting -/

/-- The digits a number begins with. -/
def scanDigits (cs : List Char) : Option ℤ :=
  match cs.takeWhile Char.isDigit with
  | [] => none
  | digits => some (digits.foldl (fun n c ↦ 10 * n + (c.toNat - '0'.toNat : ℕ)) 0)

def isBlank (c : Char) : Bool := isSpace c && c ≠ '\n'

/-- `%d`: the space before a number is skipped, up to the end of the line. -/
def scanInt (cs : List Char) : Option ℤ :=
  let read :=
    match cs.dropWhile isBlank with
    | '-' :: rest => (scanDigits rest).map (-·)
    | '+' :: rest => scanDigits rest
    | rest => scanDigits rest
  read.filter fun n ↦ -2 ^ 63 ≤ n ∧ n < 2 ^ 63

/-- The threshold behind an operator, which has to be followed by a space. -/
def scanThreshold (op condition : String) : ℤ :=
  match condition.toList.drop op.length with
  | [] => 0
  | c :: rest => if isBlank c then (scanInt (c :: rest)).getD 0 else 0

def evaluateCountCondition (count : ℤ) (condition : String) : Bool :=
  if condition = "" then 0 < count
  else
    let condition := trimSpace condition
    if hasPrefix condition ">=" then scanThreshold ">=" condition ≤ count
    else if hasPrefix condition "<=" then count ≤ scanThreshold "<=" condition
    else if hasPrefix condition ">" then scanThreshold ">" condition < count
    else if hasPrefix condition "<" then count < scanThreshold "<" condition
    else if hasPrefix condition "==" then count = scanThreshold "==" condition
    else if hasPrefix condition "!=" then count ≠ scanThreshold "!=" condition
    else (scanInt condition.toList).getD 0 ≤ count

/-- A threshold right behind its operator is not read. -/
example : evaluateCountCondition 0 ">=2" = true ∧ evaluateCountCondition 0 ">= 2" = false := by
  decide

/-! ## Matching -/

/-- `matchStateCodeLocked`. -/
def matchStateCode (actual expected operator : String) : Bool :=
  if operator = "!=" ∨ operator = "ne" then actual ≠ expected
  else if operator = "contains" then contains actual expected
  else if operator = "prefix" then hasPrefix actual expected
  else if operator = "suffix" then hasSuffix actual expected
  else actual = expected

/-- What a filter asks of an entry. -/
def PreconditionFilter.accepts (filter : PreconditionFilter) (entry : AgentStateEntry) : Bool :=
  if filter.onlineOnly && !entry.isOnline then false
  else if filter.executingOnly && !entry.isExecuting then false
  else if filter.graphID ≠ "" ∧ entry.currentGraphID ≠ filter.graphID then false
  else filter.tags.all (· ∈ entry.semanticTags)

namespace StateRegistry

variable (r : StateRegistry) (order : RangeOrder String) (agentIDs : List String)
  (executingAgentID : String) (cond : EnhancedPrecondition)

def matchesFilter (agentID : String) (filter : PreconditionFilter) : Bool :=
  match r.agentStates agentID with
  | none => false
  | some entry => filter.accepts entry

def passesFilter (agentID : String) : Bool :=
  match cond.filter with
  | none => true
  | some filter => r.matchesFilter agentID filter

/-! ## Evaluating -/

/-- The result for one agent: what `evaluateSelfStateLocked` and `evaluateAgentStateLocked` do once
the agent is named, with their own texts. -/
def evaluateAgent (agentID notFound subject : String) : PreconditionResult :=
  match r.agentStates agentID with
  | none => { error := notFound }
  | some entry =>
    if matchStateCode entry.stateCode cond.stateCode cond.operator then
      { passed := true, matchedCount := 1, matchedIDs := [agentID] }
    else
      { error := subject ++ " is '" ++ entry.stateCode ++ "', expected '" ++ cond.stateCode ++
          "' (op: " ++ cond.operator ++ ")" }

def evaluateSelfState : PreconditionResult :=
  r.evaluateAgent cond executingAgentID
    ("agent " ++ executingAgentID ++ " not found in registry") "self state"

def evaluateAgentState : PreconditionResult :=
  if cond.targetAgentID = "" then
    { error := "target_agent_id is required for agent_state type" }
  else
    r.evaluateAgent cond cond.targetAgentID
      ("target agent " ++ cond.targetAgentID ++ " not found in registry")
      ("agent " ++ cond.targetAgentID ++ " state")

/-- The verdict on the agents that were counted. -/
def countResult (matchedIDs : List String) (countCondition subject : String) :
    PreconditionResult :=
  if evaluateCountCondition matchedIDs.length countCondition then
    { passed := true, matchedCount := matchedIDs.length, matchedIDs }
  else
    { error := subject ++ " count " ++ toString matchedIDs.length ++ " does not satisfy '" ++
        countCondition ++ "'"
      matchedCount := matchedIDs.length, matchedIDs }

def evaluateSemanticTag : PreconditionResult :=
  if cond.semanticTag = "" then { error := "semantic_tag is required for semantic_tag type" }
  else
    countResult ((r.getAgentsByTag order cond.semanticTag).filter (r.passesFilter cond ·))
      cond.countCondition ("semantic tag '" ++ cond.semanticTag ++ "'")

/-- One round of the loop over all agents. -/
def selectsAny (agentID : String) : Bool :=
  if cond.filter.any (!·.includeSelf) && agentID = executingAgentID then false
  else if !r.passesFilter cond agentID then false
  else (r.agentStates agentID).any fun entry ↦
    matchStateCode entry.stateCode cond.stateCode cond.operator

def evaluateAnyAgentState : PreconditionResult :=
  countResult ((order.range agentIDs).filter (r.selectsAny executingAgentID cond ·))
    (if cond.countCondition = "" then ">= 1" else cond.countCondition)
    ("agents with state '" ++ cond.stateCode ++ "'")

/-- `agentIDs` are the keys of the entries. -/
def evaluateEnhancedPrecondition : PreconditionResult :=
  if cond.type = "self_state" then r.evaluateSelfState executingAgentID cond
  else if cond.type = "agent_state" then r.evaluateAgentState cond
  else if cond.type = "semantic_tag" then r.evaluateSemanticTag order cond
  else if cond.type = "any_agent_state" then
    r.evaluateAnyAgentState order agentIDs executingAgentID cond
  else { error := "unknown precondition type: " ++ cond.type }

/-- `EvaluateEnhancedPreconditions`: whether all pass, and the text for the first that does not. -/
def evaluateEnhancedPreconditions : List EnhancedPrecondition → Bool × String
  | [] => (true, "")
  | cond :: conditions =>
    let result := r.evaluateEnhancedPrecondition order agentIDs executingAgentID cond
    if !result.passed then (false, if cond.message = "" then result.error else cond.message)
    else evaluateEnhancedPreconditions conditions

/-! ## What is evaluated -/

/-- What a condition asks of an agent, whichever way it is found. -/
def Selects (cond : EnhancedPrecondition) (executingAgentID agentID : String)
    (entry : AgentStateEntry) : Prop :=
  let passes := cond.filter.all (·.accepts entry) = true
  let matchesCode := matchStateCode entry.stateCode cond.stateCode cond.operator = true
  (cond.type = "self_state" ∧ agentID = executingAgentID ∧ matchesCode) ∨
    (cond.type = "agent_state" ∧ agentID = cond.targetAgentID ∧ matchesCode) ∨
    (cond.type = "semantic_tag" ∧ cond.semanticTag ∈ entry.semanticTags ∧ passes) ∨
    (cond.type = "any_agent_state" ∧
      (∀ filter, cond.filter = some filter → filter.includeSelf = true ∨
        agentID ≠ executingAgentID) ∧ passes ∧ matchesCode)

/-- The conditions that say what they need. -/
def Stated (cond : EnhancedPrecondition) : Prop :=
  cond.type = "self_state" ∨ cond.type = "agent_state" ∧ cond.targetAgentID ≠ "" ∨
    cond.type = "semantic_tag" ∧ cond.semanticTag ≠ "" ∨ cond.type = "any_agent_state"

/-- The count condition of a condition about several agents. -/
def countConditionOf (cond : EnhancedPrecondition) : String :=
  if cond.type = "self_state" ∨ cond.type = "agent_state" then "" else cond.countCondition

variable {r order agentIDs executingAgentID cond} {agentID : String} {p q : String → Prop}

/-- Two lists of the same agents are as long. -/
theorem ListsExactly.length_eq {agents agents' : List String} (h : ListsExactly agents p)
    (h' : ListsExactly agents' q) (hpq : ∀ agentID, p agentID ↔ q agentID) :
    agents.length = agents'.length :=
  ((List.perm_ext_iff_of_nodup h.nodup h'.nodup).mpr fun agentID ↦ by
    rw [h.mem_iff, h'.mem_iff, hpq]).length_eq

theorem ListsExactly.congr {agents : List String} (h : ListsExactly agents p)
    (hpq : ∀ agentID, p agentID ↔ q agentID) : ListsExactly agents q :=
  ⟨h.nodup, fun agentID ↦ (h.mem_iff agentID).trans (hpq agentID)⟩

theorem ListsExactly.filter {agents : List String} (h : ListsExactly agents p)
    (test : String → Bool) :
    ListsExactly (agents.filter test) fun agentID ↦ p agentID ∧ test agentID = true :=
  ⟨h.nodup.filter test, fun agentID ↦ by rw [List.mem_filter, h.mem_iff]⟩

/-- Without a count condition there has to be an agent. -/
theorem evaluateCountCondition_default (count : ℤ) (condition : String) :
    evaluateCountCondition count (if condition = "" then ">= 1" else condition) =
      evaluateCountCondition count condition := by
  by_cases hempty : condition = ""
  · subst hempty
    have hthreshold : scanThreshold ">=" (trimSpace ">= 1") = 1 := by decide
    have hgeq : hasPrefix (trimSpace ">= 1") ">=" = true := by decide
    rw [if_pos rfl, evaluateCountCondition, if_neg (by decide)]
    simp only [hgeq, if_true, hthreshold, evaluateCountCondition]
    exact decide_eq_decide.mpr (by omega)
  · rw [if_neg hempty]

theorem passesFilter_eq_true_iff {entry : AgentStateEntry}
    (hentry : r.agentStates agentID = some entry) :
    r.passesFilter cond agentID = cond.filter.all (·.accepts entry) := by
  rw [passesFilter]
  cases cond.filter with
  | none => rfl
  | some filter => simp only [matchesFilter, hentry, Option.all_some]

/-- The agents that a result reports, and how it was reached. -/
structure Reports (r : StateRegistry) (cond : EnhancedPrecondition) (executingAgentID : String)
    (result : PreconditionResult) : Prop where
  ids : ListsExactly result.matchedIDs fun agentID ↦
    ∃ entry, r.agentStates agentID = some entry ∧ Selects cond executingAgentID agentID entry
  count : result.matchedCount = result.matchedIDs.length
  passed : result.passed =
    evaluateCountCondition result.matchedIDs.length (countConditionOf cond)

/-- One agent is selected or none. -/
theorem reports_evaluateAgent (notFound subject : String) (hcount : countConditionOf cond = "")
    (hselects : ∀ other entry, Selects cond executingAgentID other entry ↔
      other = agentID ∧ matchStateCode entry.stateCode cond.stateCode cond.operator = true) :
    Reports r cond executingAgentID (r.evaluateAgent cond agentID notFound subject) := by
  rw [evaluateAgent]
  split
  · rename_i hnone
    refine ⟨⟨List.nodup_nil, fun other ↦ ?_⟩, rfl, by rw [hcount]; rfl⟩
    simp only [List.not_mem_nil, hselects, false_iff]
    rintro ⟨entry, hentry, rfl, -⟩
    rw [hnone] at hentry
    cases hentry
  · rename_i entry hentry
    split_ifs with hmatch
    · refine ⟨⟨List.nodup_singleton agentID, fun other ↦ ?_⟩, rfl, by rw [hcount]; rfl⟩
      rw [List.mem_singleton]
      refine ⟨?_, ?_⟩
      · rintro rfl
        exact ⟨entry, hentry, (hselects other entry).mpr ⟨rfl, hmatch⟩⟩
      · rintro ⟨entry', -, hselected⟩
        exact ((hselects other entry').mp hselected).1
    · refine ⟨⟨List.nodup_nil, fun other ↦ ?_⟩, rfl, by rw [hcount]; rfl⟩
      simp only [List.not_mem_nil, hselects, false_iff]
      rintro ⟨entry', hentry', rfl, hmatch'⟩
      rw [hentry] at hentry'
      obtain rfl := Option.some.inj hentry'
      exact hmatch hmatch'

theorem reports_countResult {matchedIDs : List String} (countCondition subject : String)
    (hids : ListsExactly matchedIDs fun agentID ↦
      ∃ entry, r.agentStates agentID = some entry ∧ Selects cond executingAgentID agentID entry)
    (hcount : evaluateCountCondition matchedIDs.length countCondition =
      evaluateCountCondition matchedIDs.length (countConditionOf cond)) :
    Reports r cond executingAgentID (countResult matchedIDs countCondition subject) := by
  rw [countResult]
  cases hpassed : evaluateCountCondition matchedIDs.length countCondition with
  | true => exact ⟨hids, rfl, hpassed.symm.trans hcount⟩
  | false => exact ⟨hids, rfl, hpassed.symm.trans hcount⟩

/-- Whichever way the agents are found, the result reports those that the condition selects. -/
theorem reports_evaluateEnhancedPrecondition (h : Reachable r)
    (hkeys : ListsExactly agentIDs fun agentID ↦ ∃ entry, r.agentStates agentID = some entry)
    (hstated : Stated cond) :
    Reports r cond executingAgentID
      (r.evaluateEnhancedPrecondition order agentIDs executingAgentID cond) := by
  rw [evaluateEnhancedPrecondition]
  rcases hstated with htype | ⟨htype, htarget⟩ | ⟨htype, htag⟩ | htype
  · rw [if_pos htype, evaluateSelfState]
    exact reports_evaluateAgent _ _ (by simp [countConditionOf, htype]) fun other entry ↦ by
      simp [Selects, htype]
  · rw [if_neg (by simp [htype]), if_pos htype, evaluateAgentState, if_neg htarget]
    exact reports_evaluateAgent _ _ (by simp [countConditionOf, htype]) fun other entry ↦ by
      simp [Selects, htype]
  · rw [if_neg (by simp [htype]), if_neg (by simp [htype]), if_pos htype, evaluateSemanticTag,
      if_neg htag]
    refine reports_countResult _ _ ?_ (by simp [countConditionOf, htype])
    -- the index lists the agents whose entries have the tag
    have hlisted := listsExactly_range h.indexesExact.tags order
      (fun entry : AgentStateEntry ↦ by
        show cond.semanticTag ∈ tagLabels entry ↔ cond.semanticTag ∈ entry.semanticTags
        simp [tagLabels, htag])
    refine (hlisted.filter _).congr fun agentID ↦ ?_
    simp only [Selects, htype]
    constructor
    · rintro ⟨⟨entry, hentry, hmem⟩, hpasses⟩
      rw [passesFilter_eq_true_iff hentry] at hpasses
      exact ⟨entry, hentry, by simp [hmem, hpasses]⟩
    · rintro ⟨entry, hentry, hselected⟩
      have hselected : cond.semanticTag ∈ entry.semanticTags ∧
          cond.filter.all (·.accepts entry) = true := by simpa using hselected
      exact ⟨⟨entry, hentry, hselected.1⟩, (passesFilter_eq_true_iff hentry).trans hselected.2⟩
  · rw [if_neg (by simp [htype]), if_neg (by simp [htype]), if_neg (by simp [htype]),
      if_pos htype, evaluateAnyAgentState]
    refine reports_countResult _ _ ?_ (by
      rw [evaluateCountCondition_default]
      simp [countConditionOf, htype])
    have hlisted : ListsExactly (order.range agentIDs) fun agentID ↦
        ∃ entry, r.agentStates agentID = some entry :=
      ⟨(order.perm _).nodup_iff.mpr hkeys.nodup, fun agentID ↦ by
        rw [order.mem_range, hkeys.mem_iff]⟩
    refine (hlisted.filter _).congr fun agentID ↦ ?_
    have hselects : ∀ entry, r.agentStates agentID = some entry →
        (r.selectsAny executingAgentID cond agentID = true ↔
          Selects cond executingAgentID agentID entry) := by
      intro entry hentry
      simp only [Selects, selectsAny, passesFilter_eq_true_iff hentry, hentry, htype]
      cases hfilter : cond.filter with
      | none => simp
      | some filter => cases filter.includeSelf <;> by_cases hself : agentID = executingAgentID <;>
          simp [hself]
    constructor
    · rintro ⟨⟨entry, hentry⟩, hselected⟩
      exact ⟨entry, hentry, (hselects entry hentry).mp hselected⟩
    · rintro ⟨entry, hentry, hselected⟩
      exact ⟨⟨entry, hentry⟩, (hselects entry hentry).mpr hselected⟩

/-! ## The results -/

theorem passed_of_not_stated (hstated : ¬Stated cond) :
    (r.evaluateEnhancedPrecondition order agentIDs executingAgentID cond).passed = false := by
  rw [evaluateEnhancedPrecondition]
  split_ifs with hself hagent htag hany
  · exact absurd (.inl hself) hstated
  · have htarget : cond.targetAgentID = "" := by
      by_contra hne
      exact hstated (.inr (.inl ⟨hagent, hne⟩))
    rw [evaluateAgentState, if_pos htarget]
  · have hempty : cond.semanticTag = "" := by
      by_contra hne
      exact hstated (.inr (.inr (.inl ⟨htag, hne⟩)))
    rw [evaluateSemanticTag, if_pos hempty]
  · exact absurd (.inr (.inr (.inr hany))) hstated
  · rfl

/-- **Preconditions pass when each of them says what it needs and has as many agents as it asks
for**, in whatever order the agents are visited. -/
theorem evaluateEnhancedPreconditions_iff (h : Reachable r)
    (hkeys : ListsExactly agentIDs fun agentID ↦ ∃ entry, r.agentStates agentID = some entry)
    (order : RangeOrder String) (executingAgentID : String)
    (conditions : List EnhancedPrecondition) :
    (r.evaluateEnhancedPreconditions order agentIDs executingAgentID conditions).1 = true ↔
      ∀ cond ∈ conditions, Stated cond ∧ ∃ agents,
        (ListsExactly agents fun agentID ↦ ∃ entry, r.agentStates agentID = some entry ∧
          Selects cond executingAgentID agentID entry) ∧
        evaluateCountCondition agents.length (countConditionOf cond) = true := by
  have hone : ∀ cond,
      (r.evaluateEnhancedPrecondition order agentIDs executingAgentID cond).passed = true ↔
        Stated cond ∧ ∃ agents,
          (ListsExactly agents fun agentID ↦ ∃ entry, r.agentStates agentID = some entry ∧
            Selects cond executingAgentID agentID entry) ∧
          evaluateCountCondition agents.length (countConditionOf cond) = true := by
    intro cond
    by_cases hstated : Stated cond
    · have hreports : Reports r cond executingAgentID
          (r.evaluateEnhancedPrecondition order agentIDs executingAgentID cond) :=
        reports_evaluateEnhancedPrecondition h hkeys hstated
      rw [hreports.passed]
      constructor
      · exact fun hcount ↦ ⟨hstated, _, hreports.ids, hcount⟩
      · rintro ⟨-, agents, hagents, hcount⟩
        rwa [hreports.ids.length_eq hagents fun _ ↦ Iff.rfl]
    · simp [passed_of_not_stated hstated, hstated]
  induction conditions with
  | nil => simp [evaluateEnhancedPreconditions]
  | cons cond conditions ih =>
    rw [evaluateEnhancedPreconditions, List.forall_mem_cons, ← hone cond]
    generalize r.evaluateEnhancedPrecondition order agentIDs executingAgentID cond = result
    cases result.passed with
    | true =>
      simp only [Bool.not_true, Bool.false_eq_true, if_false, true_and]
      exact ih
    | false => simp

/-- One agent, that is busy. -/
def oneAgent : StateRegistry :=
  updateAgentState {} 1 "r1" "picking" ["busy"] "" true true

theorem reachable_oneAgent : Reachable oneAgent :=
  .next (a := (.updateAgentState "r1" "picking" ["busy"] "" true true, 1)) (.start rfl) trivial rfl

theorem keys_oneAgent :
    ListsExactly ["r1"] fun agentID ↦ ∃ entry, oneAgent.agentStates agentID = some entry := by
  refine ⟨by decide, fun agentID ↦ ?_⟩
  show agentID ∈ ["r1"] ↔ ∃ entry, Function.update (fun _ ↦ none) "r1" (some _) agentID = some entry
  rw [List.mem_singleton]
  by_cases hid : agentID = "r1"
  · subst hid
    simp
  · simp [hid]

theorem evaluateEnhancedPreconditions_iff_oneAgent :
    (oneAgent.evaluateEnhancedPreconditions (.asListed _) ["r1"] "r2"
        [{ type := "semantic_tag", semanticTag := "busy", countCondition := "== 1" }]).1 = true ∧
      ∀ cond ∈ [({ type := "semantic_tag", semanticTag := "busy", countCondition := "== 1" } :
          EnhancedPrecondition)],
        Stated cond ∧ ∃ agents,
          (ListsExactly agents fun agentID ↦ ∃ entry, oneAgent.agentStates agentID = some entry ∧
            Selects cond "r2" agentID entry) ∧
          evaluateCountCondition agents.length (countConditionOf cond) = true := by
  have hpasses : (oneAgent.evaluateEnhancedPreconditions (.asListed _) ["r1"] "r2"
      [{ type := "semantic_tag", semanticTag := "busy", countCondition := "== 1" }]).1 = true := by
    decide
  exact ⟨hpasses, (evaluateEnhancedPreconditions_iff reachable_oneAgent keys_oneAgent _ _ _).mp
    hpasses⟩

/-- The condition on a tag, asked of all agents. -/
def asScan (cond : EnhancedPrecondition) : EnhancedPrecondition :=
  { cond with
    type := "any_agent_state", stateCode := "", operator := "contains"
    filter := some
      { cond.filter.getD {} with
        tags := cond.semanticTag :: (cond.filter.getD {}).tags, includeSelf := true } }

theorem selects_asScan (htype : cond.type = "semantic_tag") (agentID : String)
    (entry : AgentStateEntry) :
    Selects (asScan cond) executingAgentID agentID entry ↔
      Selects cond executingAgentID agentID entry := by
  have hcontains : contains entry.stateCode "" = true :=
    contains_iff.mpr ⟨[], entry.stateCode.toList, rfl⟩
  have hmatch : matchStateCode entry.stateCode "" "contains" = true := by
    simp [matchStateCode, hcontains]
  have haccepts : ∀ (filter : PreconditionFilter) (tag : String),
      ({ filter with tags := tag :: filter.tags, includeSelf := true } :
        PreconditionFilter).accepts entry = true ↔
      tag ∈ entry.semanticTags ∧ filter.accepts entry = true := by
    intro filter tag
    rw [PreconditionFilter.accepts, PreconditionFilter.accepts]
    split_ifs <;> simp
  have hempty : ({} : PreconditionFilter).accepts entry = true := by
    simp [PreconditionFilter.accepts]
  simp only [Selects, asScan, htype, hmatch, Option.all_some, haccepts]
  cases cond.filter with
  | none => simp [hempty]
  | some filter => simp

/-- **The index of the tags gives what looking through all agents gives**: the same verdict and the
same agents, in whatever orders the two are visited. -/
theorem semanticTag_eq_scan (h : Reachable r)
    (hkeys : ListsExactly agentIDs fun agentID ↦ ∃ entry, r.agentStates agentID = some entry)
    (htype : cond.type = "semantic_tag") (htag : cond.semanticTag ≠ "")
    (order order' : RangeOrder String) (executingAgentID : String) :
    (r.evaluateEnhancedPrecondition order agentIDs executingAgentID cond).passed =
        (r.evaluateEnhancedPrecondition order' agentIDs executingAgentID (asScan cond)).passed ∧
      (r.evaluateEnhancedPrecondition order agentIDs executingAgentID cond).matchedIDs.Perm
        (r.evaluateEnhancedPrecondition order' agentIDs executingAgentID
          (asScan cond)).matchedIDs := by
  have hindex : Reports r cond executingAgentID
      (r.evaluateEnhancedPrecondition order agentIDs executingAgentID cond) :=
    reports_evaluateEnhancedPrecondition h hkeys (.inr (.inr (.inl ⟨htype, htag⟩)))
  have hscan : Reports r (asScan cond) executingAgentID
      (r.evaluateEnhancedPrecondition order' agentIDs executingAgentID (asScan cond)) :=
    reports_evaluateEnhancedPrecondition h hkeys (.inr (.inr (.inr rfl)))
  have hids := hscan.ids.congr fun agentID ↦ exists_congr fun entry ↦
    and_congr_right fun _ ↦ selects_asScan htype agentID entry
  have hperm := (List.perm_ext_iff_of_nodup hindex.ids.nodup hids.nodup).mpr fun agentID ↦ by
    rw [hindex.ids.mem_iff, hids.mem_iff]
  refine ⟨?_, hperm⟩
  have hcount : countConditionOf (asScan cond) = countConditionOf cond := by
    simp [countConditionOf, asScan, htype]
  rw [hindex.passed, hscan.passed, hcount, hperm.length_eq]

theorem semanticTag_eq_scan_oneAgent :
    let cond : EnhancedPrecondition := { type := "semantic_tag", semanticTag := "busy" }
    (oneAgent.evaluateEnhancedPrecondition (.asListed _) ["r1"] "r1" cond).passed = true ∧
      (oneAgent.evaluateEnhancedPrecondition (.asListed _) ["r1"] "r1" cond).matchedIDs.Perm
        (oneAgent.evaluateEnhancedPrecondition (.asListed _) ["r1"] "r1"
          (asScan cond)).matchedIDs := by
  refine ⟨by decide, ?_⟩
  exact (semanticTag_eq_scan reachable_oneAgent keys_oneAgent (by decide) (by decide) _ _ _).2

end StateRegistry
end State
end FleetServer
