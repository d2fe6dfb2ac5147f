import Mathlib.Data.Rat.Defs
import FleetServer.Lib.BoolChain
import FleetServer.Lib.RangeOrder
import FleetServer.State.Manager

/-!
# Start conditions

The rich start conditions of `internal/state/manager.go`.  A condition has a quantifier that picks
the robots it is about; `evaluateSingleConditionDetailed` sorts them into those that match, those
that do not, and those whose state is too old or that are offline.  `EvaluateStartConditionList`
joins the results of a list of conditions by their operators, and stops early.

Two things are parameters: `seconds`, a duration as a floating point number of seconds, and
`formatSec`, that number as it is printed without decimals.  The keys of the map of the robots are
`robotIDs`; the loop of each condition visits them in an order of its own.
-/

set_option autoImplicit false

namespace FleetServer
namespace State

open BoolChain

structure StartCondition where
  id : String := ""
  quantifier : String := ""
  agentID : String := ""
  state : String := ""
  stateOperator : String := ""
  allowedStates : List String := []
  maxStalenessSec : ℚ := 0
  requireOnline : Bool := false
  operator : String := ""
  message : String := ""
  deriving DecidableEq

structure ConditionResult where
  conditionID : String
  passed : Bool := false
  targetRobots : List String := []
  matchingRobots : List String := []
  failedRobots : List String := []
  staleRobots : List String := []
  offlineRobots : List String := []
  error : String := ""
  deriving DecidableEq

/-- What a condition makes of one of its robots. -/
inductive RobotVerdict
  | stale
  | offline
  | matching
  | failed
  deriving DecidableEq

/-- How durations are read and printed. -/
structure DurationText where
  seconds : ℤ → ℚ
  formatSec : ℚ → String

def defaultMaxStalenessSec : ℚ := 30

/-- A list of strings as `%v` prints it. -/
def sprintList (items : List String) : String := "[" ++ " ".intercalate items ++ "]"

/-! ## One condition -/

/-- `robotMatchesStateCondition`. -/
def robotMatchesStateCondition (robot : RobotState) (cond : StartCondition) : Bool :=
  if !robot.isOnline then false
  else if cond.stateOperator = "!=" ∨ cond.stateOperator = "not_equals" then
    robot.currentState ≠ cond.state
  else if cond.stateOperator = "in" then robot.currentState ∈ cond.allowedStates
  else if cond.stateOperator = "not_in" then robot.currentState ∉ cond.allowedStates
  else robot.currentState = cond.state

namespace StartCondition

variable (cond : StartCondition)

def maxStaleness : ℚ :=
  if cond.maxStalenessSec ≤ 0 then defaultMaxStalenessSec else cond.maxStalenessSec

/-- The body of the loop over the robots of a condition. -/
def verdict (text : DurationText) (now : ℕ) (robot : RobotState) : RobotVerdict :=
  if cond.maxStaleness < text.seconds ((now : ℤ) - robot.lastSeen) then .stale
  else if cond.requireOnline && !robot.isOnline then .offline
  else if robotMatchesStateCondition robot cond then .matching
  else .failed

/-- The quantifier applied to the robots that have been sorted. -/
def quantify (result : ConditionResult) : ConditionResult :=
  if cond.quantifier = "self" then { result with passed := result.matchingRobots ≠ [] }
  else if cond.quantifier = "all" ∨ cond.quantifier = "" then
    { result with passed :=
        result.matchingRobots.length = result.targetRobots.length ∧ result.staleRobots = [] ∧
          result.offlineRobots = [] }
  else if cond.quantifier = "any" then { result with passed := result.matchingRobots ≠ [] }
  else if cond.quantifier = "none" then { result with passed := result.matchingRobots = [] }
  else if cond.quantifier = "specific" then { result with passed := result.matchingRobots ≠ [] }
  else { result with error := "Unknown quantifier: " ++ cond.quantifier }

/-- The error of a condition whose quantifier is known, when it has failed. -/
def failure (text : DurationText) (result : ConditionResult) : String :=
  if cond.message ≠ "" then cond.message
  else if result.staleRobots ≠ [] then
    "State too old for: " ++ sprintList result.staleRobots ++ " (max " ++
      text.formatSec cond.maxStaleness ++ "s)"
  else if result.offlineRobots ≠ [] then "Robots offline: " ++ sprintList result.offlineRobots
  else if result.failedRobots ≠ [] then
    "State mismatch for: " ++ sprintList result.failedRobots ++ " (expected " ++ cond.state ++ ")"
  else if result.matchingRobots = [] ∧ cond.quantifier ≠ "none" then
    "No robots matched condition (quantifier: " ++ cond.quantifier ++ ")"
  else ""

end StartCondition

def quantifiers : List String := ["self", "all", "", "any", "none", "specific"]

namespace Manager

variable (m : Manager) (text : DurationText) (now : ℕ) (executingAgentID : String)

/-- `getTargetRobots`.  A robot belongs to the agent of the same id. -/
def getTargetRobots (robotIDs : List String) (cond : StartCondition) : List RobotState :=
  if cond.quantifier = "self" ∨ cond.quantifier = "" then (m.robots executingAgentID).toList
  else if cond.quantifier = "specific" then
    if cond.agentID ≠ "" then (m.robots cond.agentID).toList else []
  else if cond.quantifier = "all" ∨ cond.quantifier = "any" ∨ cond.quantifier = "none" then
    (robotIDs.filterMap m.robots).filter fun robot ↦ cond.agentID = "" ∨ robot.id = cond.agentID
  else []

/-- `evaluateSingleConditionDetailed`. -/
def evaluateSingleConditionDetailed (robotIDs : List String) (cond : StartCondition) :
    ConditionResult :=
  let targetRobots := m.getTargetRobots executingAgentID robotIDs cond
  if targetRobots = [] ∧ cond.quantifier ≠ "none" then
    { conditionID := cond.id, error := "No target robots found for condition " ++ cond.id }
  else
    let judged (verdict : RobotVerdict) : List String :=
      (targetRobots.filter fun robot ↦ cond.verdict text now robot = verdict).map (·.id)
    let result := cond.quantify
      { conditionID := cond.id, targetRobots := targetRobots.map (·.id)
        matchingRobots := judged .matching, failedRobots := judged .failed
        staleRobots := judged .stale, offlineRobots := judged .offline }
    if cond.quantifier ∉ quantifiers ∨ result.passed then result
    else { result with error := cond.failure text result }

/-! ## A list of conditions -/

/-- The loop of `EvaluateStartConditionList`, from the condition at an index on. -/
def evaluateFrom (orders : ℕ → RangeOrder String) (robotIDs : List String) :
    ℕ → Bool → String → List StartCondition → Bool × String
  | _, result, errorMessage, [] => (result, errorMessage)
  | i, result, errorMessage, cond :: rest =>
    let condResult := m.evaluateSingleConditionDetailed text now executingAgentID
      ((orders i).range robotIDs) cond
    let passed := condResult.passed
    let result :=
      if i = 0 then passed
      else if cond.operator = "or" then result || passed
      else result && passed
    let errorMessage :=
      if !passed ∧ errorMessage = "" then
        if cond.message ≠ "" then cond.message
        else if condResult.error ≠ "" then condResult.error
        else "start condition not satisfied"
      else errorMessage
    if !result ∧ cond.operator ≠ "or" then (result, errorMessage)
    else evaluateFrom orders robotIDs (i + 1) result errorMessage rest

/-- `EvaluateStartConditionList`: whether the list passes, and an error message. -/
def evaluateStartConditionList (orders : ℕ → RangeOrder String) (robotIDs : List String)
    (conditions : List StartCondition) : Bool × String :=
  if conditions = [] then (true, "")
  else m.evaluateFrom text now executingAgentID orders robotIDs 0 true "" conditions

/-- The individual result of a condition, and how it is joined to those before it. -/
def link (robotIDs : List String) (cond : StartCondition) : Link where
  isOr := cond.operator = "or"
  value := (m.evaluateSingleConditionDetailed text now executingAgentID robotIDs cond).passed

variable {m text now executingAgentID} {robotIDs robotIDs' : List String} {cond : StartCondition}

/-! ## The order of the robots -/

theorem passed_quantify_congr {r r' : ConditionResult}
    (htargets : r.targetRobots.Perm r'.targetRobots)
    (hmatching : r.matchingRobots.Perm r'.matchingRobots)
    (hstale : r.staleRobots.Perm r'.staleRobots) (hoffline : r.offlineRobots.Perm r'.offlineRobots)
    (hpassed : r.passed = r'.passed) : (cond.quantify r).passed = (cond.quantify r').passed := by
  have hnil : ∀ {l l' : List String}, l.Perm l' → (l = [] ↔ l' = []) := fun h ↦ by
    rw [← List.length_eq_zero_iff, ← List.length_eq_zero_iff, h.length_eq]
  simp only [StartCondition.quantify, ne_eq, hnil hmatching, hnil hstale, hnil hoffline,
    htargets.length_eq, hmatching.length_eq]
  split_ifs <;> first | rfl | exact hpassed

theorem getTargetRobots_perm (h : robotIDs.Perm robotIDs') :
    (m.getTargetRobots executingAgentID robotIDs cond).Perm
      (m.getTargetRobots executingAgentID robotIDs' cond) := by
  rw [getTargetRobots, getTargetRobots]
  split
  · exact List.Perm.refl _
  · split
    · exact List.Perm.refl _
    · split
      · exact (h.filterMap _).filter _
      · exact List.Perm.refl _

/-- Whether a condition passes does not depend on the order of the robots. -/
theorem passed_of_perm (h : robotIDs.Perm robotIDs') :
    (m.evaluateSingleConditionDetailed text now executingAgentID robotIDs cond).passed =
      (m.evaluateSingleConditionDetailed text now executingAgentID robotIDs' cond).passed := by
  have htargets : (m.getTargetRobots executingAgentID robotIDs cond).Perm
      (m.getTargetRobots executingAgentID robotIDs' cond) := getTargetRobots_perm h
  have hnil : m.getTargetRobots executingAgentID robotIDs cond = [] ↔
      m.getTargetRobots executingAgentID robotIDs' cond = [] := by
    rw [← List.length_eq_zero_iff, ← List.length_eq_zero_iff, htargets.length_eq]
  have herror : ∀ (p : Prop) [Decidable p] (r : ConditionResult) (error : String),
      (if p then r else { r with error }).passed = r.passed := by
    intro p _ r error
    split <;> rfl
  simp only [evaluateSingleConditionDetailed, hnil]
  split
  · rfl
  · rw [herror, herror]
    exact passed_quantify_congr (htargets.map _) ((htargets.filter _).map _)
      ((htargets.filter _).map _) ((htargets.filter _).map _) rfl

theorem value_link_range (order : RangeOrder String) :
    (m.evaluateSingleConditionDetailed text now executingAgentID (order.range robotIDs)
      cond).passed = (m.link text now executingAgentID robotIDs cond).value :=
  passed_of_perm (order.perm robotIDs)

/-! ## The loop -/

/-- After the first condition the loop joins the results and stops early. -/
theorem evaluateFrom_succ (orders : ℕ → RangeOrder String) (conditions : List StartCondition)
    (i : ℕ) (result : Bool) (errorMessage : String) :
    (m.evaluateFrom text now executingAgentID orders robotIDs (i + 1) result errorMessage
        conditions).1 =
      joinEarly result (conditions.map (m.link text now executingAgentID robotIDs)) := by
  induction conditions generalizing i result errorMessage with
  | nil => rfl
  | cons cond rest ih =>
    have hjoin : (if i + 1 = 0 then (m.link text now executingAgentID robotIDs cond).value
        else if cond.operator = "or" then
          result || (m.link text now executingAgentID robotIDs cond).value
        else result && (m.link text now executingAgentID robotIDs cond).value) =
        join result (m.link text now executingAgentID robotIDs cond) := by
      rw [if_neg (by omega), join]
      simp only [link, decide_eq_true_eq]
    simp only [evaluateFrom, value_link_range, hjoin, List.map_cons, joinEarly]
    -- the error message has no part in the value
    refine (apply_ite Prod.fst _ _ _).trans ?_
    rw [ih]
    refine if_congr ?_ rfl rfl
    simp [link]

theorem evaluateStartConditionList_eq (orders : ℕ → RangeOrder String)
    (conditions : List StartCondition) :
    (m.evaluateStartConditionList text now executingAgentID orders robotIDs conditions).1 =
      evalEarly (conditions.map (m.link text now executingAgentID robotIDs)) := by
  rw [evaluateStartConditionList]
  cases conditions with
  | nil => rfl
  | cons cond rest =>
    simp only [reduceCtorEq, if_false, evaluateFrom, if_true, value_link_range, List.map_cons,
      evalEarly]
    refine (apply_ite Prod.fst _ _ _).trans ?_
    rw [evaluateFrom_succ]
    refine if_congr ?_ rfl rfl
    simp [link]

/-! ## What the early exit changes -/

/-- **A list of conditions passes exactly when the results of all its conditions joined from left
to right do**, unless the early exit cuts the list short. -/
theorem evaluateStartConditionList_iff (m : Manager) (text : DurationText) (now : ℕ)
    (executingAgentID : String) (orders : ℕ → RangeOrder String) (robotIDs : List String)
    (conditions : List StartCondition) :
    ((m.evaluateStartConditionList text now executingAgentID orders robotIDs conditions).1 = true ↔
        eval (conditions.map (m.link text now executingAgentID robotIDs)) = true) ↔
      ¬CutShort (conditions.map (m.link text now executingAgentID robotIDs)) := by
  rw [← evalEarly_eq_iff, evaluateStartConditionList_eq]
  exact Bool.eq_iff_iff.symm

end Manager

/-! ## Two conditions -/

def plainText : DurationText := ⟨fun ns ↦ ns / 10 ^ 9, fun _ ↦ ""⟩

/-- The robot is busy, or it is idle. -/
def busyOrIdle : List StartCondition :=
  [{ id := "first", quantifier := "self", state := "busy" },
    { id := "second", quantifier := "self", state := "idle", operator := "or" }]

def idleRobot : Manager :=
  { robots := Function.update (fun _ ↦ none) "robot"
      (some { id := "robot", currentState := "idle" }) }

/-- **An idle robot fails "busy or idle"**: the loop stops at the first condition. -/
theorem busyOrIdle_fails :
    idleRobot.evaluateStartConditionList plainText 0 "robot" (fun _ ↦ .asListed _) ["robot"]
        busyOrIdle = (false, "State mismatch for: [robot] (expected busy)") ∧
      eval (busyOrIdle.map (idleRobot.link plainText 0 "robot" ["robot"])) = true := by
  decide +kernel

end State
end FleetServer
