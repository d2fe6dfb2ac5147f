import FleetServer.State.StartConditions

/-!
# What a task is waiting for

`EvaluateStartConditionsWithBlockingInfo` of `internal/state/manager.go` is the gate the scheduler
waits on: it evaluates the start conditions of a step and says, for every condition that fails,
which robots are in the way.  It takes the conditions together, whatever their operators, and it
finds nothing to report when a condition asks that no robot match and all of them do.

`blockingInfo_agrees_iff` says when its verdict is that of `EvaluateStartConditionList` and when a
failure is reported at all.
-/

set_option autoImplicit false

namespace FleetServer
namespace State

open BoolChain

structure BlockingConditionInfo where
  conditionID : String
  description : String
  targetAgentID : String := ""
  targetAgentName : String := ""
  requiredState : String
  currentState : String := ""
  reason : String
  deriving DecidableEq, Repr

namespace Manager

variable (m : Manager) (text : DurationText) (now : ℕ) (executingAgentID : String)
  (name : String → String)

/-- The body of the loops over the stale, the offline and the mismatching robots: they differ in
the reason and in the description of a condition that has no message.  `name` are the names of the
robots. -/
def robotInfo (reason : String) (describe : String → String → String) (cond : StartCondition)
    (robotID : String) : BlockingConditionInfo :=
  let currentState := (m.robots robotID).elim "" RobotState.currentState
  { conditionID := cond.id
    description := if cond.message = "" then describe robotID currentState else cond.message
    targetAgentID := robotID
    targetAgentName := (m.robots robotID).elim "" fun _ ↦ name robotID
    requiredState := cond.state
    currentState
    reason }

def staleInfo : StartCondition → String → BlockingConditionInfo :=
  m.robotInfo name "state_too_old" fun robotID _ ↦ "Agent " ++ robotID ++ " state is stale"

def offlineInfo : StartCondition → String → BlockingConditionInfo :=
  m.robotInfo name "agent_offline" fun robotID _ ↦ "Agent " ++ robotID ++ " is offline"

def mismatchInfo (cond : StartCondition) : String → BlockingConditionInfo :=
  m.robotInfo name "state_mismatch"
    (fun robotID currentState ↦ "Agent " ++ robotID ++ " state mismatch: expected " ++ cond.state ++
      ", got " ++ currentState) cond

def noTargetsInfo (cond : StartCondition) : BlockingConditionInfo where
  conditionID := cond.id
  description :=
    if cond.message = "" then "No target agents found for condition " ++ cond.id else cond.message
  requiredState := cond.state
  reason := "no_targets"

/-- What is reported of a condition that has failed. -/
def infosOf (cond : StartCondition) (result : ConditionResult) : List BlockingConditionInfo :=
  result.staleRobots.map (m.staleInfo name cond) ++
    result.offlineRobots.map (m.offlineInfo name cond) ++
      result.failedRobots.map (m.mismatchInfo name cond) ++
        if result.targetRobots = [] ∧ cond.quantifier ≠ "none" then [noTargetsInfo cond] else []

/-- The loop, from the condition at an index on. -/
def blockingFrom (orders : ℕ → RangeOrder String) (robotIDs : List String) :
    ℕ → Bool → List BlockingConditionInfo → List StartCondition →
      Bool × List BlockingConditionInfo
  | _, allPassed, blockingInfos, [] => (allPassed, blockingInfos)
  | i, allPassed, blockingInfos, cond :: rest =>
    let result := m.evaluateSingleConditionDetailed text now executingAgentID
      ((orders i).range robotIDs) cond
    if result.passed then blockingFrom orders robotIDs (i + 1) allPassed blockingInfos rest
    else
      blockingFrom orders robotIDs (i + 1) false (blockingInfos ++ m.infosOf name cond result) rest

/-- `EvaluateStartConditionsWithBlockingInfo`: whether the conditions pass, and what is in the
way. -/
def evaluateStartConditionsWithBlockingInfo (orders : ℕ → RangeOrder String)
    (robotIDs : List String) (conditions : List StartCondition) :
    Bool × List BlockingConditionInfo :=
  if conditions = [] then (true, [])
  else m.blockingFrom text now executingAgentID name orders robotIDs 0 true [] conditions

/-- A condition that fails without anything to report: it asks that no robot match, and all of
them do. -/
def SilentFailure (robotIDs : List String) (cond : StartCondition) : Prop :=
  cond.quantifier = "none" ∧ m.getTargetRobots executingAgentID robotIDs cond ≠ [] ∧
    ∀ robot ∈ m.getTargetRobots executingAgentID robotIDs cond,
      cond.verdict text now robot = .matching

variable {m text now executingAgentID name} {robotIDs robotIDs' : List String}
  {cond : StartCondition}

/-! ## One condition -/

/-- The quantifier leaves the sorted robots as they are. -/
theorem quantify_lists (result : ConditionResult) :
    (cond.quantify result).targetRobots = result.targetRobots ∧
      (cond.quantify result).staleRobots = result.staleRobots ∧
        (cond.quantify result).offlineRobots = result.offlineRobots ∧
          (cond.quantify result).failedRobots = result.failedRobots := by
  rw [StartCondition.quantify]
  split_ifs <;> exact ⟨rfl, rfl, rfl, rfl⟩

theorem infosOf_eq_nil_iff {result : ConditionResult} :
    m.infosOf name cond result = [] ↔
      result.staleRobots = [] ∧ result.offlineRobots = [] ∧ result.failedRobots = [] ∧
        ¬(result.targetRobots = [] ∧ cond.quantifier ≠ "none") := by
  rw [infosOf, List.append_eq_nil_iff, List.append_eq_nil_iff, List.append_eq_nil_iff,
    List.map_eq_nil_iff, List.map_eq_nil_iff, List.map_eq_nil_iff, ite_eq_right_iff]
  simp only [List.cons_ne_nil, imp_false, and_assoc]

/-- A condition none of whose robots is stale, offline or mismatching passes, unless it asks that
no robot match. -/
theorem passed_of_all_matching (result : ConditionResult) (hknown : cond.quantifier ∈ quantifiers)
    (htargets : result.targetRobots ≠ []) (hmatching : result.matchingRobots = result.targetRobots)
    (hstale : result.staleRobots = []) (hoffline : result.offlineRobots = []) :
    (cond.quantify result).passed = true ↔ cond.quantifier ≠ "none" := by
  have hne : result.matchingRobots ≠ [] := hmatching ▸ htargets
  simp only [quantifiers, List.mem_cons, List.not_mem_nil, or_false] at hknown
  rw [StartCondition.quantify]
  rcases hknown with hq | hq | hq | hq | hq | hq
  · simp [hq, hne]
  · simp [hq, hmatching, hstale, hoffline]
  · simp [hq, hmatching, hstale, hoffline]
  · simp [hq, hne]
  · simp [hq, hne]
  · simp [hq, hne]

/-- A quantifier that is not known has no robots. -/
theorem getTargetRobots_of_not_mem (h : cond.quantifier ∉ quantifiers) :
    m.getTargetRobots executingAgentID robotIDs cond = [] := by
  simp only [quantifiers, List.mem_cons, List.not_mem_nil, or_false, not_or] at h
  simp [getTargetRobots, h]

section Judged

variable (m text now executingAgentID) (robotIDs)

/-- The robots of a condition that a verdict is about. -/
def judged (cond : StartCondition) (verdict : RobotVerdict) : List String :=
  ((m.getTargetRobots executingAgentID robotIDs cond).filter fun robot ↦
    cond.verdict text now robot = verdict).map (·.id)

/-- What the quantifier of a condition is applied to. -/
def sorted (cond : StartCondition) : ConditionResult :=
  { conditionID := cond.id
    targetRobots := (m.getTargetRobots executingAgentID robotIDs cond).map (·.id)
    matchingRobots := m.judged text now executingAgentID robotIDs cond .matching
    failedRobots := m.judged text now executingAgentID robotIDs cond .failed
    staleRobots := m.judged text now executingAgentID robotIDs cond .stale
    offlineRobots := m.judged text now executingAgentID robotIDs cond .offline }

end Judged

/-- The error text of a condition has no part in the rest of its result. -/
theorem evaluateSingleConditionDetailed_eq
    (h : ¬(m.getTargetRobots executingAgentID robotIDs cond = [] ∧ cond.quantifier ≠ "none")) :
    ∃ error, m.evaluateSingleConditionDetailed text now executingAgentID robotIDs cond =
      { cond.quantify (m.sorted text now executingAgentID robotIDs cond) with error } := by
  rw [evaluateSingleConditionDetailed]
  dsimp only
  rw [if_neg h]
  split
  · exact ⟨_, rfl⟩
  · exact ⟨_, rfl⟩

theorem judged_eq_nil_iff {verdict : RobotVerdict} :
    m.judged text now executingAgentID robotIDs cond verdict = [] ↔
      ∀ robot ∈ m.getTargetRobots executingAgentID robotIDs cond,
        cond.verdict text now robot ≠ verdict := by
  rw [judged, List.map_eq_nil_iff, List.filter_eq_nil_iff]
  exact forall₂_congr fun robot _ ↦ by rw [decide_eq_true_eq]

/-- Unless there is no robot and one is asked for, the entries are those of the robots that are stale,
offline or mismatching. -/
theorem infosOf_detailed_eq_nil_iff
    (h : ¬(m.getTargetRobots executingAgentID robotIDs cond = [] ∧ cond.quantifier ≠ "none")) :
    m.infosOf name cond
        (m.evaluateSingleConditionDetailed text now executingAgentID robotIDs cond) = [] ↔
      m.judged text now executingAgentID robotIDs cond .stale = [] ∧
        m.judged text now executingAgentID robotIDs cond .offline = [] ∧
          m.judged text now executingAgentID robotIDs cond .failed = [] := by
  obtain ⟨error, heq⟩ :=
    @evaluateSingleConditionDetailed_eq m text now executingAgentID robotIDs cond h
  obtain ⟨htargets, hstale, hoffline, hfailed⟩ :=
    @quantify_lists cond (m.sorted text now executingAgentID robotIDs cond)
  rw [heq, infosOf_eq_nil_iff]
  dsimp only
  rw [htargets, hstale, hoffline, hfailed]
  simp [sorted, h]

/-- A failed condition has something to report, unless it fails silently. -/
theorem passed_or_infosOf_iff :
    ((m.evaluateSingleConditionDetailed text now executingAgentID robotIDs cond).passed = true ∨
        m.infosOf name cond
          (m.evaluateSingleConditionDetailed text now executingAgentID robotIDs cond) ≠ []) ↔
      ¬m.SilentFailure text now executingAgentID robotIDs cond := by
  by_cases hnone : m.getTargetRobots executingAgentID robotIDs cond = [] ∧ cond.quantifier ≠ "none"
  · -- there is no robot, and one is asked for
    have hinfos : m.infosOf name cond
        (m.evaluateSingleConditionDetailed text now executingAgentID robotIDs cond) ≠ [] := by
      intro h
      refine (infosOf_eq_nil_iff.mp h).2.2.2 ⟨?_, hnone.2⟩
      simp [evaluateSingleConditionDetailed, hnone]
    exact iff_of_true (Or.inr hinfos) fun h ↦ h.2.1 hnone.1
  · obtain ⟨error, heq⟩ :=
      @evaluateSingleConditionDetailed_eq m text now executingAgentID robotIDs cond hnone
    rw [Ne, infosOf_detailed_eq_nil_iff hnone, heq]
    by_cases hempty : m.getTargetRobots executingAgentID robotIDs cond = []
    · -- no robot is asked for, and there is none
      have hq : cond.quantifier = "none" := not_not.mp fun h ↦ hnone ⟨hempty, h⟩
      refine iff_of_true (Or.inl ?_) fun h ↦ h.2.1 hempty
      simp [StartCondition.quantify, hq, sorted, judged, hempty]
    · have hknown : cond.quantifier ∈ quantifiers :=
        not_not.mp fun h ↦ hempty (getTargetRobots_of_not_mem h)
      by_cases hall : ∀ robot ∈ m.getTargetRobots executingAgentID robotIDs cond,
          cond.verdict text now robot = .matching
      · have hnil : ∀ verdict : RobotVerdict, verdict ≠ .matching →
            m.judged text now executingAgentID robotIDs cond verdict = [] :=
          fun verdict hne ↦ judged_eq_nil_iff.mpr fun robot hrobot h ↦
            hne (h.symm.trans (hall robot hrobot))
        have hmatching : m.judged text now executingAgentID robotIDs cond .matching =
            (m.getTargetRobots executingAgentID robotIDs cond).map (·.id) := by
          rw [judged, List.filter_eq_self.mpr fun robot hrobot ↦ by simpa using hall robot hrobot]
        have hpassed := passed_of_all_matching (m.sorted text now executingAgentID robotIDs cond)
          hknown (by simpa [sorted]) hmatching (hnil _ (by decide)) (hnil _ (by decide))
        have hsilent : m.SilentFailure text now executingAgentID robotIDs cond ↔
            cond.quantifier = "none" := and_iff_left ⟨hempty, hall⟩
        rw [hpassed, hnil _ (by decide), hnil _ (by decide), hnil _ (by decide), hsilent]
        simp
      · -- some robot is stale, offline or mismatching
        refine iff_of_true (Or.inr fun h ↦ hall fun robot hrobot ↦ ?_) fun h ↦ hall h.2.2
        cases hverdict : cond.verdict text now robot with
        | matching => rfl
        | stale => exact absurd hverdict (judged_eq_nil_iff.mp h.1 robot hrobot)
        | offline => exact absurd hverdict (judged_eq_nil_iff.mp h.2.1 robot hrobot)
        | failed => exact absurd hverdict (judged_eq_nil_iff.mp h.2.2 robot hrobot)

/-- Whether a condition fails silently does not depend on the order of the robots. -/
theorem silentFailure_perm (h : robotIDs.Perm robotIDs') :
    m.SilentFailure text now executingAgentID robotIDs cond ↔
      m.SilentFailure text now executingAgentID robotIDs' cond := by
  have htargets : (m.getTargetRobots executingAgentID robotIDs cond).Perm
      (m.getTargetRobots executingAgentID robotIDs' cond) := getTargetRobots_perm h
  rw [SilentFailure, SilentFailure, Ne, Ne, ← List.length_eq_zero_iff, ← List.length_eq_zero_iff,
    htargets.length_eq]
  simp only [htargets.mem_iff]

/-! ## The loop -/

/-- The loop takes the conditions together, and it reports nothing when every condition passes or
fails silently. -/
theorem blockingFrom_spec (orders : ℕ → RangeOrder String) (conditions : List StartCondition) :
    ∀ (i : ℕ) (allPassed : Bool) (blockingInfos : List BlockingConditionInfo),
      (m.blockingFrom text now executingAgentID name orders robotIDs i allPassed blockingInfos
          conditions).1 =
        (allPassed && (conditions.map (m.link text now executingAgentID robotIDs)).all Link.value) ∧
      ((m.blockingFrom text now executingAgentID name orders robotIDs i allPassed blockingInfos
          conditions).2 = [] ↔ blockingInfos = [] ∧ ∀ cond ∈ conditions,
        (m.link text now executingAgentID robotIDs cond).value = true ∨
          m.SilentFailure text now executingAgentID robotIDs cond) := by
  induction conditions with
  | nil => simp [blockingFrom]
  | cons cond rest ih =>
    intro i allPassed blockingInfos
    have hreport := @passed_or_infosOf_iff m text now executingAgentID name
      ((orders i).range robotIDs) cond
    rw [silentFailure_perm ((orders i).perm robotIDs), value_link_range] at hreport
    rw [blockingFrom, value_link_range, List.map_cons, List.all_cons, List.forall_mem_cons]
    cases hpassed : (m.link text now executingAgentID robotIDs cond).value with
    | true => simpa using ih (i + 1) allPassed blockingInfos
    | false =>
      obtain ⟨hverdict, hinfos⟩ := ih (i + 1) false (blockingInfos ++ m.infosOf name cond
        (m.evaluateSingleConditionDetailed text now executingAgentID ((orders i).range robotIDs)
          cond))
      rw [hpassed] at hreport
      have hsilent : m.infosOf name cond (m.evaluateSingleConditionDetailed text now
          executingAgentID ((orders i).range robotIDs) cond) = [] ↔
            m.SilentFailure text now executingAgentID robotIDs cond := by
        simpa using not_congr hreport
      rw [if_neg (by decide), hverdict, hinfos, List.append_eq_nil_iff, hsilent]
      simp [and_assoc]

theorem evaluateStartConditionsWithBlockingInfo_fst (orders : ℕ → RangeOrder String)
    (conditions : List StartCondition) :
    (m.evaluateStartConditionsWithBlockingInfo text now executingAgentID name orders robotIDs
        conditions).1 =
      (conditions.map (m.link text now executingAgentID robotIDs)).all Link.value := by
  rw [evaluateStartConditionsWithBlockingInfo]
  split
  · rename_i hnil
    rw [hnil]
    rfl
  · rw [(blockingFrom_spec orders conditions 0 true []).1, Bool.true_and]

theorem evaluateStartConditionsWithBlockingInfo_snd (orders : ℕ → RangeOrder String)
    (conditions : List StartCondition) :
    (m.evaluateStartConditionsWithBlockingInfo text now executingAgentID name orders robotIDs
        conditions).2 = [] ↔
      ∀ cond ∈ conditions, (m.link text now executingAgentID robotIDs cond).value = true ∨
        m.SilentFailure text now executingAgentID robotIDs cond := by
  rw [evaluateStartConditionsWithBlockingInfo]
  split
  · rename_i hnil
    simp [hnil]
  · rw [(blockingFrom_spec orders conditions 0 true []).2, and_iff_right rfl]

/-- **The gate the scheduler waits on gives the verdict of `EvaluateStartConditionList` exactly when
no `or` carries the list over a condition that fails, and it reports its failures exactly when not
all of them are silent.** -/
theorem blockingInfo_agrees_iff (m : Manager) (text : DurationText) (now : ℕ)
    (executingAgentID : String) (name : String → String) (orders orders' : ℕ → RangeOrder String)
    (robotIDs : List String) (conditions : List StartCondition) :
    ((m.evaluateStartConditionsWithBlockingInfo text now executingAgentID name orders robotIDs
          conditions).1 =
        (m.evaluateStartConditionList text now executingAgentID orders' robotIDs conditions).1 ∧
      ((m.evaluateStartConditionsWithBlockingInfo text now executingAgentID name orders robotIDs
          conditions).1 = false →
        (m.evaluateStartConditionsWithBlockingInfo text now executingAgentID name orders robotIDs
          conditions).2 ≠ [])) ↔
    ¬CarriedOver (conditions.map (m.link text now executingAgentID robotIDs)) ∧
      ((∃ cond ∈ conditions, (m.link text now executingAgentID robotIDs cond).value = false) →
        ∃ cond ∈ conditions, (m.link text now executingAgentID robotIDs cond).value = false ∧
          ¬m.SilentFailure text now executingAgentID robotIDs cond) := by
  rw [Ne, evaluateStartConditionsWithBlockingInfo_fst, evaluateStartConditionsWithBlockingInfo_snd,
    evaluateStartConditionList_eq, ← evalEarly_eq_all_iff, List.all_map, List.all_eq_false]
  refine and_congr eq_comm (imp_congr ?_ ?_)
  · simp
  · simp

/-- **"Busy or idle" holds of an idle robot for one gate and fails for the other, and a list that
asks for no busy robot fails without a report.** -/
theorem carriedOver_silent_disagree :
    let idle : StartCondition := { id := "first", quantifier := "self", state := "idle" }
    let orBusy : StartCondition :=
      { id := "second", quantifier := "self", state := "busy", operator := "or" }
    let noneIdle : StartCondition := { id := "only", quantifier := "none", state := "idle" }
    let names : String → String := fun _ ↦ ""
    let orders : ℕ → RangeOrder String := fun _ ↦ .asListed _
    (idleRobot.evaluateStartConditionList plainText 0 "robot" orders ["robot"]
        [idle, orBusy]).1 = true ∧
      (idleRobot.evaluateStartConditionsWithBlockingInfo plainText 0 "robot" names orders ["robot"]
        [idle, orBusy]).1 = false ∧
      idleRobot.evaluateStartConditionsWithBlockingInfo plainText 0 "robot" names orders ["robot"]
        [noneIdle] = (false, []) := by
  decide +kernel

end Manager
end State
end FleetServer
