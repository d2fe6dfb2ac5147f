import FleetServer.Api.RealtimeDispatch

/-!
# The instance a goal is evaluated with

`buildDispatchCandidateForAgent` (`internal/api/realtime_pddl.go`) evaluates a goal in two steps.
`realtimeActivationConditionsMet` goes through the agents and resources the goal may be bound to and
stops at the first for which the activation conditions hold; whether the goal is satisfied is asked
of that one only.  When it is, the goal is skipped, whatever there is left to do elsewhere
(`instance_worked_on_iff`).
-/

set_option autoImplicit false

namespace FleetServer
namespace Api

open GoString Pddl

/-! ## Candidates -/

section Candidates

variable (order : SubstitutionOrder) (goalOrder : RangeOrder (Σ _ : String, String))
  (current : StringMap) (goal : RealtimeGoal)

/-- What a goal may be bound to: the agent and the instances of its types, as far as it speaks of
an agent and of a resource. -/
def goalCandidates (agent : AgentInfo) (available : List ResourceInfo) :
    List (AgentInfo × ResourceInfo) :=
  (if goalUsesAgentPlaceholders goal.activationConditions goal.goalState then [agent]
    else [noAgent]) ×ˢ
  (if goalUsesResourcePlaceholders goal.activationConditions goal.goalState then
    filterRealtimeResourcesByType (resourceInstances available) goal.resourceTypeIDs
    else [noResource])

/-- The binding that a candidate makes. -/
def candidateBinding (candidate : AgentInfo × ResourceInfo) : RealtimeGoalBinding :=
  let needsAgent := goalUsesAgentPlaceholders goal.activationConditions goal.goalState
  let needsResource := goalUsesResourcePlaceholders goal.activationConditions goal.goalState
  { agentID := if needsAgent then trimSpace candidate.1.id else ""
    agentName := if needsAgent then bindingName candidate.1.id candidate.1.name else ""
    resourceID := if needsResource then trimSpace candidate.2.id else ""
    resourceName := if needsResource then bindingName candidate.2.id candidate.2.name else "" }

/-- The goal is satisfied for a candidate. -/
def satisfiedFor (candidate : AgentInfo × ResourceInfo) : Bool :=
  realtimeGoalSatisfied current
    (applyRealtimeGoalBinding order goalOrder goal.goalState (candidateBinding goal candidate))

/-- What the check of the activation conditions comes to for a candidate.  The conditions of a goal
that speaks of neither an agent nor a resource are not expanded. -/
def conditionsCheck (candidate : AgentInfo × ResourceInfo) : Option Bool :=
  if !goalUsesAgentPlaceholders goal.activationConditions goal.goalState ∧
      !goalUsesResourcePlaceholders goal.activationConditions goal.goalState then
    planningConditionsMet current goal.activationConditions
  else
    let expanded :=
      expandRealtimeActivationConditions order goal.activationConditions candidate.1 candidate.2
    if hasUnresolvedConditionPlaceholders expanded then some false
    else planningConditionsMet current expanded

/-- There is work on the candidate: its expanded activation conditions hold, and the goal is not
satisfied for it. -/
structure HasWork (candidate : AgentInfo × ResourceInfo) : Prop where
  resolved : hasUnresolvedConditionPlaceholders
    (expandRealtimeActivationConditions order goal.activationConditions candidate.1 candidate.2) =
      false
  met : planningConditionsMet current
    (expandRealtimeActivationConditions order goal.activationConditions candidate.1 candidate.2) =
      some true
  unsatisfied : satisfiedFor order goalOrder current goal candidate = false

/-- The first candidate that the check does not rule out. -/
def firstCandidate (candidates : List (AgentInfo × ResourceInfo)) :
    Option (AgentInfo × ResourceInfo) :=
  candidates.find? fun candidate ↦ conditionsCheck order current goal candidate ≠ some false

end Candidates

/-! ## The evaluation of a goal -/

section Evaluation

variable {order : SubstitutionOrder} {current : StringMap} {goal : RealtimeGoal}
  {agent : AgentInfo} {available : List ResourceInfo}

/-- The goal speaks of an agent or of a resource. -/
def Bound (goal : RealtimeGoal) : Prop :=
  ¬(goalUsesAgentPlaceholders goal.activationConditions goal.goalState = false ∧
    goalUsesResourcePlaceholders goal.activationConditions goal.goalState = false)

/-- A round of the loop over the candidates. -/
theorem firstCandidateMet_cons (huses : Bound goal) (candidate : AgentInfo × ResourceInfo)
    (rest : List (AgentInfo × ResourceInfo)) :
    firstCandidateMet order current goal.activationConditions (candidate :: rest) =
      (conditionsCheck order current goal candidate).bind fun met ↦
        if met then some (some candidate)
        else firstCandidateMet order current goal.activationConditions rest := by
  have hcheck : conditionsCheck order current goal candidate =
      let expanded :=
        expandRealtimeActivationConditions order goal.activationConditions candidate.1 candidate.2
      if hasUnresolvedConditionPlaceholders expanded then some false
      else planningConditionsMet current expanded := by
    rw [conditionsCheck, if_neg fun h ↦ huses ⟨by simpa using h.1, by simpa using h.2⟩]
  rw [firstCandidateMet, hcheck]
  dsimp only
  split <;> rfl

/-- The loop over the candidates stops at the first that is not ruled out. -/
theorem firstCandidateMet_eq (huses : Bound goal) (candidates : List (AgentInfo × ResourceInfo)) :
    firstCandidateMet order current goal.activationConditions candidates =
      match firstCandidate order current goal candidates with
      | none => some none
      | some candidate =>
        (conditionsCheck order current goal candidate).map fun _ ↦ some candidate := by
  induction candidates with
  | nil => rfl
  | cons candidate rest ih =>
    rw [firstCandidateMet_cons huses, firstCandidate, List.find?_cons]
    rcases hcheck : conditionsCheck order current goal candidate with _ | _ | _
    · simp [hcheck]
    · simpa [firstCandidate] using ih
    · simp [hcheck]

/-- **The conditions are met with the binding of the first candidate that is not ruled out**, if
there is one. -/
theorem realtimeActivationConditionsMet_eq (preferredAgentID : String) :
    realtimeActivationConditionsMet order current goal.activationConditions goal.goalState
        goal.resourceTypeIDs [agent] available preferredAgentID =
      match firstCandidate order current goal (goalCandidates goal agent available) with
      | none => some none
      | some candidate => (conditionsCheck order current goal candidate).map fun _ ↦
          some (candidateBinding goal candidate) := by
  have hagent : rotateAgentsByPreferred [agent] preferredAgentID = [agent] := by
    rw [rotateAgentsByPreferred]
    simp
  by_cases huses : Bound goal
  · have hnone : ¬(goal.activationConditions = [] ∧
        (!goalUsesAgentPlaceholders goal.activationConditions goal.goalState) = true ∧
        (!goalUsesResourcePlaceholders goal.activationConditions goal.goalState) = true) :=
      fun h ↦ huses (by simpa using h.2)
    rw [realtimeActivationConditionsMet]
    dsimp only
    rw [if_neg hnone, if_neg fun h ↦ huses ⟨by simpa using h.1, by simpa using h.2⟩, hagent]
    show (firstCandidateMet order current goal.activationConditions
      (goalCandidates goal agent available)).map (Option.map (candidateBinding goal)) = _
    rw [firstCandidateMet_eq huses]
    cases firstCandidate order current goal (goalCandidates goal agent available) with
    | none => rfl
    | some candidate =>
      dsimp only
      cases conditionsCheck order current goal candidate <;> rfl
  · -- the one candidate of a goal that speaks of nothing
    obtain ⟨hnoAgent, hnoResource⟩ := not_not.mp huses
    have hcheck : conditionsCheck order current goal (noAgent, noResource) =
        planningConditionsMet current goal.activationConditions := by
      rw [conditionsCheck, if_pos (by simp [hnoAgent, hnoResource])]
    have hbinding : candidateBinding goal (noAgent, noResource) = {} := by
      simp [candidateBinding, hnoAgent, hnoResource]
    have hcandidates : goalCandidates goal agent available = [(noAgent, noResource)] := by
      simp [goalCandidates, hnoAgent, hnoResource]
    rw [realtimeActivationConditionsMet, hcandidates, firstCandidate, List.find?_singleton, hcheck]
    dsimp only
    simp only [hnoAgent, hnoResource, Bool.not_false, and_self, and_true, if_true]
    rcases hmet : planningConditionsMet current goal.activationConditions with _ | _ | _
    · split
      · rename_i hconditions
        rw [hconditions] at hmet
        exact absurd hmet (by simp [planningConditionsMet])
      · simp [hcheck, hmet]
    · split
      · rename_i hconditions
        rw [hconditions] at hmet
        exact absurd hmet (by simp [planningConditionsMet])
      · simp
    · split <;> simp [hcheck, hmet, hbinding]

end Evaluation

/-! ## When work on an instance is found -/

section Work

variable {lib : LibraryFunctions} {s : RealtimeSession} {ctx : TickContext}
  {input : RealtimeSession.SolveInput} {agent : AgentInfo} {goal : RealtimeGoal}

/-- The resources a goal is evaluated with for an agent. -/
def RealtimeSession.availableResources (s : RealtimeSession) (lib : LibraryFunctions)
    (ctx : TickContext) (agent : AgentInfo) : List ResourceInfo :=
  filterRealtimeAvailableResourcesByReservation lib ctx.currentState
    (filterRealtimeAvailableResources s.resources ctx.busyResources) agent

/-- A goal that is attempted is not skipped. -/
theorem attemptGoal_ne_notDue (attempt : GoalAttempt) :
    s.attemptGoal lib ctx input attempt ≠ some .notDue := by
  intro h
  rcases RealtimeSession.attemptGoal_cases h with
    ⟨heq, -⟩ | ⟨errMsg, heq⟩ | ⟨conflicts, heq⟩ | ⟨solved, spec, heq, -⟩
    <;> exact absurd heq (by simp)

/-- **A goal is skipped** exactly when no candidate gets through the check, or the first that does
has the goal satisfied. -/
theorem goalOutcome_eq_notDue_iff (henabled : goal.enabled = true) :
    s.goalOutcome lib ctx input agent goal = some .notDue ↔
      ∀ first, firstCandidate input.orders.substitution ctx.currentState goal
          (goalCandidates goal agent (s.availableResources lib ctx agent)) = some first →
        conditionsCheck input.orders.substitution ctx.currentState goal first ≠ none ∧
          satisfiedFor input.orders.substitution input.orders.goalState ctx.currentState goal
            first = true := by
  rw [RealtimeSession.goalOutcome, henabled, if_neg (by simp)]
  dsimp only
  rw [realtimeActivationConditionsMet_eq, ← RealtimeSession.availableResources]
  cases firstCandidate input.orders.substitution ctx.currentState goal
    (goalCandidates goal agent (s.availableResources lib ctx agent)) with
  | none => simp
  | some first =>
    simp only [Option.some.injEq, forall_eq']
    cases conditionsCheck input.orders.substitution ctx.currentState goal first with
    | none => simp
    | some met =>
      simp only [Option.map_some, ne_eq, reduceCtorEq, not_false_eq_true, true_and]
      rw [satisfiedFor]
      split
      · rename_i hsatisfied
        exact iff_of_true rfl hsatisfied
      · rename_i hunsatisfied
        exact iff_of_false (attemptGoal_ne_notDue _) hunsatisfied

/-- The first candidate that is not ruled out has the goal unsatisfied (or the check of its
conditions panics), or there is no work on any. -/
def WorkComesFirst (order : SubstitutionOrder) (goalOrder : RangeOrder (Σ _ : String, String))
    (current : StringMap) (goal : RealtimeGoal) (candidates : List (AgentInfo × ResourceInfo)) :
    Prop :=
  (∃ first, firstCandidate order current goal candidates = some first ∧
    (conditionsCheck order current goal first = none ∨
      satisfiedFor order goalOrder current goal first = false)) ∨
  ∀ candidate ∈ candidates, ¬HasWork order goalOrder current goal candidate

/-- **A goal with work on one of its instances is not skipped** exactly when the first instance that
the check does not rule out is one that the goal is not satisfied for, unless there is no work. -/
theorem instance_worked_on_iff (henabled : goal.enabled = true) :
    ((∃ candidate ∈ goalCandidates goal agent (s.availableResources lib ctx agent),
        HasWork input.orders.substitution input.orders.goalState ctx.currentState goal candidate) →
      s.goalOutcome lib ctx input agent goal ≠ some .notDue) ↔
      WorkComesFirst input.orders.substitution input.orders.goalState ctx.currentState goal
        (goalCandidates goal agent (s.availableResources lib ctx agent)) := by
  rw [ne_eq, goalOutcome_eq_notDue_iff henabled, WorkComesFirst]
  constructor
  · intro h
    by_cases hwork : ∃ candidate ∈ goalCandidates goal agent (s.availableResources lib ctx agent),
        HasWork input.orders.substitution input.orders.goalState ctx.currentState goal candidate
    · have hnot := h hwork
      push Not at hnot
      obtain ⟨first, hfirst, hunsatisfied⟩ := hnot
      refine .inl ⟨first, hfirst, ?_⟩
      by_cases hpanic : conditionsCheck input.orders.substitution ctx.currentState goal first = none
      · exact .inl hpanic
      · exact .inr (by simpa using hunsatisfied hpanic)
    · push Not at hwork
      exact .inr hwork
  · rintro (⟨first, hfirst, hpanic | hunsatisfied⟩ | hnone) ⟨candidate, hmem, hwork⟩ hall
    · exact (hall first hfirst).1 hpanic
    · exact absurd (hall first hfirst).2 (by simp [hunsatisfied])
    · exact hnone candidate hmem hwork

end Work

/-! ## Two tables -/

def tables : List ResourceInfo :=
  [{ id := "t1", name := "left", kind := "instance", parentResourceID := "table" },
    { id := "t2", name := "right", kind := "instance", parentResourceID := "table" }]

/-- A table that is ready is to be cleared. -/
def clearTables : RealtimeGoal :=
  { id := "clear"
    activationConditions := [⟨"{{resource.name}}_ready", "==", "yes"⟩]
    goalState := (∅ : StringMap).insert "{{resource.name}}_clear" "yes" }

def tableSession : RealtimeSession :=
  { behaviorTreeIDs := [], taskDistributorID := "hall", agents := [], resources := tables
    goals := [clearTables] }

/-- The database knows no behavior tree. -/
def tableInput : RealtimeSession.SolveInput :=
  { fuel := 2, orders := ⟨fun _ ↦ RangeOrder.asListed _, RangeOrder.asListed _⟩
    sources :=
      { getBehaviorTree := fun _ ↦ .ok none
        listTaskDistributorStates := fun _ ↦ .ok []
        listTaskDistributorResources := fun _ ↦ .ok tables
        getAgentCapabilities := fun _ ↦ .ok []
        getAgent := fun agentID ↦ .ok (some agentID)
        isAgentOnline := fun _ ↦ true } }

def tableTick (current : StringMap) : TickContext :=
  { currentState := current, busyAgents := [], busyResources := [] }

def robot : AgentInfo := { id := "r1", name := "robot", capabilities := [], isOnline := true }

/-- One table is ready. -/
def oneReady : StringMap := (∅ : StringMap).insert "left_ready" "yes"

/-- Both tables are ready, and the first is clear. -/
def bothReady : StringMap := (oneReady.insert "left_clear" "yes").insert "right_ready" "yes"

/-- The goal is worked on for the first table. -/
theorem leftTable_worked_on :
    tableSession.goalOutcome asciiLibrary (tableTick oneReady) tableInput robot clearTables ≠
      some .notDue := by
  refine (instance_worked_on_iff rfl).mpr (.inl ⟨(noAgent, tables[0]), ?_, .inr ?_⟩)
    ⟨(noAgent, tables[0]), ?_, ?_, ?_, ?_⟩
  all_goals decide +kernel

/-- **The second table is never cleared**: the first is ready, and clear already. -/
theorem rightTable_skipped :
    ∃ candidate ∈ goalCandidates clearTables robot
        (tableSession.availableResources asciiLibrary (tableTick bothReady) robot),
      candidate.2.name = "right" ∧
      HasWork tableInput.orders.substitution tableInput.orders.goalState bothReady clearTables
        candidate ∧
      tableSession.goalOutcome asciiLibrary (tableTick bothReady) tableInput robot clearTables =
        some .notDue := by
  have hfirst : firstCandidate tableInput.orders.substitution bothReady clearTables
      (goalCandidates clearTables robot
        (tableSession.availableResources asciiLibrary (tableTick bothReady) robot)) =
      some (noAgent, tables[0]) := by
    decide +kernel
  refine ⟨(noAgent, tables[1]), ?_, rfl, ⟨?_, ?_, ?_⟩, (goalOutcome_eq_notDue_iff rfl).mpr ?_⟩
  · decide +kernel
  · decide +kernel
  · decide +kernel
  · decide +kernel
  · intro first heq
    obtain rfl := Option.some.inj (hfirst.symm.trans heq)
    constructor <;> decide +kernel

end Api
end FleetServer
