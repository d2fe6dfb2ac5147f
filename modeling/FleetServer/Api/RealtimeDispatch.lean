import FleetServer.Api.RealtimeSession
import FleetServer.Lib.Run

/-!
# The tick of a realtime session

`tick` (`internal/api/realtime_pddl.go`) step by step.  It forgets the executions that are over
(`syncExecutions`), notes which agents and resources the others keep busy, goes through the agents
that are free and looks for each at the goals in turn until one has a plan without conflicts
(`buildDispatchCandidateForAgent`), and starts the plans it has found.  In between, executions come
to an end, and the session may be stopped.

The merged state the tick works with is a parameter of the step that reads it.
-/

set_option autoImplicit false

namespace FleetServer
namespace Api

open GoString Pddl Executor

/-- The candidates that are not started yet. -/
def TickPC.candidates : TickPC → List RealtimeDispatchCandidate
  | .choosing _ _ selected => selected
  | .trying _ _ _ _ selected => selected
  | .starting _ candidates => candidates
  | _ => []

/-! ## The executor -/

/-- What `StartRuntimePlanExecution` refuses. -/
def startPlanError (plan : Plan) : Option String :=
  if !plan.isValid then some ("plan is not valid: " ++ plan.errorMessage)
  else if plan.assignments = [] then some "plan has no assignments"
  else none

def PlanStatusRuns (status : Option PlanExecutionStatus) : Prop :=
  status = some .pending ∨ status = some .running

instance : DecidablePred PlanStatusRuns := fun _ ↦ inferInstanceAs (Decidable (_ ∨ _))

namespace RealtimeSession

variable (s : RealtimeSession)

/-- The execution is pending or running. -/
def Runs (e : RealtimeExecution) : Prop := PlanStatusRuns (s.status e.executionID)

instance : DecidablePred s.Runs := fun e ↦
  inferInstanceAs (Decidable (PlanStatusRuns (s.status e.executionID)))

/-- An execution that is not over takes a new status. -/
def executionMoves (executionID : String) (status : PlanExecutionStatus) :
    Option RealtimeSession :=
  if PlanStatusRuns (s.status executionID) then
    some { s with status := Function.update s.status executionID (some status) }
  else none

/-! ## Before the choice -/

/-- The goals whose executions have been completed. -/
def completedGoalIDs : List String :=
  (s.activeExecutions.filter fun e ↦ s.status e.executionID = some .completed).map (·.goal.id)

def syncExecutions : Option RealtimeSession :=
  match s.tick with
  | .idle => some { s with
      activeExecutions := s.activeExecutions.filter s.Runs
      failedStateKey := fun goalID ↦
        if goalID ∈ s.completedGoalIDs then none else s.failedStateKey goalID
      tick := .synced
      dispatched := [] }
  | _ => none

variable (lib : LibraryFunctions)

/-- `collectBusyAgentsAndResources`. -/
def collectBusy (currentState : StringMap) : TickContext :=
  (s.activeExecutions.filter s.Runs).foldr
    (fun e ctx ↦ ctx.mark lib e.solved.plan e.binding e.binding.agentID)
    { currentState, busyAgents := [], busyResources := [] }

/-- Without agents or behavior trees the tick has nothing to do. -/
def beginChoice (currentState : StringMap) : Option RealtimeSession :=
  match s.tick with
  | .synced =>
    if s.agents = [] ∨ s.behaviorTreeIDs = [] then some { s with tick := .idle }
    else
      let agents := rotateAgentsByPreferred s.agents s.lastSelectedAgentID
      some { s with tick := .choosing (s.collectBusy lib currentState) agents [] }
  | _ => none

/-- The loop over the agents goes on. -/
def nextAgent : Option RealtimeSession :=
  match s.tick with
  | .choosing ctx [] selected => some { s with tick := .starting ctx selected }
  | .choosing ctx (agent :: agents) selected =>
    let agentID := trimSpace agent.id
    if agentID = "" ∨ agentID ∈ ctx.busyAgents ∨ !isRealtimeAgentIdle ctx.currentState agent then
      some { s with tick := .choosing ctx agents selected }
    else some { s with tick := .trying ctx agent s.goals agents selected }
  | _ => none

/-! ## Trying a goal -/

/-- What one call of `solveProblemSpec` works with. -/
structure SolveInput where
  fuel : ℕ
  orders : LoopOrders
  sources : PlanningSources

/-- What becomes of a goal. -/
inductive GoalOutcome
  /-- The goal is disabled, not activated, or satisfied. -/
  | notDue
  | suppressed (attempt : GoalAttempt)
  | failed (attempt : GoalAttempt) (errMsg : String)
  /-- The plan names busy resources. -/
  | conflict (conflicts : List String)
  | planned (candidate : RealtimeDispatchCandidate)

def realtimeSolveSpec (ctx : TickContext) (input : SolveInput) (agent : AgentInfo)
    (goal : RealtimeGoal) (binding : RealtimeGoalBinding) : PlanningSolveSpec :=
  { behaviorTreeIDs := s.behaviorTreeIDs
    taskDistributorID := s.taskDistributorID
    initialState := ctx.currentState
    goalState := applyRealtimeGoalBinding input.orders.substitution input.orders.goalState
      goal.goalState binding
    goalBinding := binding
    agentIDs := [trimSpace agent.id] }

/-- A plan was made for the goal. -/
def judgePlan (ctx : TickContext) (attempt : GoalAttempt) (failureKey : String)
    (solved : SolvedPlan) : GoalOutcome :=
  if !solved.plan.isValid then
    .failed attempt (if trimSpace solved.plan.errorMessage ≠ "" then solved.plan.errorMessage
      else "plan is invalid")
  else if solved.plan.assignments = [] then .failed attempt "plan has no assignments"
  else
    let conflicts := planBusyResourceConflicts lib solved.plan ctx.busyResources
    if conflicts ≠ [] then .conflict conflicts
    else .planned
      { agent := attempt.agent, goal := attempt.goal, binding := attempt.binding, solved
        failureKey }

/-- The goal is activated with a binding, and not satisfied. -/
def attemptGoal (ctx : TickContext) (input : SolveInput) (attempt : GoalAttempt) :
    Option GoalOutcome :=
  let failureKey := goalFailureKey attempt.goal.id ctx.currentState attempt.binding
  if s.failedStateKey attempt.goal.id = some failureKey then some (.suppressed attempt)
  else
    match solveProblemSpec input.fuel input.orders input.sources
        (s.realtimeSolveSpec ctx input attempt.agent attempt.goal attempt.binding) with
    | none => none
    | some (.error err) => some (.failed attempt err)
    | some (.ok solved) => some (judgePlan lib ctx attempt failureKey solved)

/-- The loop body of `buildDispatchCandidateForAgent`. -/
def goalOutcome (ctx : TickContext) (input : SolveInput) (agent : AgentInfo)
    (goal : RealtimeGoal) : Option GoalOutcome :=
  if !goal.enabled then some .notDue
  else
    let availableResources := filterRealtimeAvailableResourcesByReservation lib ctx.currentState
      (filterRealtimeAvailableResources s.resources ctx.busyResources) agent
    match realtimeActivationConditionsMet input.orders.substitution ctx.currentState
        goal.activationConditions goal.goalState goal.resourceTypeIDs [agent] availableResources
        (trimSpace agent.id) with
    | none => none
    | some none => some .notDue
    | some (some binding) =>
      if realtimeGoalSatisfied ctx.currentState (applyRealtimeGoalBinding
          input.orders.substitution input.orders.goalState goal.goalState binding) then
        some .notDue
      else s.attemptGoal lib ctx input { goal, agent, binding, state := ctx.currentState }

def tryGoal (input : SolveInput) : Option RealtimeSession :=
  match s.tick with
  | .trying ctx _ [] agents selected => some { s with tick := .choosing ctx agents selected }
  | .trying ctx agent (goal :: goals) agents selected =>
    match s.goalOutcome lib ctx input agent goal with
    | none => none
    | some .notDue => some { s with tick := .trying ctx agent goals agents selected }
    | some (.suppressed attempt) => some { s with
        tick := .trying ctx agent goals agents selected
        events := .suppressed attempt :: s.events }
    | some (.failed attempt errMsg) => some
        { s.recordRealtimeGoalFailure attempt
            (goalFailureKey goal.id ctx.currentState attempt.binding) errMsg with
          tick := .trying ctx agent goals agents selected }
    | some (.conflict conflicts) => some { s with
        tick := .trying ctx agent goals agents selected
        lastError := "skip goal " ++ goal.id ++ " for agent " ++ trimSpace agent.id ++
          ": busy resources [" ++ " ".intercalate conflicts ++ "]" }
    | some (.planned candidate) =>
      let ctx := ctx.mark lib candidate.solved.plan candidate.binding (trimSpace agent.id)
      some { s with tick := .choosing ctx agents (selected ++ [candidate]) }
  | _ => none

/-! ## Starting the plans -/

/-- The next candidate is started, under an id that the executor draws. -/
def startCandidate (executionID : String) : Option RealtimeSession :=
  match s.tick with
  | .starting _ [] => some { s with tick := .idle }
  | .starting ctx (candidate :: candidates) =>
    match startPlanError candidate.solved.plan with
    | some err =>
      let attempt : GoalAttempt :=
        { goal := candidate.goal, agent := candidate.agent, binding := candidate.binding
          state := ctx.currentState }
      some { s.recordRealtimeGoalFailure attempt candidate.failureKey err with
        tick := .starting ctx candidates }
    | none =>
      if (s.status executionID).isNone ∧ executionID ≠ "" ∧ trimSpace executionID = executionID then
        let execution : RealtimeExecution :=
          { executionID, solved := candidate.solved, goal := candidate.goal
            binding := candidate.binding }
        some { s with
          tick := .starting ctx candidates
          status := Function.update s.status executionID (some .pending)
          activeExecutions := s.activeExecutions ++ [execution]
          dispatched := s.dispatched ++ [execution]
          failedStateKey := Function.update s.failedStateKey candidate.goal.id none
          lastError := ""
          lastSelectedAgentID :=
            if trimSpace candidate.binding.agentID ≠ "" then trimSpace candidate.binding.agentID
            else s.lastSelectedAgentID }
      else none
  | _ => none

/-- `Stop`, as far as the session is concerned. -/
def stop : RealtimeSession := { s with activeExecutions := [] }

end RealtimeSession

/-! ## The system -/

inductive RealtimeAction
  | executionMoves (executionID : String) (status : PlanExecutionStatus)
  | syncExecutions
  | beginChoice (currentState : StringMap)
  | nextAgent
  | tryGoal (input : RealtimeSession.SolveInput)
  | startCandidate (executionID : String)
  | stop

def realtimeStep (lib : LibraryFunctions) (s : RealtimeSession) :
    RealtimeAction → Option RealtimeSession
  | .executionMoves executionID status => s.executionMoves executionID status
  | .syncExecutions => s.syncExecutions
  | .beginChoice currentState => s.beginChoice lib currentState
  | .nextAgent => s.nextAgent
  | .tryGoal input => s.tryGoal lib input
  | .startCandidate executionID => s.startCandidate executionID
  | .stop => some s.stop

/-- A session as it is created. -/
def StartedSession (s : RealtimeSession) : Prop :=
  ∃ sources request, RealtimeSession.start sources request = .ok s

/-! ## What becomes of a goal -/

namespace RealtimeSession

variable {lib : LibraryFunctions} {s : RealtimeSession} {ctx : TickContext} {input : SolveInput}
  {agent : AgentInfo} {goal : RealtimeGoal} {outcome : GoalOutcome}

/-- A goal that is due is attempted with the binding that its conditions give. -/
theorem goalOutcome_cases (h : s.goalOutcome lib ctx input agent goal = some outcome) :
    outcome = .notDue ∨ ∃ binding resources, goal.enabled = true ∧
      realtimeActivationConditionsMet input.orders.substitution ctx.currentState
        goal.activationConditions goal.goalState goal.resourceTypeIDs [agent] resources
        (trimSpace agent.id) = some (some binding) ∧
      s.attemptGoal lib ctx input { goal, agent, binding, state := ctx.currentState } =
        some outcome := by
  rw [goalOutcome] at h
  split at h
  · exact .inl (Option.some.inj h).symm
  · rename_i henabled
    dsimp only at h
    split at h
    · exact absurd h (by simp)
    · exact .inl (Option.some.inj h).symm
    · rename_i binding hbinding
      split at h
      · exact .inl (Option.some.inj h).symm
      · exact .inr ⟨binding, _, by simpa using henabled, hbinding, h⟩

/-- **What an attempt comes to.**  A goal is given up without being tried only if the key of the
attempt is the one remembered; a plan that is kept is valid, not empty, and free of conflicts. -/
theorem attemptGoal_cases {attempt : GoalAttempt}
    (h : s.attemptGoal lib ctx input attempt = some outcome) :
    let failureKey := goalFailureKey attempt.goal.id ctx.currentState attempt.binding
    (outcome = .suppressed attempt ∧ s.failedStateKey attempt.goal.id = some failureKey) ∨
    (∃ errMsg, outcome = .failed attempt errMsg) ∨
    (∃ conflicts, outcome = .conflict conflicts) ∨
    ∃ solved spec, outcome = .planned
        { agent := attempt.agent, goal := attempt.goal, binding := attempt.binding, solved
          failureKey } ∧
      solveProblemSpec input.fuel input.orders input.sources spec = some (.ok solved) ∧
      spec.behaviorTreeIDs = s.behaviorTreeIDs ∧ spec.taskDistributorID = s.taskDistributorID ∧
      solved.plan.isValid = true ∧ solved.plan.assignments ≠ [] ∧
      planBusyResourceConflicts lib solved.plan ctx.busyResources = [] := by
  simp only [attemptGoal] at h
  split at h
  · rename_i hkey
    exact .inl ⟨(Option.some.inj h).symm, hkey⟩
  · split at h
    · exact absurd h (by simp)
    · exact .inr (.inl ⟨_, (Option.some.inj h).symm⟩)
    · rename_i solved hsolved
      obtain rfl := Option.some.inj h
      rw [judgePlan]
      split
      · exact .inr (.inl ⟨_, rfl⟩)
      · rename_i hvalid
        split
        · exact .inr (.inl ⟨_, rfl⟩)
        · rename_i hassignments
          dsimp only
          split
          · exact .inr (.inr (.inl ⟨_, rfl⟩))
          · rename_i hconflicts
            exact .inr (.inr (.inr ⟨solved, _, rfl, hsolved, rfl, rfl, by simpa using hvalid,
              hassignments, not_not.mp hconflicts⟩))

end RealtimeSession

end Api
end FleetServer
