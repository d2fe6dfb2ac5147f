import FleetServer.Api.RealtimeDispatch

/-!
# Goals that are given up

A goal for which solving has failed is not tried again while the state is the same.  The failure is
remembered for the goal, under a key made of its binding and the state (`goalFailureKey`), and the
key tells the two (`goalFailureKey_inj`).  It does not tell the agent, unless the binding does.

So a goal is given up only after the same attempt has failed, as long as every goal that is tried
has an id of its own and speaks of its agent (`suppressed_only_after_failure`).  A goal that does
not speak of an agent is given up for all agents once it has failed for one
(`secondRobot_suppressed`).
-/

set_option autoImplicit false

namespace FleetServer
namespace Api

open GoString Pddl Executor RealtimeSession GuardedRun

/-! ## What should hold -/

/-- The same goal, tried with the same agent and binding from the same state. -/
def SameAttempt (a b : GoalAttempt) : Prop :=
  a.goal = b.goal ∧ a.agent = b.agent ∧ a.binding = b.binding ∧
    ∀ v, a.state.lookup v = b.state.lookup v

/-- Whenever a goal was given up, the same attempt had failed before. -/
def SuppressedAfterFailure (events : List GoalEvent) : Prop :=
  ∀ newer attempt older, events = newer ++ .suppressed attempt :: older →
    ∃ earlier, .failed earlier ∈ older ∧ SameAttempt earlier attempt

/-- The goal has an id of its own and speaks of its agent, or there is no other agent. -/
def OwnsKey (s : RealtimeSession) (goal : RealtimeGoal) : Prop :=
  (∀ other ∈ s.goals, other.id = goal.id → other = goal) ∧
    (goalUsesAgentPlaceholders goal.activationConditions goal.goalState = true ∨
      s.agents.length ≤ 1)

/-- The goals still to be tried with the agent. -/
def TickPC.goals : TickPC → List RealtimeGoal
  | .trying _ _ goals _ _ => goals
  | _ => []

/-- An enabled goal that is tried owns its key. -/
def TriesOwnKey (s : RealtimeSession) : RealtimeAction → Prop
  | .tryGoal _ => ∀ goal ∈ s.tick.goals.head?, goal.enabled = true → OwnsKey s goal
  | _ => True

instance (s : RealtimeSession) (goal : RealtimeGoal) : Decidable (OwnsKey s goal) :=
  inferInstanceAs (Decidable ((∀ other ∈ s.goals, other.id = goal.id → other = goal) ∧ _))

instance : ∀ s a, Decidable (TriesOwnKey s a)
  | s, .tryGoal _ =>
    inferInstanceAs (Decidable (∀ goal ∈ s.tick.goals.head?, goal.enabled = true → OwnsKey s goal))
  | _, .executionMoves _ _ | _, .syncExecutions | _, .beginChoice _ | _, .nextAgent
  | _, .startCandidate _ | _, .stop => inferInstanceAs (Decidable True)

/-! ## The key -/

/-- **The key tells the binding and the state.** -/
theorem goalFailureKey_inj {goalID : String} {state state' : StringMap}
    {binding binding' : RealtimeGoalBinding}
    (h : goalFailureKey goalID state binding = goalFailureKey goalID state' binding') :
    binding = binding' ∧ ∀ v, state.lookup v = state'.lookup v := by
  have hchars := congrArg String.toList h
  simp only [goalFailureKey, String.toList_append, String.toList_ofList, List.append_assoc,
    List.append_cancel_left_eq] at hchars
  obtain ⟨hbinding, hrest⟩ := JsonText.object_append_inj hchars
  have hstates := List.append_cancel_left hrest
  rw [← List.append_nil (JsonText.map _),
    ← List.append_nil (JsonText.map (List.map _ state'.entries))] at hstates
  obtain ⟨hperm, -⟩ := JsonText.map_append_inj hstates
  refine ⟨?_, fun v ↦ AList.perm_lookup ?_⟩
  · simp only [List.cons.injEq, Prod.mk.injEq, true_and, and_true] at hbinding
    obtain ⟨hagentID, hagentName, hresourceID, hresourceName⟩ := hbinding
    cases binding
    cases binding'
    simp only [RealtimeGoalBinding.mk.injEq]
    exact ⟨hagentID, hagentName, hresourceID, hresourceName⟩
  · have hentries := hperm.map fun entry ↦ (⟨entry.1, entry.2⟩ : Σ _ : String, String)
    simpa [Function.comp_def] using hentries

/-! ## The invariant -/

/-- The agents the tick still has to do with. -/
def TickPC.agents : TickPC → List AgentInfo
  | .choosing _ agents _ => agents
  | .trying _ agent _ agents _ => agent :: agents
  | _ => []

/-- An attempt of the session: the binding names the agent if the goal speaks of it. -/
structure IsAttempt (s : RealtimeSession) (attempt : GoalAttempt) : Prop where
  goal : attempt.goal ∈ s.goals
  agent : attempt.agent ∈ s.agents
  binding : goalUsesAgentPlaceholders attempt.goal.activationConditions attempt.goal.goalState =
    true → attempt.binding.agentID = attempt.agent.id

variable {lib : LibraryFunctions} {s s' : RealtimeSession}

structure FailureInv (s : RealtimeSession) : Prop where
  distinct : AgentsDistinct s.agents
  agents : s.tick.agents ⊆ s.agents
  goals : s.tick.goals ⊆ s.goals
  /-- No start is refused. -/
  candidates : ∀ c ∈ s.tick.candidates, startPlanError c.solved.plan = none
  /-- What is remembered is a failure that has happened. -/
  remembered : ∀ goalID key, s.failedStateKey goalID = some key → ∃ attempt,
    .failed attempt ∈ s.events ∧ IsAttempt s attempt ∧ attempt.goal.id = goalID ∧
      key = goalFailureKey goalID attempt.state attempt.binding
  justified : SuppressedAfterFailure s.events

/-- The tick moves on; at most, failures are forgotten. -/
theorem FailureInv.moved (hI : FailureInv s) (hagents : s'.agents = s.agents)
    (hgoals : s'.goals = s.goals) (hevents : s'.events = s.events)
    (hkeys : ∀ goalID key, s'.failedStateKey goalID = some key → s.failedStateKey goalID = some key)
    (htickAgents : s'.tick.agents ⊆ s.agents) (htickGoals : s'.tick.goals ⊆ s.goals)
    (hcandidates : ∀ c ∈ s'.tick.candidates, startPlanError c.solved.plan = none) :
    FailureInv s' where
  distinct := hagents ▸ hI.distinct
  agents := hagents ▸ htickAgents
  goals := hgoals ▸ htickGoals
  candidates := hcandidates
  remembered goalID key hkey := by
    obtain ⟨attempt, hfailed, hattempt, hid, heq⟩ :=
      hI.remembered goalID key (hkeys goalID key hkey)
    exact ⟨attempt, hevents ▸ hfailed,
      ⟨hgoals ▸ hattempt.goal, hagents ▸ hattempt.agent, hattempt.binding⟩, hid, heq⟩
  justified := hevents ▸ hI.justified

/-! ## Events -/

theorem suppressedAfterFailure_failed {events : List GoalEvent} {attempt : GoalAttempt}
    (h : SuppressedAfterFailure events) : SuppressedAfterFailure (.failed attempt :: events) := by
  intro newer suppressed older heq
  cases newer with
  | nil => exact absurd (List.cons.inj heq).1 (by simp)
  | cons event newer => exact h newer suppressed older (List.cons.inj heq).2

theorem suppressedAfterFailure_suppressed {events : List GoalEvent} {attempt : GoalAttempt}
    (h : SuppressedAfterFailure events)
    (hfailed : ∃ earlier, .failed earlier ∈ events ∧ SameAttempt earlier attempt) :
    SuppressedAfterFailure (.suppressed attempt :: events) := by
  intro newer suppressed older heq
  cases newer with
  | nil =>
    obtain ⟨hevent, rfl⟩ := List.cons.inj heq
    obtain rfl := GoalEvent.suppressed.inj hevent
    exact hfailed
  | cons event newer => exact h newer suppressed older (List.cons.inj heq).2

/-- Agents with one id are one agent. -/
theorem AgentsDistinct.eq_of_id {agents : List AgentInfo} (h : AgentsDistinct agents)
    {a b : AgentInfo} (ha : a ∈ agents) (hb : b ∈ agents) (hid : a.id = b.id) : a = b :=
  List.inj_on_of_nodup_map h.1 ha hb hid

/-- **A remembered failure is the attempt's own**, if the goal owns its key. -/
theorem FailureInv.sameAttempt (hI : FailureInv s) {attempt : GoalAttempt}
    (hattempt : IsAttempt s attempt) (howns : OwnsKey s attempt.goal)
    (hkey : s.failedStateKey attempt.goal.id =
      some (goalFailureKey attempt.goal.id attempt.state attempt.binding)) :
    ∃ earlier, .failed earlier ∈ s.events ∧ SameAttempt earlier attempt := by
  obtain ⟨earlier, hfailed, hearlier, hid, heq⟩ := hI.remembered _ _ hkey
  obtain ⟨hbinding, hstate⟩ := goalFailureKey_inj heq
  have hgoal : earlier.goal = attempt.goal := howns.1 earlier.goal hearlier.goal hid
  have hagent : earlier.agent = attempt.agent := by
    rcases howns.2 with huses | hone
    · have hids : earlier.agent.id = attempt.agent.id := by
        rw [← hattempt.binding huses, ← hearlier.binding (hgoal ▸ huses), hbinding]
      exact hI.distinct.eq_of_id hearlier.agent hattempt.agent hids
    · have hagents := hattempt.agent
      have hagents' := hearlier.agent
      match hlist : s.agents with
      | [] => exact absurd (hlist ▸ hagents) List.not_mem_nil
      | [only] =>
        rw [hlist, List.mem_singleton] at hagents hagents'
        rw [hagents, hagents']
      | _ :: _ :: _ =>
        rw [hlist, List.length_cons, List.length_cons] at hone
        omega
  exact ⟨earlier, hfailed, hgoal, hagent, hbinding.symm, fun v ↦ (hstate v).symm⟩

/-! ## The steps -/

section TryGoal

variable {ctx : TickContext} {input : SolveInput} {agent : AgentInfo} {goal : RealtimeGoal}

/-- An attempt that a goal comes to is one of the session. -/
theorem isAttempt_of_conditionsMet (hI : FailureInv s) (hagent : agent ∈ s.agents)
    (hgoal : goal ∈ s.goals) {order : SubstitutionOrder} {current state : StringMap}
    {resources : List ResourceInfo} {binding : RealtimeGoalBinding}
    (h : realtimeActivationConditionsMet order current goal.activationConditions goal.goalState
      goal.resourceTypeIDs [agent] resources (trimSpace agent.id) = some (some binding)) :
    IsAttempt s { goal, agent, binding, state } where
  goal := hgoal
  agent := hagent
  binding huses := by
    obtain ⟨bound, hbound, hid⟩ := exists_agent_of_conditionsMet huses h
    rw [List.mem_singleton.mp hbound, hI.distinct.2 agent hagent] at hid
    exact hid

theorem FailureInv.suppressed (hI : FailureInv s) (hagent : agent ∈ s.agents)
    (hgoal : goal ∈ s.goals) (hok : goal.enabled = true → OwnsKey s goal) {attempt : GoalAttempt}
    (h : s.goalOutcome lib ctx input agent goal = some (.suppressed attempt)) :
    ∃ earlier, .failed earlier ∈ s.events ∧ SameAttempt earlier attempt := by
  obtain hnotDue | ⟨binding, resources, henabled, hmet, hattempt⟩ := goalOutcome_cases h
  · exact absurd hnotDue (by simp)
  · obtain ⟨heq, hkey⟩ | ⟨errMsg, hfailed⟩ | ⟨conflicts, hconflict⟩ |
      ⟨solved, spec, hplanned, -⟩ := attemptGoal_cases hattempt
    · obtain rfl := GoalOutcome.suppressed.inj heq
      exact hI.sameAttempt (isAttempt_of_conditionsMet hI hagent hgoal hmet) (hok henabled) hkey
    · exact absurd hfailed (by simp)
    · exact absurd hconflict (by simp)
    · exact absurd hplanned (by simp)

theorem FailureInv.failed (hI : FailureInv s) (hagent : agent ∈ s.agents) (hgoal : goal ∈ s.goals)
    {attempt : GoalAttempt} {errMsg : String}
    (h : s.goalOutcome lib ctx input agent goal = some (.failed attempt errMsg)) :
    IsAttempt s attempt ∧ attempt.goal = goal ∧ attempt.state = ctx.currentState := by
  obtain hnotDue | ⟨binding, resources, -, hmet, hattempt⟩ := goalOutcome_cases h
  · exact absurd hnotDue (by simp)
  · obtain ⟨hsuppressed, -⟩ | ⟨errMsg', heq⟩ | ⟨conflicts, hconflict⟩ |
      ⟨solved, spec, hplanned, -⟩ := attemptGoal_cases hattempt
    · exact absurd hsuppressed (by simp)
    · obtain ⟨rfl, -⟩ := GoalOutcome.failed.inj heq
      exact ⟨isAttempt_of_conditionsMet hI hagent hgoal hmet, rfl, rfl⟩
    · exact absurd hconflict (by simp)
    · exact absurd hplanned (by simp)

/-- A plan that is kept can be started. -/
theorem startPlanError_of_planned {candidate : RealtimeDispatchCandidate}
    (h : s.goalOutcome lib ctx input agent goal = some (.planned candidate)) :
    startPlanError candidate.solved.plan = none := by
  obtain hnotDue | ⟨binding, resources, -, -, hattempt⟩ := goalOutcome_cases h
  · exact absurd hnotDue (by simp)
  · obtain ⟨hsuppressed, -⟩ | ⟨errMsg, hfailed⟩ | ⟨conflicts, hconflict⟩ |
      ⟨solved, spec, heq, -, -, -, hvalid, hassignments, -⟩ := attemptGoal_cases hattempt
    · exact absurd hsuppressed (by simp)
    · exact absurd hfailed (by simp)
    · exact absurd hconflict (by simp)
    · obtain rfl := GoalOutcome.planned.inj heq
      simp [startPlanError, hvalid, hassignments]

theorem FailureInv.tryGoal (hI : FailureInv s) (hok : TriesOwnKey s (.tryGoal input))
    (h : s.tryGoal lib input = some s') : FailureInv s' := by
  rw [RealtimeSession.tryGoal] at h
  split at h
  · rename_i ctx agent agents selected htick
    obtain rfl := Option.some.inj h
    have hagents := hI.agents
    have hcandidates := hI.candidates
    rw [htick] at hagents hcandidates
    exact hI.moved rfl rfl rfl (fun _ _ hkey ↦ hkey) (List.cons_subset.mp hagents).2
      (List.nil_subset _) hcandidates
  · rename_i ctx agent goal goals agents selected htick
    have hagents := hI.agents
    have hgoals := hI.goals
    have hcandidates := hI.candidates
    simp only [htick, TickPC.agents, TickPC.goals, TickPC.candidates] at hagents hgoals hcandidates
    obtain ⟨hagent, hagents'⟩ := List.cons_subset.mp hagents
    obtain ⟨hgoal, hgoals'⟩ := List.cons_subset.mp hgoals
    have hok : goal.enabled = true → OwnsKey s goal := hok goal (by rw [htick]; rfl)
    split at h
    · exact absurd h (by simp)
    · obtain rfl := Option.some.inj h
      exact hI.moved rfl rfl rfl (fun _ _ hkey ↦ hkey) hagents hgoals' hcandidates
    · rename_i attempt houtcome
      obtain rfl := Option.some.inj h
      refine ⟨hI.distinct, hagents, hgoals', hcandidates, fun goalID key hkey ↦ ?_, ?_⟩
      · obtain ⟨earlier, hfailed, hearlier, hid, heq⟩ := hI.remembered goalID key hkey
        exact ⟨earlier, List.mem_cons_of_mem _ hfailed,
          ⟨hearlier.goal, hearlier.agent, hearlier.binding⟩, hid, heq⟩
      · exact suppressedAfterFailure_suppressed hI.justified
          (hI.suppressed hagent hgoal hok houtcome)
    · rename_i attempt errMsg houtcome
      obtain rfl := Option.some.inj h
      obtain ⟨hattempt, rfl, hstate⟩ := hI.failed hagent hgoal houtcome
      refine ⟨hI.distinct, hagents, hgoals', hcandidates, fun goalID key hkey ↦ ?_,
        suppressedAfterFailure_failed hI.justified⟩
      by_cases hgoalID : goalID = attempt.goal.id
      · subst hgoalID
        simp only [recordRealtimeGoalFailure, Function.update_self, Option.some.injEq] at hkey
        exact ⟨attempt, List.mem_cons_self, ⟨hattempt.goal, hattempt.agent, hattempt.binding⟩, rfl,
          by rw [← hkey, hstate]⟩
      · simp only [recordRealtimeGoalFailure, Function.update_of_ne hgoalID] at hkey
        obtain ⟨earlier, hfailed, hearlier, hid, heq⟩ := hI.remembered goalID key hkey
        exact ⟨earlier, List.mem_cons_of_mem _ hfailed,
          ⟨hearlier.goal, hearlier.agent, hearlier.binding⟩, hid, heq⟩
    · obtain rfl := Option.some.inj h
      exact hI.moved rfl rfl rfl (fun _ _ hkey ↦ hkey) hagents hgoals' hcandidates
    · rename_i candidate houtcome
      obtain rfl := Option.some.inj h
      refine hI.moved rfl rfl rfl (fun _ _ hkey ↦ hkey) hagents' (List.nil_subset _) fun c hc ↦ ?_
      rcases List.mem_append.mp hc with hc | hc
      · exact hcandidates c hc
      · rw [List.mem_singleton.mp hc]
        exact startPlanError_of_planned houtcome
  · exact absurd h (by simp)

end TryGoal

theorem FailureInv.nextAgent (hI : FailureInv s) (h : s.nextAgent = some s') : FailureInv s' := by
  have hagents := hI.agents
  have hcandidates := hI.candidates
  rw [RealtimeSession.nextAgent] at h
  split at h
  · rename_i ctx selected htick
    obtain rfl := Option.some.inj h
    rw [htick] at hcandidates
    exact hI.moved rfl rfl rfl (fun _ _ hkey ↦ hkey) (List.nil_subset _) (List.nil_subset _)
      hcandidates
  · rename_i ctx agent agents selected htick
    rw [htick] at hagents hcandidates
    dsimp only at h
    split at h <;> obtain rfl := Option.some.inj h
    · exact hI.moved rfl rfl rfl (fun _ _ hkey ↦ hkey) (List.cons_subset.mp hagents).2
        (List.nil_subset _) hcandidates
    · exact hI.moved rfl rfl rfl (fun _ _ hkey ↦ hkey) hagents (List.Subset.refl _) hcandidates
  · exact absurd h (by simp)

theorem FailureInv.beginChoice (hI : FailureInv s) {currentState : StringMap}
    (h : s.beginChoice lib currentState = some s') : FailureInv s' := by
  have hnone : ∀ c ∈ ([] : List RealtimeDispatchCandidate), startPlanError c.solved.plan = none :=
    fun c hc ↦ absurd hc List.not_mem_nil
  rw [RealtimeSession.beginChoice] at h
  split at h
  · split at h <;> obtain rfl := Option.some.inj h
    · exact hI.moved rfl rfl rfl (fun _ _ hkey ↦ hkey) (List.nil_subset _) (List.nil_subset _) hnone
    · exact hI.moved rfl rfl rfl (fun _ _ hkey ↦ hkey)
        (fun _ hagent ↦ mem_rotateAgentsByPreferred.mp hagent) (List.nil_subset _) hnone
  · exact absurd h (by simp)

theorem FailureInv.syncExecutions (hI : FailureInv s) (h : s.syncExecutions = some s') :
    FailureInv s' := by
  rw [RealtimeSession.syncExecutions] at h
  split at h
  · obtain rfl := Option.some.inj h
    refine hI.moved rfl rfl rfl (fun goalID key hkey ↦ ?_) (List.nil_subset _) (List.nil_subset _)
      fun c hc ↦ absurd hc List.not_mem_nil
    dsimp only at hkey
    split at hkey
    · exact absurd hkey (by simp)
    · exact hkey
  · exact absurd h (by simp)

theorem FailureInv.startCandidate (hI : FailureInv s) {executionID : String}
    (h : s.startCandidate executionID = some s') : FailureInv s' := by
  have hcandidates := hI.candidates
  rw [RealtimeSession.startCandidate] at h
  split at h
  · obtain rfl := Option.some.inj h
    exact hI.moved rfl rfl rfl (fun _ _ hkey ↦ hkey) (List.nil_subset _) (List.nil_subset _)
      fun c hc ↦ absurd hc List.not_mem_nil
  · rename_i ctx candidate candidates htick
    rw [htick] at hcandidates
    obtain ⟨hfirst, hrest⟩ := List.forall_mem_cons.mp hcandidates
    rw [hfirst] at h
    dsimp only at h
    split at h
    · obtain rfl := Option.some.inj h
      refine hI.moved rfl rfl rfl (fun goalID key hkey ↦ ?_) (List.nil_subset _)
        (List.nil_subset _) hrest
      by_cases hgoalID : goalID = candidate.goal.id
      · simp [hgoalID] at hkey
      · simpa [hgoalID] using hkey
    · exact absurd h (by simp)
  · exact absurd h (by simp)

/-- **Every step keeps the invariant.** -/
theorem FailureInv.step (hI : FailureInv s) {a : RealtimeAction} (hok : TriesOwnKey s a)
    (h : realtimeStep lib s a = some s') : FailureInv s' := by
  cases a with
  | executionMoves executionID status =>
    simp only [realtimeStep, RealtimeSession.executionMoves] at h
    split at h
    · obtain rfl := Option.some.inj h
      exact hI.moved rfl rfl rfl (fun _ _ hkey ↦ hkey) hI.agents hI.goals hI.candidates
    · exact absurd h (by simp)
  | syncExecutions => exact hI.syncExecutions h
  | beginChoice currentState => exact hI.beginChoice h
  | nextAgent => exact hI.nextAgent h
  | tryGoal input => exact hI.tryGoal hok h
  | startCandidate executionID => exact hI.startCandidate h
  | stop =>
    obtain rfl := Option.some.inj h
    exact hI.moved rfl rfl rfl (fun _ _ hkey ↦ hkey) hI.agents hI.goals hI.candidates

/-! ## Every run -/

theorem failureInv_started (h : StartedSession s) : FailureInv s := by
  obtain ⟨sources, request, hstart⟩ := h
  obtain ⟨hdistinct, htick, -, -, hevents, hkeys⟩ := start_spec hstart
  refine ⟨hdistinct, ?_, ?_, ?_, fun goalID key hkey ↦ ?_, ?_⟩
  · rw [htick]
    exact List.nil_subset _
  · rw [htick]
    exact List.nil_subset _
  · rw [htick]
    exact fun c hc ↦ absurd hc List.not_mem_nil
  · rw [hkeys] at hkey
    exact absurd hkey (by simp)
  · rw [hevents]
    exact fun newer attempt older heq ↦ absurd heq (by simp)

/-- **A goal is given up only after the same attempt has failed**, in every run in which the goals
that are tried own their keys. -/
theorem suppressed_only_after_failure (lib : LibraryFunctions) {s : RealtimeSession}
    (h : Reachable (realtimeStep lib) TriesOwnKey StartedSession s) :
    SuppressedAfterFailure s.events :=
  (h.invariant (I := FailureInv) (fun _ ↦ failureInv_started)
    fun _ _ _ _ hI hok hstep ↦ hI.step hok hstep).justified

/-! ## Robots without a drive -/

/-- Going home takes a drive, which only the second robot has. -/
def homeSources : PlanningSources :=
  { getBehaviorTree := fun _ ↦ .ok (some
      { id := "home", name := "Home", requiredActionTypes := ["drive"]
        planningTask := .ok { resultStates := [{ var := "home", value := "yes" }] } })
    listTaskDistributorStates := fun _ ↦ .ok [⟨"home", "no"⟩]
    listTaskDistributorResources := fun _ ↦ .ok []
    getAgentCapabilities := fun agentID ↦ .ok (if agentID = "r2" then ["drive"] else [])
    getAgent := fun agentID ↦ .ok (some agentID)
    isAgentOnline := fun _ ↦ true }

def homeRequest (conditions : List PlanningCondition) : RealtimeSessionRequest :=
  { behaviorTreeIDs := ["home"], taskDistributorID := "hall", agentIDs := ["r1", "r2"]
    goals := [{ id := "home", activationConditions := conditions
                goalState := (∅ : StringMap).insert "home" "yes" }] }

def homeSession (conditions : List PlanningCondition) : RealtimeSession :=
  { behaviorTreeIDs := ["home"], taskDistributorID := "hall"
    agents := [{ noAgent with id := "r1", name := "r1" }, { noAgent with id := "r2", name := "r2" }]
    resources := [], goals := normalizeRealtimeGoals (homeRequest conditions).goals }

/-- The goal speaks of its agent. -/
def agentAwake : List PlanningCondition := [⟨"{{agent.id}}_asleep", "!=", "yes"⟩]

def homeInput : SolveInput :=
  { fuel := 4, sources := homeSources
    orders := ⟨fun _ ↦ RangeOrder.asListed _, RangeOrder.asListed _⟩ }

/-- What became of a goal, and with which agent. -/
def GoalEvent.summary : GoalEvent → Bool × String
  | .failed attempt => (false, attempt.agent.id)
  | .suppressed attempt => (true, attempt.agent.id)

/-- The goal speaks of its agent; the second robot is busy.  The first robot fails in one tick and
is not asked again in the next. -/
theorem sameRobot_suppressed :
    ∃ s : RealtimeSession, s.events.map GoalEvent.summary = [(true, "r1"), (false, "r1")] ∧
      SuppressedAfterFailure s.events := by
  let state : StringMap := ((∅ : StringMap).insert "home" "no").insert "r2_is_executing" "true"
  let firstRobot : List RealtimeAction :=
    [.syncExecutions, .beginChoice state, .nextAgent, .tryGoal homeInput]
  let restOfTick : List RealtimeAction :=
    [.tryGoal homeInput, .nextAgent, .nextAgent, .startCandidate ""]
  have hstarted : StartedSession (homeSession agentAwake) :=
    ⟨homeSources, homeRequest agentAwake, by rfl⟩
  obtain ⟨s, hs, hevents⟩ := exists_reachable_of_run (realtimeStep asciiLibrary) TriesOwnKey
    hstarted (firstRobot ++ restOfTick ++ firstRobot)
    (P := fun s ↦ s.events.map GoalEvent.summary = [(true, "r1"), (false, "r1")])
    (by decide +kernel)
  exact ⟨s, hevents, suppressed_only_after_failure asciiLibrary hs⟩

/-- **The second robot is not asked**: the goal speaks of no agent, and has failed for the first. -/
theorem secondRobot_suppressed :
    ∃ s, Reachable (realtimeStep asciiLibrary) (fun _ _ ↦ True) StartedSession s ∧
      ¬SuppressedAfterFailure s.events := by
  let state : StringMap := (∅ : StringMap).insert "home" "no"
  have hstarted : StartedSession (homeSession []) := ⟨homeSources, homeRequest [], by rfl⟩
  obtain ⟨s, hs, hevents⟩ := exists_reachable_of_foldlM (realtimeStep asciiLibrary)
    hstarted [.syncExecutions, .beginChoice state, .nextAgent, .tryGoal homeInput,
      .tryGoal homeInput, .nextAgent, .tryGoal homeInput] (fun _ _ _ ↦ trivial)
    (P := fun s ↦ s.events.map GoalEvent.summary = [(true, "r2"), (false, "r1")])
    (by decide +kernel)
  refine ⟨s, hs, fun h ↦ ?_⟩
  obtain ⟨second, rest, heq, hsecond, hrest⟩ := List.map_eq_cons_iff.mp hevents
  obtain ⟨first, none, rfl, hfirst, hnone⟩ := List.map_eq_cons_iff.mp hrest
  obtain rfl := List.map_eq_nil_iff.mp hnone
  cases second with
  | failed attempt => exact absurd hsecond (by simp [GoalEvent.summary])
  | suppressed attempt =>
    obtain ⟨earlier, hmem, -, hagent, -⟩ := h [] attempt [first] heq
    obtain rfl := List.mem_singleton.mp hmem
    simp only [GoalEvent.summary, Prod.mk.injEq, true_and] at hfirst hsecond
    rw [hagent, hsecond] at hfirst
    exact absurd hfirst (by decide)

end Api
end FleetServer
