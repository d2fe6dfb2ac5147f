import FleetServer.Api.RealtimeDispatch
import FleetServer.Pddl.PlanInstances

/-!
# The resource instances of the plans of a session

No two plans of a session should use one resource instance.  The tick takes care of it by what the
runtime parameters of the assignments name, and these name the instance of the primary token only.
So the plans of a session are disjoint as long as every template binds one instance
(`instances_disjoint`); two plans with templates that take a machine and a slot may share the slot
(`loadPlans_share_slot`).
-/

set_option autoImplicit false

namespace FleetServer
namespace Api

open GoString Pddl Executor RealtimeSession GuardedRun

/-! ## What should hold -/

/-- The instances that the grounded tasks of a plan list. -/
def SolvedPlan.instances (solved : SolvedPlan) : List String :=
  (solved.tasks.flatMap PlanTask.requiredResources).filter fun token ↦
    trimSpace (trimPrefix token "instance:") ≠ ""

namespace RealtimeSession

/-- The execution was started in this tick, or it is one of the session that still runs. -/
def InUse (s : RealtimeSession) (e : RealtimeExecution) : Prop :=
  e ∈ s.dispatched ∨ e ∈ s.activeExecutions ∧ s.Runs e

end RealtimeSession

/-- Different executions in use have no instance in common. -/
def InstancesDisjoint (s : RealtimeSession) : Prop :=
  ∀ e e', s.InUse e → s.InUse e' → e.executionID ≠ e'.executionID →
    e.solved.instances.Disjoint e'.solved.instances

/-- The templates that a goal is solved with bind one instance each. -/
def SolvesOneInstance (s : RealtimeSession) : RealtimeAction → Prop
  | .tryGoal input =>
    ∀ resources, input.sources.listTaskDistributorResources s.taskDistributorID = .ok resources →
      ∀ btID ∈ s.behaviorTreeIDs, ∀ bt template,
        input.sources.getBehaviorTree btID = .ok (some bt) → planTaskOf bt = .ok template →
          BindsOneInstance (buildResourceCatalog resources) template
  | _ => True

/-! ## What a plan shows -/

section Shown

variable {lib : LibraryFunctions} {solved solved' : SolvedPlan}

/-- Every instance of the plan is among the resources it is known to keep busy. -/
def ShowsInstances (lib : LibraryFunctions) (solved : SolvedPlan) : Prop :=
  ∀ token ∈ solved.instances, ∃ id, token = "instance:" ++ id ∧
    trimSpace id ∈ planResourceKeys lib solved.plan

theorem trimPrefix_append (pre s : String) : trimPrefix (pre ++ s) pre = s := by
  have hprefix : hasPrefix (pre ++ s) pre = true := by
    rw [hasPrefix, List.isPrefixOf_iff_prefix, String.toList_append]
    exact List.prefix_append _ _
  rw [trimPrefix, if_pos hprefix, String.toList_append, List.drop_left, String.ofList_toList]

theorem mem_planResourceKeys {plan : Plan} {assignment : TaskAssignment} {id : String}
    (hmem : assignment ∈ plan.assignments)
    (hid : assignment.runtimeParams.lookup "resource_id" = some id) (hblank : trimSpace id ≠ "") :
    trimSpace id ∈ planResourceKeys lib plan := by
  have hread : readKey assignment.runtimeParams "resource_id" = id := by
    rw [readKey, hid]
    rfl
  refine mem_busyKeys.mpr ⟨hblank, id, List.mem_flatMap.mpr ⟨assignment, hmem, ?_⟩, rfl⟩
  simp only [assignmentResources, hread]
  split
  · exact List.mem_cons_self
  · split
    · exact List.mem_cons_self
    · exact List.mem_append_left _ List.mem_cons_self

/-- **A plan that was solved with templates that bind one instance shows its instances.** -/
theorem showsInstances_of_solved {s : RealtimeSession} {input : SolveInput}
    {spec : PlanningSolveSpec} (hok : SolvesOneInstance s (.tryGoal input))
    (hsolved : solveProblemSpec input.fuel input.orders input.sources spec = some (.ok solved))
    (htrees : spec.behaviorTreeIDs = s.behaviorTreeIDs)
    (hdistributor : spec.taskDistributorID = s.taskDistributorID)
    (hvalid : solved.plan.isValid = true) (hassignments : solved.plan.assignments ≠ []) :
    ShowsInstances lib solved := by
  obtain ⟨loaded, problem, hresources, htemplates, hground, hplan, htasks⟩ :=
    solveProblemSpec_spec hsolved
  intro token htoken
  obtain ⟨htoken, hblank⟩ := List.mem_filter.mp htoken
  obtain ⟨task, htask, hrequired⟩ := List.mem_flatMap.mp htoken
  obtain ⟨hgrounded, assignment, hassignment, hparams⟩ :=
    exists_assignment_of_chosen hplan hvalid hassignments (htasks ▸ htask)
  have hone : ∀ template ∈ loaded.tasks,
      BindsOneInstance (buildResourceCatalog loaded.resources) template := by
    intro template htemplate
    obtain ⟨btID, hbtID, bt, hbt, hspec⟩ := htemplates template htemplate
    exact hok loaded.resources (hdistributor ▸ hresources) btID (htrees ▸ hbtID) bt template hbt
      hspec
  obtain ⟨id, rfl, hshown⟩ := shown_of_mem_groundTasks hground hone hgrounded hrequired
  rw [trimPrefix_append, decide_eq_true_eq] at hblank
  exact ⟨id, rfl, mem_planResourceKeys hassignment (hparams.trans hshown) hblank⟩

theorem disjoint_instances (h : ShowsInstances lib solved) (h' : ShowsInstances lib solved')
    (hkeys : (planResourceKeys lib solved.plan).Disjoint (planResourceKeys lib solved'.plan)) :
    solved.instances.Disjoint solved'.instances := by
  intro token htoken htoken'
  obtain ⟨id, rfl, hid⟩ := h token htoken
  obtain ⟨id', heq, hid'⟩ := h' _ htoken'
  obtain rfl : id = id' := (String.append_right_inj "instance:").mp heq
  exact hkeys hid hid'

end Shown

/-! ## The invariant -/

/-- What the choice works with. -/
def TickPC.context? : TickPC → Option TickContext
  | .choosing ctx _ _ => some ctx
  | .trying ctx _ _ _ _ => some ctx
  | _ => none

/-- Two plans are known to keep different resources busy. -/
def KeysApart (lib : LibraryFunctions) (solved solved' : SolvedPlan) : Prop :=
  (planResourceKeys lib solved.plan).Disjoint (planResourceKeys lib solved'.plan)

theorem KeysApart.symm {lib : LibraryFunctions} {solved solved' : SolvedPlan}
    (h : KeysApart lib solved solved') : KeysApart lib solved' solved :=
  List.Disjoint.symm h

variable {lib : LibraryFunctions} {s s' : RealtimeSession}

structure DispatchInv (lib : LibraryFunctions) (s : RealtimeSession) : Prop where
  /-- The executor knows the executions of the session. -/
  known : ∀ e, e ∈ s.dispatched ∨ e ∈ s.activeExecutions → s.status e.executionID ≠ none
  shown : ∀ e, s.InUse e → ShowsInstances lib e.solved
  apart : ∀ e e', s.InUse e → s.InUse e' → e.executionID ≠ e'.executionID →
    KeysApart lib e.solved e'.solved
  synced : s.tick = .synced → s.dispatched = []
  candidatesShown : ∀ c ∈ s.tick.candidates, ShowsInstances lib c.solved
  candidatesApart : s.tick.candidates.Pairwise fun c c' ↦ KeysApart lib c.solved c'.solved
  candidatesFree : ∀ c ∈ s.tick.candidates, ∀ e, s.InUse e → KeysApart lib c.solved e.solved
  /-- What is in use or chosen is marked busy. -/
  marked : ∀ ctx, s.tick.context? = some ctx →
    (∀ e, s.InUse e → planResourceKeys lib e.solved.plan ⊆ ctx.busyResources) ∧
      ∀ c ∈ s.tick.candidates, planResourceKeys lib c.solved.plan ⊆ ctx.busyResources

theorem DispatchInv.instancesDisjoint (hI : DispatchInv lib s) : InstancesDisjoint s :=
  fun e e' he he' hne ↦
    disjoint_instances (hI.shown e he) (hI.shown e' he') (hI.apart e e' he he' hne)

/-- Fewer executions in use and fewer candidates. -/
theorem DispatchInv.fewer (hI : DispatchInv lib s)
    (hknown : ∀ e, e ∈ s'.dispatched ∨ e ∈ s'.activeExecutions → s'.status e.executionID ≠ none)
    (huse : ∀ e, s'.InUse e → s.InUse e)
    (hcandidates : s'.tick.candidates.Sublist s.tick.candidates)
    (hcontext : ∀ ctx, s'.tick.context? = some ctx → s.tick.context? = some ctx)
    (hsynced : s'.tick = .synced → s'.dispatched = []) : DispatchInv lib s' where
  known := hknown
  shown e he := hI.shown e (huse e he)
  apart e e' he he' := hI.apart e e' (huse e he) (huse e' he')
  synced := hsynced
  candidatesShown c hc := hI.candidatesShown c (hcandidates.subset hc)
  candidatesApart := hI.candidatesApart.sublist hcandidates
  candidatesFree c hc e he := hI.candidatesFree c (hcandidates.subset hc) e (huse e he)
  marked ctx hctx :=
    ⟨fun e he ↦ (hI.marked ctx (hcontext ctx hctx)).1 e (huse e he),
      fun c hc ↦ (hI.marked ctx (hcontext ctx hctx)).2 c (hcandidates.subset hc)⟩

/-- The tick moves on, and nothing that matters here is changed. -/
theorem DispatchInv.moved (hI : DispatchInv lib s)
    (hactive : s'.activeExecutions = s.activeExecutions)
    (hdispatched : s'.dispatched = s.dispatched) (hstatus : s'.status = s.status)
    (hcandidates : s'.tick.candidates.Sublist s.tick.candidates)
    (hcontext : ∀ ctx, s'.tick.context? = some ctx → s.tick.context? = some ctx)
    (hsynced : s'.tick ≠ .synced) : DispatchInv lib s' := by
  refine hI.fewer (fun e he ↦ ?_) (fun e he ↦ ?_) hcandidates hcontext fun h ↦ absurd h hsynced
  · rw [hdispatched, hactive] at he
    rw [hstatus]
    exact hI.known e he
  · rw [InUse, Runs, hdispatched, hactive, hstatus] at he
    exact he

/-! ## The steps -/

theorem DispatchInv.executionMoves (hI : DispatchInv lib s) {executionID : String}
    {status : PlanExecutionStatus} (h : s.executionMoves executionID status = some s') :
    DispatchInv lib s' := by
  rw [RealtimeSession.executionMoves] at h
  split at h
  · rename_i hruns
    obtain rfl := Option.some.inj h
    refine hI.fewer (fun e he ↦ ?_) (fun e he ↦ he.imp_right fun he ↦ ⟨he.1, ?_⟩)
      (List.Sublist.refl _) (fun _ hctx ↦ hctx) hI.synced
    · by_cases hid : e.executionID = executionID
      · simp [hid]
      · simpa [hid] using hI.known e he
    · by_cases hid : e.executionID = executionID
      · rw [Runs, hid]
        exact hruns
      · simpa [Runs, hid] using he.2
  · exact absurd h (by simp)

theorem DispatchInv.syncExecutions (hI : DispatchInv lib s) (h : s.syncExecutions = some s') :
    DispatchInv lib s' := by
  rw [RealtimeSession.syncExecutions] at h
  split at h
  · obtain rfl := Option.some.inj h
    refine hI.fewer (fun e he ↦ ?_) (fun e he ↦ ?_) (List.nil_sublist _)
      (fun ctx hctx ↦ absurd hctx (by simp [TickPC.context?])) fun _ ↦ rfl
    · exact hI.known e (.inr (List.mem_filter.mp (he.resolve_left List.not_mem_nil)).1)
    · have hactive := (he.resolve_left List.not_mem_nil).1
      obtain ⟨hmem, hruns⟩ := List.mem_filter.mp hactive
      exact .inr ⟨hmem, by simpa using hruns⟩
  · exact absurd h (by simp)

/-- What still runs is marked busy. -/
theorem subset_collectBusy {currentState : StringMap} {e : RealtimeExecution}
    (hmem : e ∈ s.activeExecutions) (hruns : s.Runs e) :
    planResourceKeys lib e.solved.plan ⊆ (s.collectBusy lib currentState).busyResources := by
  have hin : e ∈ s.activeExecutions.filter s.Runs :=
    List.mem_filter.mpr ⟨hmem, by simpa using hruns⟩
  rw [collectBusy]
  generalize s.activeExecutions.filter s.Runs = executions at hin
  induction executions with
  | nil => exact absurd hin List.not_mem_nil
  | cons first rest ih =>
    rw [List.foldr_cons, TickContext.mark]
    rcases List.mem_cons.mp hin with rfl | hin
    · intro key hkey
      exact List.mem_append_left _ (List.mem_append_left _ hkey)
    · exact fun key hkey ↦ List.mem_append_right _ (ih hin hkey)

theorem DispatchInv.beginChoice (hI : DispatchInv lib s) {currentState : StringMap}
    (h : s.beginChoice lib currentState = some s') : DispatchInv lib s' := by
  rw [RealtimeSession.beginChoice] at h
  split at h
  · rename_i hsynced
    split at h
    · obtain rfl := Option.some.inj h
      exact hI.moved rfl rfl rfl (List.nil_sublist _)
        (fun ctx hctx ↦ absurd hctx (by simp [TickPC.context?])) (by simp)
    · obtain rfl := Option.some.inj h
      refine { known := hI.known, shown := hI.shown, apart := hI.apart, synced := fun h ↦ ?_,
               candidatesShown := fun c hc ↦ absurd hc List.not_mem_nil,
               candidatesApart := List.Pairwise.nil,
               candidatesFree := fun c hc ↦ absurd hc List.not_mem_nil,
               marked := fun ctx hctx ↦ ?_ }
      · exact absurd h (by simp)
      · obtain rfl := Option.some.inj hctx
        refine ⟨fun e he ↦ ?_, fun c hc ↦ absurd hc List.not_mem_nil⟩
        rcases he with hdispatched | ⟨hactive, hruns⟩
        · rw [hI.synced hsynced] at hdispatched
          exact absurd hdispatched List.not_mem_nil
        · exact subset_collectBusy hactive hruns
  · exact absurd h (by simp)

theorem DispatchInv.nextAgent (hI : DispatchInv lib s) (h : s.nextAgent = some s') :
    DispatchInv lib s' := by
  rw [RealtimeSession.nextAgent] at h
  split at h
  · rename_i ctx selected htick
    obtain rfl := Option.some.inj h
    refine hI.moved rfl rfl rfl ?_ (fun ctx hctx ↦ absurd hctx (by simp [TickPC.context?]))
      (by simp)
    rw [htick]
    exact List.Sublist.refl _
  · rename_i ctx agent agents selected htick
    dsimp only at h
    split at h <;> obtain rfl := Option.some.inj h <;>
      refine hI.moved rfl rfl rfl ?_ (fun ctx hctx ↦ ?_) (by simp) <;> rw [htick]
    · exact List.Sublist.refl _
    · exact hctx
    · exact List.Sublist.refl _
    · exact hctx
  · exact absurd h (by simp)

/-- **A plan is chosen**: it names nothing that is busy. -/
theorem DispatchInv.planned (hI : DispatchInv lib s) {ctx : TickContext} {agent : AgentInfo}
    {goal : RealtimeGoal} {goals : List RealtimeGoal} {agents : List AgentInfo}
    {selected : List RealtimeDispatchCandidate} {candidate : RealtimeDispatchCandidate}
    (htick : s.tick = .trying ctx agent (goal :: goals) agents selected)
    (hshown : ShowsInstances lib candidate.solved)
    (hfree : (planResourceKeys lib candidate.solved.plan).Disjoint ctx.busyResources) :
    DispatchInv lib { s with
      tick := .choosing (ctx.mark lib candidate.solved.plan candidate.binding (trimSpace agent.id))
        agents (selected ++ [candidate]) } := by
  have hcandidates : s.tick.candidates = selected := by rw [htick]; rfl
  obtain ⟨hused, hchosen⟩ := hI.marked ctx (by rw [htick]; rfl)
  rw [hcandidates] at hchosen
  refine { known := hI.known, shown := hI.shown, apart := hI.apart, synced := fun h ↦ ?_,
           candidatesShown := fun c hc ↦ ?_, candidatesApart := ?_,
           candidatesFree := fun c hc e he ↦ ?_,
           marked := fun ctx' hctx ↦ ?_ }
  · exact absurd h (by simp)
  · rcases List.mem_append.mp hc with hc | hc
    · exact hI.candidatesShown c (hcandidates ▸ hc)
    · rw [List.mem_singleton.mp hc]
      exact hshown
  · refine List.pairwise_append.mpr ⟨hcandidates ▸ hI.candidatesApart, List.pairwise_singleton _ _,
      fun c hc c' hc' ↦ ?_⟩
    rw [List.mem_singleton.mp hc']
    exact fun key hkey hkey' ↦ hfree hkey' (hchosen c hc hkey)
  · rcases List.mem_append.mp hc with hc | hc
    · exact hI.candidatesFree c (hcandidates ▸ hc) e he
    · rw [List.mem_singleton.mp hc]
      exact fun key hkey hkey' ↦ hfree hkey (hused e he hkey')
  · obtain rfl := Option.some.inj hctx
    refine ⟨fun e he key hkey ↦ List.mem_append_right _ (hused e he hkey), fun c hc key hkey ↦ ?_⟩
    rcases List.mem_append.mp hc with hc | hc
    · exact List.mem_append_right _ (hchosen c hc hkey)
    · rw [List.mem_singleton.mp hc] at hkey
      exact List.mem_append_left _ (List.mem_append_left _ hkey)

theorem DispatchInv.tryGoal (hI : DispatchInv lib s) {input : SolveInput}
    (hok : SolvesOneInstance s (.tryGoal input)) (h : s.tryGoal lib input = some s') :
    DispatchInv lib s' := by
  rw [RealtimeSession.tryGoal] at h
  split at h
  · rename_i ctx agent agents selected htick
    obtain rfl := Option.some.inj h
    refine hI.moved rfl rfl rfl ?_ (fun ctx hctx ↦ ?_) (by simp) <;> rw [htick]
    · exact List.Sublist.refl _
    · exact hctx
  · rename_i ctx agent goal goals agents selected htick
    have hgoOn : ∀ t : RealtimeSession, t.activeExecutions = s.activeExecutions →
        t.dispatched = s.dispatched → t.status = s.status →
        t.tick = .trying ctx agent goals agents selected → DispatchInv lib t := by
      intro t hactive hdispatched hstatus ht
      refine hI.moved hactive hdispatched hstatus ?_ (fun ctx' hctx ↦ ?_) (by simp [ht])
      · rw [ht, htick]
        exact List.Sublist.refl _
      · rw [ht] at hctx
        rw [htick]
        exact hctx
    split at h
    · exact absurd h (by simp)
    · exact hgoOn _ (by rw [← Option.some.inj h]) (by rw [← Option.some.inj h])
        (by rw [← Option.some.inj h]) (by rw [← Option.some.inj h])
    · exact hgoOn _ (by rw [← Option.some.inj h]) (by rw [← Option.some.inj h])
        (by rw [← Option.some.inj h]) (by rw [← Option.some.inj h])
    · refine hgoOn _ ?_ ?_ ?_ ?_ <;> rw [← Option.some.inj h] <;> rfl
    · exact hgoOn _ (by rw [← Option.some.inj h]) (by rw [← Option.some.inj h])
        (by rw [← Option.some.inj h]) (by rw [← Option.some.inj h])
    · rename_i candidate houtcome
      obtain rfl := Option.some.inj h
      obtain hnotDue | ⟨binding, resources, -, -, hattempt⟩ := goalOutcome_cases houtcome
      · exact absurd hnotDue (by simp)
      · obtain ⟨hsuppressed, -⟩ | ⟨errMsg, hfailed⟩ | ⟨conflicts, hconflict⟩ |
          ⟨solved, spec, heq, hsolved, htrees, hdistributor, hvalid, hassignments, hconflicts⟩ :=
          attemptGoal_cases hattempt
        · exact absurd hsuppressed (by simp)
        · exact absurd hfailed (by simp)
        · exact absurd hconflict (by simp)
        · obtain rfl := GoalOutcome.planned.inj heq
          exact hI.planned htick
            (showsInstances_of_solved hok hsolved htrees hdistributor hvalid hassignments)
            (disjoint_of_no_conflicts lib hconflicts)
  · exact absurd h (by simp)

/-- **A plan is started**, under an id of its own. -/
theorem DispatchInv.started (hI : DispatchInv lib s) {executionID : String} {ctx : TickContext}
    {candidate : RealtimeDispatchCandidate} {candidates : List RealtimeDispatchCandidate}
    {execution : RealtimeExecution} (htick : s.tick = .starting ctx (candidate :: candidates))
    (hfresh : s.status executionID = none) (hid : execution.executionID = executionID)
    (hsolved : execution.solved = candidate.solved)
    (htick' : s'.tick = .starting ctx candidates)
    (hstatus : s'.status = Function.update s.status executionID (some .pending))
    (hactive : s'.activeExecutions = s.activeExecutions ++ [execution])
    (hdispatched : s'.dispatched = s.dispatched ++ [execution]) : DispatchInv lib s' := by
  have hcandidates : s.tick.candidates = candidate :: candidates := by rw [htick]; rfl
  have hcandidates' : s'.tick.candidates = candidates := by rw [htick']; rfl
  have hmem : candidate ∈ s.tick.candidates := hcandidates ▸ List.mem_cons_self
  have hrest : ∀ c ∈ s'.tick.candidates, c ∈ s.tick.candidates := fun c hc ↦ by
    rw [hcandidates]
    exact List.mem_cons_of_mem candidate (hcandidates' ▸ hc)
  obtain ⟨hfirst, hpairwise⟩ := List.pairwise_cons.mp (hcandidates ▸ hI.candidatesApart)
  have hheld : ∀ e, e ∈ s'.dispatched ∨ e ∈ s'.activeExecutions →
      (e ∈ s.dispatched ∨ e ∈ s.activeExecutions) ∨ e = execution := by
    intro e he
    simp only [hdispatched, hactive, List.mem_append, List.mem_singleton] at he
    tauto
  have huse : ∀ e, s'.InUse e → s.InUse e ∨ e = execution := by
    intro e he
    rcases hheld e (he.imp_right And.left) with hold | rfl
    · refine .inl (he.elim (fun hmem ↦ ?_) fun hrunning ↦ ?_)
      · rw [hdispatched, List.mem_append, List.mem_singleton] at hmem
        rcases hmem with hmem | rfl
        · exact .inl hmem
        · exact absurd (hid ▸ hfresh) (hI.known e hold)
      · have hne : e.executionID ≠ executionID := fun heq ↦ hI.known e hold (heq ▸ hfresh)
        obtain ⟨hmem, hruns⟩ := hrunning
        rw [Runs, hstatus, Function.update_of_ne hne] at hruns
        rw [hactive, List.mem_append, List.mem_singleton] at hmem
        rcases hmem with hmem | rfl
        · exact .inr ⟨hmem, hruns⟩
        · exact absurd hid hne
    · exact .inr rfl
  refine { known := fun e he ↦ ?_, shown := fun e he ↦ ?_, apart := fun e e' he he' hne ↦ ?_,
           synced := fun h ↦ ?_, candidatesShown := fun c hc ↦ hI.candidatesShown c (hrest c hc),
           candidatesApart := hcandidates' ▸ hpairwise, candidatesFree := fun c hc e he ↦ ?_,
           marked := fun ctx' hctx ↦ ?_ }
  · rw [hstatus]
    by_cases heq : e.executionID = executionID
    · simp [heq]
    · rw [Function.update_of_ne heq]
      rcases hheld e he with hold | rfl
      · exact hI.known e hold
      · exact absurd hid heq
  · rcases huse e he with hold | rfl
    · exact hI.shown e hold
    · exact hsolved ▸ hI.candidatesShown candidate hmem
  · rcases huse e he with hold | rfl <;> rcases huse e' he' with hold' | rfl
    · exact hI.apart e e' hold hold' hne
    · exact hsolved ▸ (hI.candidatesFree candidate hmem e hold).symm
    · exact hsolved ▸ hI.candidatesFree candidate hmem e' hold'
    · exact absurd rfl hne
  · exact absurd (htick'.symm.trans h) (by simp)
  · rcases huse e he with hold | rfl
    · exact hI.candidatesFree c (hrest c hc) e hold
    · rw [hsolved]
      exact (hfirst c (hcandidates' ▸ hc)).symm
  · rw [htick'] at hctx
    exact absurd hctx (by simp [TickPC.context?])

theorem DispatchInv.startCandidate (hI : DispatchInv lib s) {executionID : String}
    (h : s.startCandidate executionID = some s') : DispatchInv lib s' := by
  rw [RealtimeSession.startCandidate] at h
  split at h
  · obtain rfl := Option.some.inj h
    exact hI.moved rfl rfl rfl (List.nil_sublist _)
      (fun ctx hctx ↦ absurd hctx (by simp [TickPC.context?])) (by simp)
  · rename_i ctx candidate candidates htick
    split at h
    · obtain rfl := Option.some.inj h
      refine hI.moved rfl rfl rfl ?_ (fun ctx hctx ↦ absurd hctx (by simp [TickPC.context?]))
        (by simp)
      rw [htick]
      exact List.sublist_cons_self _ _
    · split at h
      · rename_i hfresh
        obtain rfl := Option.some.inj h
        exact hI.started htick (Option.isNone_iff_eq_none.mp hfresh.1) rfl rfl rfl rfl rfl rfl
      · exact absurd h (by simp)
  · exact absurd h (by simp)

theorem DispatchInv.stop (hI : DispatchInv lib s) : DispatchInv lib s.stop := by
  refine hI.fewer (fun e he ↦ ?_) (fun e he ↦ ?_) (List.Sublist.refl _) (fun _ hctx ↦ hctx)
    hI.synced
  · exact hI.known e (.inl (he.resolve_right List.not_mem_nil))
  · exact .inl (he.resolve_right fun hrunning ↦ List.not_mem_nil hrunning.1)

/-- **Every step keeps the invariant.** -/
theorem DispatchInv.step (hI : DispatchInv lib s) {a : RealtimeAction} (hok : SolvesOneInstance s a)
    (h : realtimeStep lib s a = some s') : DispatchInv lib s' := by
  cases a with
  | executionMoves executionID status => exact hI.executionMoves h
  | syncExecutions => exact hI.syncExecutions h
  | beginChoice currentState => exact hI.beginChoice h
  | nextAgent => exact hI.nextAgent h
  | tryGoal input => exact hI.tryGoal hok h
  | startCandidate executionID => exact hI.startCandidate h
  | stop =>
    obtain rfl := Option.some.inj h
    exact hI.stop

/-! ## Every run -/

theorem dispatchInv_started (h : StartedSession s) : DispatchInv lib s := by
  obtain ⟨sources, request, hstart⟩ := h
  obtain ⟨-, htick, hactive, hdispatched, -, -⟩ := start_spec hstart
  have huse : ∀ e, ¬(e ∈ s.dispatched ∨ e ∈ s.activeExecutions) := by simp [hactive, hdispatched]
  have hnone : ∀ e, ¬s.InUse e := fun e he ↦ huse e (he.imp_right And.left)
  refine { known := fun e he ↦ absurd he (huse e), shown := fun e he ↦ absurd he (hnone e),
           apart := fun e _ he ↦ absurd he (hnone e), synced := fun _ ↦ hdispatched,
           candidatesShown := ?_, candidatesApart := ?_, candidatesFree := ?_, marked := ?_ } <;>
    rw [htick]
  · exact fun c hc ↦ absurd hc List.not_mem_nil
  · exact List.Pairwise.nil
  · exact fun c hc ↦ absurd hc List.not_mem_nil
  · exact fun ctx hctx ↦ absurd hctx (by simp [TickPC.context?])

/-- **The plans of a session use disjoint instances**, in every run in which goals are solved with
templates that bind one instance. -/
theorem instances_disjoint (lib : LibraryFunctions) {s : RealtimeSession}
    (h : Reachable (realtimeStep lib) SolvesOneInstance StartedSession s) : InstancesDisjoint s :=
  (h.invariant (I := DispatchInv lib) (fun _ ↦ dispatchInv_started)
    fun _ _ _ _ hI hok hstep ↦ hI.step hok hstep).instancesDisjoint

/-! ## Machines and a slot -/

/-- Two machines and one slot. -/
def slotHall : List ResourceInfo :=
  [{ id := "cnc", name := "CNC", kind := "type", parentResourceID := "" },
    { id := "slot", name := "Slot", kind := "type", parentResourceID := "" },
    { id := "cnc1", name := "CNC 1", kind := "instance", parentResourceID := "cnc" },
    { id := "cnc2", name := "CNC 2", kind := "instance", parentResourceID := "cnc" },
    { id := "slot1", name := "Slot 1", kind := "instance", parentResourceID := "slot" }]

/-- A behavior tree that loads a machine, and takes the resources of the tokens. -/
def loadTree (requiredResources : List String) : PlanningTree :=
  { id := "load", name := "Load"
    planningTask := .ok
      { requiredResources
        resultStates := [{ var := "{{resource.id}}_loaded", value := "yes" }] } }

def slotSources (requiredResources : List String) : PlanningSources :=
  { getBehaviorTree := fun _ ↦ .ok (some (loadTree requiredResources))
    listTaskDistributorStates := fun _ ↦ .ok [⟨"cnc1_loaded", "no"⟩, ⟨"cnc2_loaded", "no"⟩]
    listTaskDistributorResources := fun _ ↦ .ok slotHall
    getAgentCapabilities := fun _ ↦ .ok []
    getAgent := fun agentID ↦ .ok (some agentID)
    isAgentOnline := fun _ ↦ true }

/-- Two robots are to load the two machines. -/
def slotRequest : RealtimeSessionRequest :=
  { behaviorTreeIDs := ["load"], taskDistributorID := "hall", agentIDs := ["r1", "r2"]
    goals := [{ id := "first", goalState := (∅ : StringMap).insert "cnc1_loaded" "yes" },
      { id := "second", goalState := (∅ : StringMap).insert "cnc2_loaded" "yes" }] }

def slotInput (requiredResources : List String) : SolveInput :=
  { fuel := 4, sources := slotSources requiredResources
    orders := ⟨fun _ ↦ RangeOrder.asListed _, RangeOrder.asListed _⟩ }

/-- One tick: the first robot gets the first goal; the second robot finds its machine busy, and gets
the second goal. -/
def slotTick (requiredResources : List String) : List RealtimeAction :=
  [.syncExecutions,
    .beginChoice (((∅ : StringMap).insert "cnc1_loaded" "no").insert "cnc2_loaded" "no"),
    .nextAgent, .tryGoal (slotInput requiredResources), .nextAgent,
    .tryGoal (slotInput requiredResources), .tryGoal (slotInput requiredResources), .nextAgent,
    .startCandidate "e1", .startCandidate "e2"]

def slotSession : RealtimeSession :=
  { behaviorTreeIDs := ["load"], taskDistributorID := "hall"
    agents := [{ noAgent with id := "r1", name := "r1" }, { noAgent with id := "r2", name := "r2" }]
    resources := slotHall, goals := normalizeRealtimeGoals slotRequest.goals }

theorem started_slotSession : StartedSession slotSession :=
  ⟨slotSources [], slotRequest, by rfl⟩

/-- Where loading takes a machine only, both plans of a tick are started, and they are disjoint. -/
theorem machinePlans_disjoint : ∃ s, s.dispatched.length = 2 ∧ InstancesDisjoint s := by
  have hok : ∀ a ∈ slotTick ["type:cnc"], ∀ s, SolvesOneInstance s a := by
    intro a ha s
    simp only [slotTick, List.mem_cons, List.not_mem_nil, or_false] at ha
    rcases ha with rfl | rfl | rfl | rfl | rfl | rfl | rfl | rfl | rfl | rfl <;> try exact trivial
    all_goals
      intro resources _ btID _ bt template hbt htemplate
      obtain rfl : loadTree ["type:cnc"] = bt := by simpa [slotInput, slotSources] using hbt
      obtain rfl := Except.ok.inj htemplate
      exact bindsOneInstance_of_oneToken (by decide)
  obtain ⟨s, hs, htwo⟩ := exists_reachable_of_foldlM (realtimeStep asciiLibrary)
    started_slotSession (slotTick ["type:cnc"]) hok (P := fun s ↦ s.dispatched.length = 2)
    (by decide +kernel)
  exact ⟨s, htwo, instances_disjoint asciiLibrary hs⟩

/-- **Two plans share the slot**: their runtime parameters name the machines only. -/
theorem loadPlans_share_slot :
    ∃ s, Reachable (realtimeStep asciiLibrary) (fun _ _ ↦ True) StartedSession s ∧
      ¬InstancesDisjoint s := by
  obtain ⟨s, hs, e, he, e', he', hne, token, htoken, htoken'⟩ :=
    exists_reachable_of_foldlM (realtimeStep asciiLibrary) started_slotSession
      (slotTick ["type:cnc", "type:slot"]) (fun _ _ _ ↦ trivial)
      (P := fun s ↦ ∃ e ∈ s.dispatched, ∃ e' ∈ s.dispatched, e.executionID ≠ e'.executionID ∧
        ∃ token ∈ e.solved.instances, token ∈ e'.solved.instances) (by decide +kernel)
  exact ⟨s, hs, fun h ↦ h e e' (.inl he) (.inl he') hne htoken htoken'⟩

end Api
end FleetServer
