import FleetServer.Lib.SecondaryIndex
import FleetServer.State.PlanResources

/-!
# What the operations leave of the holds

`resourceHolds` is the store of the holds; the lists of the plans (`Lists`) and the held resources
of the tasks (`held`) are indexes of it.  For each operation on plan resources this module says what
it leaves of the three: one hold is taken (`takeHold`) or dropped (`dropHold`), or the holds of a
whole task or of a whole plan are released (`releaseTaskResources_spec`,
`releaseAllPlanResources_spec`).
-/

set_option autoImplicit false

namespace FleetServer
namespace State
namespace PlanStore

open GoString SecondaryIndex

/-- The plan lists the resource with the hold. -/
def Lists (s : PlanStore) (planID resourceID : String) (hold : PlanResourceHold) : Prop :=
  ((s.planResources planID).getD ∅).lookup resourceID = some hold

/-- The resources a task is said to hold. -/
def held (s : PlanStore) (runtimeTaskID : String) : List String :=
  ((s.taskRuntimeScopes runtimeTaskID).bind TaskRuntimeContext.heldResources).getD []

/-- Holds are listed under their plan, if they have one, as they are. -/
def planIndex : Scheme String PlanResourceHold PlanResourceHold where
  label hold := if hold.planID = "" then none else some hold.planID
  view := id

/-- Resources are listed under the task that holds them. -/
def taskIndex : Scheme String PlanResourceHold Unit where
  label hold := some hold.runtimeTaskID
  view _ := ()

variable {s s' : PlanStore} {now : ℕ} {planID resourceID agentID runtimeTaskID : String}
  {hold : PlanResourceHold}

theorem label_planIndex {p : String} :
    planIndex.label hold = some p ↔ hold.planID = p ∧ p ≠ "" := by
  rw [planIndex]
  dsimp only
  by_cases hempty : hold.planID = ""
  · rw [if_pos hempty, hempty]
    constructor
    · exact fun h ↦ absurd h (by simp)
    · rintro ⟨rfl, hne⟩
      exact absurd rfl hne
  · rw [if_neg hempty, Option.some_inj]
    constructor
    · rintro rfl
      exact ⟨rfl, hempty⟩
    · exact And.left

/-! ## What the parts of the operations do -/

@[simp] theorem planResources_updatePlanningOccupancyState (occupied : Bool) :
    (s.updatePlanningOccupancyState planID resourceID occupied).planResources =
      s.planResources := by
  rw [updatePlanningOccupancyState]
  split
  · rfl
  · split
    · rfl
    · split <;> rfl

@[simp] theorem resourceHolds_updatePlanningOccupancyState (occupied : Bool) :
    (s.updatePlanningOccupancyState planID resourceID occupied).resourceHolds =
      s.resourceHolds := by
  rw [updatePlanningOccupancyState]
  split
  · rfl
  · split
    · rfl
    · split <;> rfl

@[simp] theorem taskRuntimeScopes_updatePlanningOccupancyState (occupied : Bool) :
    (s.updatePlanningOccupancyState planID resourceID occupied).taskRuntimeScopes =
      s.taskRuntimeScopes := by
  rw [updatePlanningOccupancyState]
  split
  · rfl
  · split
    · rfl
    · split <;> rfl

@[simp] theorem resourceHolds_setHold (hold : Option PlanResourceHold) :
    (s.setHold resourceID hold).resourceHolds =
      Function.update s.resourceHolds resourceID hold := by rfl

@[simp] theorem taskRuntimeScopes_setHold (hold : Option PlanResourceHold) :
    (s.setHold resourceID hold).taskRuntimeScopes = s.taskRuntimeScopes := by rfl

@[simp] theorem resourceHolds_listHold :
    (s.listHold planID resourceID hold).resourceHolds = s.resourceHolds := by
  rw [listHold]
  split <;> rfl

@[simp] theorem taskRuntimeScopes_listHold :
    (s.listHold planID resourceID hold).taskRuntimeScopes = s.taskRuntimeScopes := by
  rw [listHold]
  split <;> rfl

@[simp] theorem resourceHolds_unlistHold :
    (s.unlistHold planID resourceID).resourceHolds = s.resourceHolds := by
  rw [unlistHold]
  split
  · rfl
  · split <;> rfl

@[simp] theorem taskRuntimeScopes_unlistHold :
    (s.unlistHold planID resourceID).taskRuntimeScopes = s.taskRuntimeScopes := by
  rw [unlistHold]
  split
  · rfl
  · split <;> rfl

variable {f : TaskRuntimeContext → TaskRuntimeContext}

@[simp] theorem resourceHolds_modifyRuntime :
    (s.modifyRuntime runtimeTaskID f).resourceHolds = s.resourceHolds := by
  rw [modifyRuntime]
  split <;> rfl

@[simp] theorem planResources_modifyRuntime :
    (s.modifyRuntime runtimeTaskID f).planResources = s.planResources := by
  rw [modifyRuntime]
  split <;> rfl

theorem lists_congr (h : s'.planResources = s.planResources) : s'.Lists = s.Lists := by
  funext p k v
  rw [Lists, Lists, h]

theorem held_congr (h : s'.taskRuntimeScopes = s.taskRuntimeScopes) : s'.held = s.held := by
  funext t
  rw [held, held, h]

/-- Listing a hold. -/
theorem lists_listHold {p k : String} {v : PlanResourceHold} :
    (s.listHold planID resourceID hold).Lists p k v ↔
      if planID ≠ "" ∧ p = planID ∧ k = resourceID then v = hold else s.Lists p k v := by
  rw [listHold]
  by_cases hplan : planID = ""
  · simp [hplan]
  · rw [if_neg hplan]
    by_cases hp : p = planID
    · subst hp
      by_cases hk : k = resourceID
      · subst hk
        simp [Lists, hplan, eq_comm]
      · simp [Lists, hk, AList.lookup_insert_ne]
    · simp [Lists, hp, Function.update_of_ne]

/-- Taking a resource off a list. -/
theorem lists_unlistHold {p k : String} {v : PlanResourceHold} :
    (s.unlistHold planID resourceID).Lists p k v ↔
      s.Lists p k v ∧ ¬(planID ≠ "" ∧ p = planID ∧ k = resourceID) := by
  rw [unlistHold]
  by_cases hplan : planID = ""
  · simp [hplan]
  · rw [if_neg hplan]
    split
    · rename_i hnone
      refine ⟨fun h ↦ ⟨h, ?_⟩, And.left⟩
      rintro ⟨-, rfl, -⟩
      simp [Lists, hnone] at h
    · rename_i resources hsome
      by_cases hp : p = planID
      · subst hp
        by_cases hk : k = resourceID
        · subst hk
          simp [Lists, hplan]
        · simp [Lists, hk, hsome, AList.lookup_erase_ne]
      · simp [Lists, hp, Function.update_of_ne]

theorem held_setRuntime {t : String} {ctx : Option TaskRuntimeContext} :
    (s.setRuntime runtimeTaskID ctx).held t =
      if t = runtimeTaskID then (ctx.bind TaskRuntimeContext.heldResources).getD []
      else s.held t := by
  by_cases ht : t = runtimeTaskID
  · simp [held, setRuntime, ht]
  · simp [held, setRuntime, ht, Function.update_of_ne]

/-- A resource more in one context. -/
theorem mem_held_addHeld {t k : String}
    (h : k ∈ (s.modifyRuntime runtimeTaskID (·.addHeld resourceID)).held t) :
    k ∈ s.held t ∨ (t = runtimeTaskID ∧ k = resourceID) := by
  rw [modifyRuntime] at h
  split at h
  · exact Or.inl h
  · rename_i ctx hctx
    rw [held_setRuntime] at h
    split at h
    · rename_i ht
      have hmem : k = resourceID ∨ k ∈ ctx.heldResources.getD [] := by
        simpa [TaskRuntimeContext.addHeld] using h
      rcases hmem with hk | hk
      · exact Or.inr ⟨ht, hk⟩
      · refine Or.inl ?_
        rw [held, ht, hctx]
        exact hk
    · exact Or.inl h

/-- A resource less in one context. -/
theorem mem_held_deleteHeld {t k : String} :
    k ∈ (s.modifyRuntime runtimeTaskID (·.deleteHeld resourceID)).held t ↔
      k ∈ s.held t ∧ ¬(t = runtimeTaskID ∧ k = resourceID) := by
  rw [modifyRuntime]
  split
  · rename_i hnone
    refine ⟨fun h ↦ ⟨h, ?_⟩, And.left⟩
    rintro ⟨rfl, -⟩
    simp [held, hnone] at h
  · rename_i ctx hctx
    rw [held_setRuntime]
    by_cases ht : t = runtimeTaskID
    · rw [if_pos ht, held, ht, hctx]
      cases hheld : ctx.heldResources with
      | none => simp [TaskRuntimeContext.deleteHeld, hheld]
      | some keys => simp [TaskRuntimeContext.deleteHeld, hheld]
    · simp [ht]

/-! ## Taking and dropping one hold -/

/-- All three maps after an acquisition. -/
def takeHold (s : PlanStore) (resourceID : String) (hold : PlanResourceHold) : PlanStore :=
  (((s.setHold resourceID (some hold)).listHold hold.planID resourceID hold).modifyRuntime
    hold.runtimeTaskID (·.addHeld resourceID)).updatePlanningOccupancyState hold.planID resourceID
      true

/-- All three maps after the release of a hold, which is taken off the list of some plan. -/
def dropHold (s : PlanStore) (planID resourceID : String) (hold : PlanResourceHold) : PlanStore :=
  (((s.setHold resourceID none).unlistHold planID resourceID).modifyRuntime hold.runtimeTaskID
    (·.deleteHeld resourceID)).updatePlanningOccupancyState planID resourceID false

theorem setRuntime_eq_modifyRuntime {ctx : TaskRuntimeContext}
    (h : s.taskRuntimeScopes runtimeTaskID = some ctx) :
    s.setRuntime runtimeTaskID (some (f ctx)) = s.modifyRuntime runtimeTaskID f := by
  rw [modifyRuntime, h]

theorem tryAcquirePlanResource_cases (s : PlanStore) (now : ℕ)
    (planID resourceID agentID runtimeTaskID logicalTaskID stepID : String) :
    (s.tryAcquirePlanResource now planID resourceID agentID runtimeTaskID logicalTaskID
        stepID).1 = s ∨
      ∃ hold, s.resourceHolds (trimSpace resourceID) = none ∧
        (s.tryAcquirePlanResource now planID resourceID agentID runtimeTaskID logicalTaskID
          stepID).1 = s.takeHold (trimSpace resourceID) hold := by
  rw [tryAcquirePlanResource]
  generalize trimSpace resourceID = resourceID
  dsimp only
  split
  · exact Or.inl rfl
  · split
    · split <;> exact Or.inl rfl
    · rename_i hfree
      let hold : PlanResourceHold :=
        { planID, resourceID, agentID
          taskID := if logicalTaskID = "" then runtimeTaskID else logicalTaskID
          runtimeTaskID, stepID, acquiredAt := now }
      refine Or.inr ⟨hold, hfree, ?_⟩
      rw [takeHold]

/-- What an event does: nothing, an acquisition where no hold with a resource id is, or a release
of a hold of that agent and task. -/
theorem handleTaskResourceEvent_cases {stepID : String} {acquired : Bool}
    (hok : s.handleTaskResourceEvent now runtimeTaskID agentID stepID resourceID acquired =
      .ok s') :
    s' = s ∨
    (acquired = true ∧ ∃ ctx hold, s.taskRuntimeScopes runtimeTaskID = some ctx ∧
      (∀ old, s.resourceHolds resourceID = some old → old.resourceID = "") ∧
      hold.agentID = agentID ∧ hold.runtimeTaskID = runtimeTaskID ∧ hold.planID = ctx.planID ∧
      s' = s.takeHold resourceID hold) ∨
    (acquired = false ∧ ∃ hold, s.resourceHolds resourceID = some hold ∧
      hold.agentID = agentID ∧ hold.runtimeTaskID = runtimeTaskID ∧
      s' = s.dropHold hold.planID resourceID hold) := by
  rw [handleTaskResourceEvent] at hok
  split at hok
  · exact absurd hok (by simp)
  · rename_i ctx hctx
    split at hok
    · rename_i hacquired
      rw [handleAcquired] at hok
      split at hok
      · split at hok
        · exact Or.inl (Except.ok.inj hok).symm
        · exact absurd hok (by simp)
      · rename_i hnone
        let hold : PlanResourceHold :=
          { planID := ctx.planID, resourceID, agentID
            taskID := if ctx.logicalTaskID = "" then runtimeTaskID else ctx.logicalTaskID
            runtimeTaskID, stepID, acquiredAt := now }
        refine Or.inr (Or.inl ⟨hacquired, ctx, hold, hctx, fun old hold ↦ ?_, rfl, rfl, rfl,
          (Except.ok.inj hok).symm.trans ?_⟩)
        · rw [hold] at hnone
          by_contra hne
          simp [Option.filter, hne] at hnone
        · rw [setRuntime_eq_modifyRuntime (f := (·.addHeld resourceID)) (by simpa using hctx)]
          rfl
    · rename_i hreleased
      rw [handleReleased] at hok
      split at hok
      · exact Or.inl (Except.ok.inj hok).symm
      · rename_i hold hhold
        split at hok
        · exact absurd hok (by simp)
        · rename_i hown
          obtain ⟨hagent, htask⟩ : hold.agentID = agentID ∧ hold.runtimeTaskID = runtimeTaskID := by
            simpa [not_or] using hown
          refine Or.inr (Or.inr ⟨by simpa using hreleased, hold, hhold, hagent, htask,
            (Except.ok.inj hok).symm.trans ?_⟩)
          rw [setRuntime_eq_modifyRuntime (f := (·.deleteHeld resourceID)) (by simpa using hctx),
            ← htask]
          rfl

theorem releasePlanResource_cases (s : PlanStore) (planID resourceID agentID : String) :
    (s.releasePlanResource planID resourceID agentID).1 = s ∨
      ∃ hold, s.resourceHolds resourceID = some hold ∧ hold.agentID = agentID ∧
        (s.releasePlanResource planID resourceID agentID).1 =
          s.dropHold planID resourceID hold := by
  rw [releasePlanResource]
  split
  · exact Or.inl rfl
  · rename_i hold hhold
    split
    · exact Or.inl rfl
    · rename_i hagent
      exact Or.inr ⟨hold, hhold, not_not.mp hagent, rfl⟩

theorem resourceHolds_takeHold : (s.takeHold resourceID hold).resourceHolds =
    Function.update s.resourceHolds resourceID (some hold) := by
  simp [takeHold]

theorem lists_takeHold {p k : String} {v : PlanResourceHold} :
    (s.takeHold resourceID hold).Lists p k v ↔
      if hold.planID ≠ "" ∧ p = hold.planID ∧ k = resourceID then v = hold else s.Lists p k v := by
  have hlists : (s.takeHold resourceID hold).Lists =
      ((s.setHold resourceID (some hold)).listHold hold.planID resourceID hold).Lists :=
    lists_congr (by simp [takeHold])
  rw [hlists, lists_listHold]
  rfl

theorem mem_held_takeHold {t k : String} (h : k ∈ (s.takeHold resourceID hold).held t) :
    k ∈ s.held t ∨ (t = hold.runtimeTaskID ∧ k = resourceID) := by
  rw [takeHold, held_congr (taskRuntimeScopes_updatePlanningOccupancyState _)] at h
  refine (mem_held_addHeld h).imp_left fun hmem ↦ ?_
  rwa [held_congr taskRuntimeScopes_listHold] at hmem

theorem resourceHolds_dropHold : (s.dropHold planID resourceID hold).resourceHolds =
    Function.update s.resourceHolds resourceID none := by
  simp [dropHold]

theorem lists_dropHold {p k : String} {v : PlanResourceHold} :
    (s.dropHold planID resourceID hold).Lists p k v ↔
      s.Lists p k v ∧ ¬(planID ≠ "" ∧ p = planID ∧ k = resourceID) := by
  have hlists : (s.dropHold planID resourceID hold).Lists =
      ((s.setHold resourceID none).unlistHold planID resourceID).Lists :=
    lists_congr (by simp [dropHold])
  rw [hlists, lists_unlistHold]
  rfl

theorem mem_held_dropHold {t k : String} : k ∈ (s.dropHold planID resourceID hold).held t ↔
    k ∈ s.held t ∧ ¬(t = hold.runtimeTaskID ∧ k = resourceID) := by
  rw [dropHold, held_congr (taskRuntimeScopes_updatePlanningOccupancyState _), mem_held_deleteHeld,
    held_congr taskRuntimeScopes_unlistHold]
  rfl

/-! ## The releases of a whole task and of a whole plan -/

/-- A hold that `ReleaseTaskResources` releases among some resources. -/
def ReleasedAmong (s : PlanStore) (agentID : String) (resourceIDs : List String) (k : String)
    (hold : PlanResourceHold) : Prop :=
  k ∈ resourceIDs ∧ s.resourceHolds k = some hold ∧ releasable agentID hold = true

/-- What the rounds of `ReleaseTaskResources` leave. -/
theorem foldl_releaseHeld (resourceIDs : List String) :
    ∀ acc : PlanStore × List String,
      (resourceIDs.foldl (releaseHeld agentID) acc).1.taskRuntimeScopes =
          acc.1.taskRuntimeScopes ∧
        (∀ k v, (resourceIDs.foldl (releaseHeld agentID) acc).1.resourceHolds k = some v ↔
          acc.1.resourceHolds k = some v ∧ ¬acc.1.ReleasedAmong agentID resourceIDs k v) ∧
        ∀ p k v, (resourceIDs.foldl (releaseHeld agentID) acc).1.Lists p k v ↔
          acc.1.Lists p k v ∧ ¬∃ hold, acc.1.ReleasedAmong agentID resourceIDs k hold ∧
            hold.planID = p ∧ p ≠ "" := by
  induction resourceIDs with
  | nil => exact fun acc ↦ ⟨rfl, by simp [ReleasedAmong], by simp [ReleasedAmong]⟩
  | cons r rest ih =>
    intro acc
    rw [List.foldl_cons]
    obtain ⟨hscopes, hholds, hlists⟩ := ih (releaseHeld agentID acc r)
    cases hfilter : (acc.1.resourceHolds r).filter (releasable agentID) with
    | none =>
      -- nothing to release here
      have hround : releaseHeld agentID acc r = acc := by rw [releaseHeld, hfilter]
      have hsame : ∀ k v, acc.1.ReleasedAmong agentID (r :: rest) k v ↔
          acc.1.ReleasedAmong agentID rest k v := by
        intro k v
        refine ⟨fun ⟨hmem, hv, hrel⟩ ↦ ⟨?_, hv, hrel⟩,
          fun ⟨hmem, hv, hrel⟩ ↦ ⟨List.mem_cons_of_mem r hmem, hv, hrel⟩⟩
        refine (List.mem_cons.mp hmem).resolve_left ?_
        rintro rfl
        rw [hv] at hfilter
        simp [Option.filter, hrel] at hfilter
      rw [hround] at hscopes hholds hlists ⊢
      simp only [hsame]
      exact ⟨hscopes, hholds, hlists⟩
    | some hold =>
      obtain ⟨hhold, hreleasable⟩ : acc.1.resourceHolds r = some hold ∧
          releasable agentID hold = true := by simpa using hfilter
      have hround : (releaseHeld agentID acc r).1 =
          ((acc.1.setHold r none).unlistHold hold.planID r).updatePlanningOccupancyState
            hold.planID r false := by rw [releaseHeld, hfilter]
      have hholds₁ : (releaseHeld agentID acc r).1.resourceHolds =
          Function.update acc.1.resourceHolds r none := by rw [hround]; simp
      have hlists₁ : ∀ p k v, (releaseHeld agentID acc r).1.Lists p k v ↔
          acc.1.Lists p k v ∧ ¬(hold.planID ≠ "" ∧ p = hold.planID ∧ k = r) := by
        intro p k v
        rw [hround, lists_congr (planResources_updatePlanningOccupancyState _), lists_unlistHold]
        rfl
      have hscopes₁ : (releaseHeld agentID acc r).1.taskRuntimeScopes =
          acc.1.taskRuntimeScopes := by rw [hround]; simp
      have hrest : ∀ k v, k ≠ r → ((releaseHeld agentID acc r).1.ReleasedAmong agentID rest k v ↔
          acc.1.ReleasedAmong agentID (r :: rest) k v) := by
        intro k v hk
        simp [ReleasedAmong, hholds₁, hk]
      have hself : ∀ v, ¬(releaseHeld agentID acc r).1.ReleasedAmong agentID rest r v := by
        rintro v ⟨-, hv, -⟩
        simp [hholds₁] at hv
      have hmine : ∀ v, acc.1.ReleasedAmong agentID (r :: rest) r v ↔ v = hold := by
        intro v
        constructor
        · rintro ⟨-, hv, -⟩
          exact Option.some.inj (hv.symm.trans hhold)
        · rintro rfl
          exact ⟨List.mem_cons_self, hhold, hreleasable⟩
      refine ⟨hscopes.trans hscopes₁, fun k v ↦ ?_, fun p k v ↦ ?_⟩
      · rw [hholds k v, hholds₁]
        by_cases hk : k = r
        · subst hk
          simp [hmine, hhold, eq_comm]
        · rw [hrest k v hk, Function.update_of_ne hk]
      · rw [hlists p k v, hlists₁ p k v]
        by_cases hk : k = r
        · subst hk
          simp only [hself, hmine]
          constructor
          · rintro ⟨⟨hl, hnot⟩, -⟩
            refine ⟨hl, ?_⟩
            rintro ⟨_, rfl, rfl, hne⟩
            exact hnot ⟨hne, rfl, trivial⟩
          · rintro ⟨hl, hnot⟩
            refine ⟨⟨hl, ?_⟩, by simp⟩
            rintro ⟨hne, rfl, -⟩
            exact hnot ⟨hold, rfl, rfl, hne⟩
        · simp only [hrest k _ hk, hk, and_false, not_false_eq_true, and_true]

/-- What `ReleaseTaskResources` leaves. -/
theorem releaseTaskResources_spec (s : PlanStore) (order : RangeOrder String)
    (runtimeTaskID agentID : String) :
    (∀ k v, (s.releaseTaskResources order runtimeTaskID agentID).1.resourceHolds k = some v ↔
        s.resourceHolds k = some v ∧ ¬s.ReleasedAmong agentID (s.held runtimeTaskID) k v) ∧
      (∀ p k v, (s.releaseTaskResources order runtimeTaskID agentID).1.Lists p k v ↔
        s.Lists p k v ∧ ¬∃ hold, s.ReleasedAmong agentID (s.held runtimeTaskID) k hold ∧
          hold.planID = p ∧ p ≠ "") ∧
      ∀ t k, k ∈ (s.releaseTaskResources order runtimeTaskID agentID).1.held t ↔
        k ∈ s.held t ∧ t ≠ runtimeTaskID := by
  have hnothing : s.held runtimeTaskID = [] →
      (∀ k v, s.resourceHolds k = some v ↔ s.resourceHolds k = some v ∧
        ¬s.ReleasedAmong agentID (s.held runtimeTaskID) k v) ∧
      (∀ p k v, s.Lists p k v ↔ s.Lists p k v ∧ ¬∃ hold,
        s.ReleasedAmong agentID (s.held runtimeTaskID) k hold ∧ hold.planID = p ∧ p ≠ "") ∧
      ∀ t k, k ∈ s.held t ↔ k ∈ s.held t ∧ t ≠ runtimeTaskID := by
    intro hempty
    simp only [ReleasedAmong, hempty, List.not_mem_nil, false_and, exists_false, not_false_eq_true,
      and_true, implies_true, true_and]
    refine fun t k ↦ ⟨fun h ↦ ⟨h, ?_⟩, And.left⟩
    rintro rfl
    rw [hempty] at h
    exact absurd h List.not_mem_nil
  rw [releaseTaskResources]
  cases hctx : s.taskRuntimeScopes runtimeTaskID with
  | none => exact hnothing (by simp [held, hctx])
  | some ctx =>
    have hheld : s.held runtimeTaskID = ctx.heldResources.getD [] := by rw [held, hctx]; rfl
    dsimp only
    split
    · rename_i hempty
      exact hnothing (hheld.trans hempty)
    · obtain ⟨hscopes, hholds, hlists⟩ :=
        @foldl_releaseHeld agentID (order.range (ctx.heldResources.getD [])) (s, [])
      have hsame : ∀ k v, s.ReleasedAmong agentID (order.range (ctx.heldResources.getD [])) k v ↔
          s.ReleasedAmong agentID (s.held runtimeTaskID) k v := by
        intro k v
        rw [ReleasedAmong, ReleasedAmong, order.mem_range, hheld]
      simp only [hsame] at hholds hlists
      refine ⟨hholds, hlists, fun t k ↦ ?_⟩
      rw [held_setRuntime, held_congr hscopes]
      by_cases ht : t = runtimeTaskID
      · simp [ht]
      · simp [ht]

/-- What the rounds of `ReleaseAllPlanResources` leave. -/
theorem foldl_releaseListed (entries : List (Σ _ : String, PlanResourceHold)) :
    ∀ s : PlanStore,
      (entries.foldl (releaseListed planID) s).planResources = s.planResources ∧
        (∀ k v, (entries.foldl (releaseListed planID) s).resourceHolds k = some v ↔
          s.resourceHolds k = some v ∧ ∀ e ∈ entries, e.1 ≠ k) ∧
        ∀ t k, k ∈ (entries.foldl (releaseListed planID) s).held t ↔
          k ∈ s.held t ∧ ∀ e ∈ entries, ¬(t = e.2.runtimeTaskID ∧ k = e.1) := by
  induction entries with
  | nil => exact fun s ↦ ⟨rfl, by simp, by simp⟩
  | cons e rest ih =>
    intro s
    rw [List.foldl_cons]
    obtain ⟨hplans, hholds, hheld⟩ := ih (releaseListed planID s e)
    refine ⟨hplans.trans ?_, fun k v ↦ ?_, fun t k ↦ ?_⟩
    · rw [releaseListed, planResources_updatePlanningOccupancyState, planResources_modifyRuntime]
      rfl
    · rw [hholds k v, List.forall_mem_cons, releaseListed,
        resourceHolds_updatePlanningOccupancyState, resourceHolds_modifyRuntime,
        resourceHolds_setHold]
      by_cases hk : k = e.1
      · simp [hk]
      · simp [hk, Ne.symm hk]
    · rw [hheld t k, List.forall_mem_cons, releaseListed,
        held_congr (taskRuntimeScopes_updatePlanningOccupancyState _), mem_held_deleteHeld,
        held_congr (taskRuntimeScopes_setHold none), and_assoc]

/-- What `ReleaseAllPlanResources` leaves. -/
theorem releaseAllPlanResources_spec (s : PlanStore)
    (order : RangeOrder (Σ _ : String, PlanResourceHold)) (planID : String) :
    (∀ k v, (s.releaseAllPlanResources order planID).resourceHolds k = some v ↔
        s.resourceHolds k = some v ∧ ∀ hold, ¬s.Lists planID k hold) ∧
      (∀ p k v, (s.releaseAllPlanResources order planID).Lists p k v ↔
        s.Lists p k v ∧ p ≠ planID) ∧
      ∀ t k, k ∈ (s.releaseAllPlanResources order planID).held t ↔
        k ∈ s.held t ∧ ∀ hold, s.Lists planID k hold → t ≠ hold.runtimeTaskID := by
  have hmem : ∀ k hold, (⟨k, hold⟩ : Σ _ : String, PlanResourceHold) ∈
      order.range ((s.planResources planID).getD ∅).entries ↔ s.Lists planID k hold := by
    intro k hold
    rw [order.mem_range, Lists, ← AList.mem_lookup_iff, Option.mem_def]
  obtain ⟨hplans, hholds, hheld⟩ :=
    @foldl_releaseListed planID (order.range ((s.planResources planID).getD ∅).entries) s
  refine ⟨fun k v ↦ (hholds k v).trans (and_congr_right fun _ ↦ ?_), fun p k v ↦ ?_,
    fun t k ↦ (hheld t k).trans (and_congr_right fun _ ↦ ?_)⟩
  · constructor
    · exact fun h hold hlists ↦ h ⟨k, hold⟩ ((hmem k hold).mpr hlists) rfl
    · rintro h ⟨k', hold⟩ he rfl
      exact h hold ((hmem _ hold).mp he)
  · by_cases hp : p = planID
    · simp [Lists, releaseAllPlanResources, hp]
    · simp [Lists, releaseAllPlanResources, hp, Function.update_of_ne, hplans]
  · constructor
    · exact fun h hold hlists ht ↦ h ⟨k, hold⟩ ((hmem k hold).mpr hlists) ⟨ht, rfl⟩
    · rintro h ⟨k', hold⟩ he ⟨ht, rfl⟩
      exact h hold ((hmem _ hold).mp he) ht

end PlanStore
end State
end FleetServer
