import FleetServer.Lib.Run
import FleetServer.State.PlanHolds

/-!
# Who can free a resource

The releases of a whole task and of a whole plan go by an index of the holds and do not ask again
whose hold it is that they delete.  So a hold is safe from others as long as both indexes are sound
(`hold_kept`), and nothing of a plan stays behind as long as the index of the plans is complete
(`plan_released`).

The operations keep the indexes so with a few exceptions.  Soundness is lost when
`ReleasePlanResource` is given another plan than that of the hold, when a task is registered with
held resources that it does not hold, and when a resource with an empty id is acquired, which any
number of tasks can (`KeepsOwners`).  Completeness is lost when the list of a plan is dropped or
replaced while the plan holds something (`KeepsListed`).
-/

set_option autoImplicit false

namespace FleetServer
namespace State
namespace PlanStore

open GoString SecondaryIndex

/-! ## Calls -/

/-- The operations on plan resources. -/
inductive PlanOp where
  | initPlanningState (planID : String) (initial : StringMap)
  | clearPlanningState (planID : String)
  | registerTaskRuntime (runtimeTaskID : String) (ctx : TaskRuntimeContext)
  | unregisterTaskRuntime (runtimeTaskID : String)
  | tryAcquirePlanResource (planID resourceID agentID runtimeTaskID logicalTaskID stepID : String)
  | handleTaskResourceEvent (runtimeTaskID agentID stepID resourceID : String) (acquired : Bool)
  | releasePlanResource (planID resourceID agentID : String)
  | releaseTaskResources (order : RangeOrder String) (runtimeTaskID agentID : String)
  | releaseAllPlanResources (order : RangeOrder (Σ _ : String, PlanResourceHold)) (planID : String)

/-- An operation and the time it is called at. -/
structure PlanCall where
  op : PlanOp
  now : ℕ

/-- The store after a call; a call that fails leaves it as it was. -/
def apply (s : PlanStore) (call : PlanCall) : PlanStore :=
  match call.op with
  | .initPlanningState planID initial => s.initPlanningState planID initial
  | .clearPlanningState planID => s.clearPlanningState planID
  | .registerTaskRuntime runtimeTaskID ctx => s.registerTaskRuntime runtimeTaskID ctx
  | .unregisterTaskRuntime runtimeTaskID => s.unregisterTaskRuntime runtimeTaskID
  | .tryAcquirePlanResource planID resourceID agentID runtimeTaskID logicalTaskID stepID =>
    (s.tryAcquirePlanResource call.now planID resourceID agentID runtimeTaskID logicalTaskID
      stepID).1
  | .handleTaskResourceEvent runtimeTaskID agentID stepID resourceID acquired =>
    match s.handleTaskResourceEvent call.now runtimeTaskID agentID stepID resourceID acquired with
    | .ok s' => s'
    | .error _ => s
  | .releasePlanResource planID resourceID agentID =>
    (s.releasePlanResource planID resourceID agentID).1
  | .releaseTaskResources order runtimeTaskID agentID =>
    (s.releaseTaskResources order runtimeTaskID agentID).1
  | .releaseAllPlanResources order planID => s.releaseAllPlanResources order planID

def step (s : PlanStore) (call : PlanCall) : Option PlanStore := some (s.apply call)

/-- The release operations that may end a hold of a resource: a release that names its task, a
release of the resource by its agent, and the release of its plan. -/
def PlanOp.Releases (op : PlanOp) (resourceID : String) (hold : PlanResourceHold) : Prop :=
  match op with
  | .handleTaskResourceEvent runtimeTaskID agentID _ resourceID' acquired =>
    acquired = false ∧ runtimeTaskID = hold.runtimeTaskID ∧ agentID = hold.agentID ∧
      resourceID' = resourceID
  | .releasePlanResource _ resourceID' agentID =>
    resourceID' = resourceID ∧ agentID = hold.agentID
  | .releaseTaskResources _ runtimeTaskID _ => runtimeTaskID = hold.runtimeTaskID
  | .releaseAllPlanResources _ planID => planID = hold.planID
  | _ => False

/-- The holds are by the same agent and task and for the same plan. -/
def SameOwner (hold hold' : PlanResourceHold) : Prop :=
  hold'.agentID = hold.agentID ∧ hold'.runtimeTaskID = hold.runtimeTaskID ∧
    hold'.planID = hold.planID

variable {s s' : PlanStore} {call : PlanCall} {planID resourceID agentID runtimeTaskID : String}
  {hold : PlanResourceHold}

/-! ## Sound indexes -/

/-- Both indexes are sound. -/
structure Indexed (s : PlanStore) : Prop where
  plans : Sound planIndex s.resourceHolds s.Lists
  tasks : Sound taskIndex s.resourceHolds fun t k _ ↦ k ∈ s.held t

theorem Indexed.of_lists (h : Indexed s) {k : String} {v : PlanResourceHold}
    (hlists : s.Lists planID k v) :
    s.resourceHolds k = some v ∧ v.planID = planID ∧ planID ≠ "" := by
  obtain ⟨v', hv', hlabel, rfl⟩ := h.plans planID k v hlists
  exact ⟨hv', label_planIndex.mp hlabel⟩

theorem Indexed.of_mem_held (h : Indexed s) {k : String} (hmem : k ∈ s.held runtimeTaskID) :
    ∃ v, s.resourceHolds k = some v ∧ v.runtimeTaskID = runtimeTaskID := by
  obtain ⟨v, hv, hlabel, -⟩ := h.tasks runtimeTaskID k () hmem
  exact ⟨v, hv, Option.some.inj hlabel⟩

/-- Fewer entries, and the same holds. -/
theorem Indexed.drop (h : Indexed s) (hholds : s'.resourceHolds = s.resourceHolds)
    (hlists : ∀ p k v, s'.Lists p k v → s.Lists p k v)
    (hheld : ∀ t, ∀ k ∈ s'.held t, k ∈ s.held t ∨
      ∃ v, s.resourceHolds k = some v ∧ v.runtimeTaskID = t) : Indexed s' where
  plans := h.plans.change fun p k v hl ↦ Or.inl ⟨hlists p k v hl, by rw [hholds]⟩
  tasks := h.tasks.change fun t k _ hk ↦ by
    rw [hholds]
    rcases hheld t k hk with hmem | ⟨v, hv, rfl⟩
    · exact Or.inl ⟨hmem, rfl⟩
    · exact Or.inr ⟨v, hv, rfl, rfl⟩

/-- An acquisition of a resource that is free, or held by the same owner. -/
theorem Indexed.takeHold (h : Indexed s)
    (hfree : ∀ old, s.resourceHolds resourceID = some old → SameOwner old hold) :
    Indexed (s.takeHold resourceID hold) where
  plans := h.plans.change fun p k v hl ↦ by
    rw [lists_takeHold] at hl
    rw [resourceHolds_takeHold]
    split at hl
    · rename_i hnew
      obtain ⟨hplan, rfl, rfl⟩ := hnew
      subst hl
      exact Or.inr ⟨v, Function.update_self .., label_planIndex.mpr ⟨rfl, hplan⟩, rfl⟩
    · rename_i hold'
      refine Or.inl ⟨hl, Function.update_of_ne ?_ ..⟩
      rintro rfl
      obtain ⟨hv, rfl, hne⟩ := h.of_lists hl
      have hplan := (hfree v hv).2.2
      exact hold' ⟨hplan ▸ hne, hplan.symm, rfl⟩
  tasks := h.tasks.change fun t k _ hk ↦ by
    rw [resourceHolds_takeHold]
    by_cases hkey : k = resourceID
    · subst hkey
      refine Or.inr ⟨hold, Function.update_self .., ?_, rfl⟩
      rcases mem_held_takeHold hk with hmem | ⟨rfl, -⟩
      · obtain ⟨old, hold', rfl⟩ := h.of_mem_held hmem
        exact congrArg some (hfree old hold').2.1
      · rfl
    · refine Or.inl ⟨(mem_held_takeHold hk).resolve_right fun hnew ↦ hkey hnew.2, ?_⟩
      exact Function.update_of_ne hkey ..

/-- The release of a hold that no other plan than the one given lists. -/
theorem Indexed.dropHold (h : Indexed s) (hhold : s.resourceHolds resourceID = some hold)
    (hplan : ∀ p v, s.Lists p resourceID v → p = planID) :
    Indexed (s.dropHold planID resourceID hold) where
  plans := h.plans.change fun p k v hl ↦ by
    obtain ⟨hlists, hnot⟩ := lists_dropHold.mp hl
    rw [resourceHolds_dropHold]
    refine Or.inl ⟨hlists, Function.update_of_ne ?_ ..⟩
    rintro rfl
    obtain rfl := hplan p v hlists
    exact hnot ⟨(h.of_lists hlists).2.2, rfl, rfl⟩
  tasks := h.tasks.change fun t k _ hk ↦ by
    obtain ⟨hmem, hnot⟩ := mem_held_dropHold.mp hk
    rw [resourceHolds_dropHold]
    refine Or.inl ⟨hmem, Function.update_of_ne ?_ ..⟩
    rintro rfl
    obtain ⟨v, hv, rfl⟩ := h.of_mem_held hmem
    obtain rfl := Option.some.inj (hv.symm.trans hhold)
    exact hnot ⟨rfl, rfl⟩

/-- A key whose hold is as it was. -/
theorem eq_of_iff_some {store store' : String → Option PlanResourceHold} {k : String}
    {gone : PlanResourceHold → Prop}
    (h : ∀ v, store' k = some v ↔ store k = some v ∧ ¬gone v)
    (hkept : ∀ v, store k = some v → ¬gone v) : store' k = store k := by
  refine Option.ext fun v ↦ ?_
  rw [h v]
  exact ⟨And.left, fun hv ↦ ⟨hv, hkept v hv⟩⟩

theorem Indexed.releaseTaskResources (h : Indexed s) (order : RangeOrder String)
    (runtimeTaskID agentID : String) :
    Indexed (s.releaseTaskResources order runtimeTaskID agentID).1 := by
  obtain ⟨hholds, hlists, hheld⟩ := s.releaseTaskResources_spec order runtimeTaskID agentID
  refine ⟨h.plans.change fun p k v hl ↦ Or.inl ?_, h.tasks.change fun t k _ hk ↦ Or.inl ?_⟩
  · obtain ⟨hl, hnot⟩ := (hlists p k v).mp hl
    obtain ⟨hv, hplan, hne⟩ := h.of_lists hl
    refine ⟨hl, eq_of_iff_some (hholds k) fun v' hv' hgone ↦ hnot ⟨v', hgone, ?_, hne⟩⟩
    rw [← Option.some.inj (hv.symm.trans hv'), hplan]
  · obtain ⟨hk, ht⟩ := (hheld t k).mp hk
    obtain ⟨v, hv, rfl⟩ := h.of_mem_held hk
    refine ⟨hk, eq_of_iff_some (hholds k) fun _ _ ⟨hmem, _⟩ ↦ ht ?_⟩
    obtain ⟨v', hv', rfl⟩ := h.of_mem_held hmem
    rw [Option.some.inj (hv.symm.trans hv')]

theorem Indexed.releaseAllPlanResources (h : Indexed s)
    (order : RangeOrder (Σ _ : String, PlanResourceHold)) (planID : String) :
    Indexed (s.releaseAllPlanResources order planID) := by
  obtain ⟨hholds, hlists, hheld⟩ := s.releaseAllPlanResources_spec order planID
  have hkept : ∀ {k}, (∀ v, ¬s.Lists planID k v) →
      (s.releaseAllPlanResources order planID).resourceHolds k = s.resourceHolds k := by
    intro k hnot
    refine Option.ext fun v ↦ ?_
    rw [hholds k v]
    exact ⟨And.left, fun hv ↦ ⟨hv, hnot⟩⟩
  refine ⟨h.plans.change fun p k v hl ↦ Or.inl ?_, h.tasks.change fun t k _ hk ↦ Or.inl ?_⟩
  · obtain ⟨hl, hp⟩ := (hlists p k v).mp hl
    exact ⟨hl, hkept fun v' hl' ↦ hp (h.plans.label_unique hl hl')⟩
  · obtain ⟨hk, ht⟩ := (hheld t k).mp hk
    obtain ⟨v, hv, rfl⟩ := h.of_mem_held hk
    refine ⟨hk, hkept fun v' hl' ↦ ht v' hl' ?_⟩
    rw [Option.some.inj (hv.symm.trans (h.of_lists hl').1)]

theorem Indexed.registerTaskRuntime (h : Indexed s) {ctx : TaskRuntimeContext}
    (hctx : ∀ k ∈ ctx.heldResources.getD [],
      ∃ v, s.resourceHolds k = some v ∧ v.runtimeTaskID = runtimeTaskID) :
    Indexed (s.registerTaskRuntime runtimeTaskID ctx) := by
  rw [PlanStore.registerTaskRuntime]
  split
  · exact h
  · refine h.drop rfl (fun _ _ _ hl ↦ hl) fun t k hk ↦ ?_
    rw [held_setRuntime] at hk
    split at hk
    · rename_i ht
      rw [ht]
      cases hheld : ctx.heldResources with
      | some keys =>
        rw [hheld] at hk hctx
        exact Or.inr (hctx k hk)
      | none =>
        rw [hheld] at hk
        refine Or.inl ?_
        cases hscope : s.taskRuntimeScopes runtimeTaskID with
        | none => simp [hscope] at hk
        | some existing => simpa [held, hscope] using hk
    · exact Or.inl hk

/-! ## The owner of a hold -/

/-- The call keeps the indexes sound: a task is registered with resources that it holds, a resource
without an id is not acquired by a second owner, and the plan a resource is released for is the one
that lists it. -/
def KeepsOwners (s : PlanStore) (call : PlanCall) : Prop :=
  match call.op with
  | .registerTaskRuntime runtimeTaskID ctx =>
    trimSpace runtimeTaskID = "" ∨ ∀ k ∈ ctx.heldResources.getD [],
      ∃ v, s.resourceHolds k = some v ∧ v.runtimeTaskID = runtimeTaskID
  | .handleTaskResourceEvent runtimeTaskID agentID _ resourceID acquired =>
    acquired = true → ∀ ctx old, s.taskRuntimeScopes runtimeTaskID = some ctx →
      s.resourceHolds resourceID = some old → old.resourceID = "" →
        old.agentID = agentID ∧ old.runtimeTaskID = runtimeTaskID ∧ old.planID = ctx.planID
  | .releasePlanResource planID resourceID agentID =>
    ∀ v, s.resourceHolds resourceID = some v → v.agentID = agentID →
      ∀ p v', s.Lists p resourceID v' → p = planID
  | _ => True

theorem indexed_apply (h : Indexed s) (hcall : KeepsOwners s call) : Indexed (s.apply call) := by
  obtain ⟨op, now⟩ := call
  cases op with
  | initPlanningState planID initial =>
    refine h.drop rfl (fun p k v hl ↦ ?_) fun t k hk ↦ Or.inl hk
    by_cases hp : p = planID
    · simp [Lists, apply, initPlanningState, hp] at hl
    · simpa [Lists, apply, initPlanningState, Function.update_of_ne hp] using hl
  | clearPlanningState planID =>
    refine h.drop rfl (fun p k v hl ↦ ?_) fun t k hk ↦ Or.inl hk
    by_cases hp : p = planID
    · simp [Lists, apply, clearPlanningState, hp] at hl
    · simpa [Lists, apply, clearPlanningState, Function.update_of_ne hp] using hl
  | registerTaskRuntime runtimeTaskID ctx =>
    rcases hcall with hblank | hctx
    · simp only [apply, PlanStore.registerTaskRuntime, if_pos hblank]
      exact h
    · exact h.registerTaskRuntime hctx
  | unregisterTaskRuntime runtimeTaskID =>
    refine h.drop rfl (fun p k v hl ↦ hl) fun t k hk ↦ Or.inl ?_
    simp only [apply, unregisterTaskRuntime, held_setRuntime] at hk
    split at hk
    · exact absurd hk List.not_mem_nil
    · exact hk
  | tryAcquirePlanResource planID resourceID agentID runtimeTaskID logicalTaskID stepID =>
    simp only [apply]
    rcases s.tryAcquirePlanResource_cases now planID resourceID agentID runtimeTaskID logicalTaskID
      stepID with heq | ⟨hold, hfree, heq⟩
    · rw [heq]
      exact h
    · rw [heq]
      exact h.takeHold fun old hold' ↦ absurd (hfree.symm.trans hold') (by simp)
  | handleTaskResourceEvent runtimeTaskID agentID stepID resourceID acquired =>
    simp only [apply]
    split
    · rename_i s' hok
      rcases handleTaskResourceEvent_cases hok with rfl |
        ⟨hacq, ctx, hold, hctx, hempty, rfl, rfl, hplan, rfl⟩ | ⟨-, hold, hhold, rfl, rfl, rfl⟩
      · exact h
      · refine h.takeHold fun old hold' ↦ ?_
        obtain ⟨hagent, htask, hplan'⟩ := hcall hacq ctx old hctx hold' (hempty old hold')
        exact ⟨hagent.symm, htask.symm, hplan.trans hplan'.symm⟩
      · refine h.dropHold hhold fun p v hl ↦ ?_
        obtain ⟨hv, rfl, -⟩ := h.of_lists hl
        rw [Option.some.inj (hhold.symm.trans hv)]
    · exact h
  | releasePlanResource planID resourceID agentID =>
    simp only [apply]
    rcases s.releasePlanResource_cases planID resourceID agentID with
      heq | ⟨hold, hhold, hagent, heq⟩
    · rw [heq]
      exact h
    · rw [heq]
      exact h.dropHold hhold (hcall hold hhold hagent)
  | releaseTaskResources order runtimeTaskID agentID =>
    exact h.releaseTaskResources order runtimeTaskID agentID
  | releaseAllPlanResources order planID => exact h.releaseAllPlanResources order planID

theorem indexed_start : Indexed {} where
  plans := fun p k v hl ↦ by simp [Lists] at hl
  tasks := fun t k _ hk ↦ by simp [held] at hk

/-- A hold that is taken or dropped elsewhere, or taken again by its owner, is still there. -/
theorem kept_of_update {resourceID' : String} {now : Option PlanResourceHold}
    (hhold : s.resourceHolds resourceID = some hold)
    (hself : resourceID' = resourceID → ∃ hold', now = some hold' ∧ SameOwner hold hold') :
    ∃ hold', Function.update s.resourceHolds resourceID' now resourceID = some hold' ∧
      SameOwner hold hold' := by
  by_cases hr : resourceID = resourceID'
  · subst hr
    obtain ⟨hold', rfl, hsame⟩ := hself rfl
    exact ⟨hold', Function.update_self .., hsame⟩
  · exact ⟨hold, (Function.update_of_ne hr ..).trans hhold, rfl, rfl, rfl⟩

/-- **While the indexes are sound, only its own releases end a hold.** -/
theorem hold_apply (h : Indexed s) (hcall : KeepsOwners s call)
    (hhold : s.resourceHolds resourceID = some hold) (hnot : ¬call.op.Releases resourceID hold) :
    ∃ hold', (s.apply call).resourceHolds resourceID = some hold' ∧ SameOwner hold hold' := by
  have hsame : ∃ hold', s.resourceHolds resourceID = some hold' ∧ SameOwner hold hold' :=
    ⟨hold, hhold, rfl, rfl, rfl⟩
  obtain ⟨op, now⟩ := call
  cases op with
  | initPlanningState planID initial => exact hsame
  | clearPlanningState planID => exact hsame
  | registerTaskRuntime runtimeTaskID ctx =>
    simp only [apply, PlanStore.registerTaskRuntime]
    split <;> exact hsame
  | unregisterTaskRuntime runtimeTaskID => exact hsame
  | tryAcquirePlanResource planID resourceID' agentID runtimeTaskID logicalTaskID stepID =>
    simp only [apply]
    rcases s.tryAcquirePlanResource_cases now planID resourceID' agentID runtimeTaskID logicalTaskID
      stepID with heq | ⟨hold', hfree, heq⟩
    · rw [heq]
      exact hsame
    · rw [heq, resourceHolds_takeHold]
      refine kept_of_update hhold ?_
      rintro rfl
      exact absurd (hfree.symm.trans hhold) (by simp)
  | handleTaskResourceEvent runtimeTaskID agentID stepID resourceID' acquired =>
    simp only [apply]
    split
    · rename_i s' hok
      rcases handleTaskResourceEvent_cases hok with rfl |
        ⟨hacq, ctx, new, hctx, hempty, rfl, rfl, hplan, rfl⟩ | ⟨hacq, old, hold', rfl, rfl, rfl⟩
      · exact hsame
      · rw [resourceHolds_takeHold]
        refine kept_of_update hhold ?_
        rintro rfl
        obtain ⟨hagent, htask, hplan'⟩ := hcall hacq ctx hold hctx hhold (hempty hold hhold)
        exact ⟨new, rfl, hagent.symm, htask.symm, hplan.trans hplan'.symm⟩
      · rw [resourceHolds_dropHold]
        refine kept_of_update hhold ?_
        rintro rfl
        obtain rfl := Option.some.inj (hold'.symm.trans hhold)
        exact absurd ⟨hacq, rfl, rfl, rfl⟩ hnot
    · exact hsame
  | releasePlanResource planID resourceID' agentID =>
    simp only [apply]
    rcases s.releasePlanResource_cases planID resourceID' agentID with
      heq | ⟨old, hold', hagent, heq⟩
    · rw [heq]
      exact hsame
    · rw [heq, resourceHolds_dropHold]
      refine kept_of_update hhold ?_
      rintro rfl
      obtain rfl := Option.some.inj (hold'.symm.trans hhold)
      exact absurd ⟨rfl, hagent.symm⟩ hnot
  | releaseTaskResources order runtimeTaskID agentID =>
    obtain ⟨hholds, -, -⟩ := s.releaseTaskResources_spec order runtimeTaskID agentID
    refine ⟨hold, (hholds resourceID hold).mpr ⟨hhold, fun ⟨hmem, _⟩ ↦ hnot ?_⟩, rfl, rfl, rfl⟩
    obtain ⟨v, hv, rfl⟩ := h.of_mem_held hmem
    rw [Option.some.inj (hhold.symm.trans hv)]
    rfl
  | releaseAllPlanResources order planID =>
    obtain ⟨hholds, -, -⟩ := s.releaseAllPlanResources_spec order planID
    refine ⟨hold, (hholds resourceID hold).mpr ⟨hhold, fun v hl ↦ hnot ?_⟩, rfl, rfl, rfl⟩
    obtain ⟨hv, rfl, -⟩ := h.of_lists hl
    rw [Option.some.inj (hhold.symm.trans hv)]
    rfl

/-! ## Complete lists -/

/-- Every hold for a plan is listed under the plan. -/
abbrev Listed (s : PlanStore) : Prop := Complete planIndex s.resourceHolds s.Lists

theorem Listed.takeHold (h : Listed s) : Listed (s.takeHold resourceID hold) := by
  refine h.change fun k v p hv hlabel ↦ ?_
  rw [resourceHolds_takeHold] at hv
  simp only [lists_takeHold]
  by_cases hk : k = resourceID
  · subst hk
    rw [Function.update_self] at hv
    obtain rfl := Option.some.inj hv
    obtain ⟨rfl, hne⟩ := label_planIndex.mp hlabel
    exact Or.inr ⟨hold, by simp [hne]⟩
  · rw [Function.update_of_ne hk] at hv
    refine Or.inl ⟨hv, fun w hw ↦ ⟨w, ?_⟩⟩
    rw [if_neg fun hnew ↦ hk hnew.2.2]
    exact hw

theorem Listed.dropHold (h : Listed s) : Listed (s.dropHold planID resourceID hold) := by
  refine h.change fun k v p hv _ ↦ Or.inl ?_
  rw [resourceHolds_dropHold] at hv
  have hk : k ≠ resourceID := by
    rintro rfl
    rw [Function.update_self] at hv
    exact absurd hv (by simp)
  rw [Function.update_of_ne hk] at hv
  exact ⟨hv, fun w hw ↦ ⟨w, lists_dropHold.mpr ⟨hw, fun hgone ↦ hk hgone.2.2⟩⟩⟩

theorem Listed.releaseTaskResources (h : Listed s) (order : RangeOrder String)
    (runtimeTaskID agentID : String) :
    Listed (s.releaseTaskResources order runtimeTaskID agentID).1 := by
  obtain ⟨hholds, hlists, -⟩ := s.releaseTaskResources_spec order runtimeTaskID agentID
  refine h.change fun k v p hv hlabel ↦ Or.inl ?_
  obtain ⟨hv, hkept⟩ := (hholds k v).mp hv
  refine ⟨hv, fun w hw ↦ ⟨w, (hlists p k w).mpr ⟨hw, ?_⟩⟩⟩
  rintro ⟨v', hgone, -⟩
  obtain rfl := Option.some.inj (hv.symm.trans hgone.2.1)
  exact hkept hgone

/-- **The release of a plan leaves no hold of it**, when its list is complete. -/
theorem Listed.planID_ne (h : Listed s) {order : RangeOrder (Σ _ : String, PlanResourceHold)}
    (hplan : planID ≠ "")
    (hv : (s.releaseAllPlanResources order planID).resourceHolds resourceID = some hold) :
    hold.planID ≠ planID := by
  intro heq
  obtain ⟨hholds, -, -⟩ := s.releaseAllPlanResources_spec order planID
  obtain ⟨hv, hnot⟩ := (hholds resourceID hold).mp hv
  obtain ⟨w, hw⟩ := h resourceID hold planID hv (label_planIndex.mpr ⟨heq, hplan⟩)
  exact hnot w hw

theorem Listed.releaseAllPlanResources (h : Listed s)
    (order : RangeOrder (Σ _ : String, PlanResourceHold)) (planID : String) :
    Listed (s.releaseAllPlanResources order planID) := by
  obtain ⟨hholds, hlists, -⟩ := s.releaseAllPlanResources_spec order planID
  refine h.change fun k v p hv hlabel ↦ Or.inl ?_
  obtain ⟨rfl, hne⟩ := label_planIndex.mp hlabel
  have hother : v.planID ≠ planID := fun heq ↦ h.planID_ne (heq ▸ hne) hv heq
  exact ⟨((hholds k v).mp hv).1, fun w hw ↦ ⟨w, (hlists v.planID k w).mpr ⟨hw, hother⟩⟩⟩

/-- The list of a plan may go when nothing is held for the plan. -/
theorem Listed.overwrite (h : Listed s) (hholds : s'.resourceHolds = s.resourceHolds)
    (hlists : ∀ p k v, p ≠ planID → s.Lists p k v → s'.Lists p k v)
    (hfree : planID ≠ "" → ∀ k v, s.resourceHolds k = some v → v.planID ≠ planID) : Listed s' := by
  refine h.change fun k v p hv hlabel ↦ Or.inl ?_
  rw [hholds] at hv
  obtain ⟨rfl, hne⟩ := label_planIndex.mp hlabel
  have hother : v.planID ≠ planID := fun heq ↦ hfree (heq ▸ hne) k v hv heq
  exact ⟨hv, fun w hw ↦ ⟨w, hlists v.planID k w hother hw⟩⟩

/-- The list of a plan is dropped or replaced only when nothing is held for the plan. -/
def KeepsListed (s : PlanStore) (call : PlanCall) : Prop :=
  match call.op with
  | .initPlanningState planID _ | .clearPlanningState planID =>
    planID ≠ "" → ∀ k v, s.resourceHolds k = some v → v.planID ≠ planID
  | _ => True

theorem listed_apply (h : Listed s) (hcall : KeepsListed s call) : Listed (s.apply call) := by
  obtain ⟨op, now⟩ := call
  cases op with
  | initPlanningState planID initial =>
    refine h.overwrite rfl (fun p k v hp hl ↦ ?_) hcall
    simpa [Lists, apply, initPlanningState, Function.update_of_ne hp] using hl
  | clearPlanningState planID =>
    refine h.overwrite rfl (fun p k v hp hl ↦ ?_) hcall
    simpa [Lists, apply, clearPlanningState, Function.update_of_ne hp] using hl
  | registerTaskRuntime runtimeTaskID ctx =>
    simp only [apply, PlanStore.registerTaskRuntime]
    split <;> exact h
  | unregisterTaskRuntime runtimeTaskID => exact h
  | tryAcquirePlanResource planID resourceID agentID runtimeTaskID logicalTaskID stepID =>
    simp only [apply]
    rcases s.tryAcquirePlanResource_cases now planID resourceID agentID runtimeTaskID logicalTaskID
      stepID with heq | ⟨hold, -, heq⟩
    · rw [heq]
      exact h
    · rw [heq]
      exact h.takeHold
  | handleTaskResourceEvent runtimeTaskID agentID stepID resourceID acquired =>
    simp only [apply]
    split
    · rename_i s' hok
      rcases handleTaskResourceEvent_cases hok with rfl |
        ⟨-, ctx, hold, -, -, -, -, -, rfl⟩ | ⟨-, hold, -, -, -, rfl⟩
      · exact h
      · exact h.takeHold
      · exact h.dropHold
    · exact h
  | releasePlanResource planID resourceID agentID =>
    simp only [apply]
    rcases s.releasePlanResource_cases planID resourceID agentID with heq | ⟨hold, -, -, heq⟩
    · rw [heq]
      exact h
    · rw [heq]
      exact h.dropHold
  | releaseTaskResources order runtimeTaskID agentID =>
    exact h.releaseTaskResources order runtimeTaskID agentID
  | releaseAllPlanResources order planID => exact h.releaseAllPlanResources order planID

/-! ## Runs -/

open GuardedRun

/-- **A hold is ended only by its own releases**: in a run that keeps the indexes sound, a call that
is no release of its task, of its resource by its agent, or of its plan, leaves it with its
owner. -/
theorem hold_kept {s : PlanStore} (hs : Reachable step KeepsOwners (· = {}) s) {call : PlanCall}
    (hcall : KeepsOwners s call) {resourceID : String} {hold : PlanResourceHold}
    (hhold : s.resourceHolds resourceID = some hold) (hnot : ¬call.op.Releases resourceID hold) :
    ∃ hold', (s.apply call).resourceHolds resourceID = some hold' ∧ SameOwner hold hold' := by
  have hindexed : Indexed s := by
    refine hs.invariant (I := Indexed) ?_ ?_
    · rintro s rfl
      exact indexed_start
    · intro s₁ call₁ s₂ _ h hok hstep
      obtain rfl := Option.some.inj hstep
      exact indexed_apply h hok
  exact hold_apply hindexed hcall hhold hnot

/-- An acquisition of the dock by the first agent, for the first plan. -/
def acquireDock : PlanCall := ⟨.tryAcquirePlanResource "p1" "dock" "a1" "t1" "" "s1", 1⟩

def releasePlan (planID : String) : PlanCall := ⟨.releaseAllPlanResources (.asListed _) planID, 4⟩

/-- The release of another plan leaves the dock with its owner. -/
theorem dock_kept :
    ∃ s hold, Reachable step KeepsOwners (· = {}) s ∧ s.resourceHolds "dock" = some hold ∧
      ∃ hold', (s.apply (releasePlan "p2")).resourceHolds "dock" = some hold' ∧
        SameOwner hold hold' := by
  have h₀ : Reachable step KeepsOwners (· = {}) {} := .start rfl
  have h₁ := h₀.next (a := acquireDock) trivial (by rfl)
  refine ⟨_, _, h₁, by rfl, @hold_kept _ h₁ (releasePlan "p2") trivial "dock" _ (by rfl) ?_⟩
  exact show ¬"p2" = "p1" by decide

/-- **The dock is released for the wrong plan and acquired by a second agent; then the release of
the first plan takes it away from the second agent.** -/
theorem dock_taken_from_second :
    ∃ s hold, Reachable step (fun _ _ ↦ True) (· = {}) s ∧
      s.resourceHolds "dock" = some hold ∧ hold.agentID = "a2" ∧ hold.planID = "p2" ∧
      ¬(releasePlan "p1").op.Releases "dock" hold ∧
      (s.apply (releasePlan "p1")).resourceHolds "dock" = none := by
  have h₀ : Reachable step (fun _ _ ↦ True) (· = {}) {} := .start rfl
  have h₁ := h₀.next (a := acquireDock) trivial (by rfl)
  have h₂ := h₁.next (a := ⟨.releasePlanResource "p2" "dock" "a1", 2⟩) trivial (by rfl)
  have h₃ := h₂.next (a := ⟨.tryAcquirePlanResource "p2" "dock" "a2" "t2" "" "s2", 3⟩) trivial
    (by rfl)
  refine ⟨_, _, h₃, by rfl, by rfl, by rfl, ?_, by rfl⟩
  exact show ¬"p1" = "p2" by decide

/-- The release of a plan leaves no hold of it, and what was held for it can be acquired again. -/
structure Releasable (s : PlanStore) (order : RangeOrder (Σ _ : String, PlanResourceHold))
    (planID : String) : Prop where
  gone : ∀ resourceID hold,
    (s.releaseAllPlanResources order planID).resourceHolds resourceID = some hold →
      hold.planID ≠ planID
  free : ∀ resourceID hold, s.resourceHolds resourceID = some hold → hold.planID = planID →
    (s.releaseAllPlanResources order planID).resourceHolds resourceID = none
  again : ∀ resourceID hold, s.resourceHolds resourceID = some hold → hold.planID = planID →
    trimSpace resourceID = resourceID → resourceID ≠ "" →
      ∀ now plan agent task logicalTask stepID,
        ((s.releaseAllPlanResources order planID).tryAcquirePlanResource now plan resourceID
          agent task logicalTask stepID).2 = (true, "")

/-- **Nothing of a plan stays behind**: in a run in which the list of a plan is dropped or replaced
only when nothing is held for it, every hold for a plan is listed, and the release of the plan ends
them all. -/
theorem plan_released {s : PlanStore} (hs : Reachable step KeepsListed (· = {}) s) :
    (∀ resourceID hold, s.resourceHolds resourceID = some hold → hold.planID ≠ "" →
      ∃ listed, s.Lists hold.planID resourceID listed) ∧
    ∀ order planID, planID ≠ "" → s.Releasable order planID := by
  have hlisted : Listed s := by
    refine hs.invariant (I := Listed) ?_ ?_
    · rintro s rfl
      exact fun k v p hv ↦ absurd hv (by simp)
    · intro s₁ call₁ s₂ _ h hok hstep
      obtain rfl := Option.some.inj hstep
      exact listed_apply h hok
  refine ⟨fun r v hv hne ↦ hlisted r v v.planID hv (label_planIndex.mpr ⟨rfl, hne⟩),
    fun order planID hne ↦ ?_⟩
  have hfree : ∀ r v, s.resourceHolds r = some v → v.planID = planID →
      (s.releaseAllPlanResources order planID).resourceHolds r = none := by
    intro r v hv hplan
    rw [Option.eq_none_iff_forall_ne_some]
    intro v' hv'
    have hold := (((s.releaseAllPlanResources_spec order planID).1 r v').mp hv').1
    obtain rfl := Option.some.inj (hv.symm.trans hold)
    exact hlisted.planID_ne hne hv' hplan
  refine ⟨fun r v hv ↦ hlisted.planID_ne hne hv, hfree, ?_⟩
  intro r v hv hplan htrim hr now plan agent task logicalTask stepID
  rw [tryAcquirePlanResource, htrim]
  simp only [hr, hfree r v hv hplan, if_false]

def initFirst : PlanCall := ⟨.initPlanningState "p1" ∅, 0⟩

/-- One execution of a plan that acquires the dock. -/
theorem dock_released :
    ∃ s, Reachable step KeepsListed (· = {}) s ∧ (s.resourceHolds "dock").isSome ∧
      (∀ resourceID hold, s.resourceHolds resourceID = some hold → hold.planID ≠ "" →
        ∃ listed, s.Lists hold.planID resourceID listed) ∧
      ∀ order planID, planID ≠ "" → s.Releasable order planID := by
  have h₀ : Reachable step KeepsListed (· = {}) {} := .start rfl
  have hinit : KeepsListed {} initFirst := fun _ _ _ hv ↦ absurd hv (by simp)
  have h₁ := h₀.next hinit (by rfl)
  have h₂ := h₁.next (a := acquireDock) trivial (by rfl)
  exact ⟨_, h₂, by rfl, plan_released h₂⟩

/-- **A second execution of the plan starts while the first holds the dock**: the list of the plan
is replaced, and the release of the plan leaves the hold. -/
theorem dock_left_behind :
    ∃ s hold, Reachable step (fun _ _ ↦ True) (· = {}) s ∧
      s.resourceHolds "dock" = some hold ∧ hold.planID = "p1" ∧
      (∀ listed, ¬s.Lists "p1" "dock" listed) ∧
      (s.releaseAllPlanResources (.asListed _) "p1").resourceHolds "dock" = some hold := by
  have h₀ : Reachable step (fun _ _ ↦ True) (· = {}) {} := .start rfl
  have h₁ := h₀.next (a := initFirst) trivial (by rfl)
  have h₂ := h₁.next (a := acquireDock) trivial (by rfl)
  have h₃ := h₂.next (a := initFirst) trivial (by rfl)
  refine ⟨_, _, h₃, by rfl, by rfl, fun listed hl ↦ ?_, by rfl⟩
  exact absurd (show (none : Option PlanResourceHold) = some listed from hl) (by simp)

end PlanStore
end State
end FleetServer
