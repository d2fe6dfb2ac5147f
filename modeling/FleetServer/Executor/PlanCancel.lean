import FleetServer.Executor.PlanExecutor
import FleetServer.Lib.Run
import Mathlib.Data.List.Dedup

/-!
# Cancelling a plan

When a plan execution has been cancelled, every task that was created for it should have come to an
end or be one for which `CancelTask` was called; otherwise a robot goes on with a plan that is over.

`dispatchStep` learns the runtime id of its task only when `StartTask` returns, and gives up its
step as soon as the context is cancelled.  A task is therefore cancelled only if its id is there
when `CancelExecution` reads the steps: the second reading, at the end of `runPlanExecution`, finds
the step already cancelled and leaves it out.  `cancelledPlan_leaves_nothing` shows that nothing
else can go wrong, and the run at the end that this does.
-/

set_option autoImplicit false

namespace FleetServer
namespace Executor

open GoString GuardedRun PlanExecution

variable {p p' : PlanExecution}

/-! ## The condition -/

/-- The goroutine has not been started, or has returned. -/
def DispatchPC.isSettled : DispatchPC → Bool
  | .idle | .returned _ => true
  | _ => false

/-- The goroutine of an assignment has nothing under way, or it waits for a task whose id is in its
unfinished step. -/
def PlanExecution.isRecorded (p : PlanExecution) (i : ℕ) : Bool :=
  match p.dispatcher i with
  | .idle | .returned _ => true
  | .waiting taskID =>
    (p.stepStatuses (p.stepID i)).runtimeTaskID = taskID &&
      !(p.stepStatuses (p.stepID i)).status.isTerminal
  | _ => false

/-- `CancelExecution` reads the steps when every goroutine under way has recorded its task, no group
is started between this and the end of the execution, and the context is not cancelled by anybody
else while a goroutine is under way. -/
def SweepsAll (p : PlanExecution) : PlanAction → Prop
  | .cancelSweep => ∀ i ∈ List.range p.assignments.length, p.isRecorded i = true
  | .launch => p.contextDone = false ∧ ∀ c ∈ p.cancellers, c = .admitted
  | .parentDone => ∀ i ∈ List.range p.assignments.length, (p.dispatcher i).isSettled = true
  | _ => True

instance (p : PlanExecution) (a : PlanAction) : Decidable (SweepsAll p a) := by
  cases a <;> dsimp only [SweepsAll] <;> infer_instance

/-! ## The invariant -/

/-- The task has come to an end, or `CancelTask` has been called for it. -/
def Handled (p : PlanExecution) (taskID : String) : Prop :=
  (∃ task, p.tasks taskID = some task ∧ task.status.isTerminal = true) ∨
    p.cancelCalled taskID = true

/-- The goroutine of an assignment is out of the way of a cancellation with `ids` still to be
cancelled. -/
def CoveredBy (p : PlanExecution) (ids : List String) (i : ℕ) : Prop :=
  (p.dispatcher i).isSettled = true ∨
    ∃ id, p.dispatcher i = .waiting id ∧ (id ∈ ids ∨ Handled p id)

/-- The goroutine of an assignment is the one a task was created by. -/
def Owns (p : PlanExecution) (i : ℕ) (taskID : String) : Prop :=
  p.dispatcher i = .created taskID ∨ p.dispatcher i = .waiting taskID

structure CancelInv (p : PlanExecution) : Prop where
  /-- Only goroutines of the group being collected are under way. -/
  settled : ∀ i, (p.dispatcher i).isSettled = true ∨
    ∃ order, p.runner = .collecting order ∧ i ∈ p.orderGroup order
  names : ∀ i id, Owns p i id → id ≠ "" ∧ trimSpace id = id
  accounted : ∀ id, p.tasks id ≠ none → (∃ i, Owns p i id) ∨ Handled p id
  sweeps : ∀ ids, .cancelling ids ∈ p.cancellers → ∀ i, CoveredBy p ids i
  signalled : p.contextDone = true → ∀ i, CoveredBy p [] i
  ended : p.status = .cancelled → p.runner = .done

theorem lt_of_mem_orderGroup {order i : ℕ} (h : i ∈ p.orderGroup order) :
    i ∈ List.range p.assignments.length := (List.mem_filter.mp h).1

/-- When no group is being collected, no goroutine is under way. -/
theorem CancelInv.all_settled (h : CancelInv p) (hr : ∀ order, p.runner ≠ .collecting order)
    (i : ℕ) : (p.dispatcher i).isSettled = true := by
  rcases h.settled i with hset | ⟨order, horder, -⟩
  · exact hset
  · exact absurd horder (hr order)

theorem not_owns_of_settled {i : ℕ} {id : String} (h : (p.dispatcher i).isSettled = true) :
    ¬Owns p i id := by
  rintro (hpc | hpc) <;> rw [hpc] at h <;> exact absurd h (by simp [DispatchPC.isSettled])

theorem CoveredBy.mono {ids ids' : List String} {i : ℕ} (h : CoveredBy p ids i)
    (hd : p'.dispatcher i = p.dispatcher i)
    (hids : ∀ id ∈ ids, id ∈ ids' ∨ Handled p' id) (hh : ∀ id, Handled p id → Handled p' id) :
    CoveredBy p' ids' i := by
  rcases h with hset | ⟨id, hpc, hid⟩
  · exact Or.inl (by rwa [hd])
  · refine Or.inr ⟨id, by rwa [hd], ?_⟩
    rcases hid with hmem | hhandled
    · exact hids id hmem
    · exact Or.inr (hh id hhandled)

/-- A step that moves no goroutine of an assignment and creates no task. -/
theorem CancelInv.mono (h : CancelInv p) (hd : p'.dispatcher = p.dispatcher)
    (hsettled : ∀ i, (p.dispatcher i).isSettled = true ∨
      ∃ order, p'.runner = .collecting order ∧ i ∈ p'.orderGroup order)
    (htasks : ∀ id, p.tasks id = none → p'.tasks id = none)
    (hh : ∀ id, Handled p id → Handled p' id)
    (hsweeps : ∀ ids, .cancelling ids ∈ p'.cancellers → ∀ i, CoveredBy p' ids i)
    (hsignalled : p'.contextDone = true → ∀ i, CoveredBy p' [] i)
    (hended : p'.status = .cancelled → p'.runner = .done) : CancelInv p' := by
  have howns : ∀ i id, Owns p' i id ↔ Owns p i id := fun i id ↦ by rw [Owns, Owns, hd]
  refine ⟨fun i ↦ ?_, fun i id hown ↦ h.names i id ((howns i id).mp hown), fun id hid ↦ ?_,
    hsweeps, hsignalled, hended⟩
  · rw [hd]
    exact hsettled i
  · rcases h.accounted id fun hnone ↦ hid (htasks id hnone) with ⟨i, hown⟩ | hhandled
    · exact Or.inl ⟨i, (howns i id).mpr hown⟩
    · exact Or.inr (hh id hhandled)

/-- A step of `runPlanExecution` that starts no group. -/
theorem CancelInv.moveRunner (h : CancelInv p) (hd : p'.dispatcher = p.dispatcher)
    (hset : ∀ i, (p.dispatcher i).isSettled = true) (ht : p'.tasks = p.tasks)
    (hcalled : ∀ id, p.cancelCalled id = true → p'.cancelCalled id = true)
    (hended : p'.status = .cancelled → p'.runner = .done) : CancelInv p' := by
  have hh : ∀ id, Handled p id → Handled p' id := by
    rintro id (hterm | hcall)
    · exact Or.inl (by rwa [ht])
    · exact Or.inr (hcalled id hcall)
  have hcov : ∀ ids i, CoveredBy p' ids i := fun ids i ↦ Or.inl (by rw [hd]; exact hset i)
  exact h.mono hd (fun i ↦ Or.inl (hset i)) (fun id hnone ↦ by rwa [ht]) hh (fun ids _ ↦ hcov ids)
    (fun _ ↦ hcov []) hended

/-- A goroutine that has not recorded a task yet keeps every cancellation away. -/
theorem CancelInv.untouched (h : CancelInv p) {i : ℕ}
    (hpc : p.isRecorded i = false ∧ ∀ id, p.dispatcher i ≠ .waiting id) :
    (∀ ids, .cancelling ids ∉ p.cancellers) ∧ p.contextDone = false := by
  have hnot : ∀ ids, ¬CoveredBy p ids i := by
    rintro ids (hset | ⟨id, hwait, -⟩)
    · have hrec := hpc.1
      rw [isRecorded] at hrec
      revert hset hrec
      cases p.dispatcher i <;> simp [DispatchPC.isSettled]
    · exact hpc.2 id hwait
  refine ⟨fun ids hmem ↦ hnot ids (h.sweeps ids hmem i), ?_⟩
  by_contra hdone
  rw [Bool.not_eq_false] at hdone
  exact hnot [] (h.signalled hdone i)

/-- A goroutine moves on before it has recorded a task. -/
theorem CancelInv.advance (h : CancelInv p) {i : ℕ} {pc : DispatchPC}
    (hpc : p.isRecorded i = false ∧ ∀ id, p.dispatcher i ≠ .waiting id)
    (hd : p'.dispatcher = Function.update p.dispatcher i pc) (hr : p'.runner = p.runner)
    (ha : p'.assignments = p.assignments) (hc : p'.cancellers = p.cancellers)
    (hdone : p'.contextDone = p.contextDone) (hst : p'.status = p.status)
    (hnames : ∀ id, pc = .created id ∨ pc = .waiting id → id ≠ "" ∧ trimSpace id = id)
    (hacc : ∀ id, p'.tasks id ≠ none → (∃ i, Owns p' i id) ∨ Handled p' id) : CancelInv p' := by
  obtain ⟨hsweeps, hsignalled⟩ := h.untouched hpc
  have hgroup : ∀ order, p'.orderGroup order = p.orderGroup order := fun order ↦ by
    rw [orderGroup, orderGroup, ha]
  refine ⟨fun k ↦ ?_, fun k id hown ↦ ?_, hacc, fun ids hmem ↦ ?_, fun hctx ↦ ?_, fun hend ↦ ?_⟩
  · rw [hd, hr]
    by_cases hk : k = i
    · subst hk
      rcases h.settled k with hset | ⟨order, horder, hmem⟩
      · have hrec := hpc.1
        rw [isRecorded] at hrec
        revert hset hrec
        cases p.dispatcher k <;> simp [DispatchPC.isSettled]
      · exact Or.inr ⟨order, horder, by rwa [hgroup]⟩
    · rw [Function.update_of_ne hk]
      exact (h.settled k).imp id fun ⟨order, horder, hmem⟩ ↦ ⟨order, horder, by rwa [hgroup]⟩
  · by_cases hk : k = i
    · subst hk
      refine hnames id ?_
      simpa [Owns, hd] using hown
    · exact h.names k id (by simpa [Owns, hd, Function.update_of_ne hk] using hown)
  · rw [hc] at hmem
    exact absurd hmem (hsweeps ids)
  · rw [hdone, hsignalled] at hctx
    exact absurd hctx (by simp)
  · rw [hr]
    exact h.ended (by rwa [← hst])

/-- A goroutine returns, and its task needs no further care. -/
theorem CancelInv.finish (h : CancelInv p) {i : ℕ} {taskID : String}
    (hpc : p.dispatcher i = .waiting taskID) (hhandled : Handled p taskID) (err : Option String)
    (message : String) : CancelInv (p.finish i err message) := by
  have hret : ∃ result, (p.finish i err message).dispatcher =
      Function.update p.dispatcher i (.returned result) := ⟨_, rfl⟩
  obtain ⟨result, hd⟩ := hret
  have hset : ((p.finish i err message).dispatcher i).isSettled = true := by
    simp [hd, DispatchPC.isSettled]
  have hne : ∀ k, k ≠ i → (p.finish i err message).dispatcher k = p.dispatcher k :=
    fun k hk ↦ by rw [hd, Function.update_of_ne hk]
  have hcov : ∀ ids k, CoveredBy p ids k → CoveredBy (p.finish i err message) ids k := by
    intro ids k hold
    by_cases hk : k = i
    · subst hk
      exact Or.inl hset
    · exact hold.mono (hne k hk) (fun _ ↦ Or.inl) fun _ hid ↦ hid
  refine ⟨fun k ↦ ?_, fun k id hown ↦ ?_, fun id hid ↦ ?_, fun ids hmem k ↦ hcov ids k
    (h.sweeps ids hmem k), fun hctx k ↦ hcov [] k (h.signalled hctx k), h.ended⟩
  · by_cases hk : k = i
    · subst hk
      exact Or.inl hset
    · rw [hne k hk]
      exact h.settled k
  · by_cases hk : k = i
    · subst hk
      exact absurd hown (not_owns_of_settled hset)
    · exact h.names k id (by rwa [Owns, hne k hk] at hown)
  · rcases h.accounted id hid with ⟨k, hown⟩ | hold
    · by_cases hk : k = i
      · subst hk
        obtain rfl : taskID = id := by
          rcases hown with hcreated | hwait
          · rw [hpc] at hcreated
            exact absurd hcreated (by simp)
          · rw [hpc] at hwait
            exact DispatchPC.waiting.inj hwait
        exact Or.inr hhandled
      · exact Or.inl ⟨k, by rwa [Owns, hne k hk]⟩
    · exact Or.inr hold

/-! ## The steps -/

theorem CancelInv.launch (h : CancelInv p) (hok : SweepsAll p .launch)
    (hs : p.launch = some p') : CancelInv p' := by
  rw [PlanExecution.launch] at hs
  split at hs
  · rename_i order horder
    obtain rfl := Option.some.inj hs
    have hset := h.all_settled fun order' ↦ by simp [horder]
    have hidle : ∀ i id, ¬Owns p i id := fun i id ↦ not_owns_of_settled (hset i)
    refine ⟨fun i ↦ ?_, fun i id hown ↦ ?_, fun id hid ↦ ?_, fun ids hmem ↦ ?_, fun hctx ↦ ?_,
      fun hend ↦ ?_⟩
    · dsimp only
      split
      · rename_i hmem
        exact Or.inr ⟨order, rfl, hmem⟩
      · exact Or.inl (hset i)
    · rw [Owns] at hown
      dsimp only at hown
      split at hown
      · exact absurd hown (by simp)
      · exact absurd hown (hidle i id)
    · exact Or.inr ((h.accounted id hid).resolve_left fun ⟨i, hown⟩ ↦ hidle i id hown)
    · exact absurd (hok.2 _ hmem) (by simp)
    · exact absurd (hok.1.symm.trans hctx) (by simp)
    · have hdone := h.ended hend
      rw [horder] at hdone
      exact absurd hdone (by simp)
  · exact absurd hs (by simp)

/-- The results of a group are collected when all of its goroutines have returned. -/
theorem CancelInv.collect (h : CancelInv p) (hs : p.collect = some p') : CancelInv p' := by
  rw [PlanExecution.collect] at hs
  split at hs
  · rename_i order horder
    split at hs
    · rename_i hall
      have hset : ∀ i, (p.dispatcher i).isSettled = true := by
        intro i
        rcases h.settled i with hset | ⟨order', horder', hmem⟩
        · exact hset
        · obtain rfl : order = order' := RunnerPC.collecting.inj (horder.symm.trans horder')
          have hret := List.all_eq_true.mp hall i hmem
          revert hret
          cases p.dispatcher i <;> simp [DispatchPC.isSettled]
      split at hs
      · obtain rfl := Option.some.inj hs
        exact h.moveRunner rfl hset rfl (fun _ hc ↦ hc) fun hend ↦
          absurd (horder.symm.trans (h.ended hend)) (by simp)
      · split at hs <;> obtain rfl := Option.some.inj hs
        · exact h.moveRunner rfl hset rfl (fun _ hc ↦ hc) fun hend ↦ absurd hend (by simp)
        · exact h.moveRunner rfl hset rfl (fun _ hc ↦ hc) fun hend ↦
            absurd (horder.symm.trans (h.ended hend)) (by simp)
    · exact absurd hs (by simp)
  · exact absurd hs (by simp)

/-- The other steps of `runPlanExecution`: no goroutine is under way. -/
theorem CancelInv.runner {a : PlanAction} (h : CancelInv p) (hs : planStep p a = some p')
    (ha : (∃ failure, a = .load failure) ∨ a = .check ∨ a = .runnerSweep ∨
      (∃ taskID, a = .runnerCancel taskID) ∨ a = .runnerCancelled) : CancelInv p' := by
  rcases ha with ⟨failure, rfl⟩ | rfl | rfl | ⟨taskID, rfl⟩ | rfl
  · simp only [planStep, load] at hs
    split at hs
    · rename_i hr
      have hset := h.all_settled fun order ↦ by simp [hr]
      split at hs <;> obtain rfl := Option.some.inj hs <;>
        exact h.moveRunner rfl hset rfl (fun _ hc ↦ hc) fun hend ↦ absurd hend (by simp)
    · exact absurd hs (by simp)
  · simp only [planStep, check] at hs
    split at hs
    · rename_i order horder
      have hset := h.all_settled fun order' ↦ by simp [horder]
      have hnot : p.status ≠ .cancelled := fun hend ↦
        absurd (horder.symm.trans (h.ended hend)) (by simp)
      split_ifs at hs <;> obtain rfl := Option.some.inj hs
      · exact h.moveRunner rfl hset rfl (fun _ hc ↦ hc) fun hend ↦ absurd hend (by simp)
      · exact h.moveRunner rfl hset rfl (fun _ hc ↦ hc) fun hend ↦ absurd hend hnot
      · exact h.moveRunner rfl hset rfl (fun _ hc ↦ hc) fun hend ↦ absurd hend hnot
      · exact h.moveRunner rfl hset rfl (fun _ hc ↦ hc) fun hend ↦ absurd hend hnot
    · exact absurd hs (by simp)
  · simp only [planStep, PlanExecution.runnerSweep] at hs
    split at hs
    · rename_i hr
      obtain rfl := Option.some.inj hs
      exact h.moveRunner rfl (h.all_settled fun order ↦ by simp [hr]) rfl (fun _ hc ↦ hc)
        fun hend ↦ absurd (hr.symm.trans (h.ended hend)) (by simp)
    · exact absurd hs (by simp)
  · simp only [planStep, runnerCancel] at hs
    split at hs
    · rename_i taskIDs hr
      split at hs
      · obtain rfl := Option.some.inj hs
        refine h.moveRunner rfl (h.all_settled fun order ↦ by simp [hr]) rfl (fun id hc ↦ ?_)
          fun hend ↦ absurd (hr.symm.trans (h.ended hend)) (by simp)
        by_cases hid : id = taskID
        · simp [callCancel, hid]
        · simpa [callCancel, Function.update_of_ne hid] using hc
      · exact absurd hs (by simp)
    · exact absurd hs (by simp)
  · simp only [planStep, PlanExecution.runnerCancelled] at hs
    split at hs
    · rename_i hr
      obtain rfl := Option.some.inj hs
      exact h.moveRunner rfl (h.all_settled fun order ↦ by simp [hr]) rfl (fun _ hc ↦ hc)
        fun _ ↦ rfl
    · exact absurd hs (by simp)

/-- A goroutine that has not recorded a task, read off where it is. -/
theorem unrecorded_of_pc {i : ℕ} (h : p.dispatcher i = .launched ∨ p.dispatcher i = .starting ∨
    ∃ id, p.dispatcher i = .created id) :
    p.isRecorded i = false ∧ ∀ id, p.dispatcher i ≠ .waiting id := by
  rcases h with hpc | hpc | ⟨id, hpc⟩ <;> simp [isRecorded, hpc]

/-- The owner of a task is found again after a goroutine that owned nothing has moved. -/
theorem CancelInv.accounted_of_ne (h : CancelInv p) {i : ℕ} {id : String}
    (hi : ∀ k, p.dispatcher i ≠ .created k) (hw : ∀ k, p.dispatcher i ≠ .waiting k)
    (hd : ∀ k, k ≠ i → p'.dispatcher k = p.dispatcher k) (hh : Handled p id → Handled p' id)
    (hid : p.tasks id ≠ none) : (∃ i, Owns p' i id) ∨ Handled p' id := by
  rcases h.accounted id hid with ⟨k, hown⟩ | hold
  · by_cases hk : k = i
    · subst hk
      exact absurd hown (by simp [Owns, hi, hw])
    · exact Or.inl ⟨k, by rwa [Owns, hd k hk]⟩
  · exact Or.inr (hh hold)

theorem CancelInv.dispatchStep {a : PlanAction} (h : CancelInv p) (hs : planStep p a = some p')
    (ha : (∃ i, a = .begin i) ∨ (∃ i err, a = .startFails i err) ∨
      (∃ i taskID, a = .createTask i taskID) ∨ ∃ i, a = .recordTask i) : CancelInv p' := by
  rcases ha with ⟨i, rfl⟩ | ⟨i, err, rfl⟩ | ⟨i, taskID, rfl⟩ | ⟨i, rfl⟩
  · simp only [planStep, PlanExecution.begin] at hs
    split at hs
    · rename_i hpc
      obtain rfl := Option.some.inj hs
      refine h.advance (unrecorded_of_pc (Or.inl hpc)) rfl rfl rfl rfl rfl rfl
        (fun id hid ↦ absurd hid (by simp)) fun id hid ↦ ?_
      exact h.accounted_of_ne (i := i) (by simp [hpc]) (by simp [hpc])
        (fun k hk ↦ Function.update_of_ne hk ..) (fun hold ↦ hold) hid
    · exact absurd hs (by simp)
  · simp only [planStep, startFails] at hs
    split at hs
    · rename_i hpc
      obtain rfl := Option.some.inj hs
      refine h.advance (unrecorded_of_pc (Or.inr (Or.inl hpc))) rfl rfl rfl rfl rfl rfl
        (fun id hid ↦ absurd hid (by simp)) fun id hid ↦ ?_
      exact h.accounted_of_ne (i := i) (by simp [hpc]) (by simp [hpc])
        (fun k hk ↦ Function.update_of_ne hk ..) (fun hold ↦ hold) hid
    · exact absurd hs (by simp)
  · simp only [planStep, PlanExecution.createTask] at hs
    split at hs
    · rename_i hg
      obtain ⟨hpc, hnew, hne, htrim⟩ := hg
      obtain rfl := Option.some.inj hs
      refine h.advance (unrecorded_of_pc (Or.inr (Or.inl hpc))) rfl rfl rfl rfl rfl rfl
        (fun id hid ↦ ?_) fun id hid ↦ ?_
      · obtain rfl : taskID = id := by simpa using hid
        exact ⟨hne, htrim⟩
      · by_cases hnewid : id = taskID
        · subst hnewid
          exact Or.inl ⟨i, Or.inl (by simp [setDispatcher])⟩
        · have hold : p.tasks id ≠ none := by
            simpa [setDispatcher, Function.update_of_ne hnewid] using hid
          refine h.accounted_of_ne (i := i) (by simp [hpc]) (by simp [hpc])
            (fun k hk ↦ Function.update_of_ne hk ..) (fun hh ↦ ?_) hold
          rcases hh with ⟨task, htask, hterm⟩ | hcalled
          · exact Or.inl ⟨task, by simpa [Function.update_of_ne hnewid] using htask, hterm⟩
          · exact Or.inr hcalled
    · exact absurd hs (by simp)
  · simp only [planStep, PlanExecution.recordTask] at hs
    split at hs
    · rename_i taskID hpc
      obtain rfl := Option.some.inj hs
      refine h.advance (unrecorded_of_pc (Or.inr (Or.inr ⟨taskID, hpc⟩))) rfl rfl rfl rfl rfl rfl
        (fun id hid ↦ ?_) fun id hid ↦ ?_
      · obtain rfl : taskID = id := by simpa using hid
        exact h.names i taskID (Or.inl hpc)
      · rcases h.accounted id hid with ⟨k, hown⟩ | hold
        · by_cases hk : k = i
          · subst hk
            obtain rfl : taskID = id := by simpa [Owns, hpc] using hown
            exact Or.inl ⟨k, Or.inr (by simp [setDispatcher])⟩
          · refine Or.inl ⟨k, ?_⟩
            simpa [Owns, setDispatcher, setStep, Function.update_of_ne hk] using hown
        · exact Or.inr hold
    · exact absurd hs (by simp)

/-- `dispatchStep` gives up a step only when its task is handled. -/
theorem CancelInv.wait {a : PlanAction} (h : CancelInv p) (hs : planStep p a = some p')
    (ha : (∃ i, a = .waitCancelled i) ∨ ∃ i read, a = .waitEnds i read) : CancelInv p' := by
  rcases ha with ⟨i, rfl⟩ | ⟨i, read, rfl⟩
  · simp only [planStep, PlanExecution.waitCancelled] at hs
    split at hs
    · rename_i taskID hpc
      split at hs
      · split at hs
        · rename_i hctx
          obtain rfl := Option.some.inj hs
          refine h.finish hpc ?_ _ _
          rcases h.signalled hctx i with hset | ⟨id, hwait, hid⟩
          · rw [hpc] at hset
            exact absurd hset (by simp [DispatchPC.isSettled])
          · obtain rfl : taskID = id := DispatchPC.waiting.inj (hpc.symm.trans hwait)
            exact hid.resolve_left (by simp)
        · exact absurd hs (by simp)
      · exact absurd hs (by simp)
    · exact absurd hs (by simp)
  · simp only [planStep, PlanExecution.waitEnds] at hs
    split at hs
    · rename_i taskID hpc
      split at hs
      · rename_i task htask
        split at hs
        · rename_i hterm
          obtain rfl := Option.some.inj hs
          exact h.finish hpc (Or.inl ⟨task, htask, hterm⟩) _ _
        · exact absurd hs (by simp)
      · exact absurd hs (by simp)
    · exact absurd hs (by simp)

theorem CancelInv.updateTask {taskID : String} {task' : RuntimeTask} (h : CancelInv p)
    (hs : p.updateTask taskID task' = some p') : CancelInv p' := by
  rw [PlanExecution.updateTask] at hs
  split at hs
  · rename_i task htask
    split at hs
    · exact absurd hs (by simp)
    · rename_i hstays
      obtain rfl := Option.some.inj hs
      have hh : ∀ id, Handled p id →
          Handled { p with tasks := Function.update p.tasks taskID (some task') } id := by
        rintro id (⟨x, hx, hterm⟩ | hcalled)
        · by_cases hid : id = taskID
          · subst hid
            obtain rfl : task = x := Option.some.inj (htask.symm.trans hx)
            exact Or.inl ⟨task', by simp, by simpa [hterm] using hstays⟩
          · exact Or.inl ⟨x, by simpa [Function.update_of_ne hid] using hx, hterm⟩
        · exact Or.inr hcalled
      refine h.mono rfl h.settled (fun id hnone ↦ ?_) hh
        (fun ids hmem i ↦ (h.sweeps ids hmem i).mono rfl (fun _ ↦ Or.inl) hh)
        (fun hctx i ↦ (h.signalled hctx i).mono rfl (fun _ ↦ Or.inl) hh) h.ended
      have hid : id ≠ taskID := by
        rintro rfl
        rw [htask] at hnone
        exact absurd hnone (by simp)
      simpa [Function.update_of_ne hid] using hnone
  · exact absurd hs (by simp)

/-! ## `CancelExecution` -/

/-- A recorded task is among the ids that are read. -/
theorem mem_runtimeTaskIDs {i : ℕ} {taskID : String} (hi : i ∈ List.range p.assignments.length)
    (hpc : p.dispatcher i = .waiting taskID) (hrec : p.isRecorded i = true)
    (hname : taskID ≠ "" ∧ trimSpace taskID = taskID) : taskID ∈ p.runtimeTaskIDs := by
  rw [isRecorded, hpc] at hrec
  obtain ⟨hid, hterm⟩ : (p.stepStatuses (p.stepID i)).runtimeTaskID = taskID ∧
      (p.stepStatuses (p.stepID i)).status.isTerminal = false := by simpa using hrec
  have hmem : p.stepID i ∈ (p.assignments.map (·.taskID)).dedup := by
    have hlt : i < p.assignments.length := List.mem_range.mp hi
    rw [List.mem_dedup, stepID, List.getElem?_eq_getElem hlt]
    exact List.mem_map.mpr ⟨_, List.getElem_mem hlt, rfl⟩
  rw [runtimeTaskIDs, List.mem_dedup, List.mem_filterMap]
  refine ⟨p.stepID i, hmem, ?_⟩
  simp [hid, hname.2, hname.1, hterm]

theorem CancelInv.cancelSweep (h : CancelInv p) (hok : SweepsAll p .cancelSweep)
    (hs : p.cancelSweep = some p') : CancelInv p' := by
  rw [PlanExecution.cancelSweep] at hs
  split at hs
  · obtain rfl := Option.some.inj hs
    refine h.mono rfl h.settled (fun _ hnone ↦ hnone) (fun _ hh ↦ hh) (fun ids hmem i ↦ ?_)
      h.signalled h.ended
    rcases List.mem_cons.mp hmem with heq | hmem
    · obtain rfl := Canceller.cancelling.inj heq
      rcases h.settled i with hset | ⟨order, -, hgroup⟩
      · exact Or.inl hset
      · have hi := lt_of_mem_orderGroup hgroup
        have hrec := hok i hi
        cases hpc : p.dispatcher i with
        | idle | returned err => exact Or.inl (by simp [hpc, DispatchPC.isSettled])
        | waiting taskID =>
          exact Or.inr ⟨taskID, hpc,
            Or.inl (mem_runtimeTaskIDs hi hpc hrec (h.names i taskID (Or.inr hpc)))⟩
        | launched | starting | created id => simp [isRecorded, hpc] at hrec
    · exact h.sweeps ids (List.mem_of_mem_erase hmem) i
  · exact absurd hs (by simp)

theorem CancelInv.cancelNext {taskIDs : List String} {taskID : String} (h : CancelInv p)
    (hs : p.cancelNext taskIDs taskID = some p') : CancelInv p' := by
  rw [PlanExecution.cancelNext] at hs
  split at hs
  · rename_i hg
    obtain rfl := Option.some.inj hs
    have hcalled : ∀ id, p.cancelCalled id = true →
        Function.update p.cancelCalled taskID true id = true := by
      intro id hc
      by_cases hid : id = taskID
      · simp [hid]
      · simpa [Function.update_of_ne hid] using hc
    refine h.mono rfl h.settled (fun _ hnone ↦ hnone)
      (fun id hh ↦ hh.imp (fun ht ↦ ht) (hcalled id)) (fun ids hmem i ↦ ?_)
      (fun hctx i ↦ (h.signalled hctx i).mono rfl (fun _ ↦ Or.inl)
        fun id hh ↦ hh.imp (fun ht ↦ ht) (hcalled id)) h.ended
    rcases List.mem_cons.mp hmem with heq | hmem
    · obtain rfl := Canceller.cancelling.inj heq
      refine (h.sweeps taskIDs hg.1 i).mono rfl (fun id hid ↦ ?_)
        fun id hh ↦ hh.imp (fun ht ↦ ht) (hcalled id)
      by_cases hne : id = taskID
      · exact Or.inr (Or.inr (by simp [callCancel, hne]))
      · exact Or.inl ((List.mem_erase_of_ne hne).mpr hid)
    · exact (h.sweeps ids (List.mem_of_mem_erase hmem) i).mono rfl (fun _ ↦ Or.inl)
        fun id hh ↦ hh.imp (fun ht ↦ ht) (hcalled id)
  · exact absurd hs (by simp)

theorem CancelInv.canceller {a : PlanAction} (h : CancelInv p) (hok : SweepsAll p a)
    (hs : planStep p a = some p')
    (ha : a = .cancelExecution ∨ a = .cancelSignal ∨ a = .parentDone) : CancelInv p' := by
  rcases ha with rfl | rfl | rfl
  · simp only [planStep, PlanExecution.cancelExecution] at hs
    split at hs
    · obtain rfl := Option.some.inj hs
      refine h.mono rfl h.settled (fun _ hnone ↦ hnone) (fun _ hh ↦ hh) (fun ids hmem i ↦ ?_)
        h.signalled h.ended
      rcases List.mem_cons.mp hmem with heq | hmem
      · exact absurd heq (by simp)
      · exact h.sweeps ids hmem i
    · exact absurd hs (by simp)
  · simp only [planStep, PlanExecution.cancelSignal] at hs
    split at hs
    · rename_i hmem
      obtain rfl := Option.some.inj hs
      exact h.mono rfl h.settled (fun _ hnone ↦ hnone) (fun _ hh ↦ hh)
        (fun ids hids ↦ h.sweeps ids (List.mem_of_mem_erase hids)) (fun _ ↦ h.sweeps [] hmem)
        h.ended
    · exact absurd hs (by simp)
  · obtain rfl := Option.some.inj hs
    refine h.mono rfl h.settled (fun _ hnone ↦ hnone) (fun _ hh ↦ hh) h.sweeps (fun _ i ↦ Or.inl ?_)
      h.ended
    rcases h.settled i with hset | ⟨order, -, hgroup⟩
    · exact hset
    · exact hok i (lt_of_mem_orderGroup hgroup)

/-! ## Every run -/

theorem cancelInv_step {a : PlanAction} (h : CancelInv p) (hok : SweepsAll p a)
    (hs : planStep p a = some p') : CancelInv p' := by
  cases a with
  | load failure => exact h.runner hs (Or.inl ⟨failure, rfl⟩)
  | check => exact h.runner hs (Or.inr (Or.inl rfl))
  | launch => exact h.launch hok hs
  | collect => exact h.collect hs
  | runnerSweep => exact h.runner hs (Or.inr (Or.inr (Or.inl rfl)))
  | runnerCancel taskID => exact h.runner hs (Or.inr (Or.inr (Or.inr (Or.inl ⟨taskID, rfl⟩))))
  | runnerCancelled => exact h.runner hs (Or.inr (Or.inr (Or.inr (Or.inr rfl))))
  | begin i => exact h.dispatchStep hs (Or.inl ⟨i, rfl⟩)
  | startFails i err => exact h.dispatchStep hs (Or.inr (Or.inl ⟨i, err, rfl⟩))
  | createTask i taskID => exact h.dispatchStep hs (Or.inr (Or.inr (Or.inl ⟨i, taskID, rfl⟩)))
  | recordTask i => exact h.dispatchStep hs (Or.inr (Or.inr (Or.inr ⟨i, rfl⟩)))
  | waitCancelled i => exact h.wait hs (Or.inl ⟨i, rfl⟩)
  | waitEnds i read => exact h.wait hs (Or.inr ⟨i, read, rfl⟩)
  | updateTask taskID task => exact h.updateTask hs
  | cancelExecution => exact h.canceller hok hs (Or.inl rfl)
  | cancelSweep => exact h.cancelSweep hok hs
  | cancelNext taskIDs taskID => exact h.cancelNext hs
  | cancelSignal => exact h.canceller hok hs (Or.inr (Or.inl rfl))
  | parentDone => exact h.canceller hok hs (Or.inr (Or.inr rfl))

theorem cancelInv_init (h : Prepared p) : CancelInv p := by
  obtain ⟨assignments, rfl⟩ := h
  exact ⟨fun _ ↦ Or.inl rfl, by simp [Owns], by simp, by simp, by simp, by simp⟩

/-- **A cancelled plan leaves no task running**: every task created for it has come to an end or was
cancelled, in every run in which the steps are read when they are all recorded and nothing is
started after that. -/
theorem cancelledPlan_leaves_nothing (h : Reachable planStep SweepsAll Prepared p)
    (hstatus : p.status = .cancelled) : ∀ taskID task, p.tasks taskID = some task →
      task.status.isTerminal = true ∨ p.cancelCalled taskID = true := by
  intro taskID task htask
  have hinv : CancelInv p := h.invariant (fun _ ↦ cancelInv_init) fun _ _ _ _ hI hok hs ↦
    cancelInv_step hI hok hs
  have hset := hinv.all_settled fun order ↦ by simp [hinv.ended hstatus]
  rcases hinv.accounted taskID (by simp [htask]) with ⟨i, hown⟩ | ⟨x, hx, hterm⟩ | hcalled
  · exact absurd hown (not_owns_of_settled (hset i))
  · obtain rfl : task = x := Option.some.inj (htask.symm.trans hx)
    exact Or.inl hterm
  · exact Or.inr hcalled

/-! ## A plan of one task -/

/-- A plan with one task for one robot. -/
def oneTaskExecution : PlanExecution where
  assignments := [{
    taskID := "task", taskName := "task", behaviorTreeID := "tree", stepID := "step"
    stepName := "step", agentID := "robot", agentName := "robot", order := 0, reason := ""
    runtimeParams := ∅, resultStates := [], warningResultStates := [], errorResultStates := []
    warningMessageVariable := "", errorMessageVariable := "" }]

theorem prepared_oneTaskExecution : Prepared oneTaskExecution := ⟨_, rfl⟩

/-- The group is started, and its step marked running. -/
def startGroup : List PlanAction := [.load none, .check, .launch, .begin 0]

/-- `runPlanExecution` collects the group and ends with the status `cancelled`. -/
def endCancelled : List PlanAction := [.collect, .runnerSweep, .runnerCancelled]

/-- The plan is cancelled while its goroutine waits for the task. -/
theorem waitingPlan_leaves_nothing : ∃ p, Reachable planStep SweepsAll Prepared p ∧
    p.status = .cancelled ∧ p.tasks "run" = some ⟨.pending, ""⟩ ∧ ∀ taskID task,
      p.tasks taskID = some task →
        task.status.isTerminal = true ∨ p.cancelCalled taskID = true := by
  obtain ⟨p, hp, hstatus, htask⟩ := exists_reachable_of_run planStep SweepsAll
    prepared_oneTaskExecution
    (startGroup ++ [.createTask 0 "run", .recordTask 0, .cancelExecution, .cancelSweep,
      .cancelNext ["run"] "run", .cancelSignal, .waitCancelled 0] ++ endCancelled)
    (P := fun p ↦ p.status = .cancelled ∧ p.tasks "run" = some ⟨.pending, ""⟩) (by decide)
  exact ⟨p, hp, hstatus, htask, cancelledPlan_leaves_nothing hp hstatus⟩

/-- **A task can be created after the steps were read**: the plan is cancelled while `StartTask` is
under way, and its task is left to run. -/
theorem startingPlan_leaves_task : ∃ p, Reachable planStep (fun _ _ ↦ True) Prepared p ∧
    p.status = .cancelled ∧ p.tasks "run" = some ⟨.pending, ""⟩ ∧ p.cancelCalled "run" = false ∧
      p.cancellers = [] ∧ p.runner = .done :=
  exists_reachable_of_run planStep _ prepared_oneTaskExecution
    (startGroup ++ [.cancelExecution, .cancelSweep, .cancelSignal, .createTask 0 "run",
      .recordTask 0, .waitCancelled 0] ++ endCancelled) (by decide)

end Executor
end FleetServer
