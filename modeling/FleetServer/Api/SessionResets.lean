import Mathlib.Data.List.Sort
import FleetServer.Api.RealtimeEffects
import FleetServer.Lib.Run

/-!
# Resetting variables of a session

`ResetSessionState` of `internal/api/realtime_pddl.go` writes values into the state of a session,
under its lock.  The tick of the session writes the state as well (`syncExecutions`): it copies the
state under the lock, applies the effects of the executions that are over to the copy, and stores
the copy under the lock.  A reset that comes in between is overwritten.

`resets_kept` says that nothing else can happen to a reset: where no tick stores an older value of a
variable that was reset after it copied the state, every reset stays until an effect of a step
writes the variable.

`written`, `resetSince` and `lastReset` are kept for the statement and read by no step: the
variables that the effects of the tick have written, those that were reset since it copied the
state, and the value each variable was last reset to, if no effect was stored since.
-/

set_option autoImplicit false

namespace FleetServer
namespace Api

open GoString Pddl Executor

/-! ## The session -/

/-- An execution the session has started. -/
structure ExecutionContext where
  executionID : String
  plan : Option (List TaskAssignment)
  startedAt : ℕ

/-- What the tick reads of an execution. -/
structure ExecutionSnapshot where
  status : PlanExecutionStatus
  steps : List StepStatusSnapshot

/-- Where `syncExecutions` is. -/
inductive SyncPC
  | idle
  /-- The executions are listed; the state is not copied yet. -/
  | listed (executions : List ExecutionContext)
  /-- With the copy, the executions still to be read, and those that are still running. -/
  | applying (nextState : PlanningState) (executions remaining : List ExecutionContext)

structure Session where
  currentState : PlanningState := fun _ ↦ none
  activeExecutions : List ExecutionContext := []
  sync : SyncPC := .idle
  written : List String := []
  resetSince : List String := []
  lastReset : PlanningState := fun _ ↦ none

/-! ## `ResetSessionState` -/

/-- `normalizeRuntimeStateValues`: of two keys that are the same once they are trimmed, the one that
the loop over the map meets last counts. -/
def normalizeRuntimeStateValues (order : RangeOrder (Σ _ : String, String)) (values : StringMap) :
    List (String × String) :=
  ((order.range values.entries).filter fun entry ↦ trimSpace entry.1 ≠ "").map fun entry ↦
    (trimSpace entry.1, trimSpace entry.2)

def assignValues (state : PlanningState) (values : List (String × String)) : PlanningState :=
  values.foldl (fun state entry ↦ Function.update state entry.1 (some entry.2)) state

namespace Session

variable (s : Session)

def resetSessionState (order : RangeOrder (Σ _ : String, String)) (values : StringMap) :
    Except String Session :=
  let normalizedValues := normalizeRuntimeStateValues order values
  if normalizedValues = [] then .error "values is required"
  else .ok { s with
    currentState := assignValues s.currentState normalizedValues
    resetSince := normalizedValues.map Prod.fst ++ s.resetSince
    lastReset := assignValues s.lastReset normalizedValues }

/-! ## `syncExecutions` -/

def startedBefore (a b : ExecutionContext) : Prop :=
  a.startedAt < b.startedAt ∨ a.startedAt = b.startedAt ∧ a.executionID ≤ b.executionID

instance (a b : ExecutionContext) : Decidable (startedBefore a b) :=
  inferInstanceAs (Decidable (_ ∨ _ ∧ _))

/-- The executions are copied; with none the tick has nothing to do. -/
def listExecutions : Option Session :=
  match s.sync with
  | .idle =>
    if s.activeExecutions = [] then some s
    else some { s with sync := .listed (s.activeExecutions.insertionSort startedBefore) }
  | _ => none

/-- The state is copied. -/
def copyState : Option Session :=
  match s.sync with
  | .listed executions =>
    some { s with sync := .applying s.currentState executions [], written := [], resetSince := [] }
  | _ => none

/-- The plan whose effects are applied, with the steps, when the execution is over. -/
def finishedPlan (execution : ExecutionContext) (snapshot : Option ExecutionSnapshot) :
    Option (List TaskAssignment × List StepStatusSnapshot) :=
  if trimSpace execution.executionID = "" then none
  else match snapshot with
    | none => none
    | some snapshot =>
      match snapshot.status with
      | .pending | .running => none
      | .completed | .failed | .cancelled => execution.plan.map (·, snapshot.steps)

/-- The execution is kept. -/
def stillRunning (execution : ExecutionContext) (snapshot : Option ExecutionSnapshot) : Bool :=
  trimSpace execution.executionID ≠ "" &&
    snapshot.any fun snapshot ↦ snapshot.status = .pending || snapshot.status = .running

/-- The variables the effects of a plan write. -/
def effectVariables (assignments : List TaskAssignment) (steps : List StepStatusSnapshot) :
    List String :=
  assignments.flatMap fun assignment ↦
    ((stepByTaskID steps (trimSpace assignment.taskID)).map fun step ↦
      (realtimePlanningEffectsForStep assignment step).map (trimSpace ·.var)).getD []

/-- The next execution is read; there is no snapshot when the executor does not know it. -/
def readExecution (snapshot : Option ExecutionSnapshot) : Option Session :=
  match s.sync with
  | .applying nextState (execution :: executions) remaining =>
    let remaining :=
      if stillRunning execution snapshot then remaining ++ [execution] else remaining
    match finishedPlan execution snapshot with
    | none => some { s with sync := .applying nextState executions remaining }
    | some (assignments, steps) => some { s with
        sync := .applying (applyRealtimeExecutionEffects nextState assignments steps) executions
          remaining
        written := effectVariables assignments steps ++ s.written }
  | _ => none

/-- The copy is stored. -/
def storeState : Option Session :=
  match s.sync with
  | .applying nextState [] remaining => some { s with
      currentState := nextState
      activeExecutions := remaining
      sync := .idle
      lastReset := fun v ↦ if v ∈ s.written then none else s.lastReset v }
  | _ => none

/-! ## What else the tick does -/

/-- The tick starts executions, or the session is stopped. -/
def setExecutions (executions : List ExecutionContext) : Session :=
  { s with activeExecutions := executions }

/-- `sessionMergedState`, after the tick has stored its copy: where it reconciles reservations, the
variables of the session take the values they have when live values are merged in. -/
def mergeLive (merged : String → String) : Option Session :=
  match s.sync with
  | .idle => some { s with currentState := fun v ↦ (s.currentState v).map fun _ ↦ merged v }
  | _ => none

end Session

/-! ## The system -/

inductive SessionAction
  | reset (order : RangeOrder (Σ _ : String, String)) (values : StringMap)
  | listExecutions
  | copyState
  | readExecution (snapshot : Option ExecutionSnapshot)
  | storeState
  | setExecutions (executions : List ExecutionContext)
  | mergeLive (merged : String → String)

/-- One step of a session.  A reset that is refused changes nothing. -/
def sessionStep (s : Session) : SessionAction → Option Session
  | .reset order values =>
    match s.resetSessionState order values with
    | .ok s' => some s'
    | .error _ => some s
  | .listExecutions => s.listExecutions
  | .copyState => s.copyState
  | .readExecution snapshot => s.readExecution snapshot
  | .storeState => s.storeState
  | .setExecutions executions => some (s.setExecutions executions)
  | .mergeLive merged => s.mergeLive merged

/-- A session whose tick has not begun, before any reset. -/
def NewSession (s : Session) : Prop := s.sync = .idle ∧ ∀ v, s.lastReset v = none

/-! ## What should hold -/

/-- Every variable has the value it was last reset to, unless an effect has written it since. -/
def NoResetLost (s : Session) : Prop :=
  ∀ v value, s.lastReset v = some value → s.currentState v = some value

/-- No tick stores an older value of a variable that was reset since it copied the state, and
merging live values changes no variable that was reset. -/
def KeepsResets (s : Session) : SessionAction → Prop
  | .storeState =>
    match s.sync with
    | .applying nextState _ _ =>
      ∀ v ∈ s.resetSince, v ∉ s.written → nextState v = s.currentState v
    | _ => True
  | .mergeLive merged => ∀ v value, s.lastReset v = some value → merged v = value
  | _ => True

/-! ## Writing values -/

theorem assignValues_cons (state : PlanningState) (entry : String × String)
    (rest : List (String × String)) : assignValues state (entry :: rest) =
      assignValues (Function.update state entry.1 (some entry.2)) rest := rfl

theorem assignValues_of_not_mem {values : List (String × String)} {v : String}
    (h : v ∉ values.map Prod.fst) (state : PlanningState) :
    assignValues state values v = state v := by
  induction values generalizing state with
  | nil => rfl
  | cons entry rest ih =>
    rw [List.map_cons, List.mem_cons, not_or] at h
    rw [assignValues_cons, ih h.2, Function.update_of_ne h.1]

/-- What is assigned does not depend on the state before. -/
theorem assignValues_of_mem {values : List (String × String)} {v : String}
    (h : v ∈ values.map Prod.fst) (state state' : PlanningState) :
    assignValues state values v = assignValues state' values v := by
  induction values generalizing state state' with
  | nil => exact absurd h (by simp)
  | cons entry rest ih =>
    rw [assignValues_cons, assignValues_cons]
    by_cases hrest : v ∈ rest.map Prod.fst
    · exact ih hrest _ _
    · obtain rfl : v = entry.1 := by
        rw [List.map_cons, List.mem_cons] at h
        exact h.resolve_right hrest
      rw [assignValues_of_not_mem hrest, assignValues_of_not_mem hrest, Function.update_self,
        Function.update_self]

/-- A value that is assigned is not taken away. -/
theorem assignValues_ne_none {values : List (String × String)} {v : String}
    (h : v ∈ values.map Prod.fst) (state : PlanningState) : assignValues state values v ≠ none := by
  induction values generalizing state with
  | nil => exact absurd h (by simp)
  | cons entry rest ih =>
    rw [assignValues_cons]
    by_cases hrest : v ∈ rest.map Prod.fst
    · exact ih hrest _
    · obtain rfl : v = entry.1 := by
        rw [List.map_cons, List.mem_cons] at h
        exact h.resolve_right hrest
      rw [assignValues_of_not_mem hrest, Function.update_self]
      simp

theorem applyEffects_of_not_mem {assignments : List TaskAssignment}
    {steps : List StepStatusSnapshot} {v : String}
    (h : v ∉ Session.effectVariables assignments steps) (state : PlanningState) :
    applyRealtimeExecutionEffects state assignments steps v = state v := by
  rw [applyRealtimeExecutionEffects]
  induction assignments generalizing state with
  | nil => rfl
  | cons assignment rest ih =>
    rw [Session.effectVariables, List.flatMap_cons, List.mem_append, not_or] at h
    rw [List.foldl_cons, ih h.2]
    cases hstep : stepByTaskID steps (trimSpace assignment.taskID) with
    | none => rfl
    | some step =>
      rw [hstep, Option.map_some, Option.getD_some] at h
      have hnone : sessionEffects (realtimePlanningEffectsForStep assignment step) v = none := by
        by_contra hwritten
        obtain ⟨-, effect, hmem, heffect⟩ := sessionEffects_ne_none.mp hwritten
        exact h.1 (List.mem_map.mpr ⟨effect, hmem, heffect⟩)
      simp only [foldl_writeEffect, updatePlanningState, hnone, Option.none_or]

/-! ## The invariant -/

variable {s s' : Session}

structure SessionInv (s : Session) : Prop where
  /-- No reset is lost so far. -/
  kept : NoResetLost s
  /-- The copy differs from the state in variables that were reset or written since. -/
  copied : ∀ nextState executions remaining, s.sync = .applying nextState executions remaining →
    ∀ v, v ∉ s.resetSince → v ∉ s.written → nextState v = s.currentState v
  /-- What was reset since the copy has a value. -/
  reset : ∀ nextState executions remaining, s.sync = .applying nextState executions remaining →
    ∀ v ∈ s.resetSince, s.lastReset v ≠ none

theorem SessionInv.resetSessionState (hI : SessionInv s)
    {order : RangeOrder (Σ _ : String, String)} {values : StringMap}
    (h : s.resetSessionState order values = .ok s') : SessionInv s' := by
  rw [Session.resetSessionState] at h
  split at h
  · exact absurd h (by simp)
  · obtain rfl := Except.ok.inj h
    let assigned := (normalizeRuntimeStateValues order values).map Prod.fst
    refine ⟨fun v value hv ↦ ?_, fun nextState executions remaining hsync v hv hw ↦ ?_,
      fun nextState executions remaining hsync v hv ↦ ?_⟩
    · by_cases hmem : v ∈ assigned
      · exact (assignValues_of_mem hmem _ _).trans hv
      · dsimp only at hv ⊢
        rw [assignValues_of_not_mem hmem] at hv ⊢
        exact hI.kept v value hv
    · rw [List.mem_append, not_or] at hv
      dsimp only
      rw [assignValues_of_not_mem hv.1]
      exact hI.copied nextState executions remaining hsync v hv.2 hw
    · by_cases hmem : v ∈ assigned
      · exact assignValues_ne_none hmem _
      · dsimp only
        rw [assignValues_of_not_mem hmem]
        exact hI.reset nextState executions remaining hsync v
          ((List.mem_append.mp hv).resolve_left hmem)

theorem SessionInv.readExecution (hI : SessionInv s) {snapshot : Option ExecutionSnapshot}
    (h : s.readExecution snapshot = some s') : SessionInv s' := by
  rw [Session.readExecution] at h
  split at h
  · rename_i nextState execution executions remaining hsync
    dsimp only at h
    split at h
    · obtain rfl := Option.some.inj h
      refine ⟨hI.kept, fun next' executions' remaining' heq v hv hw ↦ ?_,
        fun _ _ _ _ v hv ↦ hI.reset _ _ _ hsync v hv⟩
      obtain ⟨rfl, -, -⟩ := SyncPC.applying.inj heq
      exact hI.copied _ _ _ hsync v hv hw
    · rename_i assignments steps hfinished
      obtain rfl := Option.some.inj h
      refine ⟨hI.kept, fun next' executions' remaining' heq v hv hw ↦ ?_,
        fun _ _ _ _ v hv ↦ hI.reset _ _ _ hsync v hv⟩
      obtain ⟨rfl, -, -⟩ := SyncPC.applying.inj heq
      rw [List.mem_append, not_or] at hw
      rw [applyEffects_of_not_mem hw.1]
      exact hI.copied _ _ _ hsync v hv hw.2
  · exact absurd h (by simp)

/-- **Storing the copy loses no reset exactly when it stores no older value.** -/
theorem noResetLost_storeState_iff (hI : SessionInv s) (h : s.storeState = some s') :
    NoResetLost s' ↔ KeepsResets s .storeState := by
  rw [Session.storeState] at h
  split at h
  · rename_i nextState remaining hsync
    obtain rfl := Option.some.inj h
    rw [KeepsResets, hsync]
    constructor
    · intro hkept v hv hw
      obtain ⟨value, hvalue⟩ := Option.ne_none_iff_exists'.mp (hI.reset _ _ _ hsync v hv)
      rw [hI.kept v value hvalue]
      exact hkept v value ((if_neg hw).trans hvalue)
    · intro hkeeps v value hv
      dsimp only at hv ⊢
      split at hv
      · exact absurd hv (by simp)
      · rename_i hw
        rw [← hI.kept v value hv]
        by_cases hreset : v ∈ s.resetSince
        · exact hkeeps v hreset hw
        · exact hI.copied _ _ _ hsync v hreset hw
  · exact absurd h (by simp)

theorem SessionInv.storeState (hI : SessionInv s) (hok : KeepsResets s .storeState)
    (h : s.storeState = some s') : SessionInv s' := by
  have hkept := (noResetLost_storeState_iff hI h).mpr hok
  rw [Session.storeState] at h
  split at h
  · obtain rfl := Option.some.inj h
    exact ⟨hkept, fun _ _ _ heq ↦ absurd heq (by simp), fun _ _ _ heq ↦ absurd heq (by simp)⟩
  · exact absurd h (by simp)

/-- **What a step preserves.** -/
theorem SessionInv.step (hI : SessionInv s) {a : SessionAction} (hok : KeepsResets s a)
    (h : sessionStep s a = some s') : SessionInv s' := by
  cases a with
  | reset order values =>
    rw [sessionStep] at h
    split at h
    · rename_i hreset
      obtain rfl := Option.some.inj h
      exact hI.resetSessionState hreset
    · rwa [← Option.some.inj h]
  | listExecutions =>
    rw [sessionStep, Session.listExecutions] at h
    split at h
    · split at h
      · rwa [← Option.some.inj h]
      · obtain rfl := Option.some.inj h
        exact ⟨hI.kept, fun _ _ _ heq ↦ absurd heq (by simp), fun _ _ _ heq ↦ absurd heq (by simp)⟩
    · exact absurd h (by simp)
  | copyState =>
    rw [sessionStep, Session.copyState] at h
    split at h
    · obtain rfl := Option.some.inj h
      refine ⟨hI.kept, fun _ _ _ heq v _ _ ↦ ?_, fun _ _ _ _ v hv ↦ absurd hv (by simp)⟩
      rw [(SyncPC.applying.inj heq).1]
    · exact absurd h (by simp)
  | readExecution snapshot => exact hI.readExecution h
  | storeState => exact hI.storeState hok h
  | setExecutions executions =>
    obtain rfl := Option.some.inj h
    exact ⟨hI.kept, hI.copied, hI.reset⟩
  | mergeLive merged =>
    rw [sessionStep, Session.mergeLive] at h
    split at h
    · rename_i hidle
      obtain rfl := Option.some.inj h
      refine ⟨fun v value hv ↦ ?_, fun _ _ _ heq ↦ ?_, fun _ _ _ heq ↦ ?_⟩
      · dsimp only
        rw [hI.kept v value hv, hok v value hv]
        rfl
      · exact absurd (hidle.symm.trans heq) (by simp)
      · exact absurd (hidle.symm.trans heq) (by simp)
    · exact absurd h (by simp)

/-- **No reset is lost** in a run in which no tick stores an older value of a variable that was
reset since it copied the state. -/
theorem resets_kept (h : GuardedRun.Reachable sessionStep KeepsResets NewSession s) :
    NoResetLost s := by
  refine (h.invariant (I := SessionInv) (fun s hnew ↦ ?_) fun s a s' _ hI hok hstep ↦
    hI.step hok hstep).kept
  refine ⟨fun v value hv ↦ ?_, fun _ _ _ heq ↦ ?_, fun _ _ _ heq ↦ ?_⟩
  · exact absurd ((hnew.2 v).symm.trans hv) (by simp)
  · exact absurd (hnew.1.symm.trans heq) (by simp)
  · exact absurd (hnew.1.symm.trans heq) (by simp)

/-! ## A door that is reset -/

theorem newSession_empty : NewSession {} := ⟨rfl, fun _ ↦ rfl⟩

def drive : ExecutionContext := ⟨"execution", none, 0⟩

def resetDoor : SessionAction := .reset (.asListed _) ((∅ : StringMap).insert " door" "closed")

/-- The session keeps the value of a door through a tick that copied the state later. -/
theorem doorReset_kept : ∃ s, GuardedRun.Reachable sessionStep KeepsResets NewSession s ∧
    s.lastReset "door" = some "closed" ∧ s.sync = .idle ∧ NoResetLost s := by
  have hnew : GuardedRun.Reachable sessionStep KeepsResets NewSession {} := .start newSession_empty
  have hstarted := hnew.next (a := .setExecutions [drive]) (by trivial) rfl
  have hreset := hstarted.next (a := resetDoor) (by trivial) rfl
  have hlisted := hreset.next (a := .listExecutions) (by trivial) rfl
  have hcopied := hlisted.next (a := .copyState) (by trivial) rfl
  have hread := hcopied.next (a := .readExecution (some ⟨.running, []⟩)) (by trivial) rfl
  have hstored := hread.next (a := .storeState)
    (by intro v hv; exact absurd hv List.not_mem_nil) rfl
  exact ⟨_, hstored, by decide, rfl, resets_kept hstored⟩

/-- **A reset between the copy and the store is lost.** -/
theorem doorReset_lost : ∃ s, GuardedRun.Reachable sessionStep (fun _ _ ↦ True) NewSession s ∧
    s.lastReset "door" = some "closed" ∧ s.currentState "door" = none ∧ ¬ NoResetLost s := by
  obtain ⟨s, hs, hreset, hstate⟩ := GuardedRun.exists_reachable_of_run sessionStep
    (fun _ _ ↦ True) newSession_empty
    [.setExecutions [drive], .listExecutions, .copyState, resetDoor,
      .readExecution (some ⟨.running, []⟩), .storeState]
    (P := fun s ↦ s.lastReset "door" = some "closed" ∧ s.currentState "door" = none) (by decide)
  refine ⟨s, hs, hreset, hstate, fun hkept ↦ ?_⟩
  exact absurd (hstate.symm.trans (hkept "door" "closed" hreset)) (by simp)

end Api
end FleetServer
