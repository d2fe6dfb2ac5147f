import FleetServer.Grpc.AgentMessages
import FleetServer.Lib.GoString
import FleetServer.Lib.Run
import FleetServer.State.OverrideSources

/-!
# The overrides of a running graph

While an agent runs a step of a graph, `updateGraphStateOverrides` and `clearGraphStateOverrides` of
`internal/grpc/raw_quic_handler.go` give the targets of the step an override whose source is the
execution.  Each message about an execution has a handler of its own.  It takes a lock twice: to put
the step in the place of the one before, and, when the overrides are set, to record who has got one.
What was recorded for the step before is cleared in between, and the manager is called robot by
robot.

`overrides_settled` says in which runs the overrides of an execution are those of its last step once
its handlers are done: when no other step takes the place of one whose overrides are not recorded
yet, and no step comes after the end.
-/

set_option autoImplicit false

namespace FleetServer
namespace Grpc

open GuardedRun State GoString

/-! ## The targets of a step -/

structure StateTarget where
  state : String
  targetType : String := ""
  agentID : String := ""
  deriving DecidableEq

/-- A step of a behavior tree, as far as it is read here. -/
structure DuringStep where
  id : String
  duringStates : List String := []
  duringStateTargets : List StateTarget := []
  deriving DecidableEq

def normalizeStateTargetsForOverrides (targets : List StateTarget) (fallbackStates : List String) :
    List StateTarget :=
  if targets ≠ [] then targets
  else ((fallbackStates.find? (· ≠ "")).map fun state ↦ { state, targetType := "self" }).toList

/-- The type of a target, which is "self" when none is given. -/
def StateTarget.kind (target : StateTarget) : String :=
  if toLower target.targetType = "" then "self" else toLower target.targetType

def orderStateTargetsForOverrides (targets : List StateTarget) : List StateTarget :=
  targets.filter (·.kind = "self") ++
    targets.filter (fun target ↦ target.kind = "agent" ∨ target.kind = "specific") ++
    targets.filter (·.kind = "all") ++
    targets.filter fun target ↦ target.kind ∉ ["self", "agent", "specific", "all"]

/-- `ResolveTargetAgents`.  The robots in the map are among `robotIDs`. -/
def resolveTargetAgents (m : Manager) (robotIDs : List String)
    (executingAgentID targetType targetAgentID : String) : List String :=
  let registered (ids : List String) := ids.filter fun id ↦ (m.robots id).isSome
  if toLower targetType = "all" then registered robotIDs
  else if toLower targetType = "agent" ∨ toLower targetType = "specific" then
    if targetAgentID = "" then [] else registered [targetAgentID]
  else registered [executingAgentID]

/-- `resolveDuringStateOverrides`: the agents and the states they get, the first one for each. -/
def resolveDuringStateOverrides (m : Manager) (robotIDs : List String) (executingAgentID : String)
    (step : DuringStep) : List (String × String) :=
  (orderStateTargetsForOverrides
    (normalizeStateTargetsForOverrides step.duringStateTargets step.duringStates)).foldl
    (fun overrides target ↦
      if target.state = "" then overrides
      else (resolveTargetAgents m robotIDs executingAgentID target.kind target.agentID).foldl
        (fun overrides agentID ↦
          if agentID ∈ overrides.map Prod.fst then overrides
          else overrides ++ [(agentID, target.state)]) overrides) []

/-! ## Calls -/

/-- A call of `updateGraphStateOverrides` or of `clearGraphStateOverrides`. -/
inductive OverrideKind
  | update (graphID agentID stepID : String)
  | clear
  deriving DecidableEq

/-- What a call does next: take the lock for the first time, clear the overrides of the agents that
are left, read the tree, set the overrides that are left, or record those that were set. -/
inductive OverrideStage
  | enter
  | clearing (agentIDs : List String)
  | load
  | applying (todo : List (String × String)) (applied : List String)
  | record (applied : List String)
  deriving DecidableEq

structure OverrideCall where
  executionID : String
  kind : OverrideKind
  stage : OverrideStage := .enter
  deriving DecidableEq

/-- A message about a graph, with the id of the graph. -/
structure GraphStatus extends GraphExecutionStatusMsg where
  graphID : String := ""

/-- The call that `handleGraphStatus` makes. -/
def GraphStatus.overrideCall (status : GraphStatus) : Option OverrideCall :=
  if status.executionID = "" then none
  else if isTerminal (graphTaskStatus status.state) then
    some { executionID := status.executionID, kind := .clear }
  else if status.graphID ≠ "" ∧ status.currentVertexID ≠ "" ∧ status.agentID ≠ "" then
    some { executionID := status.executionID
           kind := .update status.graphID status.agentID status.currentVertexID }
  else none

structure GraphOverrideState where
  stepID : String
  agentIDs : List String := []
  deriving DecidableEq

/-- The handler, with the calls that are under way.  Two things are read by no step: the executions
whose end has been handled, and the last step of an execution with the agents its targets were
resolved to. -/
structure OverrideHandler where
  manager : Manager
  graphOverrides : String → Option GraphOverrideState := fun _ ↦ none
  calls : List OverrideCall := []
  ended : String → Bool := fun _ ↦ false
  targets : String → String × List String := fun _ ↦ ("", [])

namespace OverrideHandler

variable (h : OverrideHandler)

/-- The call goes on, or returns. -/
def move (call : OverrideCall) (next : Option OverrideCall) : OverrideHandler :=
  { h with calls := next.toList ++ h.calls.erase call }

end OverrideHandler

/-- The call goes on with the overrides that are left to clear, or with what it does then. -/
def OverrideCall.clearThen (call : OverrideCall) (agentIDs : List String) : Option OverrideCall :=
  if agentIDs ≠ [] then some { call with stage := .clearing agentIDs }
  else match call.kind with
    | .update .. => some { call with stage := .load }
    | .clear => none

/-- The call goes on with the overrides that are left to set, or with what it does then. -/
def OverrideCall.applyThen (call : OverrideCall) (todo : List (String × String))
    (applied : List String) : Option OverrideCall :=
  if todo ≠ [] then some { call with stage := .applying todo applied }
  else if applied ≠ [] then some { call with stage := .record applied }
  else none

inductive OverrideAction
  | receive (status : GraphStatus)
  | enter (call : OverrideCall)
  | clearOne (now : ℕ) (order : RangeOrder (String × StateOverride)) (call : OverrideCall)
  | load (call : OverrideCall) (steps : Option (List DuringStep))
      (range : RangeOrder (String × String)) (robotIDs : List String)
  | setOne (now : ℕ) (order : RangeOrder (String × StateOverride)) (call : OverrideCall)
  | record (call : OverrideCall)
  | operation (now : ℕ) (op : Manager.Op)

namespace OverrideHandler

variable (h : OverrideHandler) (call : OverrideCall)

/-- The first time the lock is held. -/
def enter : OverrideHandler :=
  let prev := h.graphOverrides call.executionID
  let recorded := (prev.map (·.agentIDs)).getD []
  match call.kind with
  | .update _ _ stepID =>
    if prev.any (·.stepID = stepID) then h.move call none
    else { h.move call (call.clearThen recorded) with
      graphOverrides := Function.update h.graphOverrides call.executionID (some { stepID })
      targets := Function.update h.targets call.executionID (stepID, []) }
  | .clear => { h.move call (call.clearThen recorded) with
      graphOverrides := Function.update h.graphOverrides call.executionID none
      ended := Function.update h.ended call.executionID true }

/-- The tree has been read, or could not be. -/
def load (steps : Option (List DuringStep)) (range : RangeOrder (String × String))
    (robotIDs : List String) (agentID stepID : String) : OverrideHandler :=
  match (steps.getD []).find? (·.id = stepID) with
  | none => h.move call none
  | some step =>
    let overrides := resolveDuringStateOverrides h.manager robotIDs agentID step
    { h.move call (call.applyThen (range.range overrides) []) with
      targets := Function.update h.targets call.executionID (stepID, overrides.map Prod.fst) }

/-- The second time the lock is held. -/
def record (stepID : String) (applied : List String) : OverrideHandler :=
  match h.graphOverrides call.executionID with
  | some current =>
    if current.stepID = stepID then { h.move call none with
      graphOverrides := Function.update h.graphOverrides call.executionID
        (some { current with agentIDs := applied }) }
    else h.move call none
  | none => h.move call none

/-- One step of one of the calls, or an operation of the manager that sets no override. -/
def step : OverrideAction → Option OverrideHandler
  | .receive status =>
    status.overrideCall.map fun call ↦ { h with calls := call :: h.calls }
  | .enter call =>
    if call ∈ h.calls ∧ call.stage = .enter then some (h.enter call) else none
  | .clearOne now order call =>
    match call.stage with
    | .clearing (agentID :: rest) =>
      if call ∈ h.calls then some { h.move call (call.clearThen rest) with
        manager := h.manager.apply now (.clearRobotStateOverride order agentID call.executionID) }
      else none
    | _ => none
  | .load call steps range robotIDs =>
    match call.kind with
    | .update _ agentID stepID =>
      if call ∈ h.calls ∧ call.stage = .load then
        some (h.load call steps range robotIDs agentID stepID)
      else none
    | .clear => none
  | .setOne now order call =>
    match call.stage with
    | .applying ((agentID, state) :: rest) applied =>
      if call ∈ h.calls then
        match h.manager.setRobotStateOverride now order agentID call.executionID state with
        | .ok manager =>
          some { h.move call (call.applyThen rest (applied ++ [agentID])) with manager }
        | .error _ => some (h.move call (call.applyThen rest applied))
      else none
    | _ => none
  | .record call =>
    match call.kind, call.stage with
    | .update _ _ stepID, .record applied =>
      if call ∈ h.calls then some (h.record call stepID applied) else none
    | _, _ => none
  | .operation now op =>
    if op.setsOverride then none else some { h with manager := h.manager.apply now op }

/-- No message has been received, and no robot has an override. -/
def Initial : Prop := ∃ manager : Manager, (∀ agentID, manager.stateOverrides agentID = []) ∧
  h = { manager }

/-! ## What should hold -/

/-- No handler of the execution is running. -/
def Finished (executionID : String) : Prop := ∀ call ∈ h.calls, call.executionID ≠ executionID

/-- The overrides from the execution are those of its current step, and none when it has ended. -/
structure Settled (executionID : String) : Prop where
  ended : h.ended executionID = true →
    ∀ agentID, ¬h.manager.HasOverride agentID executionID
  current : ∀ agentID, h.manager.HasOverride agentID executionID →
    ∃ state, h.graphOverrides executionID = some state ∧
      (h.targets executionID).1 = state.stepID ∧ agentID ∈ (h.targets executionID).2

end OverrideHandler

/-- The call is one of the execution that has put its step in place, and has not recorded its
overrides yet. -/
def OverrideCall.unrecorded (executionID : String) (call : OverrideCall) : Bool :=
  call.executionID = executionID && call.kind ≠ .clear && call.stage ≠ .enter

namespace OverrideHandler

variable (h : OverrideHandler)

/-- The first section of the call leaves the step of its execution in place. -/
def keepsStep (call : OverrideCall) : Bool :=
  match call.kind with
  | .update _ _ stepID => (h.graphOverrides call.executionID).any (·.stepID = stepID)
  | .clear => false

/-- The step of the execution is replaced or removed only when no call for it has still to record
its overrides, and no step is put in place after the end. -/
def inOrder (executionID : String) : OverrideAction → Bool
  | .enter call => call.executionID ≠ executionID || h.keepsStep call ||
      (!h.calls.any (OverrideCall.unrecorded executionID) &&
        (call.kind = .clear || !h.ended executionID))
  | _ => true

end OverrideHandler

variable {h h' : OverrideHandler} {e : String} {call : OverrideCall} {next : Option OverrideCall}

/-! ## The invariant -/

/-- The agents that may have an override the call has to clear or to record. -/
def OverrideStage.mayHold : OverrideStage → List String
  | .clearing agentIDs => agentIDs
  | .applying _ applied => applied
  | .record applied => applied
  | _ => []

/-- The agents that the call sets overrides for. -/
def OverrideStage.aimed : OverrideStage → List String
  | .applying todo applied => todo.map Prod.fst ++ applied
  | .record applied => applied
  | _ => []

/-- A call that removes a step only clears. -/
def OverrideCall.Shaped (call : OverrideCall) : Prop :=
  call.kind = .clear → call.stage = .enter ∨ ∃ agentIDs, call.stage = .clearing agentIDs

structure OverrideInv (e : String) (h : OverrideHandler) : Prop where
  covered : h.manager.Covered
  calls : ∀ call ∈ h.calls, call.executionID ≠ "" ∧ call.Shaped
  single : h.calls.countP (OverrideCall.unrecorded e) ≤ 1
  reserved : ∀ call ∈ h.calls, call.unrecorded e = true → ∃ graphID agentID stepID,
    call.kind = .update graphID agentID stepID ∧ h.graphOverrides e = some { stepID }
  aimed : ∀ call ∈ h.calls, call.unrecorded e = true →
    ∀ a ∈ call.stage.aimed, a ∈ (h.targets e).2
  ended : h.ended e = true → h.graphOverrides e = none
  current : ∀ state, h.graphOverrides e = some state →
    (h.targets e).1 = state.stepID ∧ ∀ a ∈ state.agentIDs, a ∈ (h.targets e).2
  /-- An override is recorded, or a call is about to clear or to record it. -/
  owned : ∀ a, h.manager.HasOverride a e →
    (∃ state, h.graphOverrides e = some state ∧ a ∈ state.agentIDs) ∨
      ∃ call ∈ h.calls, call.executionID = e ∧ a ∈ call.stage.mayHold

theorem unrecorded_iff : call.unrecorded e = true ↔
    call.executionID = e ∧ call.kind ≠ .clear ∧ call.stage ≠ .enter := by
  simp [OverrideCall.unrecorded, and_assoc]

/-- The other calls have recorded their overrides. -/
theorem OverrideInv.recorded_others (hi : OverrideInv e h) (hmem : call ∈ h.calls)
    (hself : call.unrecorded e = true) : ∀ c ∈ h.calls.erase call, c.unrecorded e = false := by
  intro c hc
  have hcount := (List.perm_cons_erase hmem).countP_eq (OverrideCall.unrecorded e)
  rw [List.countP_cons_of_pos hself] at hcount
  have hnone : (h.calls.erase call).countP (OverrideCall.unrecorded e) = 0 := by
    have := hi.single
    omega
  simpa using List.countP_eq_zero.mp hnone c hc

/-- What a call has to be when it goes on. -/
structure OverrideCall.GoesOn (e : String) (h : OverrideHandler) (call c : OverrideCall) :
    Prop where
  executionID : c.executionID = call.executionID
  kind : c.kind = call.kind
  shaped : c.Shaped
  unrecorded : c.unrecorded e = true → call.unrecorded e = true
  aimed : c.unrecorded e = true → ∀ a ∈ c.stage.aimed, a ∈ (h.targets e).2

/-- A call goes on, and leaves the step of the execution alone. -/
theorem OverrideInv.move (hi : OverrideInv e h) (next : Option OverrideCall)
    (hmem : call ∈ h.calls)
    (hcalls : h'.calls = next.toList ++ h.calls.erase call)
    (hoverrides : h'.graphOverrides e = h.graphOverrides e) (hended : h'.ended e = h.ended e)
    (htargets : h'.targets e = h.targets e) (hcovered : h'.manager.Covered)
    (hnext : ∀ c ∈ next, call.GoesOn e h c)
    (hnew : ∀ a, h'.manager.HasOverride a e → h.manager.HasOverride a e ∨
      ∃ c ∈ next, c.executionID = e ∧ a ∈ c.stage.mayHold)
    (hheld : ∀ a, h'.manager.HasOverride a e → call.executionID = e → a ∈ call.stage.mayHold →
      ∃ c ∈ next, a ∈ c.stage.mayHold) : OverrideInv e h' := by
  have hcases : ∀ c ∈ h'.calls, c ∈ next ∨ c ∈ h.calls.erase call := by
    intro c hc
    rw [hcalls] at hc
    exact (List.mem_append.mp hc).imp Option.mem_toList.mp id
  have hinto : ∀ c ∈ next, c ∈ h'.calls := by
    intro c hc
    rw [hcalls]
    exact List.mem_append_left _ (Option.mem_toList.mpr hc)
  refine ⟨hcovered, fun c hc ↦ ?_, ?_, fun c hc hun ↦ ?_, fun c hc hun ↦ ?_, ?_, ?_, fun a ha ↦ ?_⟩
  · rcases hcases c hc with hc | hc
    · have hgoes := hnext c hc
      exact ⟨hgoes.executionID ▸ (hi.calls call hmem).1, hgoes.shaped⟩
    · exact hi.calls c (List.mem_of_mem_erase hc)
  · have hcount := (List.perm_cons_erase hmem).countP_eq (OverrideCall.unrecorded e)
    have hle : next.toList.countP (OverrideCall.unrecorded e) ≤
        [call].countP (OverrideCall.unrecorded e) := by
      cases next with
      | none => simp
      | some c =>
        rw [Option.toList_some, List.countP_singleton, List.countP_singleton]
        split
        · rename_i hun
          rw [if_pos ((hnext c rfl).unrecorded hun)]
        · omega
    rw [← List.singleton_append, List.countP_append] at hcount
    rw [hcalls, List.countP_append]
    have := hi.single
    omega
  · rw [hoverrides]
    rcases hcases c hc with hc | hc
    · have hgoes := hnext c hc
      rw [hgoes.kind]
      exact hi.reserved call hmem (hgoes.unrecorded hun)
    · exact hi.reserved c (List.mem_of_mem_erase hc) hun
  · rw [htargets]
    rcases hcases c hc with hc | hc
    · exact (hnext c hc).aimed hun
    · exact hi.aimed c (List.mem_of_mem_erase hc) hun
  · rw [hended, hoverrides]
    exact hi.ended
  · rw [hoverrides, htargets]
    exact hi.current
  · rw [hoverrides]
    rcases hnew a ha with hold | ⟨c, hc, hexec, hhold⟩
    · rcases hi.owned a hold with hrecorded | ⟨c, hc, hexec, hhold⟩
      · exact Or.inl hrecorded
      · by_cases hself : c = call
        · subst hself
          obtain ⟨c', hc', hhold'⟩ := hheld a ha hexec hhold
          exact Or.inr ⟨c', hinto c' hc', (hnext c' hc').executionID.trans hexec, hhold'⟩
        · refine Or.inr ⟨c, ?_, hexec, hhold⟩
          rw [hcalls]
          exact List.mem_append_right _ ((List.mem_erase_of_ne hself).mpr hc)
    · exact Or.inr ⟨c, hinto c hc, hexec, hhold⟩

/-! ## Steps that leave the step of the execution alone -/

theorem clearThen_spec {agentIDs : List String} {c : OverrideCall}
    (hc : c ∈ call.clearThen agentIDs) : c.executionID = call.executionID ∧ c.kind = call.kind ∧
      c.Shaped ∧ c.stage ≠ .enter ∧ c.stage.aimed = [] := by
  rw [OverrideCall.clearThen] at hc
  split at hc
  · obtain rfl := Option.some.inj hc
    exact ⟨rfl, rfl, fun _ ↦ Or.inr ⟨_, rfl⟩, by simp, rfl⟩
  · split at hc
    · rename_i hkind
      obtain rfl := Option.some.inj hc
      exact ⟨rfl, rfl, fun hclear ↦ absurd (hkind.symm.trans hclear) (by simp), by simp, rfl⟩
    · exact absurd hc (by simp)

/-- What is left to clear stays with the call. -/
theorem exists_mem_clearThen (call : OverrideCall) {agentIDs : List String} {a : String}
    (ha : a ∈ agentIDs) :
    ∃ c ∈ call.clearThen agentIDs, c.executionID = call.executionID ∧ a ∈ c.stage.mayHold := by
  rw [OverrideCall.clearThen, if_pos (List.ne_nil_of_mem ha)]
  exact ⟨_, rfl, rfl, ha⟩

theorem applyThen_spec {todo : List (String × String)} {applied : List String} {c : OverrideCall}
    (hc : c ∈ call.applyThen todo applied) : c.executionID = call.executionID ∧
      c.kind = call.kind ∧ c.stage ≠ .enter ∧
      ∀ a ∈ c.stage.aimed, a ∈ todo.map Prod.fst ++ applied := by
  rw [OverrideCall.applyThen] at hc
  split at hc
  · obtain rfl := Option.some.inj hc
    exact ⟨rfl, rfl, by simp, fun a ha ↦ ha⟩
  · split at hc
    · obtain rfl := Option.some.inj hc
      exact ⟨rfl, rfl, by simp, fun a ha ↦ List.mem_append_right _ ha⟩
    · exact absurd hc (by simp)

theorem exists_mem_applyThen (call : OverrideCall) (todo : List (String × String))
    {applied : List String} {a : String} (ha : a ∈ applied) : ∃ c ∈ call.applyThen todo applied,
      c.executionID = call.executionID ∧ a ∈ c.stage.mayHold := by
  rw [OverrideCall.applyThen]
  split
  · exact ⟨_, rfl, rfl, ha⟩
  · rw [if_pos (List.ne_nil_of_mem ha)]
    exact ⟨_, rfl, rfl, ha⟩

/-- The call is done, and has left nothing behind. -/
theorem OverrideInv.finish (hi : OverrideInv e h) (hmem : call ∈ h.calls)
    (hnone : call.executionID = e → call.stage.mayHold = []) :
    OverrideInv e (h.move call none) := by
  refine hi.move none hmem rfl rfl rfl rfl hi.covered (by simp) (fun a ↦ Or.inl)
    fun a _ hexec hhold ↦ ?_
  rw [hnone hexec] at hhold
  exact absurd hhold List.not_mem_nil

theorem OverrideInv.receive {status : GraphStatus} (hi : OverrideInv e h)
    (hcall : status.overrideCall = some call) :
    OverrideInv e { h with calls := call :: h.calls } := by
  have hnew : call.executionID ≠ "" ∧ call.stage = .enter := by
    rw [GraphStatus.overrideCall] at hcall
    split at hcall
    · exact absurd hcall (by simp)
    · rename_i hexec
      split at hcall
      · obtain rfl := Option.some.inj hcall
        exact ⟨hexec, rfl⟩
      · obtain ⟨-, hcall⟩ := Option.ite_none_right_eq_some.mp hcall
        obtain rfl := Option.some.inj hcall
        exact ⟨hexec, rfl⟩
  have hrecorded : ¬call.unrecorded e = true := fun hun ↦ (unrecorded_iff.mp hun).2.2 hnew.2
  refine { hi with
    calls := List.forall_mem_cons.mpr ⟨⟨hnew.1, fun _ ↦ Or.inl hnew.2⟩, hi.calls⟩
    single := ?_
    reserved := List.forall_mem_cons.mpr ⟨fun hun ↦ absurd hun hrecorded, hi.reserved⟩
    aimed := List.forall_mem_cons.mpr ⟨fun hun ↦ absurd hun hrecorded, hi.aimed⟩
    owned := fun a ha ↦ ?_ }
  · rw [List.countP_cons_of_neg hrecorded]
    exact hi.single
  · rcases hi.owned a ha with hrecord | ⟨c, hc, hexec, hhold⟩
    · exact Or.inl hrecord
    · exact Or.inr ⟨c, List.mem_cons_of_mem _ hc, hexec, hhold⟩

theorem OverrideInv.clearOne (hi : OverrideInv e h) (hmem : call ∈ h.calls) {now : ℕ}
    {order : RangeOrder (String × StateOverride)} {agentID : String} {rest : List String}
    (hstage : call.stage = .clearing (agentID :: rest)) :
    OverrideInv e { h.move call (call.clearThen rest) with
      manager := h.manager.apply now
        (.clearRobotStateOverride order agentID call.executionID) } := by
  have hwanes : Manager.Wanes h.manager (h.manager.apply now
      (.clearRobotStateOverride order agentID call.executionID)) := Manager.wanes_apply rfl
  refine hi.move _ hmem rfl rfl rfl rfl (hwanes.covered hi.covered) (fun c hc ↦ ?_)
    (fun a ha ↦ Or.inl (hwanes.sources a e ha)) fun a ha hexec hhold ↦ ?_
  · obtain ⟨hexec, hkind, hshaped, -, haimed⟩ := clearThen_spec hc
    refine ⟨hexec, hkind, hshaped, fun hun ↦ ?_, fun _ a ha ↦ ?_⟩
    · obtain ⟨hself, hclear, -⟩ := unrecorded_iff.mp hun
      exact unrecorded_iff.mpr ⟨hexec.symm.trans hself, hkind ▸ hclear, by simp [hstage]⟩
    · rw [haimed] at ha
      exact absurd ha List.not_mem_nil
  · rw [hstage] at hhold
    rcases List.mem_cons.mp hhold with rfl | hrest
    · -- its override has just been cleared
      refine absurd ha ?_
      rw [← hexec]
      exact Manager.not_hasOverride_clearRobotStateOverride hi.covered (hi.calls call hmem).1
    · obtain ⟨c, hc, -, hhold⟩ := exists_mem_clearThen call hrest
      exact ⟨c, hc, hhold⟩

/-- A call that sets overrides is one that puts a step in place. -/
theorem OverrideInv.unrecorded_of_applying (hi : OverrideInv e h) (hmem : call ∈ h.calls)
    {todo : List (String × String)} {applied : List String}
    (hstage : call.stage = .applying todo applied) (hexec : call.executionID = e) :
    call.unrecorded e = true := by
  refine unrecorded_iff.mpr ⟨hexec, fun hclear ↦ ?_, by simp [hstage]⟩
  rcases (hi.calls call hmem).2 hclear with henter | ⟨agentIDs, hclearing⟩
  · exact absurd (hstage.symm.trans henter) (by simp)
  · exact absurd (hstage.symm.trans hclearing) (by simp)

theorem OverrideInv.setOne (hi : OverrideInv e h) (hmem : call ∈ h.calls)
    {agentID state : String} {rest : List (String × String)} {applied applied' : List String}
    (hstage : call.stage = .applying ((agentID, state) :: rest) applied) {manager : Manager}
    (hcovered : manager.Covered)
    (happlied : ∀ a ∈ applied, a ∈ applied') (haimed : ∀ a ∈ applied', a = agentID ∨ a ∈ applied)
    (hset : ∀ a s, manager.HasOverride a s → h.manager.HasOverride a s ∨
      (a = agentID ∧ s = call.executionID ∧ agentID ∈ applied')) :
    OverrideInv e { h.move call (call.applyThen rest applied') with manager } := by
  refine hi.move _ hmem rfl rfl rfl rfl hcovered (fun c hc ↦ ?_) (fun a ha ↦ ?_)
    fun a ha hexec hhold ↦ ?_
  · obtain ⟨hexec, hkind, hstage', hspec⟩ := applyThen_spec hc
    have hun : c.unrecorded e = true → call.unrecorded e = true := fun hun ↦
      hi.unrecorded_of_applying hmem hstage (hexec.symm.trans (unrecorded_iff.mp hun).1)
    refine ⟨hexec, hkind, fun hclear ↦ ?_, hun, fun hun' a ha ↦ hi.aimed call hmem (hun hun') a ?_⟩
    · rw [hkind] at hclear
      rcases (hi.calls call hmem).2 hclear with henter | ⟨agentIDs, hclearing⟩
      · exact absurd (hstage.symm.trans henter) (by simp)
      · exact absurd (hstage.symm.trans hclearing) (by simp)
    · rw [hstage]
      rcases List.mem_append.mp (hspec a ha) with htodo | happ
      · exact List.mem_append_left _ (List.mem_cons_of_mem _ htodo)
      · rcases haimed a happ with rfl | happ
        · exact List.mem_append_left _ List.mem_cons_self
        · exact List.mem_append_right _ happ
  · rcases hset a e ha with hold | ⟨rfl, rfl, happ⟩
    · exact Or.inl hold
    · obtain ⟨c, hc, hexec, hhold⟩ := exists_mem_applyThen call rest happ
      exact Or.inr ⟨c, hc, hexec, hhold⟩
  · rw [hstage] at hhold
    obtain ⟨c, hc, -, hhold⟩ := exists_mem_applyThen call rest (happlied a hhold)
    exact ⟨c, hc, hhold⟩

theorem OverrideInv.operation (hi : OverrideInv e h) {now : ℕ} {op : Manager.Op}
    (hop : op.setsOverride = false) :
    OverrideInv e { h with manager := h.manager.apply now op } := by
  have hwanes : Manager.Wanes h.manager (h.manager.apply now op) := Manager.wanes_apply hop
  exact { hi with
    covered := hwanes.covered hi.covered
    owned := fun a ha ↦ hi.owned a (hwanes.sources a e ha) }

/-! ## Steps that change the step of an execution -/

/-- The calls after one of them has gone on, when the others have recorded their overrides. -/
theorem countP_unrecorded_le (hrecorded : ∀ c ∈ h.calls.erase call, c.unrecorded e = false) :
    (next.toList ++ h.calls.erase call).countP (OverrideCall.unrecorded e) ≤ 1 := by
  have hnone : (h.calls.erase call).countP (OverrideCall.unrecorded e) = 0 :=
    List.countP_eq_zero.mpr fun c hc ↦ by simp [hrecorded c hc]
  rw [List.countP_append, hnone, Nat.add_zero]
  refine List.countP_le_length.trans ?_
  cases next <;> simp

/-- What was recorded for the step before is left to the call that takes it out of place. -/
theorem OverrideInv.handed_over (hi : OverrideInv e h) (hmem : call ∈ h.calls)
    (hstage : call.stage = .enter) (hexec : call.executionID = e) {a : String}
    (ha : h.manager.HasOverride a e) :
    ∃ c ∈ (call.clearThen (((h.graphOverrides e).map (·.agentIDs)).getD [])).toList ++
      h.calls.erase call, c.executionID = e ∧ a ∈ c.stage.mayHold := by
  rcases hi.owned a ha with ⟨state, hstate, hin⟩ | ⟨c, hc, hself, hhold⟩
  · have hold : a ∈ ((h.graphOverrides e).map (·.agentIDs)).getD [] := by
      rw [hstate]
      exact hin
    obtain ⟨c, hc, hself, hhold⟩ := exists_mem_clearThen call hold
    exact ⟨c, List.mem_append_left _ (Option.mem_toList.mpr hc), hself.trans hexec, hhold⟩
  · have hne : c ≠ call := by
      rintro rfl
      rw [hstage] at hhold
      exact absurd hhold List.not_mem_nil
    exact ⟨c, List.mem_append_right _ ((List.mem_erase_of_ne hne).mpr hc), hself, hhold⟩

/-- **A step is put in the place of one whose overrides are recorded.** -/
theorem OverrideInv.enter_update (hi : OverrideInv e h) (hmem : call ∈ h.calls)
    (hstage : call.stage = .enter) {graphID agentID stepID : String}
    (hkind : call.kind = .update graphID agentID stepID) (hexec : call.executionID = e)
    (hrecorded : ∀ c ∈ h.calls, c.unrecorded e = false) (hended : h.ended e = false) :
    OverrideInv e { h.move call
        (call.clearThen (((h.graphOverrides e).map (·.agentIDs)).getD [])) with
      graphOverrides := Function.update h.graphOverrides e (some { stepID })
      targets := Function.update h.targets e (stepID, []) } := by
  have hothers : ∀ c ∈ h.calls.erase call, c.unrecorded e = false := fun c hc ↦
    hrecorded c (List.mem_of_mem_erase hc)
  have hnot : ∀ c ∈ h.calls.erase call, ¬c.unrecorded e = true := fun c hc ↦ by
    simp [hothers c hc]
  refine ⟨hi.covered, fun c hc ↦ ?_, countP_unrecorded_le hothers, fun c hc hun ↦ ?_,
    fun c hc hun ↦ ?_, fun h' ↦ ?_, fun state hstate ↦ ?_, fun a ha ↦ ?_⟩
  · rcases List.mem_append.mp hc with hc | hc
    · obtain ⟨hsame, -, hshaped, -⟩ := clearThen_spec (Option.mem_toList.mp hc)
      exact ⟨hsame ▸ (hi.calls call hmem).1, hshaped⟩
    · exact hi.calls c (List.mem_of_mem_erase hc)
  · dsimp only
    rw [Function.update_self]
    rcases List.mem_append.mp hc with hc | hc
    · obtain ⟨-, hsame, -⟩ := clearThen_spec (Option.mem_toList.mp hc)
      exact ⟨graphID, agentID, stepID, hsame.trans hkind, rfl⟩
    · exact absurd hun (hnot c hc)
  · rcases List.mem_append.mp hc with hc | hc
    · obtain ⟨-, -, -, -, haimed⟩ := clearThen_spec (Option.mem_toList.mp hc)
      rw [haimed]
      exact fun a ha ↦ absurd ha List.not_mem_nil
    · exact absurd hun (hnot c hc)
  · exact absurd (hended.symm.trans h') (by simp)
  · dsimp only at hstate ⊢
    rw [Function.update_self] at hstate ⊢
    obtain rfl := Option.some.inj hstate
    exact ⟨rfl, fun a ha ↦ absurd ha List.not_mem_nil⟩
  · exact Or.inr (hi.handed_over hmem hstage hexec ha)

/-- **The step is removed when its overrides are recorded.** -/
theorem OverrideInv.enter_clear (hi : OverrideInv e h) (hmem : call ∈ h.calls)
    (hstage : call.stage = .enter) (hkind : call.kind = .clear) (hexec : call.executionID = e)
    (hrecorded : ∀ c ∈ h.calls, c.unrecorded e = false) :
    OverrideInv e { h.move call
        (call.clearThen (((h.graphOverrides e).map (·.agentIDs)).getD [])) with
      graphOverrides := Function.update h.graphOverrides e none
      ended := Function.update h.ended e true } := by
  have hothers : ∀ c ∈ h.calls.erase call, c.unrecorded e = false := fun c hc ↦
    hrecorded c (List.mem_of_mem_erase hc)
  have hnot : ∀ c, c ∈ (call.clearThen
      (((h.graphOverrides e).map (·.agentIDs)).getD [])).toList ++ h.calls.erase call →
        ¬c.unrecorded e = true := by
    intro c hc hun
    rcases List.mem_append.mp hc with hc | hc
    · obtain ⟨-, hsame, -⟩ := clearThen_spec (Option.mem_toList.mp hc)
      exact (unrecorded_iff.mp hun).2.1 (hsame.trans hkind)
    · rw [hothers c hc] at hun
      exact absurd hun (by simp)
  refine ⟨hi.covered, fun c hc ↦ ?_, countP_unrecorded_le hothers,
    fun c hc hun ↦ absurd hun (hnot c hc), fun c hc hun ↦ absurd hun (hnot c hc),
    fun _ ↦ Function.update_self .., fun state hstate ↦ ?_, fun a ha ↦ Or.inr ?_⟩
  · rcases List.mem_append.mp hc with hc | hc
    · obtain ⟨hsame, -, hshaped, -⟩ := clearThen_spec (Option.mem_toList.mp hc)
      exact ⟨hsame ▸ (hi.calls call hmem).1, hshaped⟩
    · exact hi.calls c (List.mem_of_mem_erase hc)
  · dsimp only at hstate
    rw [Function.update_self] at hstate
    exact absurd hstate (by simp)
  · exact hi.handed_over hmem hstage hexec ha

/-- A call for another execution goes on. -/
theorem OverrideInv.other (hi : OverrideInv e h) (next : Option OverrideCall)
    (hmem : call ∈ h.calls) (hother : call.executionID ≠ e)
    (hcalls : h'.calls = next.toList ++ h.calls.erase call) (hmanager : h'.manager = h.manager)
    (hoverrides : ∀ id, id ≠ call.executionID → h'.graphOverrides id = h.graphOverrides id)
    (hended : ∀ id, id ≠ call.executionID → h'.ended id = h.ended id)
    (htargets : ∀ id, id ≠ call.executionID → h'.targets id = h.targets id)
    (hnext : ∀ c ∈ next, c.executionID = call.executionID ∧ c.kind = call.kind ∧ c.Shaped) :
    OverrideInv e h' := by
  refine hi.move next hmem hcalls (hoverrides e hother.symm) (hended e hother.symm)
    (htargets e hother.symm) (hmanager ▸ hi.covered) (fun c hc ↦ ?_)
    (fun a ha ↦ Or.inl (hmanager ▸ ha)) fun a _ hexec ↦ absurd hexec hother
  obtain ⟨hexec, hkind, hshaped⟩ := hnext c hc
  have hrecorded : ¬c.unrecorded e = true := fun hun ↦
    hother (hexec.symm.trans (unrecorded_iff.mp hun).1)
  exact ⟨hexec, hkind, hshaped, fun hun ↦ absurd hun hrecorded, fun hun ↦ absurd hun hrecorded⟩

theorem OverrideInv.enter (hi : OverrideInv e h) (hmem : call ∈ h.calls)
    (hstage : call.stage = .enter) (horder : h.inOrder e (.enter call) = true) :
    OverrideInv e (h.enter call) := by
  have hnothing : call.stage.mayHold = [] := by rw [hstage]; rfl
  rw [OverrideHandler.enter]
  by_cases hself : call.executionID = e
  · subst hself
    cases hkind : call.kind with
    | update graphID agentID stepID =>
      dsimp only
      split
      · exact hi.finish hmem fun _ ↦ hnothing
      · rename_i hkeeps
        simp only [OverrideHandler.inOrder, OverrideHandler.keepsStep, hkind, ne_eq,
          not_true_eq_false, decide_false, Bool.false_or, hkeeps, Bool.and_eq_true,
          Bool.not_eq_true', List.any_eq_false, reduceCtorEq] at horder
        exact hi.enter_update hmem hstage hkind rfl
          (fun c hc ↦ Bool.eq_false_iff.mpr (horder.1 c hc)) horder.2
    | clear =>
      simp only [OverrideHandler.inOrder, OverrideHandler.keepsStep, hkind, ne_eq,
        not_true_eq_false, decide_false, Bool.false_or, decide_true, Bool.true_or, Bool.and_true,
        Bool.not_eq_true', List.any_eq_false] at horder
      exact hi.enter_clear hmem hstage hkind rfl fun c hc ↦ Bool.eq_false_iff.mpr (horder c hc)
  · have hthen : ∀ c ∈ call.clearThen
        (((h.graphOverrides call.executionID).map (·.agentIDs)).getD []),
        c.executionID = call.executionID ∧ c.kind = call.kind ∧ c.Shaped := fun c hc ↦ by
      obtain ⟨hexec, hkind, hshaped, -⟩ := clearThen_spec hc
      exact ⟨hexec, hkind, hshaped⟩
    cases hkind : call.kind with
    | update graphID agentID stepID =>
      dsimp only
      split
      · exact hi.finish hmem fun _ ↦ hnothing
      · exact hi.other _ hmem hself rfl rfl (fun id hid ↦ Function.update_of_ne hid ..)
          (fun _ _ ↦ rfl) (fun id hid ↦ Function.update_of_ne hid ..) hthen
    | clear =>
      exact hi.other _ hmem hself rfl rfl (fun id hid ↦ Function.update_of_ne hid ..)
        (fun id hid ↦ Function.update_of_ne hid ..) (fun _ _ ↦ rfl) hthen

/-- **The agents that the tree gives for the step are its targets.** -/
theorem OverrideInv.load (hi : OverrideInv e h) (hmem : call ∈ h.calls)
    (hstage : call.stage = .load) {graphID agentID stepID : String}
    (hkind : call.kind = .update graphID agentID stepID) (steps : Option (List DuringStep))
    (range : RangeOrder (String × String)) (robotIDs : List String) :
    OverrideInv e (h.load call steps range robotIDs agentID stepID) := by
  rw [OverrideHandler.load]
  split
  · exact hi.finish hmem fun _ ↦ by rw [hstage]; rfl
  rename_i step _
  dsimp only
  generalize hresolved : resolveDuringStateOverrides h.manager robotIDs agentID step = overrides
  have hthen : ∀ c ∈ call.applyThen (range.range overrides) [],
      c.executionID = call.executionID ∧ c.kind = call.kind ∧ c.Shaped := fun c hc ↦ by
    obtain ⟨hexec, hsame, -⟩ := applyThen_spec hc
    exact ⟨hexec, hsame, fun hclear ↦ absurd (hkind.symm.trans (hsame.symm.trans hclear)) (by simp)⟩
  by_cases hself : call.executionID = e
  · subst hself
    have hun : call.unrecorded call.executionID = true :=
      unrecorded_iff.mpr ⟨rfl, by simp [hkind], by simp [hstage]⟩
    have hothers := hi.recorded_others hmem hun
    obtain ⟨graphID', agentID', stepID', hkind', hplace⟩ := hi.reserved call hmem hun
    obtain ⟨rfl, rfl, rfl⟩ : graphID = graphID' ∧ agentID = agentID' ∧ stepID = stepID' := by
      simpa using hkind.symm.trans hkind'
    refine ⟨hi.covered, fun c hc ↦ ?_, countP_unrecorded_le hothers, fun c hc hun' ↦ ?_,
      fun c hc hun' ↦ ?_, hi.ended, fun state hstate ↦ ?_, fun a ha ↦ ?_⟩
    · rcases List.mem_append.mp hc with hc | hc
      · obtain ⟨hexec, -, hshaped⟩ := hthen c (Option.mem_toList.mp hc)
        exact ⟨hexec ▸ (hi.calls call hmem).1, hshaped⟩
      · exact hi.calls c (List.mem_of_mem_erase hc)
    · rcases List.mem_append.mp hc with hc | hc
      · obtain ⟨-, hsame, -⟩ := hthen c (Option.mem_toList.mp hc)
        exact ⟨graphID, agentID, stepID, hsame.trans hkind, hplace⟩
      · exact absurd hun' (by simp [hothers c hc])
    · rcases List.mem_append.mp hc with hc | hc
      · obtain ⟨-, -, -, haimed⟩ := applyThen_spec (Option.mem_toList.mp hc)
        intro a ha
        dsimp only
        rw [Function.update_self]
        have hin := haimed a ha
        rw [List.append_nil] at hin
        exact ((range.perm overrides).map Prod.fst).mem_iff.mp hin
      · exact absurd hun' (by simp [hothers c hc])
    · dsimp only at hstate ⊢
      rw [Function.update_self]
      obtain rfl := Option.some.inj (hplace.symm.trans hstate)
      exact ⟨rfl, fun a ha ↦ absurd ha List.not_mem_nil⟩
    · rcases hi.owned a ha with hrecord | ⟨c, hc, hexec, hhold⟩
      · exact Or.inl hrecord
      · have hne : c ≠ call := by
          rintro rfl
          rw [hstage] at hhold
          exact absurd hhold List.not_mem_nil
        exact Or.inr ⟨c, List.mem_append_right _ ((List.mem_erase_of_ne hne).mpr hc), hexec, hhold⟩
  · exact hi.other _ hmem hself rfl rfl (fun _ _ ↦ rfl) (fun _ _ ↦ rfl)
      (fun id hid ↦ Function.update_of_ne hid ..) hthen

/-- **The step is still in place when its overrides are recorded.** -/
theorem OverrideInv.record (hi : OverrideInv e h) (hmem : call ∈ h.calls)
    {applied : List String} (hstage : call.stage = .record applied)
    {graphID agentID stepID : String} (hkind : call.kind = .update graphID agentID stepID) :
    OverrideInv e (h.record call stepID applied) := by
  by_cases hself : call.executionID = e
  · subst hself
    have hun : call.unrecorded call.executionID = true :=
      unrecorded_iff.mpr ⟨rfl, by simp [hkind], by simp [hstage]⟩
    have hothers := hi.recorded_others hmem hun
    obtain ⟨graphID', agentID', stepID', hkind', hplace⟩ := hi.reserved call hmem hun
    obtain ⟨rfl, rfl, rfl⟩ : graphID = graphID' ∧ agentID = agentID' ∧ stepID = stepID' := by
      simpa using hkind.symm.trans hkind'
    rw [OverrideHandler.record, hplace]
    dsimp only
    rw [if_pos rfl]
    have hnot : ∀ c ∈ h.calls.erase call, ¬c.unrecorded call.executionID = true := fun c hc ↦ by
      simp [hothers c hc]
    have hnone : (h.calls.erase call).countP (OverrideCall.unrecorded call.executionID) ≤ 1 :=
      (List.countP_eq_zero.mpr hnot).le.trans zero_le_one
    obtain ⟨hstep, -⟩ := hi.current _ hplace
    refine ⟨hi.covered, fun c hc ↦ hi.calls c (List.mem_of_mem_erase hc),
      hnone, fun c hc hun' ↦ absurd hun' (hnot c hc),
      fun c hc hun' ↦ absurd hun' (hnot c hc), fun hended ↦ ?_, fun state hstate ↦ ?_,
      fun a ha ↦ ?_⟩
    · exact absurd (hplace.symm.trans (hi.ended hended)) (by simp)
    · dsimp only at hstate
      rw [Function.update_self] at hstate
      obtain rfl := Option.some.inj hstate
      refine ⟨hstep, fun a ha ↦ hi.aimed call hmem hun a ?_⟩
      rw [hstage]
      exact ha
    · rcases hi.owned a ha with ⟨state, hstate, hin⟩ | ⟨c, hc, hexec, hhold⟩
      · obtain rfl := Option.some.inj (hplace.symm.trans hstate)
        exact absurd hin List.not_mem_nil
      · by_cases hsame : c = call
        · rw [hsame, hstage] at hhold
          exact Or.inl ⟨_, Function.update_self .., hhold⟩
        · exact Or.inr ⟨c, (List.mem_erase_of_ne hsame).mpr hc, hexec, hhold⟩
  · have hdone : ∀ c ∈ (none : Option OverrideCall), c.executionID = call.executionID ∧
        c.kind = call.kind ∧ c.Shaped := by simp
    have hleave : OverrideInv e (h.move call none) :=
      hi.other none hmem hself rfl rfl (fun _ _ ↦ rfl) (fun _ _ ↦ rfl) (fun _ _ ↦ rfl) hdone
    rw [OverrideHandler.record]
    split
    · split
      · exact hi.other none hmem hself rfl rfl (fun id hid ↦ Function.update_of_ne hid ..)
          (fun _ _ ↦ rfl) (fun _ _ ↦ rfl) hdone
      · exact hleave
    · exact hleave

/-! ## Runs -/

theorem overrideInv_init (hinit : h.Initial) : OverrideInv e h := by
  obtain ⟨manager, hnone, rfl⟩ := hinit
  refine ⟨fun a _ ↦ hnone a, by simp, by simp, by simp, by simp, by simp, by simp, fun a ha ↦ ?_⟩
  obtain ⟨entry, hentry, -⟩ := ha
  dsimp only at hentry
  rw [hnone a] at hentry
  exact absurd hentry List.not_mem_nil

/-- **Every step in order keeps the invariant.** -/
theorem OverrideInv.step {act : OverrideAction} (hi : OverrideInv e h)
    (horder : h.inOrder e act = true) (hstep : h.step act = some h') : OverrideInv e h' := by
  cases act with
  | receive status =>
    obtain ⟨call, hcall, rfl⟩ := Option.map_eq_some_iff.mp hstep
    exact hi.receive hcall
  | enter call =>
    obtain ⟨⟨hmem, hstage⟩, hnext⟩ := Option.ite_none_right_eq_some.mp hstep
    obtain rfl := Option.some.inj hnext
    exact hi.enter hmem hstage horder
  | clearOne now order call =>
    rw [OverrideHandler.step] at hstep
    split at hstep
    · rename_i agentID rest hstage
      obtain ⟨hmem, hnext⟩ := Option.ite_none_right_eq_some.mp hstep
      obtain rfl := Option.some.inj hnext
      exact hi.clearOne hmem hstage
    · exact absurd hstep (by simp)
  | load call steps range robotIDs =>
    rw [OverrideHandler.step] at hstep
    split at hstep
    · rename_i graphID agentID stepID hkind
      obtain ⟨⟨hmem, hstage⟩, hnext⟩ := Option.ite_none_right_eq_some.mp hstep
      obtain rfl := Option.some.inj hnext
      exact hi.load hmem hstage hkind steps range robotIDs
    · exact absurd hstep (by simp)
  | setOne now order call =>
    rw [OverrideHandler.step] at hstep
    split at hstep
    · rename_i agentID state rest applied hstage
      obtain ⟨hmem, hstep⟩ := Option.ite_none_right_eq_some.mp hstep
      split at hstep
      · rename_i manager hset
        obtain rfl := Option.some.inj hstep
        obtain ⟨hcovered, hadded⟩ := Manager.hasOverride_setRobotStateOverride hi.covered hset
        refine hi.setOne hmem hstage hcovered (fun a ha ↦ List.mem_append_left _ ha)
          (fun a ha ↦ ?_) fun a s hs ↦ ?_
        · exact (List.mem_append.mp ha).symm.imp List.mem_singleton.mp id
        · rcases hadded a s hs with hold | ⟨hagent, hsource⟩
          · exact Or.inl hold
          · exact Or.inr ⟨hagent, hsource, List.mem_append_right _ List.mem_cons_self⟩
      · obtain rfl := Option.some.inj hstep
        exact hi.setOne hmem hstage hi.covered (fun _ ↦ id) (fun _ ↦ Or.inr) fun _ _ ↦ Or.inl
    · exact absurd hstep (by simp)
  | record call =>
    rw [OverrideHandler.step] at hstep
    split at hstep
    · rename_i graphID agentID stepID applied hkind hstage
      obtain ⟨hmem, hnext⟩ := Option.ite_none_right_eq_some.mp hstep
      obtain rfl := Option.some.inj hnext
      exact hi.record hmem hstage hkind
    · exact absurd hstep (by simp)
  | operation now op =>
    rw [OverrideHandler.step] at hstep
    split at hstep
    · exact absurd hstep (by simp)
    · rename_i hop
      obtain rfl := Option.some.inj hstep
      exact hi.operation (Bool.eq_false_iff.mpr hop)

theorem OverrideInv.settled (hi : OverrideInv e h) (hfinished : h.Finished e) : h.Settled e := by
  have hrecorded : ∀ a, h.manager.HasOverride a e →
      ∃ state, h.graphOverrides e = some state ∧ a ∈ state.agentIDs := by
    intro a ha
    rcases hi.owned a ha with hrecord | ⟨c, hc, hexec, -⟩
    · exact hrecord
    · exact absurd hexec (hfinished c hc)
  refine ⟨fun hended a ha ↦ ?_, fun a ha ↦ ?_⟩
  · obtain ⟨state, hstate, -⟩ := hrecorded a ha
    exact absurd (hstate.symm.trans (hi.ended hended)) (by simp)
  · obtain ⟨state, hstate, hin⟩ := hrecorded a ha
    obtain ⟨hstep, htargets⟩ := hi.current state hstate
    exact ⟨state, hstate, hstep, htargets a hin⟩

/-- **The overrides of an execution are those of its last step once its handlers are done**, and
none after its end, in every run in which its step is replaced or removed only when its overrides
are recorded, and no step comes after the end. -/
theorem overrides_settled
    (hreach : Reachable OverrideHandler.step (fun h act ↦ h.inOrder e act = true)
      OverrideHandler.Initial h)
    (hfinished : h.Finished e) : h.Settled e := by
  have hinv : OverrideInv e h :=
    hreach.invariant (fun _ ↦ overrideInv_init) fun _ _ _ _ hi horder hs ↦ hi.step horder hs
  exact hinv.settled hfinished

/-- The agent runs the step. -/
def runningAt (stepID : String) : GraphStatus where
  executionID := "task"
  agentID := "robot"
  state := 1
  currentVertexID := stepID
  graphID := "tree"

/-- The agent is done. -/
def completedAt (stepID : String) : GraphStatus := { runningAt stepID with state := 2 }

/-- The call about the step at a stage. -/
def callAt (stage : OverrideStage) : OverrideCall where
  executionID := "task"
  kind := .update "tree" "robot" "lift"
  stage := stage

def clearCall : OverrideCall := { executionID := "task", kind := .clear }

def lift : DuringStep where
  id := "lift"
  duringStates := ["lifting"]

theorem initial_noOverrides : OverrideHandler.Initial { manager := {} } := ⟨{}, fun _ ↦ rfl, rfl⟩

/-- The update is over when the end is handled. -/
theorem lifting_recorded : ∃ h : OverrideHandler,
    (h.manager.HasOverride "robot" "task" ∧ h.Finished "task") ∧ h.Settled "task" := by
  obtain ⟨h, hr, hhas, hcalls⟩ := exists_reachable_of_run OverrideHandler.step
    (fun h act ↦ h.inOrder "task" act = true) initial_noOverrides
    [.operation 0 (.registerRobot "robot" "idle"), .receive (runningAt "lift"),
      .enter (callAt .enter), .load (callAt .load) (some [lift]) (.asListed _) [],
      .setOne 0 (.asListed _) (callAt (.applying [("robot", "lifting")] [])),
      .record (callAt (.record ["robot"]))]
    (P := fun h ↦ h.manager.HasOverride "robot" "task" ∧ h.calls = []) (by decide +kernel)
  have hfinished : h.Finished "task" := fun call hmem ↦ by simp [hcalls] at hmem
  exact ⟨h, ⟨hhas, hfinished⟩, overrides_settled hr hfinished⟩

/-- **An end that is handled while an update has still to set its overrides leaves one behind.** -/
theorem override_left : ∃ h : OverrideHandler, Reachable OverrideHandler.step (fun _ _ ↦ True)
    OverrideHandler.Initial h ∧ h.Finished "task" ∧ ¬h.Settled "task" := by
  obtain ⟨h, hr, hended, hhas, hcalls⟩ := exists_reachable_of_run OverrideHandler.step
    (fun _ _ ↦ True) initial_noOverrides
    [.operation 0 (.registerRobot "robot" "idle"), .receive (runningAt "lift"),
      .enter (callAt .enter), .load (callAt .load) (some [lift]) (.asListed _) [],
      .receive (completedAt "lift"), .enter clearCall,
      .setOne 0 (.asListed _) (callAt (.applying [("robot", "lifting")] [])),
      .record (callAt (.record ["robot"]))]
    (P := fun h ↦ h.ended "task" = true ∧ h.manager.HasOverride "robot" "task" ∧ h.calls = [])
    (by decide +kernel)
  have hfinished : h.Finished "task" := fun call hmem ↦ by simp [hcalls] at hmem
  exact ⟨h, hr, hfinished, fun hsettled ↦ hsettled.ended hended "robot" hhas⟩

end Grpc
end FleetServer
