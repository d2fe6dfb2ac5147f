import FleetServer.State.Overrides

/-!
# Where overrides come from

Only `SetRobotStateOverride` adds an override; every other operation of the manager leaves the
overrides of a robot as they are, or takes some away (`wanes_apply`).  A robot that is not
registered has none, so an override that cannot be cleared because its robot is gone is gone too.
-/

set_option autoImplicit false

namespace FleetServer
namespace State
namespace Manager

/-- The robot has an override from the source. -/
def HasOverride (m : Manager) (agentID sourceID : String) : Prop :=
  ∃ entry ∈ m.stateOverrides agentID, entry.1 = sourceID

instance (m : Manager) (agentID sourceID : String) : Decidable (m.HasOverride agentID sourceID) :=
  inferInstanceAs (Decidable (∃ entry ∈ m.stateOverrides agentID, entry.1 = sourceID))

/-- Only robots that are registered have overrides. -/
def Covered (m : Manager) : Prop :=
  ∀ agentID, m.states agentID = none → m.stateOverrides agentID = []

def Op.setsOverride : Op → Bool
  | .setRobotStateOverride .. => true
  | _ => false

variable {m m' m'' : Manager} {now : ℕ} {agentID sourceID state : String}
  {overrides : List (String × StateOverride)}

/-! ## Operations that set no override -/

/-- No override is added. -/
structure Wanes (m m' : Manager) : Prop where
  covered : m.Covered → m'.Covered
  sources : ∀ agentID sourceID, m'.HasOverride agentID sourceID → m.HasOverride agentID sourceID

theorem Wanes.refl (m : Manager) : Wanes m m := ⟨id, fun _ _ ↦ id⟩

theorem Wanes.trans (h : Wanes m m') (h' : Wanes m' m'') : Wanes m m'' :=
  ⟨fun hm ↦ h'.covered (h.covered hm), fun a s hs ↦ h.sources a s (h'.sources a s hs)⟩

theorem SameStates.wanes (h : SameStates m m') : Wanes m m' := by
  refine ⟨fun hm a ↦ ?_, fun a s hs ↦ ?_⟩
  · rw [h.1, h.2]
    exact hm a
  · rwa [HasOverride, h.2] at hs

/-- One robot gets new states and fewer overrides; without the robot it has none. -/
theorem wanes_of_write {states : Option (String × String)}
    (hstates : m'.states = Function.update m.states agentID states)
    (hoverrides : m'.stateOverrides = Function.update m.stateOverrides agentID overrides)
    (hfewer : ∀ entry ∈ overrides, entry ∈ m.stateOverrides agentID)
    (hnone : states = none → overrides = []) : Wanes m m' := by
  refine ⟨fun hm a ha ↦ ?_, fun a s hs ↦ ?_⟩
  · rw [hstates] at ha
    rw [hoverrides]
    by_cases hself : a = agentID
    · rw [hself, Function.update_self] at ha ⊢
      exact hnone ha
    · rw [Function.update_of_ne hself] at ha ⊢
      exact hm a ha
  · obtain ⟨entry, hentry, hsource⟩ := hs
    rw [hoverrides] at hentry
    by_cases hself : a = agentID
    · rw [hself, Function.update_self] at hentry
      exact ⟨entry, hself ▸ hfewer entry hentry, hsource⟩
    · rw [Function.update_of_ne hself] at hentry
      exact ⟨entry, hentry, hsource⟩

theorem wanes_afterResult {result : Except String Manager}
    (h : ∀ m', result = .ok m' → Wanes m m') : Wanes m (m.afterResult result) := by
  cases result with
  | error err => exact Wanes.refl m
  | ok m' => exact h m' rfl

theorem wanes_foldl {ι : Type} {f : Manager → ι → Manager} {rounds : List ι}
    (h : ∀ m, ∀ i ∈ rounds, Wanes m (f m i)) (m : Manager) : Wanes m (rounds.foldl f m) := by
  induction rounds generalizing m with
  | nil => exact Wanes.refl m
  | cons i rest ih =>
    exact (h m i List.mem_cons_self).trans
      (ih (fun m j hj ↦ h m j (List.mem_cons_of_mem _ hj)) (f m i))

theorem wanes_unregisterRobot : Wanes m (m.unregisterRobot agentID) := by
  have hstates : (m.unregisterRobot agentID).states = Function.update m.states agentID none := by
    funext agent
    by_cases hagent : agent = agentID
    · simp [states, Manager.unregisterRobot, deleteRobot, clearStateOverrides,
        clearManualResetGuard, deleteZonesOf, removeAgent, hagent]
    · simp [states, Manager.unregisterRobot, deleteRobot, clearStateOverrides,
        clearManualResetGuard, deleteZonesOf, removeAgent, Function.update_of_ne hagent]
  exact wanes_of_write hstates (by rfl) (by simp) fun _ ↦ rfl

theorem wanes_updateRobotState {order : RangeOrder (String × StateOverride)}
    (hok : m.updateRobotState now order agentID state = .ok m') : Wanes m m' := by
  obtain ⟨hsame, hstates⟩ :=
    @stateOverrides_normalizeReportedStateForManualReset m now agentID state
  cases hrobot : m.robots agentID with
  | none =>
    rw [updateRobotState, hrobot] at hok
    exact absurd hok (by simp)
  | some robot =>
    rw [updateRobotState, hrobot] at hok
    obtain ⟨m₁, reported⟩ := m.normalizeReportedStateForManualReset now agentID state
    dsimp only at hok hsame hstates
    obtain rfl := Except.ok.inj hok
    exact wanes_of_write ((states_setRobot _).trans (by rw [hstates]))
      (hsame.trans (Function.update_eq_self agentID _).symm) (fun _ ↦ id) (by simp)

theorem wanes_clearRobotStateOverride {order : RangeOrder (String × StateOverride)}
    (hok : m.clearRobotStateOverride now order agentID sourceID = .ok m') : Wanes m m' := by
  rw [clearRobotStateOverride] at hok
  split at hok
  · exact absurd hok (by simp)
  · split at hok
    · exact absurd hok (by simp)
    · obtain rfl := Except.ok.inj hok
      exact wanes_of_write (states_setRobot _) (by rfl)
        (fun entry hentry ↦ (List.mem_filter.mp hentry).1) (by simp)

theorem wanes_completeExecution (releasedZones : List String) :
    Wanes m (m.completeExecution now agentID releasedZones) := by
  cases hrobot : m.robots agentID with
  | none =>
    rw [completeExecution, hrobot]
    exact Wanes.refl m
  | some robot =>
    obtain ⟨hstates, hoverrides⟩ := @states_completeExecution m now agentID _ releasedZones hrobot
    exact wanes_of_write hstates hoverrides (by simp) fun _ ↦ rfl

theorem wanes_resetAgentState (hok : m.resetAgentState now agentID = .ok m') : Wanes m m' := by
  rw [resetAgentState] at hok
  split at hok
  · exact absurd hok (by simp)
  · obtain rfl := Except.ok.inj hok
    obtain ⟨hstates, hoverrides⟩ :=
      (sameStates_updateAgentState "idle" [] "" _ false).trans (sameStates_setAgentExecuting false)
    exact wanes_of_write (hstates.trans (states_setRobot _)) hoverrides (by simp) fun _ ↦ rfl

theorem wanes_cleanupStaleAgents (maxOfflineAge : ℕ) :
    Wanes m (m.cleanupStaleAgents now maxOfflineAge) := by
  refine ⟨fun hm a ha ↦ ?_, fun a s ⟨entry, hentry, hsource⟩ ↦ ?_⟩
  · rw [states, cleanupStaleAgents] at ha
    rw [cleanupStaleAgents]
    dsimp only at ha ⊢
    split
    · rfl
    · rename_i hkeep
      rw [if_neg hkeep] at ha
      exact hm a ha
  · rw [cleanupStaleAgents] at hentry
    dsimp only at hentry
    split at hentry
    · exact absurd hentry (by simp)
    · exact ⟨entry, hentry, hsource⟩

/-- **Only `SetRobotStateOverride` adds an override.** -/
theorem wanes_apply {op : Op} (h : op.setsOverride = false) : Wanes m (m.apply now op) := by
  cases op with
  | registerRobot agentID initialState =>
    exact wanes_of_write (states_setRobot _) (Function.update_eq_self _ _).symm (fun _ ↦ id)
      (by simp)
  | unregisterRobot id => exact wanes_unregisterRobot
  | updateRobotState order agentID newState =>
    exact wanes_afterResult fun _ ↦ wanes_updateRobotState
  | updateRobotEnhancedState agentID stateCode semanticTags graphID =>
    exact (sameStates_updateRobotEnhancedState stateCode graphID semanticTags).wanes
  | setRobotOnline agentID isOnline => exact (sameStates_setRobotOnline isOnline).wanes
  | setRobotStateOverride order agentID sourceID state => exact absurd h (by simp [Op.setsOverride])
  | clearRobotStateOverride order agentID sourceID =>
    exact wanes_afterResult fun _ ↦ wanes_clearRobotStateOverride
  | updateRobotExecution agentID isExecuting taskID stepID =>
    exact (sameStates_updateRobotExecution isExecuting taskID stepID).wanes
  | tryUpdateRobotExecutionFromHeartbeat agentID hbIsExecuting hbTaskID hbStepID =>
    exact (sameStates_tryUpdateRobotExecutionFromHeartbeat hbIsExecuting hbTaskID hbStepID).wanes
  | tryReserveZone zoneID agentID => exact (sameStates_tryReserveZone zoneID).wanes
  | releaseZone zoneID agentID => exact (sameStates_releaseZone zoneID).wanes
  | cleanupExpiredZones => exact (sameStates_of_eq (by rfl) (by rfl)).wanes
  | tryStartExecution agentID taskID stepID graphID requiredZones preconditions =>
    exact (sameStates_tryStartExecution requiredZones preconditions).wanes
  | completeExecution agentID releasedZones => exact wanes_completeExecution releasedZones
  | resetAgentState agentID => exact wanes_afterResult fun _ ↦ wanes_resetAgentState
  | tryStartMultiExecution executions preconditions =>
    exact (sameStates_tryStartMultiExecution executions preconditions).wanes
  | completeMultiExecution executions =>
    exact wanes_foldl (fun _ exec _ ↦ wanes_completeExecution exec.requiredZones) m
  | cleanupStaleAgents maxOfflineAge => exact wanes_cleanupStaleAgents maxOfflineAge

/-! ## Setting and clearing -/

/-- An override that is set is one of the robot's. -/
theorem hasOverride_setRobotStateOverride {order : RangeOrder (String × StateOverride)}
    (hm : m.Covered)
    (hok : m.setRobotStateOverride now order agentID sourceID state = .ok m') :
    m'.Covered ∧ ∀ a s, m'.HasOverride a s → m.HasOverride a s ∨ (a = agentID ∧ s = sourceID) := by
  rw [setRobotStateOverride] at hok
  split at hok
  · exact absurd hok (by simp)
  split at hok
  · exact absurd hok (by simp)
  split at hok
  · exact absurd hok (by simp)
  · obtain rfl := Except.ok.inj hok
    refine ⟨fun a ha ↦ ?_, fun a s hhas ↦ ?_⟩
    · rw [states_setRobot] at ha
      dsimp only [setRobot]
      by_cases hself : a = agentID
      · rw [hself, Function.update_self] at ha
        exact absurd ha (by simp)
      · rw [Function.update_of_ne hself] at ha ⊢
        exact hm a ha
    · obtain ⟨entry, hentry, hsource⟩ := hhas
      dsimp only [setRobot] at hentry
      by_cases hself : a = agentID
      · subst hself
        rw [Function.update_self] at hentry
        rcases List.mem_cons.mp hentry with rfl | hentry
        · exact Or.inr ⟨rfl, hsource.symm⟩
        · exact Or.inl ⟨entry, (List.mem_filter.mp hentry).1, hsource⟩
      · rw [Function.update_of_ne hself] at hentry
        exact Or.inl ⟨entry, hentry, hsource⟩

/-- **Once cleared, an override is gone**, also when the robot is not registered any more. -/
theorem not_hasOverride_clearRobotStateOverride {order : RangeOrder (String × StateOverride)}
    (hm : m.Covered) (hsource : sourceID ≠ "") :
    ¬(m.afterResult (m.clearRobotStateOverride now order agentID sourceID)).HasOverride agentID
      sourceID := by
  rintro ⟨entry, hentry, rfl⟩
  rw [clearRobotStateOverride, if_neg hsource] at hentry
  split at hentry
  · rename_i hrobot
    have hnone : m.stateOverrides agentID = [] := hm agentID (by rw [states, hrobot]; rfl)
    rw [afterResult, hnone] at hentry
    exact absurd hentry (by simp)
  · dsimp only [afterResult, setRobot] at hentry
    rw [Function.update_self] at hentry
    simpa using (List.mem_filter.mp hentry).2

end Manager
end State
end FleetServer
