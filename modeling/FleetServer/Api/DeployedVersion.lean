import FleetServer.Api.Deployments

/-!
# When nothing has to be sent

`upToDate_accepted` says in which runs `ensureGraphDeployed` is right to send nothing: when the
agent never accepts another version than the one that a row, or a call that has still to write one,
takes it to have.

The invariant is that everything that makes such a claim claims the version the agent accepted last.
A claim is made by the answer to a graph, passes from the answer to the call that waits for it, from
the call to the row and from the row to the calls that read it.
-/

set_option autoImplicit false

namespace FleetServer
namespace Api

open GuardedRun Db Schema

variable {codec : Schema.Codec} {agentID : String} {h h' : DeployState} {k : ℕ} {v : ℤ}
  {call : DeployCall} {assignment : AgentBehaviorTree}

/-! ## What is claimed -/

theorem claimed_of_status (hstatus : assignment.deploymentStatus ≠ "deployed") :
    assignment.claimed = none := if_neg hstatus

@[simp] theorem claimed_stored : assignment.stored.claimed = assignment.claimed := rfl

@[simp] theorem claimed_deployed (graph : BehaviorTree) (now : Time) :
    (assignment.deployed graph now).claimed = some graph.version := rfl

@[simp] theorem claimed_failed (err : String) : (assignment.failed err).claimed = none := rfl

/-- An update of the tree does not claim more for a row. -/
theorem claimed_outdated {graph : BehaviorTree}
    (hclaim : (assignment.outdated graph).claimed = some v) : assignment.claimed = some v := by
  rw [AgentBehaviorTree.claimed] at hclaim
  split at hclaim
  · rename_i hstatus
    rw [AgentBehaviorTree.outdated] at hstatus hclaim
    dsimp only at hstatus hclaim
    split at hstatus
    · exact absurd hstatus (by decide)
    · rw [AgentBehaviorTree.claimed, if_pos hstatus, hclaim]
  · exact absurd hclaim (by simp)

theorem mem_claimed : v ∈ h.claimed ↔ (∃ row ∈ h.rows, row.claimed = some v) ∨
    (∃ k < h.count, ∃ call, h.calls k = some call ∧ v ∈ call.claimed) ∨
    ∃ k call, (k, none) ∈ h.replies ∧ h.calls k = some call ∧ call.awaited = some v := by
  rw [DeployState.claimed, List.mem_append, List.mem_append, List.mem_filterMap, or_assoc]
  refine or_congr_right (or_congr ?_ ?_)
  · rw [List.mem_flatMap]
    refine exists_congr fun k ↦ and_congr List.mem_range ?_
    cases h.calls k <;> simp
  · rw [List.mem_filterMap]
    constructor
    · rintro ⟨⟨k, err⟩, hmem, hclaim⟩
      obtain ⟨rfl, hclaim⟩ := Option.ite_none_right_eq_some.mp hclaim
      obtain ⟨call, hcall, hawaited⟩ := Option.bind_eq_some_iff.mp hclaim
      exact ⟨k, call, hmem, hcall, hawaited⟩
    · rintro ⟨k, call, hmem, hcall, hawaited⟩
      refine ⟨(k, none), hmem, ?_⟩
      rw [if_pos rfl]
      exact Option.bind_eq_some_iff.mpr ⟨call, hcall, hawaited⟩

theorem mem_saveRow {row r : AgentBehaviorTree} (hmem : row ∈ (h.saveRow r).rows) :
    row ∈ h.rows ∨ row = r.stored := by
  obtain ⟨old, hold, rfl⟩ := List.mem_map.mp hmem
  split
  · exact Or.inr rfl
  · exact Or.inl hold

theorem mem_createRow {row r : AgentBehaviorTree} (hmem : row ∈ (h.createRow r).rows) :
    row ∈ h.rows ∨ row = r.stored :=
  (List.mem_append.mp hmem).imp id List.mem_singleton.mp

/-- What a call claims when it has nothing but writes to do. -/
theorem mem_claimed_finish {kind : DeployKind} {todo : List DeployWrite} :
    v ∈ DeployCall.claimed ⟨kind, .finish todo⟩ ↔ ∃ row, .assignment row ∈ todo ∧
      row.claimed = some v := by
  have hfilter : DeployCall.claimed ⟨kind, .finish todo⟩ = todo.filterMap (·.claimed) := by
    cases kind <;> rfl
  rw [hfilter, List.mem_filterMap]
  constructor
  · rintro ⟨write, hmem, hclaim⟩
    cases write with
    | assignment row => exact ⟨row, hmem, hclaim⟩
    | cache g => exact absurd hclaim (by simp [DeployWrite.claimed])
  · rintro ⟨row, hmem, hclaim⟩
    exact ⟨.assignment row, hmem, hclaim⟩

/-! ## The invariant -/

structure DeployInv (h : DeployState) : Prop where
  claims : ∀ v ∈ h.claimed, h.acceptedVersion = some v
  beyond : ∀ k, h.count ≤ k → h.calls k = none
  /-- A graph on its way to the agent is the one that its call waits for, if it still does. -/
  inFlight : ∀ k g, (k, g) ∈ h.inFlight → k < h.count ∧
    ∀ call, h.calls k = some call → call.stage.sent = true ∧
      ∀ d, call.stage = .wait d → d.canonicalGraph = g
  replies : ∀ k err, (k, err) ∈ h.replies → k < h.count ∧
    ∀ call, h.calls k = some call → call.stage.sent = true

theorem DeployInv.lt_count (hi : DeployInv h) (hcall : h.calls k = some call) : k < h.count := by
  by_contra hle
  rw [hi.beyond k (not_lt.mp hle)] at hcall
  exact absurd hcall (by simp)

theorem DeployInv.claimed_call (hi : DeployInv h) (hcall : h.calls k = some call)
    (hv : v ∈ call.claimed) : v ∈ h.claimed :=
  mem_claimed.mpr (Or.inr (Or.inl ⟨k, hi.lt_count hcall, call, hcall, hv⟩))

/-- What a call may become without an answer, when it does not send anything. -/
structure DeployCall.GoesOn (h : DeployState) (call c : DeployCall) : Prop where
  claimed : ∀ v ∈ c.claimed, v ∈ h.claimed
  sent : call.stage.sent = true → c.stage.sent = true
  waits : ∀ d, c.stage ≠ .wait d

/-- **A call goes on, and claims no more than was claimed before.** -/
theorem DeployInv.move (hi : DeployInv h) (next : Option DeployCall)
    (hcall : h.calls k = some call) (hcalls : h'.calls = Function.update h.calls k next)
    (hcount : h'.count = h.count) (hflight : h'.inFlight = h.inFlight)
    (hreplies : ∀ reply ∈ h'.replies, reply ∈ h.replies) (haccepted : h'.accepted = h.accepted)
    (hrows : ∀ row ∈ h'.rows, ∀ v, row.claimed = some v → v ∈ h.claimed)
    (hnext : ∀ c ∈ next, call.GoesOn h c) : DeployInv h' := by
  have hcases : ∀ j c, h'.calls j = some c → (j = k ∧ c ∈ next) ∨ h.calls j = some c := by
    intro j c hc
    rw [hcalls] at hc
    by_cases hj : j = k
    · rw [hj, Function.update_self] at hc
      exact Or.inl ⟨hj, hc⟩
    · rw [Function.update_of_ne hj] at hc
      exact Or.inr hc
  refine ⟨fun v hv ↦ ?_, fun j hj ↦ ?_, fun j g hmem ↦ ?_, fun j err hmem ↦ ?_⟩
  · have hold : v ∈ h.claimed := by
      rcases mem_claimed.mp hv with ⟨row, hrow, hclaim⟩ | ⟨j, hj, c, hc, hclaim⟩ |
        ⟨j, c, hreply, hc, hawaited⟩
      · exact hrows row hrow v hclaim
      · rcases hcases j c hc with ⟨-, hc⟩ | hc
        · exact (hnext c hc).claimed v hclaim
        · exact hi.claimed_call hc hclaim
      · rcases hcases j c hc with ⟨-, hc⟩ | hc
        · rw [DeployCall.awaited] at hawaited
          split at hawaited
          · exact absurd ‹c.stage = _› ((hnext c hc).waits _)
          · exact absurd hawaited (by simp)
        · exact mem_claimed.mpr (Or.inr (Or.inr ⟨j, c, hreplies _ hreply, hc, hawaited⟩))
    rw [DeployState.acceptedVersion, haccepted]
    exact hi.claims v hold
  · have hjk : j ≠ k := by
      have := hi.lt_count hcall
      omega
    rw [hcalls, Function.update_of_ne hjk]
    exact hi.beyond j (hcount ▸ hj)
  · rw [hflight] at hmem
    obtain ⟨hlt, hsent⟩ := hi.inFlight j g hmem
    refine ⟨hcount ▸ hlt, fun c hc ↦ ?_⟩
    rcases hcases j c hc with ⟨rfl, hc⟩ | hc
    · exact ⟨(hnext c hc).sent (hsent call hcall).1, fun d hd ↦ absurd hd ((hnext c hc).waits d)⟩
    · exact hsent c hc
  · obtain ⟨hlt, hsent⟩ := hi.replies j err (hreplies _ hmem)
    refine ⟨hcount ▸ hlt, fun c hc ↦ ?_⟩
    rcases hcases j c hc with ⟨rfl, hc⟩ | hc
    · exact (hnext c hc).sent (hsent call hcall)
    · exact hsent c hc

/-! ## Before the graph is sent -/

/-- A stage that says nothing about what the agent has, whatever call it is of. -/
structure DeployStage.Quiet (stage : DeployStage) : Prop where
  claimed : ∀ kind, DeployCall.claimed ⟨kind, stage⟩ = []
  waits : ∀ d, stage ≠ .wait d

theorem quiet_mark (d : Deployment) (create : Bool) : (DeployStage.mark d create).Quiet :=
  ⟨fun kind ↦ by cases kind <;> rfl, by simp⟩

theorem quiet_finish {todo : List DeployWrite}
    (htodo : ∀ row, .assignment row ∈ todo → row.claimed = none) :
    (DeployStage.finish todo).Quiet := by
  refine ⟨fun kind ↦ List.eq_nil_iff_forall_not_mem.mpr fun v hv ↦ ?_, by simp⟩
  obtain ⟨row, hmem, hclaim⟩ := mem_claimed_finish.mp hv
  rw [htodo row hmem] at hclaim
  exact absurd hclaim (by simp)

theorem DeployStage.Quiet.goesOn {stage : DeployStage} (hquiet : stage.Quiet) (kind : DeployKind)
    (hpre : call.stage.sent = false) : call.GoesOn h ⟨kind, stage⟩ := by
  refine ⟨fun v hv ↦ ?_, fun hsent ↦ absurd (hpre.symm.trans hsent) (by simp), hquiet.waits⟩
  rw [hquiet.claimed] at hv
  exact absurd hv List.not_mem_nil

theorem quiet_beginExecution {newID : String} {dbGraph : BehaviorTree}
    {found : Option AgentBehaviorTree} {stage : DeployStage}
    (hs : beginExecution codec agentID newID dbGraph found = some stage) : stage.Quiet := by
  rw [beginExecution] at hs
  split at hs
  · exact absurd hs (by simp)
  · obtain rfl := Option.some.inj hs
    exact quiet_mark _ _

theorem quiet_beginDeployment {newID : String} {graph : BehaviorTree} {agent : Option DeployTarget}
    {found : Option AgentBehaviorTree} {stage : DeployStage}
    (hs : beginDeployment codec newID graph agent found = some stage) : stage.Quiet := by
  rw [beginDeployment] at hs
  split at hs
  · exact absurd hs (by simp)
  · obtain rfl := Option.some.inj hs
    exact quiet_mark _ _

theorem quiet_beginAssignment {hasHandler : Bool} {graph : BehaviorTree}
    {agent : Option DeployTarget} {stage : DeployStage}
    (hs : beginAssignment codec hasHandler graph agent assignment = some stage) :
    stage.Quiet := by
  have hunsent : (DeployStage.unsent graph assignment).Quiet :=
    ⟨fun kind ↦ by cases kind <;> rfl, by simp⟩
  rw [beginAssignment] at hs
  split at hs
  · obtain rfl := Option.some.inj hs
    refine quiet_finish fun row hrow ↦ ?_
    obtain rfl := DeployWrite.assignment.inj (List.mem_singleton.mp hrow)
    exact claimed_of_status (by simp [AgentBehaviorTree.pending])
  · obtain ⟨agent, -, rfl⟩ := Option.map_eq_some_iff.mp hs
    split
    · refine quiet_finish fun row hrow ↦ ?_
      obtain rfl := DeployWrite.assignment.inj (List.mem_singleton.mp hrow)
      exact claimed_failed _
    split
    · exact hunsent
    · refine quiet_finish fun row hrow ↦ ?_
      rcases List.mem_cons.mp hrow with hrow | hrow
      · obtain rfl := DeployWrite.assignment.inj hrow
        exact claimed_of_status (by simp [AgentBehaviorTree.deploying])
      · obtain rfl := DeployWrite.assignment.inj (List.mem_singleton.mp hrow)
        exact claimed_failed _
  · split at hs
    · obtain rfl := Option.some.inj hs
      exact hunsent
    · obtain rfl := Option.some.inj hs
      exact quiet_mark _ _

/-- A call that only goes on. -/
theorem DeployInv.setCall (hi : DeployInv h) (hcall : h.calls k = some call)
    {next : Option DeployCall} (hnext : ∀ c ∈ next, call.GoesOn h c) :
    DeployInv (h.setCall k next) :=
  hi.move next hcall rfl rfl rfl (fun _ ↦ id) rfl
    (fun row hrow _ hclaim ↦ mem_claimed.mpr (Or.inl ⟨row, hrow, hclaim⟩)) hnext

theorem DeployInv.goOn (hi : DeployInv h) (hcall : h.calls k = some call) {stage : DeployStage}
    (hstage : call.GoesOn h { call with stage }) : DeployInv (h.goOn k call stage) :=
  hi.setCall hcall fun _ hc ↦ Option.some.inj hc ▸ hstage

theorem DeployInv.done (hi : DeployInv h) (hcall : h.calls k = some call) :
    DeployInv (h.setCall k none) :=
  hi.setCall hcall fun c hc ↦ absurd hc (by simp)

/-- A call that goes on, if it does, with a stage that claims nothing. -/
theorem DeployInv.mapQuiet (hi : DeployInv h) (hcall : h.calls k = some call)
    (hpre : call.stage.sent = false) {stage : Option DeployStage}
    (hquiet : ∀ s, stage = some s → s.Quiet) :
    DeployInv (h.setCall k (stage.map fun stage ↦ { call with stage })) := by
  refine hi.setCall hcall fun c hc ↦ ?_
  obtain ⟨s, hs, rfl⟩ := Option.map_eq_some_iff.mp hc
  exact (hquiet s hs).goesOn call.kind hpre

theorem DeployInv.findAssignment {found : Option AgentBehaviorTree} {newID : String}
    (hi : DeployInv h) (hcall : h.calls k = some call)
    (hs : h.findAssignment codec k found newID call = some h') : DeployInv h' := by
  obtain ⟨kind, stage⟩ := call
  simp only [DeployState.findAssignment] at hs
  split at hs
  · obtain ⟨hfind, hs⟩ := Option.ite_none_right_eq_some.mp hs
    obtain rfl := Option.some.inj hs
    refine hi.goOn hcall ⟨fun v hv ↦ ?_, by simp [DeployStage.sent], by simp⟩
    cases found with
    | none => exact absurd hv List.not_mem_nil
    | some assignment =>
      rw [DeployCall.claimed] at hv
      dsimp only at hv
      split at hv
      · rename_i hclaim
        obtain rfl := List.mem_singleton.mp hv
        exact mem_claimed.mpr (Or.inl ⟨assignment, of_decide_eq_true hfind, hclaim⟩)
      · exact absurd hv List.not_mem_nil
  · obtain rfl := Option.some.inj hs
    refine hi.setCall hcall fun c hc ↦ ?_
    obtain ⟨assignment, -, rfl⟩ := Option.map_eq_some_iff.mp hc
    exact DeployStage.Quiet.goesOn ⟨fun kind ↦ by cases kind <;> rfl, by simp⟩ _ rfl
  · split at hs
    · obtain rfl := Option.some.inj hs
      exact hi.mapQuiet hcall rfl fun s hs ↦ quiet_beginDeployment hs
    · exact absurd hs (by simp)
  · split at hs
    · rename_i hfind
      obtain rfl := Option.some.inj hs
      refine hi.setCall hcall fun c hc ↦ ?_
      obtain ⟨assignment, hfound, rfl⟩ := Option.map_eq_some_iff.mp hc
      refine ⟨fun v hv ↦ ?_, fun _ ↦ rfl, by simp⟩
      obtain ⟨row, hrow, hclaim⟩ := mem_claimed_finish.mp hv
      obtain rfl := DeployWrite.assignment.inj (List.mem_singleton.mp hrow)
      have hmem : assignment ∈ h.rows := by simpa [hfound, DeployState.mayFind] using hfind
      exact mem_claimed.mpr (Or.inl ⟨assignment, hmem, claimed_outdated hclaim⟩)
    · exact absurd hs (by simp)
  · exact absurd hs (by simp)

/-- The test of `ensureGraphDeployed` makes a claim of the row its own. -/
theorem claimed_of_isUpToDate {force : Bool} {dbGraph : BehaviorTree}
    {found : Option AgentBehaviorTree} (htest : h.isUpToDate force dbGraph found = true) :
    ∃ assignment, found = some assignment ∧ assignment.claimed = some dbGraph.version := by
  cases found with
  | none => exact absurd htest (by simp [DeployState.isUpToDate])
  | some assignment =>
    simp only [DeployState.isUpToDate, Bool.and_eq_true, decide_eq_true_eq] at htest
    obtain ⟨⟨⟨-, hversion⟩, hstatus⟩, -⟩ := htest
    exact ⟨assignment, rfl, by rw [AgentBehaviorTree.claimed, if_pos hstatus, hversion]⟩

/-- **A call that returns without sending has compared a row that claims the version.** -/
theorem DeployInv.compare {newID : String} (hi : DeployInv h) (hcall : h.calls k = some call)
    (hs : h.compare codec agentID k newID call = some h') : DeployInv h' := by
  obtain ⟨kind, stage⟩ := call
  simp only [DeployState.compare] at hs
  split at hs
  · rename_i force dbGraph found
    split at hs
    · rename_i htest
      obtain rfl := Option.some.inj hs
      obtain ⟨assignment, rfl, hclaim⟩ := claimed_of_isUpToDate htest
      refine hi.goOn hcall ⟨fun v hv ↦ ?_, by simp [DeployStage.sent], by simp⟩
      refine hi.claimed_call hcall ?_
      rw [DeployCall.claimed]
      dsimp only
      rw [if_pos hclaim]
      exact hv
    split at hs
    · obtain rfl := Option.some.inj hs
      exact hi.done hcall
    · obtain rfl := Option.some.inj hs
      exact hi.mapQuiet hcall rfl fun s hs ↦ quiet_beginExecution hs
  · exact absurd hs (by simp)

theorem DeployInv.loadTree {agent : Option DeployTarget} (hi : DeployInv h)
    (hcall : h.calls k = some call) (hs : h.loadTree codec k agent call = some h') :
    DeployInv h' := by
  obtain ⟨kind, stage⟩ := call
  simp only [DeployState.loadTree] at hs
  split at hs
  · obtain rfl := Option.some.inj hs
    exact hi.mapQuiet hcall rfl fun s hs ↦ quiet_beginAssignment hs
  · split at hs
    · obtain rfl := Option.some.inj hs
      exact hi.done hcall
    split at hs
    · obtain rfl := Option.some.inj hs
      exact hi.done hcall
    · obtain rfl := Option.some.inj hs
      exact hi.goOn hcall (DeployStage.Quiet.goesOn ⟨fun kind ↦ by cases kind <;> rfl, by simp⟩ _
        rfl)
  · exact absurd hs (by simp)

/-- Writing a row that claims nothing new. -/
theorem DeployInv.writeRow {kind : DeployKind} {stage next : DeployStage} {row : AgentBehaviorTree}
    {rows : List AgentBehaviorTree} (hi : DeployInv h) (hcall : h.calls k = some ⟨kind, stage⟩)
    (hrows : ∀ r ∈ rows, r ∈ h.rows ∨ r = row.stored)
    (hrow : ∀ v, row.claimed = some v → v ∈ h.claimed)
    (hnext : DeployCall.GoesOn h ⟨kind, stage⟩ ⟨kind, next⟩) :
    DeployInv ({ h with rows }.goOn k ⟨kind, stage⟩ next) := by
  refine hi.move (some ⟨kind, next⟩) hcall rfl rfl rfl (fun _ ↦ id) rfl (fun r hr v hclaim ↦ ?_)
    fun c hc ↦ Option.some.inj hc ▸ hnext
  rcases hrows r hr with hold | rfl
  · exact mem_claimed.mpr (Or.inl ⟨r, hold, hclaim⟩)
  · exact hrow v hclaim

theorem DeployInv.mark {saved : Bool} (hi : DeployInv h) (hcall : h.calls k = some call)
    (hs : h.mark k saved call = some h') : DeployInv h' := by
  obtain ⟨kind, stage⟩ := call
  simp only [DeployState.mark] at hs
  split at hs
  · rename_i d create
    have hsend : DeployCall.GoesOn h ⟨kind, .mark d create⟩ ⟨kind, .send d⟩ :=
      DeployStage.Quiet.goesOn ⟨fun kind ↦ by cases kind <;> rfl, by simp⟩ _ rfl
    have hrow : ∀ v, d.assignment.claimed = some v → v ∈ h.claimed := by
      intro v hclaim
      rw [claimed_of_status (by simp [d.status_eq])] at hclaim
      exact absurd hclaim (by simp)
    split at hs
    · split at hs
      · obtain rfl := Option.some.inj hs
        exact hi.writeRow hcall (fun r ↦ mem_createRow) hrow hsend
      · obtain rfl := Option.some.inj hs
        exact hi.writeRow hcall (fun r ↦ mem_saveRow) hrow hsend
    · split at hs
      · obtain rfl := Option.some.inj hs
        exact hi.done hcall
      · obtain rfl := Option.some.inj hs
        exact hi.goOn hcall hsend
  · exact absurd hs (by simp)

/-! ## The graph on its way -/

/-- **The first graph that is sent for a call is the one it waits for.** -/
theorem DeployInv.send (hi : DeployInv h) (hcall : h.calls k = some call)
    (hs : h.send k call = some h') : DeployInv h' := by
  obtain ⟨kind, stage⟩ := call
  simp only [DeployState.send] at hs
  split at hs
  · rename_i d
    obtain rfl := Option.some.inj hs
    have hlt := hi.lt_count hcall
    -- nothing was sent or answered before
    have hnone : ∀ g, (k, g) ∉ h.inFlight := fun g hmem ↦
      absurd ((hi.inFlight k g hmem).2 _ hcall).1 (by simp [DeployStage.sent])
    have hnoreply : ∀ err, (k, err) ∉ h.replies := fun err hmem ↦
      absurd ((hi.replies k err hmem).2 _ hcall) (by simp [DeployStage.sent])
    have hother : ∀ j, j ≠ k → (Function.update h.calls k (some ⟨kind, .wait d⟩)) j = h.calls j :=
      fun j hj ↦ Function.update_of_ne hj ..
    have hself : ∀ c, Function.update h.calls k (some ⟨kind, .wait d⟩) k = some c →
        c = ⟨kind, .wait d⟩ := fun c hc ↦ by
      rw [Function.update_self] at hc
      exact (Option.some.inj hc).symm
    refine ⟨fun v hv ↦ hi.claims v ?_, fun j hj ↦ ?_, fun j g hmem ↦ ?_, fun j err hmem ↦ ?_⟩
    · rcases mem_claimed.mp hv with hrow | ⟨j, hj, c, hc, hclaim⟩ | ⟨j, c, hreply, hc, hawaited⟩
      · exact mem_claimed.mpr (Or.inl hrow)
      · by_cases hjk : j = k
        · subst hjk
          rw [hself c hc] at hclaim
          cases kind <;> exact absurd hclaim List.not_mem_nil
        · exact hi.claimed_call ((hother j hjk).symm.trans hc) hclaim
      · have hjk : j ≠ k := fun hjk ↦ hnoreply none (hjk ▸ hreply)
        exact mem_claimed.mpr (Or.inr (Or.inr
          ⟨j, c, hreply, (hother j hjk).symm.trans hc, hawaited⟩))
    · have hjk : j ≠ k := by
        have : h.count ≤ j := hj
        omega
      exact (hother j hjk).trans (hi.beyond j hj)
    · by_cases hjk : j = k
      · subst hjk
        refine ⟨hlt, fun c hc ↦ ?_⟩
        obtain rfl := hself c hc
        refine ⟨rfl, fun d' hd' ↦ ?_⟩
        obtain rfl := DeployStage.wait.inj hd'
        rcases List.mem_cons.mp hmem with hmem | hmem
        · exact (Prod.mk.inj hmem).2.symm
        · exact absurd hmem (hnone g)
      · rcases List.mem_cons.mp hmem with hmem | hmem
        · exact absurd (Prod.mk.inj hmem).1 hjk
        · obtain ⟨hj, hsent⟩ := hi.inFlight j g hmem
          exact ⟨hj, fun c hc ↦ hsent c ((hother j hjk).symm.trans hc)⟩
    · obtain ⟨hj, hsent⟩ := hi.replies j err hmem
      have hjk : j ≠ k := fun hjk ↦ hnoreply err (hjk ▸ hmem)
      exact ⟨hj, fun c hc ↦ hsent c ((hother j hjk).symm.trans hc)⟩
  · exact absurd hs (by simp)

/-- **A graph that the agent accepts is what it is taken to have from then on.** -/
theorem DeployInv.accept {g : CanonicalGraph} (hi : DeployInv h) (hmem : (k, g) ∈ h.inFlight)
    (horder : h.inOrder (.accept k g) = true) :
    DeployInv { h with
      inFlight := h.inFlight.erase (k, g), replies := (k, none) :: h.replies
      accepted := some g } := by
  obtain ⟨hlt, hsent⟩ := hi.inFlight k g hmem
  refine ⟨fun v hv ↦ ?_, hi.beyond, fun j g' hmem' ↦ hi.inFlight j g' (List.mem_of_mem_erase hmem'),
    fun j err hreply ↦ ?_⟩
  · show some g.behaviorTree.version = some v
    have hold : v ∈ h.claimed → g.behaviorTree.version = v := fun hv ↦
      (of_decide_eq_true (List.all_eq_true.mp horder v hv)).symm
    rcases mem_claimed.mp hv with hrow | hclaim | ⟨j, c, hreply, hc, hawaited⟩
    · rw [hold (mem_claimed.mpr (Or.inl hrow))]
    · rw [hold (mem_claimed.mpr (Or.inr (Or.inl hclaim)))]
    · rcases List.mem_cons.mp hreply with hreply | hreply
      · -- the answer that has just been given
        obtain ⟨rfl, -⟩ := Prod.mk.inj hreply
        rw [DeployCall.awaited] at hawaited
        split at hawaited
        · rename_i d hstage
          rw [← (hsent c hc).2 d hstage, d.version_eq]
          exact hawaited
        · exact absurd hawaited (by simp)
      · rw [hold (mem_claimed.mpr (Or.inr (Or.inr ⟨j, c, hreply, hc, hawaited⟩)))]
  · rcases List.mem_cons.mp hreply with hreply | hreply
    · obtain ⟨rfl, -⟩ := Prod.mk.inj hreply
      exact ⟨hlt, fun c hc ↦ (hsent c hc).1⟩
    · exact hi.replies j err hreply

theorem DeployInv.reject {g : CanonicalGraph} {err : String} (hi : DeployInv h)
    (hmem : (k, g) ∈ h.inFlight) :
    DeployInv { h with
      inFlight := h.inFlight.erase (k, g), replies := (k, some err) :: h.replies } := by
  obtain ⟨hlt, hsent⟩ := hi.inFlight k g hmem
  refine ⟨fun v hv ↦ hi.claims v ?_, hi.beyond,
    fun j g' hmem' ↦ hi.inFlight j g' (List.mem_of_mem_erase hmem'), fun j err' hreply ↦ ?_⟩
  · rcases mem_claimed.mp hv with hrow | hclaim | ⟨j, c, hreply, hc, hawaited⟩
    · exact mem_claimed.mpr (Or.inl hrow)
    · exact mem_claimed.mpr (Or.inr (Or.inl hclaim))
    · rcases List.mem_cons.mp hreply with hreply | hreply
      · exact absurd (Prod.mk.inj hreply).2 (by simp)
      · exact mem_claimed.mpr (Or.inr (Or.inr ⟨j, c, hreply, hc, hawaited⟩))
  · rcases List.mem_cons.mp hreply with hreply | hreply
    · obtain ⟨rfl, -⟩ := Prod.mk.inj hreply
      exact ⟨hlt, fun c hc ↦ (hsent c hc).1⟩
    · exact hi.replies j err' hreply

/-! ## After the answer -/

/-- Only writes are left, and their rows claim what was claimed before. -/
theorem goesOn_finish {kind : DeployKind} {todo : List DeployWrite}
    (htodo : ∀ row v, .assignment row ∈ todo → row.claimed = some v → v ∈ h.claimed) :
    call.GoesOn h ⟨kind, .finish todo⟩ := by
  refine ⟨fun v hv ↦ ?_, fun _ ↦ rfl, by simp⟩
  obtain ⟨row, hmem, hclaim⟩ := mem_claimed_finish.mp hv
  exact htodo row v hmem hclaim

theorem goesOn_failed {kind : DeployKind} (assignment : AgentBehaviorTree) (err : String) :
    call.GoesOn h ⟨kind, .finish [.assignment (assignment.failed err)]⟩ :=
  goesOn_finish fun row v hmem hclaim ↦ by
    obtain rfl := DeployWrite.assignment.inj (List.mem_singleton.mp hmem)
    exact absurd hclaim (by simp)

theorem DeployInv.giveUp {err : String} (hi : DeployInv h) (hcall : h.calls k = some call)
    (hs : h.giveUp k err call = some h') : DeployInv h' := by
  rw [DeployState.giveUp] at hs
  split at hs
  · obtain rfl := Option.some.inj hs
    exact hi.goOn hcall (goesOn_failed _ err)
  · obtain rfl := Option.some.inj hs
    exact hi.goOn hcall (goesOn_failed _ err)
  · exact absurd hs (by simp)

theorem row_of_successWrites {kind : DeployKind} {d : Deployment} {now : Time}
    {row : AgentBehaviorTree} (hmem : .assignment row ∈ successWrites kind d now) :
    row = d.deployed now := by
  cases kind <;> simpa [successWrites] using hmem

/-- **A success is about to be recorded for a graph that the agent has accepted.** -/
theorem DeployInv.answer {err : Option String} {now : Time} (hi : DeployInv h)
    (hreply : (k, err) ∈ h.replies) : DeployInv (h.answer k err now) := by
  have hfewer : ∀ reply ∈ h.replies.erase (k, err), reply ∈ h.replies :=
    fun _ ↦ List.mem_of_mem_erase
  have hrows : ∀ row ∈ h.rows, ∀ v, row.claimed = some v → v ∈ h.claimed :=
    fun row hrow v hclaim ↦ mem_claimed.mpr (Or.inl ⟨row, hrow, hclaim⟩)
  have hdrop : DeployInv { h with replies := h.replies.erase (k, err) } := by
    refine ⟨fun v hv ↦ hi.claims v ?_, hi.beyond, hi.inFlight,
      fun j err' hmem ↦ hi.replies j err' (hfewer _ hmem)⟩
    rcases mem_claimed.mp hv with hrow | hclaim | ⟨j, c, hmem, hc⟩
    · exact mem_claimed.mpr (Or.inl hrow)
    · exact mem_claimed.mpr (Or.inr (Or.inl hclaim))
    · exact mem_claimed.mpr (Or.inr (Or.inr ⟨j, c, hfewer _ hmem, hc⟩))
  rw [DeployState.answer]
  split
  · rename_i call hcall
    have hmove : ∀ stage, call.GoesOn h { call with stage } →
        DeployInv ({ h with replies := h.replies.erase (k, err) }.goOn k call stage) :=
      fun stage hstage ↦ hi.move (some { call with stage }) hcall rfl rfl rfl hfewer rfl hrows
        fun c hc ↦ Option.some.inj hc ▸ hstage
    split
    · rename_i _ _ d hstage
      refine hmove _ (goesOn_finish fun row v hmem hclaim ↦ ?_)
      rw [row_of_successWrites hmem, Deployment.deployed, claimed_deployed] at hclaim
      refine mem_claimed.mpr (Or.inr (Or.inr ⟨k, call, hreply, hcall, ?_⟩))
      rw [DeployCall.awaited, hstage]
      exact hclaim
    · exact hmove _ (goesOn_failed _ _)
    · exact hdrop
  · exact hdrop

theorem DeployInv.write {saved : Bool} (hi : DeployInv h) (hcall : h.calls k = some call)
    (hs : h.write k saved call = some h') : DeployInv h' := by
  obtain ⟨kind, stage⟩ := call
  have hrest : ∀ first rest, stage = .finish (first :: rest) →
      DeployCall.GoesOn h ⟨kind, stage⟩ ⟨kind, .finish rest⟩ := by
    rintro first rest rfl
    exact goesOn_finish fun row v hmem hclaim ↦ hi.claimed_call hcall
      (mem_claimed_finish.mpr ⟨row, List.mem_cons_of_mem _ hmem, hclaim⟩)
  simp only [DeployState.write] at hs
  split at hs
  · obtain rfl := Option.some.inj hs
    exact hi.done hcall
  · obtain rfl := Option.some.inj hs
    exact hi.move (some ⟨kind, _⟩) hcall rfl rfl rfl (fun _ ↦ id) rfl
      (fun row hrow _ hclaim ↦ mem_claimed.mpr (Or.inl ⟨row, hrow, hclaim⟩))
      fun c hc ↦ Option.some.inj hc ▸ hrest _ _ rfl
  · split at hs
    · obtain rfl := Option.some.inj hs
      refine hi.writeRow hcall (fun r ↦ mem_saveRow) (fun v hclaim ↦ ?_) (hrest _ _ rfl)
      exact hi.claimed_call hcall (mem_claimed_finish.mpr ⟨_, List.mem_cons_self, hclaim⟩)
    · split at hs
      · obtain rfl := Option.some.inj hs
        exact hi.done hcall
      · obtain rfl := Option.some.inj hs
        exact hi.goOn hcall (hrest _ _ rfl)
  · exact absurd hs (by simp)

/-! ## Updates -/

theorem DeployInv.edit {edited : BehaviorTree} {now : Time} (hi : DeployInv h)
    (hcall : h.calls k = some call) (hs : h.edit k edited now call = some h') : DeployInv h' := by
  obtain ⟨kind, stage⟩ := call
  simp only [DeployState.edit] at hs
  split at hs
  · obtain rfl := Option.some.inj hs
    exact hi.goOn hcall (DeployStage.Quiet.goesOn ⟨fun kind ↦ by cases kind <;> rfl, by simp⟩ _ rfl)
  · exact absurd hs (by simp)

/-- The tree and the cache say nothing about what the agent has. -/
theorem DeployInv.update {stage : DeployStage} {tree : BehaviorTree}
    {cached : Option CanonicalGraph} (hi : DeployInv h) (hcall : h.calls k = some call)
    (hpre : call.stage.sent = false) (hquiet : stage.Quiet) :
    DeployInv { h.goOn k call stage with tree, cached } :=
  hi.move (some { call with stage }) hcall rfl rfl rfl (fun _ ↦ id) rfl
    (fun row hrow _ hclaim ↦ mem_claimed.mpr (Or.inl ⟨row, hrow, hclaim⟩))
    fun _ hc ↦ Option.some.inj hc ▸ hquiet.goesOn call.kind hpre

theorem DeployInv.store (hi : DeployInv h) (hcall : h.calls k = some call)
    (hs : h.store k call = some h') : DeployInv h' := by
  rw [DeployState.store] at hs
  split at hs
  · rename_i graph hstage
    obtain rfl := Option.some.inj hs
    exact hi.update hcall (by rw [hstage]; rfl) ⟨fun kind ↦ by cases kind <;> rfl, by simp⟩
  · exact absurd hs (by simp)

theorem DeployInv.refresh (hi : DeployInv h) (hcall : h.calls k = some call)
    (hs : h.refresh codec agentID k call = some h') : DeployInv h' := by
  rw [DeployState.refresh] at hs
  split at hs
  · rename_i graph hstage
    split at hs
    · obtain rfl := Option.some.inj hs
      exact hi.update hcall (by rw [hstage]; rfl) ⟨fun kind ↦ by cases kind <;> rfl, by simp⟩
    · obtain rfl := Option.some.inj hs
      exact hi.move none hcall rfl rfl rfl (fun _ ↦ id) rfl
        (fun row hrow _ hclaim ↦ mem_claimed.mpr (Or.inl ⟨row, hrow, hclaim⟩)) (by simp)
  · exact absurd hs (by simp)

/-- A call that has just begun. -/
theorem DeployInv.begin (hi : DeployInv h) (kind : DeployKind) :
    DeployInv { h with
      calls := Function.update h.calls h.count (some { kind }), count := h.count + 1 } := by
  have hold : ∀ j c, Function.update h.calls h.count (some { kind }) j = some c →
      j ≠ h.count → h.calls j = some c := fun j c hc hj ↦ by
    rwa [Function.update_of_ne hj] at hc
  refine ⟨fun v hv ↦ hi.claims v ?_, fun j hj ↦ ?_, fun j g hmem ↦ ?_, fun j err hmem ↦ ?_⟩
  · rcases mem_claimed.mp hv with hrow | ⟨j, -, c, hc, hclaim⟩ | ⟨j, c, hreply, hc, hawaited⟩
    · exact mem_claimed.mpr (Or.inl hrow)
    · by_cases hj : j = h.count
      · subst hj
        dsimp only at hc
        rw [Function.update_self] at hc
        obtain rfl := Option.some.inj hc
        cases kind <;> exact absurd hclaim List.not_mem_nil
      · exact hi.claimed_call (hold j c hc hj) hclaim
    · have hj : j ≠ h.count := by
        have := (hi.replies j none hreply).1
        omega
      exact mem_claimed.mpr (Or.inr (Or.inr ⟨j, c, hreply, hold j c hc hj, hawaited⟩))
  · have hlt : h.count < j := hj
    show Function.update h.calls h.count (some { kind }) j = none
    rw [Function.update_of_ne (by omega)]
    exact hi.beyond j (by omega)
  · obtain ⟨hlt, hsent⟩ := hi.inFlight j g hmem
    exact ⟨Nat.lt_succ_of_lt hlt, fun c hc ↦ hsent c (hold j c hc (by omega))⟩
  · obtain ⟨hlt, hsent⟩ := hi.replies j err hmem
    exact ⟨Nat.lt_succ_of_lt hlt, fun c hc ↦ hsent c (hold j c hc (by omega))⟩

/-! ## Runs -/

theorem deployInv_init (hinit : h.Initial) : DeployInv h := by
  obtain ⟨tree, hasHandler, rows, cached, accepted, hrows, rfl⟩ := hinit
  refine ⟨fun v hv ↦ ?_, fun _ _ ↦ rfl, by simp, by simp⟩
  rcases mem_claimed.mp hv with ⟨row, hrow, hclaim⟩ | ⟨j, hj, -⟩ | ⟨j, c, hreply, -⟩
  · rw [hrows row hrow] at hclaim
    exact absurd hclaim (by simp)
  · exact absurd hj (Nat.not_lt_zero j)
  · exact absurd hreply List.not_mem_nil

/-- **Every step in order keeps the invariant.** -/
theorem DeployInv.step {act : DeployAction} (hi : DeployInv h) (horder : h.inOrder act = true)
    (hstep : h.step codec agentID act = some h') : DeployInv h' := by
  cases act with
  | begin kind =>
    obtain rfl := Option.some.inj hstep
    exact hi.begin kind
  | findAssignment k found newID =>
    obtain ⟨call, hcall, hs⟩ := Option.bind_eq_some_iff.mp hstep
    exact hi.findAssignment hcall hs
  | compare k newID =>
    obtain ⟨call, hcall, hs⟩ := Option.bind_eq_some_iff.mp hstep
    exact hi.compare hcall hs
  | loadTree k agent =>
    obtain ⟨call, hcall, hs⟩ := Option.bind_eq_some_iff.mp hstep
    exact hi.loadTree hcall hs
  | mark k saved =>
    obtain ⟨call, hcall, hs⟩ := Option.bind_eq_some_iff.mp hstep
    exact hi.mark hcall hs
  | send k =>
    obtain ⟨call, hcall, hs⟩ := Option.bind_eq_some_iff.mp hstep
    exact hi.send hcall hs
  | simulate k now => exact absurd horder (by simp [DeployState.inOrder])
  | giveUp k err =>
    obtain ⟨call, hcall, hs⟩ := Option.bind_eq_some_iff.mp hstep
    exact hi.giveUp hcall hs
  | accept k g =>
    obtain ⟨hmem, hs⟩ := Option.ite_none_right_eq_some.mp hstep
    obtain rfl := Option.some.inj hs
    exact hi.accept hmem horder
  | reject k g err =>
    obtain ⟨hmem, hs⟩ := Option.ite_none_right_eq_some.mp hstep
    obtain rfl := Option.some.inj hs
    exact hi.reject hmem
  | lose k g =>
    obtain rfl := Option.some.inj hstep
    exact { hi with inFlight := fun j g' hmem ↦ hi.inFlight j g' (List.mem_of_mem_erase hmem) }
  | answer k err now =>
    obtain ⟨hmem, hs⟩ := Option.ite_none_right_eq_some.mp hstep
    obtain rfl := Option.some.inj hs
    exact hi.answer hmem
  | write k saved =>
    obtain ⟨call, hcall, hs⟩ := Option.bind_eq_some_iff.mp hstep
    exact hi.write hcall hs
  | edit k edited now =>
    obtain ⟨call, hcall, hs⟩ := Option.bind_eq_some_iff.mp hstep
    exact hi.edit hcall hs
  | store k =>
    obtain ⟨call, hcall, hs⟩ := Option.bind_eq_some_iff.mp hstep
    exact hi.store hcall hs
  | refresh k =>
    obtain ⟨call, hcall, hs⟩ := Option.bind_eq_some_iff.mp hstep
    exact hi.refresh hcall hs
  | recache canonicalGraph =>
    obtain rfl := Option.some.inj hstep
    exact { hi with claims := hi.claims }

/-- A call that is about to return without having sent anything makes a claim. -/
theorem DeployInv.faithful (hi : DeployInv h) : h.Faithful := by
  intro k force dbGraph hcall
  exact hi.claims _ (hi.claimed_call hcall (List.mem_singleton.mpr rfl))

/-- **`ensureGraphDeployed` is right to send nothing** in every run in which the agent accepts no
other version than the one it is taken to have, and no deployment is recorded without being sent. -/
theorem upToDate_accepted (codec : Schema.Codec) (agentID : String)
    (hreach : Reachable (DeployState.step codec agentID) (fun h act ↦ h.inOrder act = true)
      DeployState.Initial h) : h.Faithful := by
  have hinv : DeployInv h :=
    hreach.invariant (fun _ ↦ deployInv_init) fun _ _ _ _ hi horder hs ↦ hi.step horder hs
  exact hinv.faithful

/-- A tree with one step. -/
def dockTree (version : ℤ) (updatedAt : Time) : BehaviorTree where
  id := "dock_tree"
  name := "Dock"
  steps := "[\x7b\"id\":\"dock\"\x7d]"
  version := version
  updatedAt := updatedAt

/-- Decodes one text. -/
def dockCodec : Schema.Codec where
  unmarshalSteps text :=
    if text = (dockTree 0 0).steps then .ok [{ id := "dock" }] else .error "unexpected text"
  marshalSteps _ := (dockTree 0 0).steps
  unmarshalStrings _ := none
  marshalGraph _ := ""
  sha256 _ := ""

def dockGraph (version : ℤ) (updatedAt : Time) : CanonicalGraph :=
  deployedGraph "robot" { graphOf (dockTree version updatedAt) [{ id := "dock" }] with
    checksum := "sha256:" }

/-- The row of a deployment that has succeeded. -/
def dockRow (version : ℤ) (deployedAt : Time) : AgentBehaviorTree where
  id := "row"
  serverVersion := version
  deployedVersion := version
  deploymentStatus := "deployed"
  deployedAt := some deployedAt

theorem initial_undeployed (tree : BehaviorTree) : DeployState.Initial { tree } :=
  ⟨tree, true, [], none, none, by simp, rfl⟩

/-- A call finds what the one before has deployed. -/
theorem dock_upToDate : ∃ h : DeployState,
    h.calls 1 = some ⟨.ensureGraphDeployed false (dockTree 1 1000000), .upToDate⟩ ∧
      h.Faithful := by
  obtain ⟨h, hr, hcall⟩ := exists_reachable_of_run (DeployState.step dockCodec "robot")
    (fun h act ↦ h.inOrder act = true) (initial_undeployed (dockTree 1 1000000))
    [.begin (.ensureGraphDeployed false (dockTree 1 1000000)), .findAssignment 0 none "",
      .compare 0 "row", .mark 0 true, .send 0, .accept 0 (dockGraph 1 1000000),
      .answer 0 none 2000000, .write 0 true, .write 0 true, .write 0 true,
      .begin (.ensureGraphDeployed false (dockTree 1 1000000)),
      .findAssignment 1 (some (dockRow 1 2000000)) "", .compare 1 ""]
    (P := fun h ↦ h.calls 1 =
      some ⟨.ensureGraphDeployed false (dockTree 1 1000000), .upToDate⟩) (by decide +kernel)
  exact ⟨h, hcall, upToDate_accepted dockCodec "robot" hr⟩

/-- **A deployment of the version before that the agent accepts last is not noticed.** -/
theorem older_version_kept : ∃ h : DeployState, Reachable (DeployState.step dockCodec "robot")
    (fun _ _ ↦ True) DeployState.Initial h ∧ ¬h.Faithful := by
  obtain ⟨h, hr, hcall, haccepted⟩ := exists_reachable_of_run (DeployState.step dockCodec "robot")
    (fun _ _ ↦ True) (initial_undeployed (dockTree 1 1000000))
    [.begin .deployBehaviorTreeToAgent, .loadTree 0 (some ⟨"robot", "online", []⟩),
      .findAssignment 0 none "row", .mark 0 true, .send 0,
      .begin .updateBehaviorTree, .edit 1 (dockTree 1 1000000) 2000000, .store 1, .refresh 1,
      .begin (.ensureGraphDeployed false (dockTree 2 2000000)),
      .findAssignment 2 (some { id := "row", serverVersion := 1, deploymentStatus := "deploying" })
        "", .compare 2 "", .mark 2 true, .send 2, .accept 2 (dockGraph 2 2000000),
      .answer 2 none 3000000, .write 2 true, .write 2 true, .accept 0 (dockGraph 1 1000000),
      .begin (.ensureGraphDeployed false (dockTree 2 2000000)),
      .findAssignment 3 (some (dockRow 2 3000000)) "", .compare 3 ""]
    (P := fun h ↦ h.calls 3 =
        some ⟨.ensureGraphDeployed false (dockTree 2 2000000), .upToDate⟩ ∧
      h.acceptedVersion = some 1) (by decide +kernel)
  refine ⟨h, hr, fun hfaithful ↦ ?_⟩
  have htwo : h.acceptedVersion = some 2 := hfaithful 3 false _ hcall
  exact absurd (haccepted.symm.trans htwo) (by decide)

end Api
end FleetServer
