import FleetServer.Lib.Mirror
import FleetServer.State.Connections

/-!
# Agents that reconnect

`handleRegisterAgent` and `handleDisconnect` of `internal/grpc/raw_quic_handler.go`, for any number
of agents and connections.  Each call runs in a goroutine of its own, so a connection can be lost
while it registers, and the agent can come back on another one while the old is taken down.

Both handlers change the table of the connections under its lock, and tell the state manager after
they have let the lock go.  An agent's entry in the manager is therefore a mirror of its entry in
the table (`view_reachable`), and `views_agree` says in which runs the two agree once the handlers
are done.
-/

set_option autoImplicit false

namespace FleetServer
namespace Grpc

open GuardedRun State

/-! ## Calls -/

/-- What a call of `handleRegisterAgent` does next, once its connection has the id of the agent. -/
inductive RegisterStage
  | track
  | registerRobot
  | registerAgent
  deriving DecidableEq

structure RegisterCall where
  conn : ℕ
  agentID : String
  stage : RegisterStage := .track
  deriving DecidableEq

inductive DisconnectStage
  | untrack
  | unregisterAgent
  deriving DecidableEq

structure DisconnectCall where
  conn : ℕ
  stage : DisconnectStage := .untrack
  deriving DecidableEq

/-- The handler, with the calls that are under way.  Connections are numbered; `disconnected` says
for which of them `handleDisconnect` has been called, and is read by no step. -/
structure RawQUICHandler where
  stateManager : GlobalStateManager
  connections : String → Option ℕ := fun _ ↦ none
  /-- The agent of a connection, empty until it registers. -/
  agentID : ℕ → String := fun _ ↦ ""
  registers : List RegisterCall := []
  disconnects : List DisconnectCall := []
  disconnected : ℕ → Bool := fun _ ↦ false

namespace RawQUICHandler

variable (h : RawQUICHandler) (now : ℕ)

/-! ## Handlers -/

/-- `handleRegisterAgent` has the id of the agent, which is never empty, and stores it in the
connection. -/
def handleRegisterAgent (conn : ℕ) (agentID : String) : Option RawQUICHandler :=
  if agentID = "" then none
  else some { h with
    agentID := Function.update h.agentID conn agentID
    registers := { conn, agentID } :: h.registers }

/-- The next step of a call of `handleRegisterAgent`.  The connection that was in the table is
closed, which leads to a call of `handleDisconnect` some time later. -/
def registerStep (call : RegisterCall) : RawQUICHandler :=
  let others := h.registers.erase call
  match call.stage with
  | .track => { h with
      connections := Function.update h.connections call.agentID (some call.conn)
      registers := { call with stage := .registerRobot } :: others }
  | .registerRobot => { h with
      stateManager := h.stateManager.apply now (.manager (.registerRobot call.agentID "idle"))
      registers := { call with stage := .registerAgent } :: others }
  | .registerAgent => { h with
      stateManager := h.stateManager.apply now (.registerAgent call.agentID)
      registers := others }

/-- `handleDisconnect`: there is nothing to do for a connection that has not registered. -/
def handleDisconnect (conn : ℕ) : RawQUICHandler :=
  { h with
    disconnected := Function.update h.disconnected conn true
    disconnects := if h.agentID conn = "" then h.disconnects else { conn } :: h.disconnects }

/-- The next step of a call of `handleDisconnect`.  It returns when the agent is in the table with
another connection, or not at all. -/
def disconnectStep (call : DisconnectCall) : RawQUICHandler :=
  let agentID := h.agentID call.conn
  let others := h.disconnects.erase call
  match call.stage with
  | .untrack =>
    if h.connections agentID = some call.conn then { h with
      connections := Function.update h.connections agentID none
      disconnects := { call with stage := .unregisterAgent } :: others }
    else { h with disconnects := others }
  | .unregisterAgent => { h with
      stateManager := h.stateManager.apply now (.unregisterAgent agentID)
      disconnects := others }

end RawQUICHandler

inductive HandlerAction
  | handleRegisterAgent (conn : ℕ) (agentID : String)
  | registerStep (now : ℕ) (call : RegisterCall)
  | handleDisconnect (conn : ℕ)
  | disconnectStep (now : ℕ) (call : DisconnectCall)

namespace RawQUICHandler

variable (h : RawQUICHandler) (a : String)

/-- One step of one of the calls. -/
def step : HandlerAction → Option RawQUICHandler
  | .handleRegisterAgent conn agentID => h.handleRegisterAgent conn agentID
  | .registerStep now call => if call ∈ h.registers then some (h.registerStep now call) else none
  | .handleDisconnect conn => some (h.handleDisconnect conn)
  | .disconnectStep now call =>
    if call ∈ h.disconnects then some (h.disconnectStep now call) else none

/-- No agent has connected yet. -/
def Initial : Prop := ∃ stateManager : GlobalStateManager,
  stateManager.agents = (fun _ ↦ none) ∧ h = { stateManager }

/-! ## Two views of an agent -/

/-- The handlers of the agent are done. -/
def Finished : Prop :=
  (∀ call ∈ h.registers, call.agentID ≠ a) ∧ ∀ call ∈ h.disconnects, h.agentID call.conn ≠ a

/-- The agent is registered and online in the state manager. -/
def registeredOnline : Bool :=
  (h.stateManager.agents a).isSome && (h.stateManager.manager.robots a).any (·.isOnline)

/-- The agent is registered and online exactly when it is in the table with a connection that has
not been disconnected. -/
def ViewsAgree : Prop :=
  h.registeredOnline a = true ↔
    ∃ conn, h.connections a = some conn ∧ h.disconnected conn = false

/-! ## The order of the steps -/

/-- The call is one for the agent that has still to register it in the manager. -/
def announces (call : RegisterCall) : Bool := call.agentID = a && call.stage ≠ .track

/-- The call is one for the agent that has still to unregister it there. -/
def retracts (call : DisconnectCall) : Bool :=
  h.agentID call.conn = a && call.stage = .unregisterAgent

/-- The manager is told about the agent what the table says, or will be; a connection that enters
the table is still going to be disconnected if it has been lost; and no connection of the agent
registers for another one. -/
def inOrder : HandlerAction → Bool
  | .handleRegisterAgent conn agentID =>
    (agentID ≠ a && h.agentID conn ≠ a) || h.agentID conn = "" || h.agentID conn = agentID
  | .registerStep _ ⟨conn, agentID, .track⟩ =>
    agentID ≠ a || !h.disconnected conn || ({ conn } : DisconnectCall) ∈ h.disconnects
  | .registerStep _ ⟨_, agentID, .registerAgent⟩ =>
    agentID ≠ a || (h.connections a).isSome || h.disconnects.any (h.retracts a)
  | .disconnectStep _ ⟨conn, .unregisterAgent⟩ =>
    h.agentID conn ≠ a || (h.connections a).isNone || h.registers.any (announces a)
  | _ => true

end RawQUICHandler

variable {g : GlobalStateManager} {now : ℕ} {a id : String}

/-! ## What the calls do to the manager -/

theorem robots_registerRobot_self : ∃ robot,
    (g.apply now (.manager (.registerRobot id "idle"))).manager.robots id = some robot ∧
      robot.isOnline = true :=
  ⟨_, Function.update_self .., rfl⟩

theorem robots_registerRobot_of_ne (hne : a ≠ id) :
    (g.apply now (.manager (.registerRobot id "idle"))).manager.robots a =
      g.manager.robots a :=
  Function.update_of_ne hne ..

theorem agents_registerAgent_self :
    ((g.apply now (.registerAgent id)).agents id).isSome = true := by
  simp [GlobalStateManager.apply, GlobalStateManager.registerAgent]

theorem agents_registerAgent_of_ne (hne : a ≠ id) :
    (g.apply now (.registerAgent id)).agents a = g.agents a :=
  Function.update_of_ne hne ..

/-- A write of the online flag is one to the robot of the agent. -/
theorem robots_markOnline_of_ne {m : Manager} {mark : RobotState → RobotState} (hne : a ≠ id) :
    (GlobalStateManager.markOnline m id mark).robots a = m.robots a := by
  rw [GlobalStateManager.markOnline]
  split
  · rfl
  · exact Function.update_of_ne hne ..

theorem robots_markOnline_self {m : Manager} {mark : RobotState → RobotState} :
    (GlobalStateManager.markOnline m id mark).robots id = (m.robots id).map mark := by
  rw [GlobalStateManager.markOnline]
  split
  · rename_i hnone
    rw [hnone, Option.map_none]
  · rename_i robot hrobot
    rw [hrobot, Option.map_some]
    exact Function.update_self ..

theorem agents_unregisterAgent_self :
    (g.apply now (.unregisterAgent id)).agents id = none := by
  rw [GlobalStateManager.apply, GlobalStateManager.unregisterAgent]
  split
  · rename_i hnone
    exact hnone
  · exact Function.update_self ..

theorem agents_unregisterAgent_of_ne (hne : a ≠ id) :
    (g.apply now (.unregisterAgent id)).agents a = g.agents a := by
  rw [GlobalStateManager.apply, GlobalStateManager.unregisterAgent]
  split
  · rfl
  · exact Function.update_of_ne hne ..

theorem robots_unregisterAgent_of_ne (hne : a ≠ id) :
    (g.apply now (.unregisterAgent id)).manager.robots a = g.manager.robots a := by
  rw [GlobalStateManager.apply, GlobalStateManager.unregisterAgent]
  split
  · rfl
  · exact robots_markOnline_of_ne hne

/-- No handler removes a robot. -/
theorem isSome_robots_unregisterAgent (hsome : (g.manager.robots a).isSome = true) :
    ((g.apply now (.unregisterAgent id)).manager.robots a).isSome = true := by
  by_cases hne : a = id
  · subst hne
    rw [GlobalStateManager.apply, GlobalStateManager.unregisterAgent]
    split
    · exact hsome
    · dsimp only
      rw [robots_markOnline_self, Option.isSome_map]
      exact hsome
  · rw [robots_unregisterAgent_of_ne hne]
    exact hsome

/-! ## The invariant -/

variable {h h' : RawQUICHandler}

theorem disconnectStep_of_current {conn : ℕ}
    (hcurrent : h.connections (h.agentID conn) = some conn) :
    h.disconnectStep now ⟨conn, .untrack⟩ = { h with
      connections := Function.update h.connections (h.agentID conn) none
      disconnects := ⟨conn, .unregisterAgent⟩ :: h.disconnects.erase ⟨conn, .untrack⟩ } :=
  if_pos hcurrent

theorem disconnectStep_of_replaced {conn : ℕ}
    (hreplaced : h.connections (h.agentID conn) ≠ some conn) :
    h.disconnectStep now ⟨conn, .untrack⟩ =
      { h with disconnects := h.disconnects.erase ⟨conn, .untrack⟩ } :=
  if_neg hreplaced

/-- What holds of an agent in the runs that keep to the order of its steps. -/
structure CallInv (h : RawQUICHandler) (a : String) : Prop where
  registers : ∀ call ∈ h.registers, call.agentID ≠ "" ∧
    (call.agentID = a → h.agentID call.conn = a)
  disconnects : ∀ call ∈ h.disconnects, h.agentID call.conn ≠ ""
  /-- The connection in the table is the agent's, and will leave it if it has been lost. -/
  tracked : ∀ conn, h.connections a = some conn → a ≠ "" ∧ h.agentID conn = a ∧
    (h.disconnected conn = false ∨ ({ conn } : DisconnectCall) ∈ h.disconnects)
  robot : ∀ call ∈ h.registers, call.agentID = a → call.stage = .registerAgent →
    (h.stateManager.manager.robots a).isSome = true
  online : (h.stateManager.agents a).isSome = true →
    ∃ robot, h.stateManager.manager.robots a = some robot ∧ robot.isOnline = true

namespace CallInv

theorem handleRegisterAgent {conn : ℕ} (hi : CallInv h a)
    (hok : h.inOrder a (.handleRegisterAgent conn id) = true)
    (hs : h.handleRegisterAgent conn id = some h') : CallInv h' a := by
  rw [RawQUICHandler.handleRegisterAgent] at hs
  split at hs
  · exact absurd hs (by simp)
  · rename_i hid
    obtain rfl := Option.some.inj hs
    -- a connection of the agent keeps its id
    have hkept : ∀ {c : ℕ}, a ≠ "" → h.agentID c = a →
        Function.update h.agentID conn id c = a := by
      intro c ha hc
      by_cases hcc : c = conn
      · subst hcc
        rw [Function.update_self]
        simpa [RawQUICHandler.inOrder, hc, ha, eq_comm] using hok
      · rwa [Function.update_of_ne hcc]
    refine ⟨fun call hcall ↦ ?_, fun call hcall ↦ ?_, fun c hc ↦ ?_, fun call hcall ↦ ?_,
      hi.online⟩
    · rcases List.mem_cons.mp hcall with rfl | hcall
      · exact ⟨hid, fun heq ↦ by rw [← heq]; exact Function.update_self ..⟩
      · obtain ⟨hne, hconn⟩ := hi.registers call hcall
        exact ⟨hne, fun heq ↦ hkept (heq ▸ hne) (hconn heq)⟩
    · dsimp only
      by_cases hcc : call.conn = conn
      · rwa [hcc, Function.update_self]
      · rw [Function.update_of_ne hcc]
        exact hi.disconnects call hcall
    · obtain ⟨ha, hconn, hlost⟩ := hi.tracked c hc
      exact ⟨ha, hkept ha hconn, hlost⟩
    · rcases List.mem_cons.mp hcall with rfl | hcall
      · rintro - hstage
        exact absurd hstage (by simp)
      · exact hi.robot call hcall

theorem registerStep {call : RegisterCall} (hi : CallInv h a) (hmem : call ∈ h.registers)
    (hok : h.inOrder a (.registerStep now call) = true) :
    CallInv (h.registerStep now call) a := by
  obtain ⟨conn, id, stage⟩ := call
  obtain ⟨hid, hconn⟩ := hi.registers _ hmem
  -- the call goes on under the same id
  have hregisters : ∀ {stage'} {call : RegisterCall},
      call ∈ ⟨conn, id, stage'⟩ :: h.registers.erase ⟨conn, id, stage⟩ →
        call.agentID ≠ "" ∧ (call.agentID = a → h.agentID call.conn = a) := by
    intro stage' call hcall
    rcases List.mem_cons.mp hcall with rfl | hcall
    · exact ⟨hid, hconn⟩
    · exact hi.registers call (List.mem_of_mem_erase hcall)
  cases stage with
  | track =>
    refine ⟨fun _ ↦ hregisters, hi.disconnects, fun c hc ↦ ?_, fun call hcall ↦ ?_, hi.online⟩
    · dsimp only [RawQUICHandler.registerStep] at hc ⊢
      by_cases hself : a = id
      · subst hself
        rw [Function.update_self] at hc
        obtain rfl := Option.some.inj hc
        exact ⟨hid, hconn rfl, by simpa [RawQUICHandler.inOrder] using hok⟩
      · rw [Function.update_of_ne hself] at hc
        exact hi.tracked c hc
    · rcases List.mem_cons.mp hcall with rfl | hcall
      · rintro - hstage
        exact absurd hstage (by simp)
      · exact hi.robot call (List.mem_of_mem_erase hcall)
  | registerRobot =>
    refine ⟨fun _ ↦ hregisters, hi.disconnects, hi.tracked, fun call hcall hself hstage ↦ ?_,
      fun hagent ↦ ?_⟩
    · dsimp only [RawQUICHandler.registerStep]
      by_cases heq : a = id
      · subst heq
        obtain ⟨robot, hrobot, -⟩ : ∃ robot, (h.stateManager.apply now (.manager
            (.registerRobot a "idle"))).manager.robots a = some robot ∧ robot.isOnline = true :=
          robots_registerRobot_self
        rw [hrobot]
        rfl
      · rw [robots_registerRobot_of_ne heq]
        rcases List.mem_cons.mp hcall with rfl | hcall
        · exact absurd hself.symm heq
        · exact hi.robot call (List.mem_of_mem_erase hcall) hself hstage
    · dsimp only [RawQUICHandler.registerStep]
      by_cases heq : a = id
      · subst heq
        exact robots_registerRobot_self
      · rw [robots_registerRobot_of_ne heq]
        exact hi.online hagent
  | registerAgent =>
    have hothers : ∀ call ∈ h.registers.erase ⟨conn, id, .registerAgent⟩, call ∈ h.registers :=
      fun call ↦ List.mem_of_mem_erase
    have hrobots : (h.stateManager.apply now (.registerAgent id)).manager.robots a =
        if a = id then (h.stateManager.manager.robots a).map
            fun robot ↦ { robot with isOnline := true, lastSeen := now }
          else h.stateManager.manager.robots a := by
      split
      · rename_i heq
        subst heq
        exact robots_markOnline_self
      · rename_i heq
        exact robots_markOnline_of_ne heq
    refine ⟨fun call hcall ↦ hi.registers call (hothers call hcall), hi.disconnects, hi.tracked,
      fun call hcall hself hstage ↦ ?_, fun hagent ↦ ?_⟩
    · dsimp only [RawQUICHandler.registerStep]
      have hsome := hi.robot call (hothers call hcall) hself hstage
      rw [hrobots]
      split
      · rwa [Option.isSome_map]
      · exact hsome
    · dsimp only [RawQUICHandler.registerStep] at hagent ⊢
      rw [hrobots]
      split
      · rename_i heq
        subst heq
        obtain ⟨robot, hrobot⟩ := Option.isSome_iff_exists.mp (hi.robot _ hmem rfl rfl)
        exact ⟨_, by rw [hrobot, Option.map_some], rfl⟩
      · rename_i heq
        rw [agents_registerAgent_of_ne heq] at hagent
        exact hi.online hagent

theorem handleDisconnect (hi : CallInv h a) (conn : ℕ) :
    CallInv (h.handleDisconnect conn) a := by
  have hmem : ∀ {call : DisconnectCall}, call ∈ h.disconnects →
      call ∈ (h.handleDisconnect conn).disconnects := by
    intro call hcall
    dsimp only [RawQUICHandler.handleDisconnect]
    split
    · exact hcall
    · exact List.mem_cons_of_mem _ hcall
  refine ⟨hi.registers, fun call hcall ↦ ?_, fun c hc ↦ ?_, hi.robot, hi.online⟩
  · dsimp only [RawQUICHandler.handleDisconnect] at hcall
    split at hcall
    · exact hi.disconnects call hcall
    · rename_i hne
      rcases List.mem_cons.mp hcall with rfl | hcall
      · exact hne
      · exact hi.disconnects call hcall
  · obtain ⟨ha, hconn, hlost⟩ := hi.tracked c hc
    refine ⟨ha, hconn, ?_⟩
    by_cases hcc : c = conn
    · subst hcc
      have hne : h.agentID c ≠ "" := hconn ▸ ha
      refine Or.inr ?_
      simp [RawQUICHandler.handleDisconnect, hne]
    · refine hlost.imp (fun hlive ↦ ?_) hmem
      exact (Function.update_of_ne hcc ..).trans hlive

theorem disconnectStep {call : DisconnectCall} (hi : CallInv h a)
    (hmem : call ∈ h.disconnects) : CallInv (h.disconnectStep now call) a := by
  obtain ⟨conn, stage⟩ := call
  have hne := hi.disconnects _ hmem
  have hothers : ∀ call ∈ h.disconnects.erase ⟨conn, stage⟩, call ∈ h.disconnects :=
    fun call ↦ List.mem_of_mem_erase
  cases stage with
  | untrack =>
    -- the agent's own connection is not passed over
    have htracked : ∀ {c : ℕ}, c ≠ conn → h.connections a = some c → a ≠ "" ∧ h.agentID c = a ∧
        (h.disconnected c = false ∨
          ({ conn := c } : DisconnectCall) ∈ h.disconnects.erase ⟨conn, .untrack⟩) := by
      intro c hcc hc
      obtain ⟨ha, hconn, hlost⟩ := hi.tracked c hc
      exact ⟨ha, hconn, hlost.imp_right fun hin ↦
        (List.mem_erase_of_ne (by simpa using hcc)).mpr hin⟩
    by_cases hcurrent : h.connections (h.agentID conn) = some conn
    · rw [disconnectStep_of_current hcurrent]
      refine ⟨hi.registers, fun call hcall ↦ ?_, fun c hc ↦ ?_, hi.robot, hi.online⟩
      · rcases List.mem_cons.mp hcall with rfl | hcall
        · exact hne
        · exact hi.disconnects call (hothers call hcall)
      · dsimp only at hc ⊢
        by_cases hself : a = h.agentID conn
        · rw [hself, Function.update_self] at hc
          exact absurd hc (by simp)
        · rw [Function.update_of_ne hself] at hc
          have hcc : c ≠ conn := by
            rintro rfl
            exact hself (hi.tracked c hc).2.1.symm
          obtain ⟨ha, hconn, hlost⟩ := htracked hcc hc
          exact ⟨ha, hconn, hlost.imp_right (List.mem_cons_of_mem _)⟩
    · rw [disconnectStep_of_replaced hcurrent]
      refine ⟨hi.registers, fun call hcall ↦ hi.disconnects call (hothers call hcall),
        fun c hc ↦ htracked ?_ hc, hi.robot, hi.online⟩
      rintro rfl
      rw [(hi.tracked c hc).2.1] at hcurrent
      exact hcurrent hc
  | unregisterAgent =>
    refine ⟨hi.registers, fun call hcall ↦ hi.disconnects call (hothers call hcall),
      fun c hc ↦ ?_, fun call hcall hself hstage ↦ ?_, fun hagent ↦ ?_⟩
    · obtain ⟨ha, hconn, hlost⟩ := hi.tracked c hc
      exact ⟨ha, hconn, hlost.imp_right fun hin ↦ (List.mem_erase_of_ne (by simp)).mpr hin⟩
    · show ((h.stateManager.apply now (.unregisterAgent (h.agentID conn))).manager.robots
        a).isSome = true
      exact isSome_robots_unregisterAgent (hi.robot call hcall hself hstage)
    · dsimp only [RawQUICHandler.disconnectStep] at hagent ⊢
      by_cases hself : a = h.agentID conn
      · rw [hself, agents_unregisterAgent_self] at hagent
        exact absurd hagent (by simp)
      · rw [agents_unregisterAgent_of_ne hself] at hagent
        rw [robots_unregisterAgent_of_ne hself]
        exact hi.online hagent

end CallInv

/-! ## The manager as a mirror of the table -/

theorem countP_eq_of_mem {α : Type} [DecidableEq α] {l : List α} {x : α} (p : α → Bool)
    (hx : x ∈ l) : l.countP p = (l.erase x).countP p + if p x then 1 else 0 := by
  rw [(List.perm_cons_erase hx).countP_eq, List.countP_cons]

/-- What the table and the manager say of the agent, and what the manager has still to be told. -/
def RawQUICHandler.view (h : RawQUICHandler) (a : String) : Mirrored Bool where
  value := (h.connections a).isSome
  mirror := (h.stateManager.agents a).isSome
  pending := Multiset.replicate (h.registers.countP (RawQUICHandler.announces a)) true +
    Multiset.replicate (h.disconnects.countP (h.retracts a)) false

theorem view_congr
    (hconnections : (h'.connections a).isSome = (h.connections a).isSome)
    (hagents : (h'.stateManager.agents a).isSome = (h.stateManager.agents a).isSome)
    (hregisters : h'.registers.countP (RawQUICHandler.announces a) =
      h.registers.countP (RawQUICHandler.announces a))
    (hdisconnects : h'.disconnects.countP (h'.retracts a) = h.disconnects.countP (h.retracts a)) :
    h'.view a = h.view a := by
  simp only [RawQUICHandler.view, hconnections, hagents, hregisters, hdisconnects]

theorem announces_iff {call : RegisterCall} :
    RawQUICHandler.announces a call = true ↔ call.agentID = a ∧ call.stage ≠ .track := by
  simp [RawQUICHandler.announces]

theorem retracts_iff {call : DisconnectCall} :
    h.retracts a call = true ↔ h.agentID call.conn = a ∧ call.stage = .unregisterAgent := by
  simp [RawQUICHandler.retracts]

/-- An entry has still to be copied to the manager. -/
theorem true_mem_pending :
    true ∈ (h.view a).pending ↔ h.registers.any (RawQUICHandler.announces a) = true := by
  simp [RawQUICHandler.view, Multiset.mem_replicate, ← List.any_eq_true]

/-- The removal of an entry has. -/
theorem false_mem_pending :
    false ∈ (h.view a).pending ↔ h.disconnects.any (h.retracts a) = true := by
  simp [RawQUICHandler.view, Multiset.mem_replicate, ← List.any_eq_true]

namespace CallInv

theorem view_handleRegisterAgent {conn : ℕ} (hi : CallInv h a)
    (hok : h.inOrder a (.handleRegisterAgent conn id) = true)
    (hs : h.handleRegisterAgent conn id = some h') : h'.view a = h.view a := by
  rw [RawQUICHandler.handleRegisterAgent] at hs
  split at hs
  · exact absurd hs (by simp)
  · obtain rfl := Option.some.inj hs
    refine view_congr rfl rfl (List.countP_cons_of_neg (by simp [RawQUICHandler.announces]))
      (List.countP_congr fun call hcall ↦ ?_)
    have hne := hi.disconnects call hcall
    rw [retracts_iff, retracts_iff]
    refine and_congr_left fun _ ↦ ?_
    dsimp only
    by_cases hcc : call.conn = conn
    · rw [hcc] at hne ⊢
      rw [Function.update_self]
      simp only [RawQUICHandler.inOrder, hne, Bool.or_eq_true, Bool.and_eq_true,
        decide_eq_true_eq, decide_false, Bool.or_false] at hok
      grind
    · rw [Function.update_of_ne hcc]

theorem view_handleDisconnect (conn : ℕ) : (h.handleDisconnect conn).view a = h.view a := by
  refine view_congr rfl rfl rfl ?_
  dsimp only [RawQUICHandler.handleDisconnect]
  split
  · rfl
  · exact List.countP_cons_of_neg (by simp [RawQUICHandler.retracts])

/-- A step of `handleRegisterAgent` is none of the mirror, or the write or the copy of an entry. -/
theorem view_registerStep {call : RegisterCall} (hmem : call ∈ h.registers)
    (hok : h.inOrder a (.registerStep now call) = true) :
    (h.registerStep now call).view a = h.view a ∨ ∃ b, (h.view a).Current b ∧
      (h.view a).step b = some ((h.registerStep now call).view a) := by
  obtain ⟨conn, id, stage⟩ := call
  have hcount := countP_eq_of_mem (RawQUICHandler.announces a) hmem
  by_cases hself : id = a
  · subst hself
    cases stage with
    | track =>
      have hmore : (⟨conn, id, .registerRobot⟩ :: h.registers.erase ⟨conn, id, .track⟩).countP
          (RawQUICHandler.announces id) = h.registers.countP (RawQUICHandler.announces id) + 1 := by
        rw [hcount, List.countP_cons]
        simp [RawQUICHandler.announces]
      refine Or.inr ⟨.write true, trivial, congrArg some ?_⟩
      simp only [RawQUICHandler.view, RawQUICHandler.registerStep, hmore, Multiset.replicate_succ,
        Multiset.cons_add, Function.update_self, Option.isSome_some]
      rfl
    | registerRobot =>
      refine Or.inl (view_congr rfl rfl ?_ rfl)
      rw [hcount]
      exact List.countP_cons
    | registerAgent =>
      have hpending : (h.view id).pending =
          true ::ₘ ((h.registerStep now ⟨conn, id, .registerAgent⟩).view id).pending := by
        rw [if_pos (by simp [RawQUICHandler.announces])] at hcount
        simp only [RawQUICHandler.view, RawQUICHandler.registerStep, hcount,
          Multiset.replicate_succ, Multiset.cons_add]
        rfl
      refine Or.inr ⟨.copy true, (Mirrored.current_copy hpending).mpr ?_, ?_⟩
      · cases hentry : (h.connections id).isSome with
        | true => exact Or.inl hentry.symm
        | false =>
          refine Or.inr ?_
          rw [show (h.view id).value = false from hentry, false_mem_pending]
          have hcoming : h.disconnects.any (h.retracts id) = true := by
            simpa [RawQUICHandler.inOrder, hentry] using hok
          exact hcoming
      · rw [Mirrored.step_copy hpending]
        refine congrArg some (congrArg (Mirrored.mk _ · _) ?_)
        exact agents_registerAgent_self.symm
  · have hnot : ∀ stage, RawQUICHandler.announces a ⟨conn, id, stage⟩ = false := fun stage ↦ by
      simp [RawQUICHandler.announces, hself]
    rw [hnot, if_neg (by simp), Nat.add_zero] at hcount
    have hmove : ∀ stage', (⟨conn, id, stage'⟩ :: h.registers.erase ⟨conn, id, stage⟩).countP
        (RawQUICHandler.announces a) = h.registers.countP (RawQUICHandler.announces a) :=
      fun stage' ↦ by rw [List.countP_cons_of_neg (by simp [hnot]), hcount]
    have hne : a ≠ id := Ne.symm hself
    refine Or.inl ?_
    cases stage with
    | track =>
      exact view_congr (congrArg Option.isSome (Function.update_of_ne hne ..)) rfl (hmove _) rfl
    | registerRobot => exact view_congr rfl rfl (hmove _) rfl
    | registerAgent =>
      exact view_congr rfl (congrArg Option.isSome (agents_registerAgent_of_ne hne)) hcount.symm rfl

/-- A step of `handleDisconnect` is none of the mirror, or the write or the copy of a removal. -/
theorem view_disconnectStep {call : DisconnectCall} (hmem : call ∈ h.disconnects)
    (hok : h.inOrder a (.disconnectStep now call) = true) :
    (h.disconnectStep now call).view a = h.view a ∨ ∃ b, (h.view a).Current b ∧
      (h.view a).step b = some ((h.disconnectStep now call).view a) := by
  obtain ⟨conn, stage⟩ := call
  have hcount := countP_eq_of_mem (h.retracts a) hmem
  cases stage with
  | untrack =>
    rw [if_neg (by simp [RawQUICHandler.retracts]), Nat.add_zero] at hcount
    by_cases hcurrent : h.connections (h.agentID conn) = some conn
    · rw [disconnectStep_of_current hcurrent]
      by_cases hself : h.agentID conn = a
      · have hmore : (⟨conn, .unregisterAgent⟩ :: h.disconnects.erase ⟨conn, .untrack⟩).countP
            (h.retracts a) = h.disconnects.countP (h.retracts a) + 1 := by
          rw [hcount, List.countP_cons_of_pos (retracts_iff.mpr ⟨hself, rfl⟩)]
        refine Or.inr ⟨.write false, trivial, congrArg some ?_⟩
        have hpending : Multiset.replicate (h.registers.countP (RawQUICHandler.announces a)) true +
            Multiset.replicate ((⟨conn, .unregisterAgent⟩ ::
              h.disconnects.erase ⟨conn, .untrack⟩).countP (h.retracts a)) false =
            false ::ₘ (h.view a).pending := by
          rw [hmore, Multiset.replicate_succ, Multiset.add_cons]
          rfl
        refine (Mirrored.mk.injEq ..).mpr ⟨?_, rfl, hpending.symm⟩
        dsimp only
        rw [hself, Function.update_self]
        rfl
      · refine Or.inl (view_congr ?_ rfl rfl ?_)
        · exact congrArg Option.isSome (Function.update_of_ne (Ne.symm hself) ..)
        · rw [hcount]
          exact List.countP_cons_of_neg (by simp [RawQUICHandler.retracts, hself])
    · rw [disconnectStep_of_replaced hcurrent]
      exact Or.inl (view_congr rfl rfl rfl hcount.symm)
  | unregisterAgent =>
    by_cases hself : h.agentID conn = a
    · have hpending : (h.view a).pending =
          false ::ₘ ((h.disconnectStep now ⟨conn, .unregisterAgent⟩).view a).pending := by
        rw [if_pos (retracts_iff.mpr ⟨hself, rfl⟩)] at hcount
        simp only [RawQUICHandler.view, hcount, Multiset.replicate_succ, Multiset.add_cons]
        rfl
      refine Or.inr ⟨.copy false, (Mirrored.current_copy hpending).mpr ?_, ?_⟩
      · cases hentry : (h.connections a).isSome with
        | false => exact Or.inl hentry.symm
        | true =>
          refine Or.inr ?_
          rw [show (h.view a).value = true from hentry, true_mem_pending]
          have hnotNone : (h.connections a).isNone = false := by
            rw [Option.isNone_eq_false_iff, hentry]
          have hcoming : h.registers.any (RawQUICHandler.announces a) = true := by
            simpa [RawQUICHandler.inOrder, hself, hnotNone] using hok
          exact hcoming
      · rw [Mirrored.step_copy hpending]
        refine congrArg some (congrArg (Mirrored.mk _ · _) ?_)
        have hgone : (h.stateManager.apply now (.unregisterAgent (h.agentID conn))).agents
            (h.agentID conn) = none := agents_unregisterAgent_self
        rw [hself] at hgone
        rw [RawQUICHandler.disconnectStep]
        dsimp only [RawQUICHandler.view]
        rw [hself, hgone]
        rfl
    · have hagents : (h.stateManager.apply now (.unregisterAgent (h.agentID conn))).agents a =
          h.stateManager.agents a := agents_unregisterAgent_of_ne (Ne.symm hself)
      refine Or.inl (view_congr rfl (congrArg Option.isSome hagents) rfl ?_)
      rw [hcount, if_neg (by simp [RawQUICHandler.retracts, hself])]
      rfl

/-- **Every step in order keeps the invariant.** -/
theorem step {act : HandlerAction} (hi : CallInv h a) (hok : h.inOrder a act = true)
    (hs : h.step act = some h') : CallInv h' a := by
  cases act with
  | handleRegisterAgent conn agentID => exact hi.handleRegisterAgent hok hs
  | registerStep now call =>
    obtain ⟨hmem, heq⟩ := Option.ite_none_right_eq_some.mp hs
    obtain rfl := Option.some.inj heq
    exact hi.registerStep hmem hok
  | handleDisconnect conn =>
    obtain rfl := Option.some.inj hs
    exact hi.handleDisconnect conn
  | disconnectStep now call =>
    obtain ⟨hmem, heq⟩ := Option.ite_none_right_eq_some.mp hs
    obtain rfl := Option.some.inj heq
    exact hi.disconnectStep hmem

theorem initial (hinit : h.Initial) : CallInv h a := by
  obtain ⟨stateManager, hagents, rfl⟩ := hinit
  constructor <;> simp [hagents]

end CallInv

/-- The runs of the handlers in which the steps for the agent are in order. -/
def ReachableInOrder (a : String) : RawQUICHandler → Prop :=
  Reachable RawQUICHandler.step (fun h act ↦ h.inOrder a act = true) RawQUICHandler.Initial

theorem callInv_of_reachable (hr : ReachableInOrder a h) : CallInv h a :=
  hr.invariant (fun _ hinit ↦ CallInv.initial hinit) fun _ _ _ _ hi hok hs ↦ hi.step hok hs

/-- **The manager is a mirror of the table**, and every copy to it is current. -/
theorem view_reachable (hr : ReachableInOrder a h) :
    Reachable Mirrored.step Mirrored.Current Mirrored.Initial (h.view a) := by
  refine hr.simulate (fun h ↦ h.view a) (fun h hinit ↦ ?_) fun h act h' hr hok hs ↦ ?_
  · obtain ⟨stateManager, hagents, rfl⟩ := hinit
    exact ⟨congrArg Option.isSome (congrFun hagents a), rfl⟩
  · have hi : CallInv h a := callInv_of_reachable hr
    cases act with
    | handleRegisterAgent conn agentID => exact Or.inl (hi.view_handleRegisterAgent hok hs)
    | registerStep now call =>
      obtain ⟨hmem, heq⟩ := Option.ite_none_right_eq_some.mp hs
      obtain rfl := Option.some.inj heq
      exact CallInv.view_registerStep hmem hok
    | handleDisconnect conn =>
      obtain rfl := Option.some.inj hs
      exact Or.inl (CallInv.view_handleDisconnect conn)
    | disconnectStep now call =>
      obtain ⟨hmem, heq⟩ := Option.ite_none_right_eq_some.mp hs
      obtain rfl := Option.some.inj heq
      exact CallInv.view_disconnectStep hmem hok

/-! ## When the handlers are done -/

/-- **The state manager agrees with the table once the handlers of the agent are done**, when the
steps for the agent have been in order. -/
theorem views_agree (hr : ReachableInOrder a h) (hdone : h.Finished a) : h.ViewsAgree a := by
  obtain ⟨hregisters, hdisconnects⟩ := hdone
  have hi : CallInv h a := callInv_of_reachable hr
  have hpending : (h.view a).pending = 0 := by
    have hnone : h.registers.countP (RawQUICHandler.announces a) = 0 :=
      List.countP_eq_zero.mpr fun call hcall hann ↦ hregisters call hcall (announces_iff.mp hann).1
    have hnone' : h.disconnects.countP (h.retracts a) = 0 :=
      List.countP_eq_zero.mpr fun call hcall hret ↦
        hdisconnects call hcall (retracts_iff.mp hret).1
    rw [RawQUICHandler.view, hnone, hnone']
    rfl
  have hmirror : (h.stateManager.agents a).isSome = (h.connections a).isSome :=
    Mirrored.mirror_eq_value (view_reachable hr) hpending
  rw [RawQUICHandler.ViewsAgree, RawQUICHandler.registeredOnline, Bool.and_eq_true, hmirror]
  constructor
  · rintro ⟨hentry, -⟩
    obtain ⟨conn, hconn⟩ := Option.isSome_iff_exists.mp hentry
    obtain ⟨-, hagent, hlost⟩ := hi.tracked conn hconn
    exact ⟨conn, hconn, hlost.resolve_right fun hin ↦ hdisconnects _ hin hagent⟩
  · rintro ⟨conn, hconn, -⟩
    have hentry : (h.connections a).isSome = true := by rw [hconn]; rfl
    obtain ⟨robot, hrobot, honline⟩ := hi.online (hmirror.trans hentry)
    refine ⟨hentry, ?_⟩
    rw [hrobot]
    exact honline

/-! ## Runs -/

def registerSteps (conn : ℕ) (stages : List RegisterStage) : List HandlerAction :=
  stages.map fun stage ↦ .registerStep 1 ⟨conn, "robot", stage⟩

/-- A connection registers for the robot. -/
def registerOn (conn : ℕ) : List HandlerAction :=
  .handleRegisterAgent conn "robot" ::
    registerSteps conn [.track, .registerRobot, .registerAgent]

/-- A connection is lost, up to the removal of its entry. -/
def loseOn (conn : ℕ) : List HandlerAction :=
  [.handleDisconnect conn, .disconnectStep 1 ⟨conn, .untrack⟩]

def forgetOn (conn : ℕ) : List HandlerAction := [.disconnectStep 1 ⟨conn, .unregisterAgent⟩]

theorem initial_noAgents : RawQUICHandler.Initial { stateManager := {} } := ⟨{}, rfl, rfl⟩

theorem finished_of_nil (hregisters : h.registers = []) (hdisconnects : h.disconnects = []) :
    h.Finished a := by
  rw [RawQUICHandler.Finished, hregisters, hdisconnects]
  exact ⟨nofun, nofun⟩

/-- The robot comes back while its old connection is taken down: the manager forgets it before it is
told of the new one. -/
theorem reconnect_agrees : ∃ h, ReachableInOrder "robot" h ∧ h.Finished "robot" ∧
    h.connections "robot" = some 2 ∧ h.registeredOnline "robot" = true ∧ h.ViewsAgree "robot" := by
  obtain ⟨h, hr, hregisters, hdisconnects, hconn, honline⟩ := exists_reachable_of_run
    RawQUICHandler.step (fun h act ↦ h.inOrder "robot" act = true) initial_noAgents
    (registerOn 1 ++ loseOn 1 ++ .handleRegisterAgent 2 "robot" :: registerSteps 2 [.track] ++
      forgetOn 1 ++ registerSteps 2 [.registerRobot, .registerAgent])
    (P := fun h ↦ h.registers = [] ∧ h.disconnects = [] ∧ h.connections "robot" = some 2 ∧
      h.registeredOnline "robot" = true) (by decide)
  have hdone : h.Finished "robot" := finished_of_nil hregisters hdisconnects
  exact ⟨h, hr, hdone, hconn, honline, views_agree hr hdone⟩

/-- **A copy that comes late stays.**  The old connection of the robot is lost, the robot registers
on a new one, and then the manager is told that it is gone; or the connection is lost while it
registers, and the manager is told that the robot is there after it has been told that it is
gone. -/
theorem lateCopy_stays :
    (∃ h, Reachable RawQUICHandler.step (fun _ _ ↦ True) RawQUICHandler.Initial h ∧
      h.Finished "robot" ∧ h.connections "robot" = some 2 ∧ h.disconnected 2 = false ∧
      h.registeredOnline "robot" = false ∧ ¬h.ViewsAgree "robot") ∧
    ∃ h, Reachable RawQUICHandler.step (fun _ _ ↦ True) RawQUICHandler.Initial h ∧
      h.Finished "robot" ∧ h.connections "robot" = none ∧
      h.registeredOnline "robot" = true ∧ ¬h.ViewsAgree "robot" := by
  constructor
  · obtain ⟨h, hr, hregisters, hdisconnects, hconn, hlive, hoffline⟩ := exists_reachable_of_run
      RawQUICHandler.step (fun _ _ ↦ True) initial_noAgents
      (registerOn 1 ++ loseOn 1 ++ registerOn 2 ++ forgetOn 1)
      (P := fun h ↦ h.registers = [] ∧ h.disconnects = [] ∧ h.connections "robot" = some 2 ∧
        h.disconnected 2 = false ∧ h.registeredOnline "robot" = false) (by decide)
    refine ⟨h, hr, finished_of_nil hregisters hdisconnects, hconn, hlive, hoffline, fun hagree ↦ ?_⟩
    exact absurd (hagree.mpr ⟨2, hconn, hlive⟩) (by simp [hoffline])
  · obtain ⟨h, hr, hregisters, hdisconnects, hconn, honline⟩ := exists_reachable_of_run
      RawQUICHandler.step (fun _ _ ↦ True) initial_noAgents
      (.handleRegisterAgent 1 "robot" :: registerSteps 1 [.track] ++ loseOn 1 ++ forgetOn 1 ++
        registerSteps 1 [.registerRobot, .registerAgent])
      (P := fun h ↦ h.registers = [] ∧ h.disconnects = [] ∧ h.connections "robot" = none ∧
        h.registeredOnline "robot" = true) (by decide)
    refine ⟨h, hr, finished_of_nil hregisters hdisconnects, hconn, honline, fun hagree ↦ ?_⟩
    obtain ⟨conn, hentry, -⟩ := hagree.mp honline
    exact absurd (hconn.symm.trans hentry) (by simp)

end Grpc
end FleetServer
