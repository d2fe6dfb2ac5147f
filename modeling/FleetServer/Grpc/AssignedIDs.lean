import FleetServer.Grpc.Reconnects
import FleetServer.Lib.RangeOrder
import FleetServer.Lib.Table

/-!
# The ids the server assigns

The server alone decides which id an agent has: `handleRegisterAgent` looks the agent up by its
hardware fingerprint, and draws a new UUID when it finds none.  The connection takes the id over,
whatever id it had before; the entry under the former id stays in the table.

The calls are made one after the other, each with the steps of `Reconnects`.  `owned_iff` says which
registrations keep every entry of the table with a connection of that id, and
`keepsID_of_fingerprints` that agents which always send their fingerprint make only such ones.
-/

set_option autoImplicit false

namespace FleetServer
namespace Grpc

open GuardedRun

/-! ## Agents in the database -/

/-- The node of an agent, as far as the handlers look for it.  Without a fingerprint the property is
the empty string. -/
structure AgentRow where
  id : String
  hardwareFingerprint : String := ""
  status : String := "offline"
  deriving DecidableEq

abbrev AgentTable : Type := Table String AgentRow AgentRow.id

/-- What a call of `handleRegisterAgent` is made with and what it meets: the order in which the
database lists its nodes, the UUID that is drawn, and which queries fail. -/
structure Registration where
  conn : ℕ
  hardwareFingerprint : String := ""
  now : ℕ := 0
  order : RangeOrder AgentRow := .asListed AgentRow
  newID : String
  lookupFails : Bool := false
  getAgentFails : Bool := false
  writeFails : Bool := false

/-- `GetAgentByHardwareFingerprint`. -/
def getAgentByHardwareFingerprint (order : RangeOrder AgentRow) (agents : AgentTable)
    (fingerprint : String) : Option AgentRow :=
  if fingerprint = "" then none
  else (order.range agents.rows).find? fun agent ↦ agent.hardwareFingerprint = fingerprint

structure Server where
  handler : RawQUICHandler
  agents : AgentTable

namespace Server

variable (s : Server) (r : Registration)

/-- The id that the fingerprint recovers, if it recovers one. -/
def recoveredID : Option String :=
  if r.lookupFails then none
  else ((getAgentByHardwareFingerprint r.order s.agents r.hardwareFingerprint).map (·.id)).filter
    (· ≠ "")

/-- The id that `handleRegisterAgent` works with. -/
def effectiveAgentID : String := (s.recoveredID r).getD r.newID

/-- The agent is created in the database, or updated there. -/
def storeAgent (id : String) : AgentTable :=
  if r.writeFails then s.agents
  else match if r.getAgentFails then none else s.agents.find? id with
    | none => s.agents.put
        { id, hardwareFingerprint := r.hardwareFingerprint, status := "online" }
    | some agent => s.agents.put { agent with
        status := "online"
        hardwareFingerprint :=
          if r.hardwareFingerprint ≠ "" then r.hardwareFingerprint else agent.hardwareFingerprint }

end Server

/-! ## Whole calls -/

namespace RawQUICHandler

variable (h : RawQUICHandler) (now conn : ℕ)

def registerActions (id : String) : List HandlerAction :=
  .handleRegisterAgent conn id ::
    [.track, .registerRobot, .registerAgent].map fun stage ↦ .registerStep now ⟨conn, id, stage⟩

/-- A call of `handleDisconnect` with those of its steps that it comes to. -/
def disconnectCall : RawQUICHandler :=
  [.untrack, .unregisterAgent].foldl
    (fun h stage ↦ if ⟨conn, stage⟩ ∈ h.disconnects then h.disconnectStep now ⟨conn, stage⟩ else h)
    (h.handleDisconnect conn)

end RawQUICHandler

namespace Server

variable (s : Server)

/-- `handleRegisterAgent`.  A new UUID is not empty, and not the id that the connection has. -/
def handleRegisterAgent (r : Registration) : Option Server :=
  let id := s.effectiveAgentID r
  if r.newID = "" ∨ r.newID = s.handler.agentID r.conn then none
  else ((RawQUICHandler.registerActions r.now r.conn id).foldlM RawQUICHandler.step
    s.handler).map fun handler ↦ { handler, agents := s.storeAgent r id }

/-- `handleDisconnect`.  The database is told when the connection was in the table. -/
def handleDisconnect (now conn : ℕ) : Server :=
  let id := s.handler.agentID conn
  { handler := s.handler.disconnectCall now conn
    agents :=
      if id ≠ "" ∧ s.handler.connections id = some conn then
        s.agents.modify id (fun agent ↦ { agent with status := "offline" }) fun _ ↦ rfl
      else s.agents }

end Server

inductive ServerCall
  | handleRegisterAgent (r : Registration)
  | handleDisconnect (now conn : ℕ)

namespace Server

variable (s : Server)

def step : ServerCall → Option Server
  | .handleRegisterAgent r => s.handleRegisterAgent r
  | .handleDisconnect now conn => some (s.handleDisconnect now conn)

/-- The server has just been started, with the agents of earlier runs in the database. -/
def Initial : Prop := s.handler.Initial

/-- Every entry of the table is a connection that has the id of the entry. -/
def Owned : Prop := ∀ id conn, s.handler.connections id = some conn → s.handler.agentID conn = id

/-- What is to hold after a call. -/
def OwnedAfter : ServerCall → Prop
  | .handleRegisterAgent _ => s.Owned
  | .handleDisconnect _ conn => s.Owned ∧ ∀ id, s.handler.connections id ≠ some conn

/-- A connection that is in the table under its id is found again by the fingerprint it sends. -/
def keepsID : ServerCall → Prop
  | .handleRegisterAgent r =>
    s.handler.connections (s.handler.agentID r.conn) = some r.conn →
      s.recoveredID r = some (s.handler.agentID r.conn)
  | .handleDisconnect _ _ => True

instance : DecidablePred s.keepsID := fun call ↦ match call with
  | .handleRegisterAgent _ => inferInstanceAs (Decidable (_ → _))
  | .handleDisconnect _ _ => inferInstanceAs (Decidable True)

end Server

variable {h h' : RawQUICHandler} {s s' : Server} {r : Registration} {now conn : ℕ} {id : String}

/-! ## What a call does -/

/-- The handler after a call, in terms of what it was before. -/
structure Registered (h h' : RawQUICHandler) (conn : ℕ) (id : String) : Prop where
  connections : h'.connections = Function.update h.connections id (some conn)
  agentID : h'.agentID = Function.update h.agentID conn id
  registers : h'.registers = []
  disconnects : h'.disconnects = h.disconnects

theorem registered_of_foldlM (hidle : h.registers = [])
    (hrun : (RawQUICHandler.registerActions now conn id).foldlM RawQUICHandler.step h = some h') :
    id ≠ "" ∧ Registered h h' conn id := by
  by_cases hid : id = ""
  · exact absurd hrun (by
      simp [RawQUICHandler.registerActions, RawQUICHandler.step,
        RawQUICHandler.handleRegisterAgent, hid])
  · simp only [RawQUICHandler.registerActions, RawQUICHandler.step,
      RawQUICHandler.handleRegisterAgent, hid, hidle, RawQUICHandler.registerStep, List.map_cons,
      List.map_nil, List.foldlM_cons, List.foldlM_nil, if_false, Option.bind_eq_bind,
      Option.bind_some, List.mem_singleton, if_true, List.erase_cons_head, Option.pure_def,
      Option.some.injEq] at hrun
    obtain rfl := hrun
    exact ⟨hid, rfl, rfl, rfl, rfl⟩

/-- The connection keeps its id when the fingerprint recovers it, and only then. -/
theorem effectiveAgentID_eq_iff (hnew : r.newID ≠ s.handler.agentID r.conn) :
    s.effectiveAgentID r = s.handler.agentID r.conn ↔
      s.recoveredID r = some (s.handler.agentID r.conn) := by
  rw [Server.effectiveAgentID]
  cases s.recoveredID r with
  | none => simpa using hnew
  | some id => rw [Option.getD_some, Option.some.injEq]

theorem handleRegisterAgent_eq_some (hidle : s.handler.registers = [])
    (hs : s.handleRegisterAgent r = some s') :
    r.newID ≠ s.handler.agentID r.conn ∧ s.effectiveAgentID r ≠ "" ∧
      Registered s.handler s'.handler r.conn (s.effectiveAgentID r) ∧
      s'.agents = s.storeAgent r (s.effectiveAgentID r) := by
  rw [Server.handleRegisterAgent] at hs
  split at hs
  · exact absurd hs (by simp)
  · rename_i hnew
    obtain ⟨handler, hrun, rfl⟩ := Option.map_eq_some_iff.mp hs
    obtain ⟨hid, hreg⟩ := registered_of_foldlM hidle hrun
    exact ⟨fun heq ↦ hnew (Or.inr heq), hid, hreg, rfl⟩

/-- A connection that is in the table under its id leaves it. -/
theorem disconnectCall_of_current (now : ℕ) (hidle : h.disconnects = []) (hid : h.agentID conn ≠ "")
    (hcurrent : h.connections (h.agentID conn) = some conn) :
    (h.disconnectCall now conn).connections =
        Function.update h.connections (h.agentID conn) none ∧
      (h.disconnectCall now conn).agentID = h.agentID ∧
      (h.disconnectCall now conn).registers = h.registers ∧
      (h.disconnectCall now conn).disconnects = [] := by
  simp [RawQUICHandler.disconnectCall, RawQUICHandler.handleDisconnect, hid, hidle,
    RawQUICHandler.disconnectStep, hcurrent]

/-- Any other changes nothing there. -/
theorem disconnectCall_of_not_current (now : ℕ) (hidle : h.disconnects = [])
    (hnot : ¬(h.agentID conn ≠ "" ∧ h.connections (h.agentID conn) = some conn)) :
    (h.disconnectCall now conn).connections = h.connections ∧
      (h.disconnectCall now conn).agentID = h.agentID ∧
      (h.disconnectCall now conn).registers = h.registers ∧
      (h.disconnectCall now conn).disconnects = [] := by
  by_cases hid : h.agentID conn = ""
  · simp [RawQUICHandler.disconnectCall, RawQUICHandler.handleDisconnect, hid, hidle]
  · have hother : h.connections (h.agentID conn) ≠ some conn := fun heq ↦ hnot ⟨hid, heq⟩
    simp [RawQUICHandler.disconnectCall, RawQUICHandler.handleDisconnect, hid, hidle,
      RawQUICHandler.disconnectStep, hother]

/-! ## Entries and their connections -/

/-- What holds between the calls of the runs that keep the ids. -/
structure Server.Inv (s : Server) : Prop where
  registers : s.handler.registers = []
  disconnects : s.handler.disconnects = []
  empty : s.handler.connections "" = none
  owned : s.Owned

/-- **A registration leaves every entry with a connection of that id exactly when the connection
keeps the id it is in the table with.** -/
theorem owned_handleRegisterAgent_iff (hi : s.Inv) (hs : s.handleRegisterAgent r = some s') :
    s'.Owned ↔ s.keepsID (.handleRegisterAgent r) := by
  obtain ⟨hnew, -, ⟨hconnections, hagentID, -, -⟩, -⟩ :=
    handleRegisterAgent_eq_some hi.registers hs
  rw [Server.Owned, hconnections, hagentID]
  constructor
  · intro howned hcurrent
    rw [← effectiveAgentID_eq_iff hnew]
    by_cases hsame : s.handler.agentID r.conn = s.effectiveAgentID r
    · exact hsame.symm
    · -- the former entry is still there
      have hleft := howned (s.handler.agentID r.conn) r.conn (by
        rw [Function.update_of_ne hsame]
        exact hcurrent)
      rwa [Function.update_self] at hleft
  · intro hkeeps id conn hentry
    by_cases hid : id = s.effectiveAgentID r
    · subst hid
      rw [Function.update_self] at hentry
      obtain rfl := Option.some.inj hentry
      exact Function.update_self ..
    · rw [Function.update_of_ne hid] at hentry
      have hconn : s.handler.agentID conn = id := hi.owned id conn hentry
      have hne : conn ≠ r.conn := by
        rintro rfl
        have hsame : s.effectiveAgentID r = s.handler.agentID r.conn :=
          (effectiveAgentID_eq_iff hnew).mpr (hkeeps (by rwa [hconn]))
        exact hid (hconn.symm.trans hsame.symm)
      rw [Function.update_of_ne hne]
      exact hconn

/-- A call of `handleDisconnect` leaves no entry of the connection. -/
theorem ownedAfter_handleDisconnect (hi : s.Inv) :
    (s.handleDisconnect now conn).OwnedAfter (.handleDisconnect now conn) := by
  by_cases hcurrent : s.handler.agentID conn ≠ "" ∧
      s.handler.connections (s.handler.agentID conn) = some conn
  · obtain ⟨hconnections, hagentID, -, -⟩ :=
      disconnectCall_of_current now hi.disconnects hcurrent.1 hcurrent.2
    have hentry : ∀ id c, (s.handler.disconnectCall now conn).connections id = some c →
        s.handler.agentID conn ≠ id ∧ s.handler.agentID c = id := by
      intro id c hc
      rw [hconnections] at hc
      by_cases hid : id = s.handler.agentID conn
      · subst hid
        rw [Function.update_self] at hc
        exact absurd hc (by simp)
      · rw [Function.update_of_ne hid] at hc
        exact ⟨Ne.symm hid, hi.owned id c hc⟩
    refine ⟨fun id c hc ↦ ?_, fun id hc ↦ ?_⟩
    · rw [Server.handleDisconnect, hagentID]
      exact (hentry id c hc).2
    · obtain ⟨hne, heq⟩ := hentry id conn hc
      exact hne heq
  · obtain ⟨hconnections, hagentID, -, -⟩ :=
      disconnectCall_of_not_current now hi.disconnects hcurrent
    refine ⟨fun id c hc ↦ ?_, fun id hc ↦ ?_⟩
    · rw [Server.handleDisconnect, hagentID]
      exact hi.owned id c (by rwa [Server.handleDisconnect, hconnections] at hc)
    · rw [Server.handleDisconnect, hconnections] at hc
      have hid : s.handler.agentID conn = id := hi.owned id conn hc
      refine hcurrent ⟨fun hempty ↦ ?_, hid ▸ hc⟩
      have hnone := hi.empty
      rw [← hempty, hid, hc] at hnone
      exact absurd hnone (by simp)

theorem Server.Inv.initial (hinit : s.Initial) : s.Inv := by
  obtain ⟨stateManager, -, hhandler⟩ := hinit
  constructor <;> simp [hhandler, Server.Owned]

theorem Server.Inv.step {call : ServerCall} (hi : s.Inv) (hkeeps : s.keepsID call)
    (hs : s.step call = some s') : s'.Inv := by
  cases call with
  | handleRegisterAgent r =>
    have howned : s'.Owned := (owned_handleRegisterAgent_iff hi hs).mpr hkeeps
    obtain ⟨-, hid, ⟨hconnections, -, hregisters, hdisconnects⟩, -⟩ :=
      handleRegisterAgent_eq_some hi.registers hs
    refine ⟨hregisters, hdisconnects.trans hi.disconnects, ?_, howned⟩
    rw [hconnections, Function.update_of_ne hid.symm]
    exact hi.empty
  | handleDisconnect now conn =>
    obtain rfl := Option.some.inj hs
    have howned : (s.handleDisconnect now conn).Owned := (ownedAfter_handleDisconnect hi).1
    by_cases hcurrent : s.handler.agentID conn ≠ "" ∧
        s.handler.connections (s.handler.agentID conn) = some conn
    · obtain ⟨hconnections, -, hregisters, hdisconnects⟩ :=
        disconnectCall_of_current now hi.disconnects hcurrent.1 hcurrent.2
      refine ⟨hregisters.trans hi.registers, hdisconnects, ?_, howned⟩
      rw [Server.handleDisconnect, hconnections, Function.update_of_ne hcurrent.1.symm]
      exact hi.empty
    · obtain ⟨hconnections, -, hregisters, hdisconnects⟩ :=
        disconnectCall_of_not_current now hi.disconnects hcurrent
      refine ⟨hregisters.trans hi.registers, hdisconnects, ?_, howned⟩
      rw [Server.handleDisconnect, hconnections]
      exact hi.empty

/-- The runs in which every registration of a connection keeps its id. -/
def ReachableKeepingIDs : Server → Prop :=
  Reachable Server.step Server.keepsID Server.Initial

theorem inv_of_reachable (hr : ReachableKeepingIDs s) : s.Inv :=
  hr.invariant (fun _ hinit ↦ Server.Inv.initial hinit) fun _ _ _ _ hi hkeeps hs ↦
    hi.step hkeeps hs

/-- **Every entry of the table is a connection that has the id of the entry, and a connection that
has been disconnected has no entry**, as long as every registration keeps the id of its connection;
the first that does not leaves an entry behind. -/
theorem owned_iff (hr : ReachableKeepingIDs s) :
    s.Owned ∧ ∀ call s', s.step call = some s' → (s'.OwnedAfter call ↔ s.keepsID call) := by
  have hi : s.Inv := inv_of_reachable hr
  refine ⟨hi.owned, fun call s' hs ↦ ?_⟩
  cases call with
  | handleRegisterAgent r => exact owned_handleRegisterAgent_iff hi hs
  | handleDisconnect now conn =>
    obtain rfl := Option.some.inj hs
    exact iff_of_true (ownedAfter_handleDisconnect hi) trivial

/-! ## Agents that send their fingerprint -/

/-- The connection sends a fingerprint, always the same, the database can be searched and written,
and a new UUID is that of no agent. -/
def Server.identifies (fingerprint : ℕ → String) (s : Server) : ServerCall → Prop
  | .handleRegisterAgent r =>
    (r.hardwareFingerprint = fingerprint r.conn ∧ r.hardwareFingerprint ≠ "") ∧
      (r.lookupFails = false ∧ r.writeFails = false) ∧
      s.agents.find? r.newID = none
  | .handleDisconnect _ _ => True

/-- The nodes of the agents have ids, and no two have one fingerprint. -/
structure Distinguished (agents : AgentTable) : Prop where
  named : ∀ agent ∈ agents.rows, agent.id ≠ ""
  distinct : ∀ agent ∈ agents.rows, ∀ other ∈ agents.rows,
    agent.hardwareFingerprint = other.hardwareFingerprint → agent.hardwareFingerprint ≠ "" →
      agent.id = other.id

/-- The agent of a connection is in the database with the fingerprint that the connection sends. -/
def Server.Known (fingerprint : ℕ → String) (s : Server) : Prop :=
  ∀ conn, s.handler.agentID conn ≠ "" → ∃ agent ∈ s.agents.rows,
    agent.id = s.handler.agentID conn ∧ agent.hardwareFingerprint = fingerprint conn

theorem recoveredID_eq_some_iff (hd : Distinguished s.agents) (hsent : r.hardwareFingerprint ≠ "")
    (hlookup : r.lookupFails = false) :
    s.recoveredID r = some id ↔ ∃ agent ∈ s.agents.rows,
      agent.id = id ∧ agent.hardwareFingerprint = r.hardwareFingerprint := by
  rw [Server.recoveredID, hlookup, if_neg (by simp), getAgentByHardwareFingerprint, if_neg hsent,
    Option.filter_eq_some_iff, Option.map_eq_some_iff]
  constructor
  · rintro ⟨⟨agent, hfind, rfl⟩, -⟩
    exact ⟨agent, r.order.mem_range.mp (List.mem_of_find?_eq_some hfind), rfl,
      by simpa using List.find?_some hfind⟩
  · rintro ⟨agent, hmem, rfl, hsame⟩
    refine ⟨?_, by simpa using hd.named agent hmem⟩
    cases hfind : (r.order.range s.agents.rows).find? fun agent ↦
        agent.hardwareFingerprint = r.hardwareFingerprint with
    | none =>
      have hnot := List.find?_eq_none.mp hfind agent (r.order.mem_range.mpr hmem)
      exact absurd hsame (by simpa using hnot)
    | some other =>
      have hother : other.hardwareFingerprint = r.hardwareFingerprint := by
        simpa using List.find?_some hfind
      exact ⟨other, rfl, hd.distinct other
        (r.order.mem_range.mp (List.mem_of_find?_eq_some hfind)) agent hmem
        (hother.trans hsame.symm) (hother ▸ hsent)⟩

/-- The node that a registration writes has the fingerprint that was sent. -/
theorem mem_storeAgent (hsent : r.hardwareFingerprint ≠ "") (hwrite : r.writeFails = false) :
    ∃ row : AgentRow, row.id = id ∧ row.hardwareFingerprint = r.hardwareFingerprint ∧
      ∀ agent, agent ∈ (s.storeAgent r id).rows ↔
        agent = row ∨ agent ∈ s.agents.rows ∧ agent.id ≠ id := by
  rw [Server.storeAgent, hwrite, if_neg (by simp)]
  split
  · exact ⟨_, rfl, rfl, fun agent ↦ Table.mem_rows_put⟩
  · rename_i agent hagent
    have hid : agent.id = id := by
      split at hagent
      · exact absurd hagent (by simp)
      · exact (Table.find?_eq_some_iff.mp hagent).2
    refine ⟨{ agent with status := "online", hardwareFingerprint := r.hardwareFingerprint }, hid,
      rfl, fun other ↦ ?_⟩
    rw [Table.mem_rows_put, if_pos hsent]
    dsimp only
    rw [hid]

/-- The agent of a connection in the table is found again. -/
theorem keepsID_of_known {fingerprint : ℕ → String} {call : ServerCall} (hi : s.Inv)
    (hd : Distinguished s.agents) (hknown : s.Known fingerprint)
    (hok : s.identifies fingerprint call) : s.keepsID call := by
  cases call with
  | handleRegisterAgent r =>
    obtain ⟨⟨hsame, hsent⟩, ⟨hlookup, -⟩, -⟩ := hok
    intro hcurrent
    have hid : s.handler.agentID r.conn ≠ "" := by
      intro hempty
      have hnone := hi.empty
      rw [← hempty, hcurrent] at hnone
      exact absurd hnone (by simp)
    rw [recoveredID_eq_some_iff hd hsent hlookup, hsame]
    exact hknown r.conn hid
  | handleDisconnect now conn => trivial

/-- A registration that identifies its agent leaves the others in the database as they are. -/
theorem identified_handleRegisterAgent {fingerprint : ℕ → String} (hi : s.Inv)
    (hd : Distinguished s.agents) (hknown : s.Known fingerprint)
    (hok : s.identifies fingerprint (.handleRegisterAgent r))
    (hs : s.handleRegisterAgent r = some s') :
    Distinguished s'.agents ∧ s'.Known fingerprint := by
  obtain ⟨⟨hsame, hsent⟩, ⟨hlookup, hwrite⟩, hnew⟩ := hok
  obtain ⟨-, hid, ⟨-, hagentID, -, -⟩, hagents⟩ := handleRegisterAgent_eq_some hi.registers hs
  obtain ⟨row, hrow, hfingerprint, hmem⟩ : ∃ row : AgentRow, row.id = s.effectiveAgentID r ∧
      row.hardwareFingerprint = r.hardwareFingerprint ∧
      ∀ agent, agent ∈ (s.storeAgent r (s.effectiveAgentID r)).rows ↔
        agent = row ∨ agent ∈ s.agents.rows ∧ agent.id ≠ s.effectiveAgentID r :=
    mem_storeAgent hsent hwrite
  rw [← hagents] at hmem
  -- a node that has the id or the fingerprint of the call has both
  have hboth : ∀ agent ∈ s.agents.rows,
      agent.id = s.effectiveAgentID r ↔ agent.hardwareFingerprint = r.hardwareFingerprint := by
    intro agent hagent
    rw [Server.effectiveAgentID]
    cases hrec : s.recoveredID r with
    | some id =>
      obtain ⟨found, hfound, rfl, heq⟩ := (recoveredID_eq_some_iff hd hsent hlookup).mp hrec
      rw [Option.getD_some]
      constructor
      · intro h
        rw [Table.eq_of_key_eq hagent hfound h, heq]
      · intro h
        exact hd.distinct agent hagent found hfound (h.trans heq.symm) (h ▸ hsent)
    | none =>
      rw [Option.getD_none]
      refine iff_of_false (Table.find?_eq_none_iff.mp hnew agent hagent) fun heq ↦ ?_
      have hsome := (recoveredID_eq_some_iff hd hsent hlookup).mpr ⟨agent, hagent, rfl, heq⟩
      rw [hrec] at hsome
      exact absurd hsome (by simp)
  have hkept : ∀ agent ∈ s.agents.rows, ∃ agent' ∈ s'.agents.rows, agent'.id = agent.id ∧
      agent'.hardwareFingerprint = agent.hardwareFingerprint := by
    intro agent hagent
    by_cases heq : agent.id = s.effectiveAgentID r
    · refine ⟨row, (hmem row).mpr (Or.inl rfl), hrow.trans heq.symm, ?_⟩
      rw [hfingerprint, (hboth agent hagent).mp heq]
    · exact ⟨agent, (hmem agent).mpr (Or.inr ⟨hagent, heq⟩), rfl, rfl⟩
  refine ⟨⟨fun agent hagent ↦ ?_, fun agent hagent other hother heq hne ↦ ?_⟩, fun c hc ↦ ?_⟩
  · rcases (hmem agent).mp hagent with rfl | ⟨hagent, -⟩
    · exact hrow ▸ hid
    · exact hd.named agent hagent
  · rcases (hmem agent).mp hagent with rfl | ⟨hagent, hagentNe⟩ <;>
      rcases (hmem other).mp hother with rfl | ⟨hother, hotherNe⟩
    · rfl
    · exact absurd ((hboth other hother).mpr (heq.symm.trans hfingerprint)) hotherNe
    · exact absurd ((hboth agent hagent).mpr (heq.trans hfingerprint)) hagentNe
    · exact hd.distinct agent hagent other hother heq hne
  · rw [hagentID] at hc ⊢
    by_cases hconn : c = r.conn
    · subst hconn
      rw [Function.update_self]
      exact ⟨row, (hmem row).mpr (Or.inl rfl), hrow, hfingerprint.trans hsame⟩
    · rw [Function.update_of_ne hconn] at hc ⊢
      obtain ⟨agent, hagent, hid', hfp⟩ := hknown c hc
      obtain ⟨agent', hagent', hsameID, hsameFp⟩ := hkept agent hagent
      exact ⟨agent', hagent', hsameID.trans hid', hsameFp.trans hfp⟩

/-- A disconnect rewrites a node in a way that keeps its id and its fingerprint. -/
theorem rows_handleDisconnect (s : Server) (now conn : ℕ) : ∃ f : AgentRow → AgentRow,
    (∀ agent, (f agent).id = agent.id ∧
      (f agent).hardwareFingerprint = agent.hardwareFingerprint) ∧
    (s.handleDisconnect now conn).agents.rows = s.agents.rows.map f := by
  rw [Server.handleDisconnect]
  dsimp only
  split
  · refine ⟨_, fun agent ↦ ?_, Table.rows_modify⟩
    split <;> exact ⟨rfl, rfl⟩
  · exact ⟨id, fun _ ↦ ⟨rfl, rfl⟩, (List.map_id _).symm⟩

theorem identified_handleDisconnect {fingerprint : ℕ → String} (hi : s.Inv)
    (hd : Distinguished s.agents) (hknown : s.Known fingerprint) :
    Distinguished (s.handleDisconnect now conn).agents ∧
      (s.handleDisconnect now conn).Known fingerprint := by
  obtain ⟨f, hf, hrows⟩ := rows_handleDisconnect s now conn
  have hagentID : (s.handleDisconnect now conn).handler.agentID = s.handler.agentID := by
    by_cases hcurrent : s.handler.agentID conn ≠ "" ∧
        s.handler.connections (s.handler.agentID conn) = some conn
    · exact (disconnectCall_of_current now hi.disconnects hcurrent.1 hcurrent.2).2.1
    · exact (disconnectCall_of_not_current now hi.disconnects hcurrent).2.1
  refine ⟨⟨fun agent hagent ↦ ?_, fun agent hagent other hother ↦ ?_⟩, fun c hc ↦ ?_⟩
  · rw [hrows] at hagent
    obtain ⟨was, hwas, rfl⟩ := List.mem_map.mp hagent
    rw [(hf was).1]
    exact hd.named was hwas
  · rw [hrows] at hagent hother
    obtain ⟨was, hwas, rfl⟩ := List.mem_map.mp hagent
    obtain ⟨wasOther, hwasOther, rfl⟩ := List.mem_map.mp hother
    rw [(hf was).1, (hf was).2, (hf wasOther).1, (hf wasOther).2]
    exact hd.distinct was hwas wasOther hwasOther
  · rw [hagentID] at hc ⊢
    obtain ⟨agent, hagent, hid, hfp⟩ := hknown c hc
    refine ⟨f agent, ?_, (hf agent).1.trans hid, (hf agent).2.trans hfp⟩
    rw [hrows]
    exact List.mem_map_of_mem hagent

/-- **Connections that always send the same fingerprint keep their ids**, as long as the database
can be searched and written and holds no fingerprint twice. -/
theorem reachableKeepingIDs_of_identifies {fingerprint : ℕ → String}
    (hr : Reachable Server.step (Server.identifies fingerprint)
      (fun s ↦ s.Initial ∧ Distinguished s.agents) s) :
    ReachableKeepingIDs s := by
  refine (hr.invariant (I := fun s ↦ ReachableKeepingIDs s ∧ Distinguished s.agents ∧
    s.Known fingerprint) (fun s hinit ↦ ?_) fun s call s' _ ⟨hr, hd, hknown⟩ hok hs ↦ ?_).1
  · refine ⟨.start hinit.1, hinit.2, fun c hc ↦ ?_⟩
    obtain ⟨stateManager, -, hhandler⟩ := hinit.1
    exact absurd (congrFun (congrArg RawQUICHandler.agentID hhandler) c) hc
  · have hi : s.Inv := inv_of_reachable hr
    refine ⟨hr.next (keepsID_of_known hi hd hknown hok) hs, ?_⟩
    cases call with
    | handleRegisterAgent r => exact identified_handleRegisterAgent hi hd hknown hok hs
    | handleDisconnect now conn =>
      obtain rfl := Option.some.inj hs
      exact identified_handleDisconnect hi hd hknown

/-! ## One connection, two ids -/

def startedServer : Server where
  handler := { stateManager := {} }
  agents := { rows := [], nodup := List.nodup_nil }

/-- A connection registers twice without a fingerprint, and is disconnected. -/
def twoRegistrations : List ServerCall :=
  [.handleRegisterAgent { conn := 0, newID := "first" },
    .handleRegisterAgent { conn := 0, newID := "second" }, .handleDisconnect 0 0]

/-- It registers twice with one. -/
def oneFingerprint : List ServerCall :=
  [.handleRegisterAgent { conn := 0, hardwareFingerprint := "cpu", newID := "first" },
    .handleRegisterAgent { conn := 0, hardwareFingerprint := "cpu", newID := "second" }]

theorem owned_oneFingerprint : ∃ s : Server, (s.handler.connections "first" = some 0 ∧
    s.handler.connections "second" = none) ∧
    s.Owned ∧ ∀ call s', s.step call = some s' → (s'.OwnedAfter call ↔ s.keepsID call) := by
  have hinit : Server.Initial startedServer := ⟨{}, rfl, rfl⟩
  obtain ⟨s, hr, hentries⟩ := exists_reachable_of_run Server.step Server.keepsID hinit
    oneFingerprint (P := fun s ↦ s.handler.connections "first" = some 0 ∧
      s.handler.connections "second" = none) (by decide)
  exact ⟨s, hentries, owned_iff hr⟩

/-- **A connection that has registered twice is still in the table when it has been
disconnected**, under the first of its ids. -/
theorem first_entry_left : ∃ s, Reachable Server.step (fun _ _ ↦ True) Server.Initial s ∧
    s.handler.disconnected 0 = true ∧ s.handler.connections "first" = some 0 ∧
    s.handler.agentID 0 = "second" :=
  exists_reachable_of_foldlM Server.step ⟨{}, rfl, rfl⟩ twoRegistrations (by simp)
    (P := fun s ↦ s.handler.disconnected 0 = true ∧ s.handler.connections "first" = some 0 ∧
      s.handler.agentID 0 = "second") (s := startedServer) (by decide)

end Grpc
end FleetServer
