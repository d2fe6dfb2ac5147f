import FleetServer.Grpc.AgentParsers
import FleetServer.Lib.Mailbox

/-!
# Calls that wait for an agent

`DeployCanonicalGraph`, `SendConfigUpdate` and `SendCommandAndWait` of
`internal/grpc/raw_quic_handler.go` send a request to an agent and wait for the message that answers
it; `handleDeployResponse`, `handleConfigUpdateAck` and `handleActionResult` are called for these
messages, in goroutines of their own.  The table between them is `deployWaiters`, `configWaiters` or
`pendingCommands`.

The three are one protocol (`Exchange`) with different messages.  The handler of action results
differs from the others in that it takes the entry out of the table itself.  Nothing keeps an agent
from answering late, twice, or with an id it was never sent.
-/

set_option autoImplicit false

namespace FleetServer
namespace Grpc

open Wire Mailbox

/-! ## Ids -/

/-- `fmt.Sprintf("<kind>-%s-%d", agentID, time.Now().UnixNano())`. -/
def stampedID (kind agentID : String) (nanos : ℕ) : String :=
  kind ++ "-" ++ agentID ++ "-" ++ toString nanos

theorem toList_stampedID (kind agentID : String) (nanos : ℕ) :
    (stampedID kind agentID nanos).toList =
      (kind.toList ++ '-' :: agentID.toList) ++ '-' :: Nat.toDigits 10 nanos := by
  have hdash : "-".toList = ['-'] := by decide
  rw [stampedID, String.toList_append, String.toList_append, String.toList_append,
    String.toList_append, hdash, Nat.toString_eq_repr, Nat.toList_repr]
  simp

/-- A text before a dash and one without a dash after it. -/
theorem append_dash_inj {l₁ l₂ d₁ d₂ : List Char} (h₁ : '-' ∉ d₁) (h₂ : '-' ∉ d₂)
    (h : l₁ ++ '-' :: d₁ = l₂ ++ '-' :: d₂) : l₁ = l₂ ∧ d₁ = d₂ := by
  obtain ⟨m, hl, hd⟩ | ⟨m, hl, hd⟩ := List.append_eq_append_iff.mp h
  · cases m with
    | nil => exact ⟨by simpa using hl.symm, (List.cons.inj hd).2⟩
    | cons a m =>
      -- the second dash would stand in the text after the first one
      rw [List.cons_append, List.cons.injEq] at hd
      exact absurd (hd.2 ▸ List.mem_append_right m List.mem_cons_self) h₁
  · cases m with
    | nil => exact ⟨by simpa using hl, (List.cons.inj hd).2.symm⟩
    | cons a m =>
      rw [List.cons_append, List.cons.injEq] at hd
      exact absurd (hd.2 ▸ List.mem_append_right m List.mem_cons_self) h₂

theorem dash_notMem_toDigits (n : ℕ) : '-' ∉ Nat.toDigits 10 n := by
  intro hmem
  have hdigit := Nat.isDigit_of_mem_toDigits (by omega) (by omega) hmem
  revert hdigit
  decide

/-- **Two ids are the same only for the same agent in the same nanosecond**, whatever characters
the ids of the agents have. -/
theorem stampedID_inj {kind a a' : String} {n n' : ℕ}
    (h : stampedID kind a n = stampedID kind a' n') : a = a' ∧ n = n' := by
  have hlist := congrArg String.toList h
  rw [toList_stampedID, toList_stampedID] at hlist
  obtain ⟨hstart, hdigits⟩ :=
    append_dash_inj (dash_notMem_toDigits n) (dash_notMem_toDigits n') hlist
  have hagent : a.toList = a'.toList := by simpa using hstart
  have hnanos := congrArg (Nat.ofDigitChars 10 · 0) hdigits
  simp only [Nat.ofDigitChars_ten_toDigits] at hnanos
  exact ⟨String.toList_inj.mp hagent, hnanos⟩

/-! ## The protocol -/

/-- What the three have for themselves: how a request of type `α` is given an id, which messages of
type `μ` are passed over, and what is made of the others. -/
structure Exchange (α μ ρ : Type) where
  id : α → String
  id_injective : Function.Injective id
  takes : Bool
  passesOver : μ → Bool
  result : μ → ρ
  key : ρ → String

/-- The table with the calls and handlers, and the request of each call. -/
structure Waiting (α γ η ρ : Type) where
  mailbox : State String γ η String ρ := {}
  requests : γ → Option α := fun _ ↦ none

inductive WaiterAction (α γ η μ : Type) where
  | start (c : γ) (connected : Bool) (request : α)
  | message (h : η) (m : μ)
  | deliver (h : η)
  | receive (c : γ)
  | giveUp (c : γ) (error : String)
  | leave (c : γ)

namespace Exchange

variable {α γ η μ ρ : Type} [DecidableEq γ] [DecidableEq η] (x : Exchange α μ ρ)

/-- One step.  A call returns at once when the agent is not connected; one that gives up does so
because the request could not be sent, its context is done or its time is over. -/
def step (s : Waiting α γ η ρ) : WaiterAction α γ η μ → Option (Waiting α γ η ρ)
  | .start c connected request =>
    if connected then
      (s.mailbox.call c (x.id request)).map fun mailbox ↦
        { mailbox, requests := Function.update s.requests c (some request) }
    else some s
  | .message h m =>
    if x.passesOver m then some s
    else (s.mailbox.lookup x.takes x.key h (x.result m)).map fun mailbox ↦ { s with mailbox }
  | .deliver h => (s.mailbox.deliver h).map fun mailbox ↦ { s with mailbox }
  | .receive c => (s.mailbox.receive x.takes c).map fun mailbox ↦ { s with mailbox }
  | .giveUp c error => (s.mailbox.giveUp c error).map fun mailbox ↦ { s with mailbox }
  | .leave c => (s.mailbox.leave c).map fun mailbox ↦ { s with mailbox }

/-- No call that has not returned made the same request. -/
def Distinct (s : Waiting α γ η ρ) : WaiterAction α γ η μ → Prop
  | .start _ _ request =>
    ∀ c call, s.mailbox.calls c = some call → s.requests c = some request →
      ∃ result, call.stage = .done result
  | _ => True

def Reachable (s : Waiting α γ η ρ) : Prop :=
  GuardedRun.Reachable x.step (fun _ _ ↦ True) (· = {}) s

def DistinctReachable (s : Waiting α γ η ρ) : Prop :=
  GuardedRun.Reachable x.step Distinct (· = {}) s

variable {x} {s s' : Waiting α γ η ρ}

/-- A step does nothing to the table and the calls, or is a step of the protocol. -/
theorem step_mailbox {a : WaiterAction α γ η μ} (h : x.step s a = some s') :
    s' = s ∨ ∃ b, s.mailbox.step x.takes x.key b = some s'.mailbox ∧
      ((∃ c request, b = .call c (x.id request) ∧ (∃ connected, a = .start c connected request) ∧
          s'.requests = Function.update s.requests c (some request)) ∨
        (∀ c id, b ≠ .call c id) ∧ s'.requests = s.requests) := by
  cases a with
  | start c connected request =>
    rw [step] at h
    split at h
    · obtain ⟨mailbox, hcall, rfl⟩ := Option.map_eq_some_iff.mp h
      exact .inr ⟨.call c (x.id request), hcall, .inl ⟨c, request, rfl, ⟨connected, rfl⟩, rfl⟩⟩
    · exact .inl (Option.some.inj h).symm
  | message hd m =>
    rw [step] at h
    split at h
    · exact .inl (Option.some.inj h).symm
    · obtain ⟨mailbox, hlookup, rfl⟩ := Option.map_eq_some_iff.mp h
      exact .inr ⟨.lookup hd (x.result m), hlookup, .inr ⟨by simp, rfl⟩⟩
  | deliver hd =>
    obtain ⟨mailbox, hdeliver, rfl⟩ := Option.map_eq_some_iff.mp h
    exact .inr ⟨.deliver hd, hdeliver, .inr ⟨by simp, rfl⟩⟩
  | receive c =>
    obtain ⟨mailbox, hreceive, rfl⟩ := Option.map_eq_some_iff.mp h
    exact .inr ⟨.receive c, hreceive, .inr ⟨by simp, rfl⟩⟩
  | giveUp c error =>
    obtain ⟨mailbox, hgiveUp, rfl⟩ := Option.map_eq_some_iff.mp h
    exact .inr ⟨.giveUp c error, hgiveUp, .inr ⟨by simp, rfl⟩⟩
  | leave c =>
    obtain ⟨mailbox, hleave, rfl⟩ := Option.map_eq_some_iff.mp h
    exact .inr ⟨.leave c, hleave, .inr ⟨by simp, rfl⟩⟩

theorem Reachable.mailbox (h : x.Reachable s) : s.mailbox.Reachable x.takes x.key :=
  GuardedRun.Reachable.simulate Waiting.mailbox (by rintro _ rfl; rfl)
    (fun s a s' _ _ hstep ↦ by
      obtain rfl | ⟨b, hb, -⟩ := step_mailbox hstep
      · exact .inl rfl
      · exact .inr ⟨b, trivial, hb⟩) h

/-- A call waits under the id of its request. -/
def Requested (x : Exchange α μ ρ) (s : Waiting α γ η ρ) : Prop :=
  ∀ c call, s.mailbox.calls c = some call →
    ∃ request, s.requests c = some request ∧ call.id = x.id request

theorem Requested.step (hs : x.Requested s) {a : WaiterAction α γ η μ}
    (h : x.step s a = some s') : x.Requested s' := by
  intro c call hcall
  obtain rfl | ⟨b, hb, hrequests⟩ := step_mailbox h
  · exact hs c call hcall
  rcases hrequests with ⟨c', request, rfl, -, hrequests⟩ | ⟨hne, hrequests⟩
  · rw [hrequests, Function.update_apply]
    split
    · rename_i hc
      subst hc
      refine ⟨request, rfl, ?_⟩
      rcases State.id_of_step hb hcall with ⟨old, hold, -⟩ | hopened
      · rw [(State.call_eq_some hb).1] at hold
        cases hold
      · exact (Action.call.inj hopened).2.symm
    · rename_i hc
      rcases State.id_of_step hb hcall with ⟨old, hold, hid⟩ | hopened
      · rw [← hid]
        exact hs c old hold
      · exact absurd (Action.call.inj hopened).1.symm hc
  · rw [hrequests]
    rcases State.id_of_step hb hcall with ⟨old, hold, hid⟩ | hopened
    · rw [← hid]
      exact hs c old hold
    · exact absurd hopened (hne c call.id)

theorem DistinctReachable.reachable (h : x.DistinctReachable s) : x.Reachable s :=
  GuardedRun.Reachable.mono (fun _ _ _ ↦ trivial) h

theorem Reachable.requested (h : x.Reachable s) : x.Requested s :=
  GuardedRun.Reachable.invariant (by rintro _ rfl c call hcall; cases hcall)
    (fun _ _ _ _ hs _ hstep ↦ hs.step hstep) h

/-- Different requests have different ids, so the ids of these runs are fresh. -/
theorem DistinctReachable.mailbox (h : x.DistinctReachable s) :
    s.mailbox.FreshReachable x.takes x.key := by
  refine GuardedRun.Reachable.simulate Waiting.mailbox (by rintro _ rfl; rfl)
    (fun s a s' hr hdistinct hstep ↦ ?_) h
  obtain rfl | ⟨b, hb, hrequests⟩ := step_mailbox hstep
  · exact .inl rfl
  refine .inr ⟨b, ?_, hb⟩
  rcases hrequests with ⟨c, request, rfl, ⟨connected, rfl⟩, -⟩ | ⟨hne, -⟩
  · intro c' call hcall hid
    obtain ⟨request', hrequest', hid'⟩ :=
      (Exchange.DistinctReachable.reachable (x := x) hr).requested c' call hcall
    obtain rfl := x.id_injective (hid'.symm.trans hid)
    exact hdistinct c' call hcall hrequest'
  · cases b with
    | call c id => exact absurd rfl (hne c id)
    | lookup _ _ => trivial
    | deliver _ => trivial
    | receive _ => trivial
    | giveUp _ _ => trivial
    | leave _ => trivial

/-- A call that returns a result returns the answer to its own request. -/
theorem key_of_returned (h : x.Reachable s) {c : γ} {call : Call String String ρ} {r : ρ}
    (hcall : s.mailbox.calls c = some call) (hdone : call.stage = .done (.ok r)) :
    ∃ request, s.requests c = some request ∧ x.key r = x.id request := by
  obtain ⟨request, hrequest, hid⟩ := h.requested c call hcall
  exact ⟨request, hrequest, (State.key_of_done h.mailbox hcall hdone).trans hid⟩

/-- Once every call has returned the table is empty. -/
theorem waiters_eq_none (h : x.Reachable s)
    (hall : ∀ c call, s.mailbox.calls c = some call → ∃ result, call.stage = .done result)
    (id : String) : s.mailbox.waiters id = none := by
  cases hwaiter : s.mailbox.waiters id with
  | none => rfl
  | some c =>
    obtain ⟨call, hcall, -, hdone⟩ := State.not_done_of_waiter h.mailbox hwaiter
    obtain ⟨result, hresult⟩ := hall c call hcall
    exact absurd hresult (hdone result)

/-- A message that answers a call that still waits is kept for it. -/
theorem message_kept (h : x.DistinctReachable s) {c : γ} {call : Call String String ρ}
    (hcall : s.mailbox.calls c = some call) (hwaiting : call.stage = .waiting) {m : μ}
    (hover : x.passesOver m = false) (hkey : x.key (x.result m) = call.id) {hd : η}
    (hfree : s.mailbox.handlers hd = none) :
    (∃ s', x.step s (.message hd m) = some s' ∧
        s'.mailbox.handlers hd = some (c, x.result m)) ∨
      x.takes = true ∧ (call.channel.buffer ≠ [] ∨
        ∃ hd' r, s.mailbox.handlers hd' = some (c, r)) := by
  refine (State.lookup_of_waiting h.mailbox hcall hwaiting hkey hfree).imp_left ?_
  rintro ⟨mailbox, hlookup, hheld⟩
  have hlookup : s.mailbox.lookup x.takes x.key hd (x.result m) = some mailbox := hlookup
  exact ⟨{ s with mailbox }, by simp [step, hover, hlookup], hheld⟩

/-- What every call can rely on, whatever else goes on: a result is the answer to the call's own
request, and nothing stays in the table. -/
structure Safe (γ η : Type) [DecidableEq γ] [DecidableEq η] (x : Exchange α μ ρ) : Prop where
  own : ∀ s : Waiting α γ η ρ, x.Reachable s → ∀ c call r, s.mailbox.calls c = some call →
    call.stage = .done (.ok r) → ∃ request, s.requests c = some request ∧ x.key r = x.id request
  clean : ∀ s : Waiting α γ η ρ, x.Reachable s →
    (∀ c call, s.mailbox.calls c = some call → ∃ result, call.stage = .done result) →
      ∀ id, s.mailbox.waiters id = none

theorem safe (x : Exchange α μ ρ) : x.Safe γ η :=
  ⟨fun _ h _ _ _ ↦ key_of_returned h, fun _ h ↦ waiters_eq_none h⟩

/-- As long as no two calls make one request at the same time, a message that answers a call which
still waits is kept for it; where handlers take the entry out, an earlier answer may be instead. -/
def Lossless (γ η : Type) [DecidableEq γ] [DecidableEq η] (x : Exchange α μ ρ) : Prop :=
  ∀ s : Waiting α γ η ρ, x.DistinctReachable s → ∀ c call m hd,
    s.mailbox.calls c = some call → call.stage = .waiting → x.passesOver m = false →
      x.key (x.result m) = call.id → s.mailbox.handlers hd = none →
        (∃ s', x.step s (.message hd m) = some s' ∧
          s'.mailbox.handlers hd = some (c, x.result m)) ∨
        x.takes = true ∧ (call.channel.buffer ≠ [] ∨
          ∃ hd' r, s.mailbox.handlers hd' = some (c, r))

theorem lossless (x : Exchange α μ ρ) : x.Lossless γ η :=
  fun _ h _ _ _ _ hcall hwaiting hover hkey hfree ↦
    message_kept h hcall hwaiting hover hkey hfree

end Exchange

/-! ## The three of them -/

structure DeployResult where
  success : Bool
  error : String
  checksum : String
  correlationID : String
  graphID : String
  deployedVersion : Int32
  deriving DecidableEq

/-- What `handleDeployResponse` makes of a response. -/
def deployResult (resp : DeployGraphResponseMsg) : DeployResult where
  success := resp.success
  error := resp.error
  checksum := resp.checksum
  correlationID := resp.correlationID
  graphID := resp.graphID
  deployedVersion := resp.deployedVersion

/-- `DeployCanonicalGraph`, by agent and time, with `handleDeployResponse`. -/
def deployExchange : Exchange (String × ℕ) DeployGraphResponseMsg DeployResult where
  id request := stampedID "deploy" request.1 request.2
  id_injective _ _ h := Prod.ext (stampedID_inj h).1 (stampedID_inj h).2
  takes := false
  passesOver resp := resp.correlationID = ""
  result := deployResult
  key := DeployResult.correlationID

structure ConfigUpdateResult where
  success : Bool
  error : String
  agentID : String
  stateDefID : String
  version : Int32
  correlationID : String
  deriving DecidableEq

/-- What `handleConfigUpdateAck` makes of an acknowledgement. -/
def configUpdateResult (ack : ConfigUpdateAckMsg) : ConfigUpdateResult where
  success := ack.success
  error := ack.error
  agentID := ack.agentID
  stateDefID := ack.stateDefID
  version := ack.version
  correlationID := ack.correlationID

/-- `SendConfigUpdate`, by agent and time, with `handleConfigUpdateAck`. -/
def configExchange : Exchange (String × ℕ) ConfigUpdateAckMsg ConfigUpdateResult where
  id request := stampedID "config" request.1 request.2
  id_injective _ _ h := Prod.ext (stampedID_inj h).1 (stampedID_inj h).2
  takes := false
  passesOver ack := ack.correlationID = ""
  result := configUpdateResult
  key := ConfigUpdateResult.correlationID

/-- What `SendConfigUpdate` returns: an update that the agent refused is an error beside the
result. -/
def configUpdateReturned :
    Except String ConfigUpdateResult → Option ConfigUpdateResult × Option String
  | .ok result =>
    (some result, if result.success then none else some ("config update failed: " ++ result.error))
  | .error e => (none, some e)

/-- `ActionResult`, with what `json.Unmarshal` makes of the result's bytes. -/
structure ActionResult (ψ : Type) where
  commandID : String
  agentID : String
  taskID : String
  stepID : String
  status : Int32
  result : Option ψ
  error : String
  startedAtMs : Int64
  completedAtMs : Int64

/-- What `handleActionResult` makes of a message. -/
def actionResult {ψ : Type} (unmarshal : ProtoWire.Bytes → Option ψ) (msg : ActionResultMsg) :
    ActionResult ψ where
  commandID := msg.commandID
  agentID := msg.agentID
  taskID := msg.taskID
  stepID := msg.stepID
  status := msg.status
  result := if msg.result.length > 0 then unmarshal msg.result else none
  error := msg.error
  startedAtMs := msg.startedAtMs
  completedAtMs := msg.completedAtMs

/-- `SendCommandAndWait`, whose caller gives the id of the command, with `handleActionResult`. -/
def commandExchange {ψ : Type} (unmarshal : ProtoWire.Bytes → Option ψ) :
    Exchange String ActionResultMsg (ActionResult ψ) where
  id := id
  id_injective := Function.injective_id
  takes := true
  passesOver _ := false
  result := actionResult unmarshal
  key := ActionResult.commandID

section

variable {γ η ψ : Type} [DecidableEq γ] [DecidableEq η]

/-- **A call returns the answer to its own request or an error, and leaves nothing behind.**  This
holds for any number of calls and for whatever the agents send, in every order. -/
theorem waiters_safe (unmarshal : ProtoWire.Bytes → Option ψ) :
    deployExchange.Safe γ η ∧ configExchange.Safe γ η ∧ (commandExchange unmarshal).Safe γ η :=
  ⟨deployExchange.safe, configExchange.safe, (commandExchange unmarshal).safe⟩

/-- The second of two answers is dropped, and the call has returned the first. -/
example :
    (([.start 0 true ("a", 5), .message 0 { correlationID := "deploy-a-5", success := true },
        .message 1 { correlationID := "deploy-a-5" }, .deliver 0, .deliver 1, .receive 0, .leave 0]
      : List (WaiterAction (String × ℕ) ℕ ℕ DeployGraphResponseMsg)).foldlM deployExchange.step
        {}).map (fun s ↦ (s.mailbox.calls 0).map fun call ↦
          match call.stage with
          | .done (.ok r) => r.success
          | _ => false) = some (some true) := by
  decide

end

end Grpc
end FleetServer
