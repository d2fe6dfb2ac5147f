import FleetServer.Grpc.Waiters

/-!
# Pings

`pingLoop`, `trySendPing`, `SendPing`, `handlePong` and `clearInFlightPing` of
`internal/grpc/raw_quic_handler.go`.  At most one ping of an agent is in flight; it is over when its
pong comes, when it could not be sent, when it has been in flight for `effectivePingTimeout`, or
when the agent registers or disconnects.

One goroutine sends the pings, and while it waits for a send (`sending`) pongs are handled and
agents come and go in others.  Pongs are whatever an agent sends, at any time.  `log` is not in the
source: it keeps, for each agent, what became of its pings, the newest event first.
-/

set_option autoImplicit false

namespace FleetServer
namespace Grpc

open Wire

structure InFlightPing where
  pingID : String
  sentAt : ℕ
  deriving DecidableEq

inductive PingEvent where
  | begun (ping : InFlightPing)
  | answered (pingID : String) (latencyMs : ℤ)
  | expired (pingID : String) (elapsed : ℕ)
  | failed (pingID : String)
  | cleared (pingID : String)
  deriving DecidableEq

/-- The time in nanoseconds, the pings in flight, and the agent and id of the ping that is being
sent. -/
structure Pings where
  clock : ℕ := 0
  inFlightPing : String → Option InFlightPing := fun _ ↦ none
  sending : Option (String × String) := none
  log : String → List PingEvent := fun _ ↦ []

/-- Durations in nanoseconds. -/
structure PingConfig where
  pingInterval : ℤ := 10 ^ 9
  pingTimeout : ℤ := 3 * 10 ^ 9

def PingConfig.effectivePingTimeout (config : PingConfig) : ℤ :=
  if config.pingTimeout > 0 then config.pingTimeout
  else if config.pingInterval > 0 then 3 * config.pingInterval
  else 3 * 10 ^ 9

inductive PingAction where
  | advance (nanos : ℕ)
  | trySendPing (agentID : String)
  | sendPingDone (ok : Bool)
  | handlePong (agentID : String) (pong : PongResponseMsg)
  | clearInFlightPing (agentID : String)

namespace Pings

variable (config : PingConfig) (p : Pings)

/-! ## The handlers -/

/-- Set the entry of an agent, and note why. -/
def setInFlight (agentID : String) (ping : Option InFlightPing) (events : List PingEvent) : Pings :=
  { p with
    inFlightPing := Function.update p.inFlightPing agentID ping
    log := Function.update p.log agentID (events ++ p.log agentID) }

/-- `trySendPing` up to the call of `SendPing`. -/
def trySendPing (agentID : String) : Pings :=
  let ping : InFlightPing := ⟨stampedID "ping" agentID p.clock, p.clock⟩
  let begin (p : Pings) : Pings :=
    { p.setInFlight agentID (some ping) [.begun ping] with sending := some (agentID, ping.pingID) }
  match p.inFlightPing agentID with
  | none => begin p
  | some inFlight =>
    let elapsed := p.clock - inFlight.sentAt
    if elapsed < config.effectivePingTimeout then p
    else begin (p.setInFlight agentID none [.expired inFlight.pingID elapsed])

/-- `SendPing` has returned.  After a failure the entry goes if it is still the one of this ping. -/
def sendPingDone (agentID pingID : String) (ok : Bool) : Pings :=
  let done : Pings := { p with sending := none }
  if ok then done
  else
    match p.inFlightPing agentID with
    | none => done
    | some current =>
      if current.pingID = pingID then done.setInFlight agentID none [.failed pingID] else done

/-- `handlePong`.  The times of the pong are the agent's. -/
def handlePong (agentID : String) (pong : PongResponseMsg) : Pings :=
  match p.inFlightPing agentID with
  | none => p
  | some inFlight =>
    if inFlight.pingID = pong.pingID then
      let latencyMs : ℤ := (p.clock / 10 ^ 6 : ℕ) - pong.serverTimestampMs.toInt
      p.setInFlight agentID none
        [.answered inFlight.pingID (if latencyMs < 0 then 0 else latencyMs)]
    else p

/-- `clearInFlightPing`, which the registration and the disconnection of an agent call. -/
def clearInFlightPing (agentID : String) : Pings :=
  if agentID = "" then p
  else
    match p.inFlightPing agentID with
    | none => p
    | some inFlight => p.setInFlight agentID none [.cleared inFlight.pingID]

/-- One step.  The loop goes on to the next agent when `SendPing` has returned. -/
def step : PingAction → Option Pings
  | .advance nanos => some { p with clock := p.clock + nanos }
  | .trySendPing agentID =>
    match p.sending with
    | none => some (p.trySendPing config agentID)
    | some _ => none
  | .sendPingDone ok => p.sending.map fun ping ↦ p.sendPingDone ping.1 ping.2 ok
  | .handlePong agentID pong => some (p.handlePong agentID pong)
  | .clearInFlightPing agentID => some (p.clearInFlightPing agentID)

/-- The states of all runs. -/
def Reachable (p : Pings) : Prop :=
  GuardedRun.Reachable (step config) (fun _ _ ↦ True) (· = {}) p

end Pings

/-! ## What becomes of a ping -/

/-- The protocol for one agent: a ping begins when none is in flight, and each of the four ways in
which it is over is about that very ping.  `Legal timeout log ping` says that `log` is a history of
the protocol that ends with `ping` in flight, or with none. -/
inductive Legal (timeout : ℤ) : List PingEvent → Option InFlightPing → Prop
  | nil : Legal timeout [] none
  | begun {log : List PingEvent} (ping : InFlightPing) (h : Legal timeout log none) :
      Legal timeout (.begun ping :: log) (some ping)
  | answered {log : List PingEvent} {ping : InFlightPing} {latencyMs : ℤ}
      (h : Legal timeout log (some ping)) (hlatency : 0 ≤ latencyMs) :
      Legal timeout (.answered ping.pingID latencyMs :: log) none
  | expired {log : List PingEvent} {ping : InFlightPing} {elapsed : ℕ}
      (h : Legal timeout log (some ping)) (helapsed : timeout ≤ elapsed) :
      Legal timeout (.expired ping.pingID elapsed :: log) none
  | failed {log : List PingEvent} {ping : InFlightPing} (h : Legal timeout log (some ping)) :
      Legal timeout (.failed ping.pingID :: log) none
  | cleared {log : List PingEvent} {ping : InFlightPing} (h : Legal timeout log (some ping)) :
      Legal timeout (.cleared ping.pingID :: log) none

/-- The ids of the pings that began, and of those that were answered. -/
def begunIDs (log : List PingEvent) : List String :=
  log.filterMap fun
    | .begun ping => some ping.pingID
    | _ => none

def answeredIDs (log : List PingEvent) : List String :=
  log.filterMap fun
    | .answered pingID _ => some pingID
    | _ => none

variable {config : PingConfig} {timeout : ℤ} {log : List PingEvent}

/-- The answers belong to the pings that are over, each to one of its own. -/
theorem Legal.answered_sublist {ping : Option InFlightPing} (h : Legal timeout log ping) :
    (ping = none → (answeredIDs log).Sublist (begunIDs log)) ∧
      ∀ current, ping = some current → ∃ ids, begunIDs log = current.pingID :: ids ∧
        (answeredIDs log).Sublist ids := by
  induction h with
  | nil => exact ⟨fun _ ↦ .slnil, by simp⟩
  | @begun log current _ ih =>
    refine ⟨by simp, fun current' heq ↦ ?_⟩
    obtain rfl := Option.some.inj heq
    exact ⟨begunIDs log, rfl, ih.1 rfl⟩
  | @answered log current latencyMs _ _ ih =>
    obtain ⟨ids, hbegun, hsub⟩ := ih.2 current rfl
    refine ⟨fun _ ↦ ?_, by simp⟩
    show List.Sublist (current.pingID :: answeredIDs log) (begunIDs log)
    rw [hbegun]
    exact hsub.cons_cons _
  | @expired log current elapsed _ _ ih =>
    obtain ⟨ids, hbegun, hsub⟩ := ih.2 current rfl
    refine ⟨fun _ ↦ ?_, by simp⟩
    show List.Sublist (answeredIDs log) (begunIDs log)
    rw [hbegun]
    exact hsub.cons _
  | @failed log current _ ih =>
    obtain ⟨ids, hbegun, hsub⟩ := ih.2 current rfl
    refine ⟨fun _ ↦ ?_, by simp⟩
    show List.Sublist (answeredIDs log) (begunIDs log)
    rw [hbegun]
    exact hsub.cons _
  | @cleared log current _ ih =>
    obtain ⟨ids, hbegun, hsub⟩ := ih.2 current rfl
    refine ⟨fun _ ↦ ?_, by simp⟩
    show List.Sublist (answeredIDs log) (begunIDs log)
    rw [hbegun]
    exact hsub.cons _

namespace Pings

variable {p p' : Pings}

/-- Every agent's history is one of the protocol. -/
def Sound (config : PingConfig) (p : Pings) : Prop :=
  ∀ agentID, Legal config.effectivePingTimeout (p.log agentID) (p.inFlightPing agentID)

theorem Sound.setInFlight (hs : p.Sound config) {agentID : String} {ping : Option InFlightPing}
    {events : List PingEvent}
    (hlegal : Legal config.effectivePingTimeout (events ++ p.log agentID) ping) :
    (p.setInFlight agentID ping events).Sound config := by
  intro other
  by_cases heq : other = agentID
  · subst heq
    simpa [Pings.setInFlight] using hlegal
  · simpa [Pings.setInFlight, heq] using hs other

theorem Sound.trySendPing (hs : p.Sound config) (agentID : String) :
    (p.trySendPing config agentID).Sound config := by
  have hlegal := hs agentID
  rw [Pings.trySendPing]
  cases hping : p.inFlightPing agentID with
  | none =>
    rw [hping] at hlegal
    exact hs.setInFlight (hlegal.begun _)
  | some inFlight =>
    rw [hping] at hlegal
    simp only
    split
    · exact hs
    · rename_i hexpired
      have hover := hlegal.expired (Int.not_lt.mp hexpired)
      have hfirst : (p.setInFlight agentID none
          [.expired inFlight.pingID (p.clock - inFlight.sentAt)]).Sound config :=
        hs.setInFlight hover
      refine hfirst.setInFlight (.begun _ ?_)
      simpa [Pings.setInFlight] using hover

theorem Sound.sendPingDone (hs : p.Sound config) (agentID pingID : String) (ok : Bool) :
    (p.sendPingDone agentID pingID ok).Sound config := by
  have hdone : ({ p with sending := none } : Pings).Sound config := hs
  have hlegal := hs agentID
  rw [Pings.sendPingDone]
  split
  · exact hdone
  · cases hping : p.inFlightPing agentID with
    | none => exact hdone
    | some current =>
      rw [hping] at hlegal
      simp only
      split
      · rename_i hcurrent
        rw [← hcurrent]
        exact hdone.setInFlight hlegal.failed
      · exact hdone

theorem Sound.handlePong (hs : p.Sound config) (agentID : String) (pong : PongResponseMsg) :
    (p.handlePong agentID pong).Sound config := by
  have hlegal := hs agentID
  rw [Pings.handlePong]
  cases hping : p.inFlightPing agentID with
  | none => exact hs
  | some inFlight =>
    rw [hping] at hlegal
    simp only
    split
    · refine hs.setInFlight (hlegal.answered ?_)
      split <;> omega
    · exact hs

theorem Sound.clearInFlightPing (hs : p.Sound config) (agentID : String) :
    (p.clearInFlightPing agentID).Sound config := by
  have hlegal := hs agentID
  rw [Pings.clearInFlightPing]
  split
  · exact hs
  · cases hping : p.inFlightPing agentID with
    | none => exact hs
    | some inFlight =>
      rw [hping] at hlegal
      exact hs.setInFlight hlegal.cleared

theorem Sound.step (hs : p.Sound config) {a : PingAction} (h : p.step config a = some p') :
    p'.Sound config := by
  cases a with
  | advance nanos =>
    obtain rfl := Option.some.inj h
    exact hs
  | trySendPing agentID =>
    rw [Pings.step] at h
    split at h
    · obtain rfl := Option.some.inj h
      exact hs.trySendPing agentID
    · cases h
  | sendPingDone ok =>
    obtain ⟨ping, -, rfl⟩ := Option.map_eq_some_iff.mp h
    exact hs.sendPingDone ping.1 ping.2 ok
  | handlePong agentID pong =>
    obtain rfl := Option.some.inj h
    exact hs.handlePong agentID pong
  | clearInFlightPing agentID =>
    obtain rfl := Option.some.inj h
    exact hs.clearInFlightPing agentID

end Pings
end Grpc
end FleetServer
