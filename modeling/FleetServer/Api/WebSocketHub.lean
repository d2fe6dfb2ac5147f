import Mathlib.Data.Finset.Card
import Mathlib.Logic.Relation
import Mathlib.Logic.Function.Basic
import FleetServer.Lib.Channel
import FleetServer.Lib.Run

/-!
# The hub of the WebSocket connections

`internal/api/websocket.go`: the hub's loop (`Run`) registers and unregisters clients and hands
every message of the channel `broadcast` to all of them; a client whose own channel `send` is full
is slow and is thrown out after the loop over the clients.  Each client has a `readPump`, which
leaves when its connection breaks, and a `writePump`, which writes what is in `send` to the
connection.  Messages come from `Broadcast`, which drops them when the channel is full, and from the
ticker of `StartBroadcastLoop`, which waits.

Every party is split at the points where another one may run in between: the hub after each client
of its loops, the write pump after each message.  A client is known by its pointer, a key of any
type; the range over a map visits its keys in an order the run chooses.  Sending on a closed channel
or closing it twice ends the server (`panicked`).

`joined`, `accepted` and `taken` are not in the source.  They record when a client was registered,
what has been put into its channel, and what the hub has taken out of `broadcast`.
-/

set_option autoImplicit false

namespace FleetServer
namespace Api

/-- Where a `readPump` stands: in its loop, waiting to unregister, or gone. -/
inductive ReadPump where
  | reading
  | leaving
  | left
  deriving DecidableEq, Repr

/-- Where a `writePump` stands: waiting for a message, having begun a frame with one, writing `n`
more that were queued when it looked, or gone. -/
inductive WritePump (β : Type) where
  | waiting
  | writing (frame : List β)
  | batching (frame : List β) (n : ℕ)
  | stopped
  deriving DecidableEq, Repr

structure WebSocketClient (β : Type) where
  send : Channel β 256 := {}
  readPump : ReadPump := .reading
  writePump : WritePump β := .waiting
  frames : List (List β) := []
  joined : ℕ
  accepted : List β := []

/-- Where the hub's loop stands: in its `select`, in the range over the clients, or throwing out the
slow ones. -/
inductive Phase (κ β : Type) where
  | selecting
  | sending (message : β) (rest : Finset κ) (slowClients : List κ)
  | removing (slowClients : List κ)

/-- The hub, the clients ever made, and the message `StartBroadcastLoop` waits to send. -/
structure WebSocketHub (κ β : Type) where
  clients : Finset κ := ∅
  broadcast : Channel β 256 := {}
  phase : Phase κ β := .selecting
  loop : Option β := none
  connections : κ → Option (WebSocketClient β) := fun _ ↦ none
  taken : List β := []
  panicked : Bool := false

namespace WebSocketHub

variable {κ β : Type} [DecidableEq κ] [Inhabited β] (h : WebSocketHub κ β)

/-! ## The steps -/

def setClient (c : κ) (client : WebSocketClient β) : WebSocketHub κ β :=
  { h with connections := Function.update h.connections c (some client) }

/-- `HandleWebSocket` and the hub's `case client := <-h.register`. -/
def register (c : κ) : Option (WebSocketHub κ β) :=
  match h.phase, h.connections c with
  | .selecting, none =>
    some { h.setClient c { joined := h.taken.length } with clients := insert c h.clients }
  | _, _ => none

/-- A client that is in the map is deleted from it and its channel is closed. -/
def remove (c : κ) : Option (WebSocketHub κ β) :=
  if c ∈ h.clients then
    (h.connections c).map fun client ↦
      match client.send.close with
      | some send => { h.setClient c { client with send } with clients := h.clients.erase c }
      | none => { h with panicked := true }
  else some h

/-- `readPump` breaks out of its loop. -/
def leave (c : κ) : Option (WebSocketHub κ β) :=
  (h.connections c).bind fun client ↦
    if client.readPump = .reading then some (h.setClient c { client with readPump := .leaving })
    else none

/-- `c.hub.unregister <- c` and the hub's `case client := <-h.unregister`. -/
def unregister (c : κ) : Option (WebSocketHub κ β) :=
  match h.phase with
  | .selecting =>
    (h.connections c).bind fun client ↦
      if client.readPump = .leaving then
        (h.setClient c { client with readPump := .left }).remove c
      else none
  | _ => none

/-- `Broadcast`: the message is dropped when the channel is full. -/
def broadcastMessage (data : β) : WebSocketHub κ β :=
  match h.broadcast.trySend data with
  | .sent broadcast => { h with broadcast }
  | .full => h
  | .fault => { h with panicked := true }

/-- `StartBroadcastLoop` after a tick: nothing is built when there are no clients.  While slow
clients are thrown out the hub holds its lock. -/
def build (data : β) : Option (WebSocketHub κ β) :=
  match h.phase, h.loop with
  | .removing _, _ => none
  | _, none => if h.clients = ∅ then none else some { h with loop := some data }
  | _, some _ => none

/-- `s.wsHub.broadcast <- data`, which waits while the channel is full. -/
def loopSend : Option (WebSocketHub κ β) :=
  h.loop.bind fun data ↦
    match h.broadcast.trySend data with
    | .sent broadcast => some { h with broadcast, loop := none }
    | .full => none
    | .fault => some { h with panicked := true }

/-- The hub goes on to hand a message to every client. -/
def startSending (message : β) (broadcast : Channel β 256) : WebSocketHub κ β :=
  { h with
    broadcast
    taken := h.taken ++ [message]
    phase := .sending message h.clients [] }

/-- The hub's `case message := <-h.broadcast`.  A closed channel would give `nil` messages. -/
def take : Option (WebSocketHub κ β) :=
  match h.phase with
  | .selecting =>
    match h.broadcast.receive with
    | .value message broadcast => some (h.startSending message broadcast)
    | .closed => some (h.startSending default h.broadcast)
    | .blocked => none
  | _ => none

/-- One round of `for client := range h.clients`. -/
def sendNext (c : κ) : Option (WebSocketHub κ β) :=
  match h.phase with
  | .sending message rest slowClients =>
    if c ∈ rest then
      (h.connections c).map fun client ↦
        match client.send.trySend message with
        | .sent send =>
          { h.setClient c { client with send, accepted := client.accepted ++ [message] } with
            phase := .sending message (rest.erase c) slowClients }
        | .full => { h with phase := .sending message (rest.erase c) (slowClients ++ [c]) }
        | .fault => { h with panicked := true }
    else none
  | _ => none

/-- The range is over; when there are slow clients the hub takes its lock. -/
def endSending : Option (WebSocketHub κ β) :=
  match h.phase with
  | .sending _ rest slowClients =>
    if rest = ∅ then
      some { h with phase := if slowClients.isEmpty then .selecting else .removing slowClients }
    else none
  | _ => none

/-- One round of `for _, client := range slowClients`, and the end of the loop. -/
def removeNext : Option (WebSocketHub κ β) :=
  match h.phase with
  | .removing (c :: rest) => (h.remove c).map fun h' ↦ { h' with phase := .removing rest }
  | .removing [] => some { h with phase := .selecting }
  | _ => none

/-- `writePump` receives from `send`: with `ok` unset `NextWriter` fails. -/
def pumpTake (c : κ) (ok : Bool) : Option (WebSocketHub κ β) :=
  (h.connections c).bind fun client ↦
    match client.writePump with
    | .waiting =>
      match client.send.receive with
      | .value message send =>
        some (h.setClient c { client with
          send, writePump := if ok then .writing [message] else .stopped })
      | .closed => some (h.setClient c { client with writePump := .stopped })
      | .blocked => none
    | _ => none

/-- `n := len(c.send)`. -/
def pumpCount (c : κ) : Option (WebSocketHub κ β) :=
  (h.connections c).bind fun client ↦
    match client.writePump with
    | .writing frame =>
      some (h.setClient c { client with writePump := .batching frame client.send.buffer.length })
    | _ => none

/-- `w.Write(<-c.send)`.  A closed channel that is empty would give `nil`. -/
def pumpBatch (c : κ) : Option (WebSocketHub κ β) :=
  (h.connections c).bind fun client ↦
    match client.writePump with
    | .batching frame (n + 1) =>
      match client.send.receive with
      | .value message send =>
        some (h.setClient c { client with
          send, writePump := .batching (frame ++ [message]) n })
      | .closed =>
        some (h.setClient c { client with writePump := .batching (frame ++ [default]) n })
      | .blocked => none
    | _ => none

/-- `w.Close()`, which sends the frame. -/
def pumpClose (c : κ) (ok : Bool) : Option (WebSocketHub κ β) :=
  (h.connections c).bind fun client ↦
    match client.writePump with
    | .batching frame 0 =>
      some (h.setClient c
        (if ok then { client with frames := client.frames ++ [frame], writePump := .waiting }
        else { client with writePump := .stopped }))
    | _ => none

/-- A ping that cannot be written. -/
def pumpPing (c : κ) : Option (WebSocketHub κ β) :=
  (h.connections c).bind fun client ↦
    match client.writePump with
    | .waiting => some (h.setClient c { client with writePump := .stopped })
    | _ => none

inductive Action (κ β : Type) where
  | register (c : κ)
  | leave (c : κ)
  | unregister (c : κ)
  | broadcastMessage (data : β)
  | build (data : β)
  | loopSend
  | take
  | sendNext (c : κ)
  | endSending
  | removeNext
  | pumpTake (c : κ) (ok : Bool)
  | pumpCount (c : κ)
  | pumpBatch (c : κ)
  | pumpClose (c : κ) (ok : Bool)
  | pumpPing (c : κ)

/-- One step of one party.  A panic ends the server. -/
def step (a : Action κ β) : Option (WebSocketHub κ β) :=
  if h.panicked then none
  else
    match a with
    | .register c => h.register c
    | .leave c => h.leave c
    | .unregister c => h.unregister c
    | .broadcastMessage data => some (h.broadcastMessage data)
    | .build data => h.build data
    | .loopSend => h.loopSend
    | .take => h.take
    | .sendNext c => h.sendNext c
    | .endSending => h.endSending
    | .removeNext => h.removeNext
    | .pumpTake c ok => h.pumpTake c ok
    | .pumpCount c => h.pumpCount c
    | .pumpBatch c => h.pumpBatch c
    | .pumpClose c ok => h.pumpClose c ok
    | .pumpPing c => h.pumpPing c

/-- `NewWebSocketHub`. -/
def Initial (h : WebSocketHub κ β) : Prop := h = {}

/-! ## What a client has received

`written` is what the write pump has taken out of the channel and written, in order. -/

end WebSocketHub

namespace WebSocketClient

variable {β : Type} (client : WebSocketClient β)

/-- The frame that is being written. -/
def openFrame : List β :=
  match client.writePump with
  | .writing frame => frame
  | .batching frame _ => frame
  | _ => []

def written : List β := client.frames.flatten ++ client.openFrame

/-- The write pump writes what was put into the channel, in order, and has messages left for the
rounds of its inner loop. -/
structure InOrder : Prop where
  isPrefix : client.written <+: client.accepted
  append_buffer : client.writePump ≠ .stopped →
    client.written ++ client.send.buffer = client.accepted
  le_buffer : ∀ frame n, client.writePump = .batching frame n → n ≤ client.send.buffer.length

variable {client}

theorem flatten_frames_prefix (ho : client.InOrder) : client.frames.flatten <+: client.accepted :=
  (List.prefix_append _ _).trans ho.isPrefix

/-- A pump that returns leaves what it has written so far. -/
theorem InOrder.stop (ho : client.InOrder) (send : Channel β 256) :
    { client with send, writePump := .stopped }.InOrder where
  isPrefix := by
    rw [written, openFrame, List.append_nil]
    have hprefix := flatten_frames_prefix ho
    exact hprefix
  append_buffer h := absurd rfl h
  le_buffer _ _ h := by cases h

/-- The hub puts a message into the channel. -/
theorem InOrder.put (ho : client.InOrder) {send : Channel β 256} {message : β}
    (hsend : send.buffer = client.send.buffer ++ [message]) :
    { client with send, accepted := client.accepted ++ [message] }.InOrder where
  isPrefix := ho.isPrefix.trans (List.prefix_append _ _)
  append_buffer h := by
    show client.written ++ send.buffer = client.accepted ++ [message]
    rw [hsend, ← List.append_assoc, ho.append_buffer h]
  le_buffer frame n h := by
    have hle := ho.le_buffer frame n h
    show n ≤ send.buffer.length
    rw [hsend, List.length_append]
    omega

/-- The pump begins a frame with the oldest message. -/
theorem InOrder.begin (ho : client.InOrder) (hwaiting : client.writePump = .waiting)
    {send : Channel β 256} {message : β} (hsend : client.send.buffer = message :: send.buffer) :
    { client with send, writePump := .writing [message] }.InOrder := by
  have hall : client.frames.flatten ++ message :: send.buffer = client.accepted := by
    rw [← ho.append_buffer (by simp [hwaiting]), hsend, written, openFrame, hwaiting,
      List.append_nil]
  refine ⟨⟨send.buffer, ?_⟩, fun _ ↦ ?_, fun frame n h ↦ by cases h⟩
  · rw [← hall, written, openFrame, List.append_assoc, List.singleton_append]
  · rw [← hall, written, openFrame, List.append_assoc, List.singleton_append]

theorem InOrder.count (ho : client.InOrder) {frame : List β}
    (hwriting : client.writePump = .writing frame) :
    { client with writePump := .batching frame client.send.buffer.length }.InOrder := by
  have hwritten : client.written = client.frames.flatten ++ frame := by
    rw [written, openFrame, hwriting]
  refine ⟨?_, fun _ ↦ ?_, fun frame' n h ↦ ?_⟩
  · rw [written, openFrame, ← hwritten]
    exact ho.isPrefix
  · rw [written, openFrame, ← hwritten]
    exact ho.append_buffer (by simp [hwriting])
  · obtain ⟨-, rfl⟩ := WritePump.batching.inj h
    exact le_rfl

/-- The pump adds the next message to the frame. -/
theorem InOrder.batch (ho : client.InOrder) {frame : List β} {n : ℕ}
    (hbatching : client.writePump = .batching frame (n + 1)) {send : Channel β 256} {message : β}
    (hsend : client.send.buffer = message :: send.buffer) :
    { client with send, writePump := .batching (frame ++ [message]) n }.InOrder := by
  have hall : client.frames.flatten ++ (frame ++ [message]) ++ send.buffer = client.accepted := by
    rw [← ho.append_buffer (by simp [hbatching]), hsend, written, openFrame, hbatching]
    simp
  refine ⟨⟨send.buffer, hall⟩, fun _ ↦ hall, fun frame' n' h ↦ ?_⟩
  obtain ⟨-, rfl⟩ := WritePump.batching.inj h
  have hle := ho.le_buffer frame (n + 1) hbatching
  rw [hsend, List.length_cons] at hle
  show n ≤ send.buffer.length
  omega

theorem InOrder.close (ho : client.InOrder) {frame : List β} {n : ℕ}
    (hbatching : client.writePump = .batching frame n) :
    { client with frames := client.frames ++ [frame], writePump := .waiting }.InOrder := by
  have hwritten : client.written = client.frames.flatten ++ frame := by
    rw [written, openFrame, hbatching]
  have hsame : (client.frames ++ [frame]).flatten ++ [] = client.written := by
    rw [hwritten, List.flatten_append, List.flatten_singleton, List.append_nil]
  refine ⟨?_, fun _ ↦ ?_, fun frame' n' h ↦ by cases h⟩
  · rw [written, openFrame, hsame]
    exact ho.isPrefix
  · rw [written, openFrame, hsame]
    exact ho.append_buffer (by simp [hbatching])

end WebSocketClient

namespace WebSocketHub

variable {κ β : Type} [DecidableEq κ]

/-- What is to happen to a client before the hub is back in its `select`. -/
inductive Standing (β : Type) where
  | served
  | due (message : β)
  | slow

def Phase.standing (c : κ) : Phase κ β → Standing β
  | .selecting => .served
  | .sending message rest slowClients =>
    if c ∈ rest then .due message else if c ∈ slowClients then .slow else .served
  | .removing slowClients => if c ∈ slowClients then .slow else .served

/-- A registered client has been given every message taken since it was registered, or all but the
one it is due; one that is not registered any more has been given the first ones. -/
structure SoundAt (h : WebSocketHub κ β) (c : κ) (client : WebSocketClient β) : Prop where
  open_iff : client.send.closed = false ↔ c ∈ h.clients
  inOrder : client.InOrder
  joined_le : client.joined ≤ h.taken.length
  isPrefix : client.accepted <+: h.taken.drop client.joined
  served : c ∈ h.clients → Phase.standing c h.phase = .served →
    client.accepted = h.taken.drop client.joined
  due : ∀ message, c ∈ h.clients → Phase.standing c h.phase = .due message →
    client.accepted ++ [message] = h.taken.drop client.joined

structure Sound (h : WebSocketHub κ β) : Prop where
  alive : h.panicked = false
  broadcast_open : h.broadcast.closed = false
  known : ∀ c ∈ h.clients, ∃ client, h.connections c = some client
  rest_subset : ∀ message rest slowClients, h.phase = .sending message rest slowClients →
    rest ⊆ h.clients
  client : ∀ c client, h.connections c = some client → h.SoundAt c client

/-! ## Every step keeps it -/

variable {h h' : WebSocketHub κ β} {c : κ} {client client' : WebSocketClient β}

theorem connections_setClient (c' : κ) :
    (h.setClient c client).connections c' =
      if c' = c then some client else h.connections c' :=
  Function.update_apply h.connections c (some client) c'

theorem sound_initial : ({} : WebSocketHub κ β).Sound where
  alive := rfl
  broadcast_open := rfl
  known := by simp
  rest_subset := by simp
  client := by simp

/-- What a client's own pumps do. -/
theorem Sound.setClient (hs : h.Sound) (hc : h.connections c = some client)
    (hclosed : client'.send.closed = client.send.closed) (hjoined : client'.joined = client.joined)
    (haccepted : client'.accepted = client.accepted) (horder : client'.InOrder) :
    (h.setClient c client').Sound where
  alive := hs.alive
  broadcast_open := hs.broadcast_open
  known c' hc' := by
    rw [connections_setClient]
    split
    · exact ⟨client', rfl⟩
    · exact hs.known c' hc'
  rest_subset := hs.rest_subset
  client c' other hother := by
    rw [connections_setClient] at hother
    split at hother
    · rename_i heq
      subst heq
      obtain rfl : client' = other := Option.some.inj hother
      have hold := hs.client c' client hc
      exact
        { open_iff := by rw [hclosed]; exact hold.open_iff
          inOrder := horder
          joined_le := by rw [hjoined]; exact hold.joined_le
          isPrefix := by rw [haccepted, hjoined]; exact hold.isPrefix
          served := by rw [haccepted, hjoined]; exact hold.served
          due := by rw [haccepted, hjoined]; exact hold.due }
    · have hold := hs.client c' other hother
      exact ⟨hold.open_iff, hold.inOrder, hold.joined_le, hold.isPrefix, hold.served, hold.due⟩

/-- Going on to a phase in which nobody is due a message. -/
theorem Sound.setPhase (hs : h.Sound) {phase : Phase κ β}
    (hsending : ∀ message rest slowClients, phase ≠ .sending message rest slowClients)
    (hstanding : ∀ c' ∈ h.clients, Phase.standing c' phase = .served →
      Phase.standing c' h.phase = .served) :
    ({ h with phase } : WebSocketHub κ β).Sound where
  alive := hs.alive
  broadcast_open := hs.broadcast_open
  known := hs.known
  rest_subset message rest slowClients heq := absurd heq (hsending message rest slowClients)
  client c' other hother := by
    have hold := hs.client c' other hother
    refine ⟨hold.open_iff, hold.inOrder, hold.joined_le, hold.isPrefix,
      fun hmem hserved ↦ hold.served hmem (hstanding c' hmem hserved), fun message hmem hdue ↦ ?_⟩
    -- outside the range over the clients no client is due anything
    exfalso
    cases hphase : phase with
    | selecting =>
      rw [hphase] at hdue
      simp [Phase.standing] at hdue
    | sending m rest slow => exact hsending m rest slow hphase
    | removing slow =>
      simp only [hphase, Phase.standing] at hdue
      split at hdue <;> cases hdue

/-- A client that leaves the map is closed, and was open. -/
theorem remove_cases (hs : h.Sound) (hr : h.remove c = some h') :
    c ∉ h.clients ∧ h' = h ∨
      ∃ client send, h.connections c = some client ∧ send.buffer = client.send.buffer ∧
        send.closed = true ∧
        h' = { h.setClient c { client with send } with clients := h.clients.erase c } := by
  rw [remove] at hr
  split at hr
  · rename_i hmem
    obtain ⟨client, hclient⟩ := hs.known c hmem
    have hopen := (hs.client c client hclient).open_iff.mpr hmem
    rw [hclient, Option.map_some] at hr
    obtain ⟨send, hsend⟩ : ∃ send, client.send.close = some send := by
      cases hclose : client.send.close with
      | none => simp [Channel.close_eq_none_iff.mp hclose] at hopen
      | some send => exact ⟨send, rfl⟩
    obtain ⟨-, hbuffer, hclosed⟩ := Channel.close_eq_some_iff.mp hsend
    simp only [hsend, Option.some.injEq] at hr
    exact .inr ⟨client, send, hclient, hbuffer, hclosed, hr.symm⟩
  · rename_i hmem
    exact .inl ⟨hmem, (Option.some.inj hr).symm⟩

theorem phase_remove (hs : h.Sound) (hr : h.remove c = some h') : h'.phase = h.phase := by
  obtain ⟨-, rfl⟩ | ⟨client, send, -, -, -, rfl⟩ := remove_cases hs hr
  · rfl
  · rfl

theorem notMem_clients_remove (hs : h.Sound) (hr : h.remove c = some h') : c ∉ h'.clients := by
  obtain ⟨hmem, rfl⟩ | ⟨client, send, -, -, -, rfl⟩ := remove_cases hs hr
  · exact hmem
  · exact Finset.notMem_erase c h.clients

theorem Sound.remove (hs : h.Sound)
    (hsending : ∀ message rest slowClients, h.phase ≠ .sending message rest slowClients)
    (hr : h.remove c = some h') : h'.Sound := by
  obtain ⟨-, rfl⟩ | ⟨client, send, hclient, hbuffer, hclosed, rfl⟩ := remove_cases hs hr
  · exact hs
  have hold := hs.client c client hclient
  refine ⟨hs.alive, hs.broadcast_open, fun c' hc' ↦ ?_, ?_, fun c' other hother ↦ ?_⟩
  · rw [connections_setClient]
    split
    · exact ⟨_, rfl⟩
    · exact hs.known c' (Finset.mem_of_mem_erase hc')
  · intro message rest slowClients heq
    exact absurd heq (hsending message rest slowClients)
  · rw [connections_setClient] at hother
    split at hother
    · rename_i heq
      subst heq
      have hgone : c' ∉ h.clients.erase c' := Finset.notMem_erase c' h.clients
      obtain rfl := Option.some.inj hother
      refine ⟨by simp [hclosed], ⟨hold.inOrder.isPrefix, ?_, ?_⟩, hold.joined_le, hold.isPrefix,
        fun hmem ↦ absurd hmem hgone, fun _ hmem ↦ absurd hmem hgone⟩
      · rw [hbuffer]
        exact hold.inOrder.append_buffer
      · rw [hbuffer]
        exact hold.inOrder.le_buffer
    · rename_i hne
      have hkeep : c' ∈ h.clients.erase c ↔ c' ∈ h.clients := by simp [hne]
      have hother' := hs.client c' other hother
      exact ⟨hother'.open_iff.trans hkeep.symm, hother'.inOrder, hother'.joined_le,
        hother'.isPrefix, fun hmem ↦ hother'.served (hkeep.mp hmem),
        fun message hmem ↦ hother'.due message (hkeep.mp hmem)⟩

theorem Sound.register (hs : h.Sound) (hr : h.register c = some h') : h'.Sound := by
  rw [WebSocketHub.register] at hr
  split at hr
  · rename_i hphase hnone
    obtain rfl := Option.some.inj hr
    refine ⟨hs.alive, hs.broadcast_open, fun c' hc' ↦ ?_, ?_, fun c' other hother ↦ ?_⟩
    · rw [connections_setClient]
      split
      · exact ⟨_, rfl⟩
      · rename_i hne
        exact hs.known c' (Finset.mem_of_mem_insert_of_ne hc' hne)
    · intro message rest slowClients heq
      have hsending : h.phase = .sending message rest slowClients := heq
      rw [hsending] at hphase
      cases hphase
    · rw [connections_setClient] at hother
      split at hother
      · rename_i heq
        subst heq
        obtain rfl := Option.some.inj hother
        have hall : h.taken.drop h.taken.length = [] := List.drop_length
        refine ⟨by simp, ⟨List.prefix_rfl, fun _ ↦ rfl, fun _ _ hb ↦ by cases hb⟩, le_rfl,
          List.nil_prefix, fun _ _ ↦ hall.symm, fun message _ hdue ↦ ?_⟩
        have hselecting : Phase.standing c' h.phase = .due message := hdue
        rw [hphase] at hselecting
        cases hselecting
      · rename_i hne
        have hkeep : c' ∈ insert c h.clients ↔ c' ∈ h.clients := by simp [hne]
        have hold := hs.client c' other hother
        exact ⟨hold.open_iff.trans hkeep.symm, hold.inOrder, hold.joined_le, hold.isPrefix,
          fun hmem ↦ hold.served (hkeep.mp hmem),
          fun message hmem ↦ hold.due message (hkeep.mp hmem)⟩
  · exact absurd hr (by simp)

/-- What the channel `broadcast` holds and what the ticker waits to send are nobody's concern. -/
theorem Sound.setBroadcast (hs : h.Sound) {broadcast : Channel β 256} (loop : Option β)
    (hopen : broadcast.closed = false) :
    ({ h with broadcast, loop } : WebSocketHub κ β).Sound :=
  ⟨hs.alive, hopen, hs.known, hs.rest_subset, fun c other hother ↦
    let hold := hs.client c other hother
    ⟨hold.open_iff, hold.inOrder, hold.joined_le, hold.isPrefix, hold.served, hold.due⟩⟩

theorem Sound.broadcastMessage (hs : h.Sound) (data : β) : (h.broadcastMessage data).Sound := by
  rw [WebSocketHub.broadcastMessage]
  cases hsend : h.broadcast.trySend data with
  | sent broadcast => exact hs.setBroadcast h.loop (Channel.trySend_eq_sent_iff.mp hsend).2.2.2
  | full => exact hs
  | fault =>
    have hclosed := Channel.trySend_eq_fault_iff.mp hsend
    rw [hs.broadcast_open] at hclosed
    cases hclosed

theorem Sound.build (hs : h.Sound) {data : β} (hr : h.build data = some h') : h'.Sound := by
  rw [WebSocketHub.build] at hr
  split at hr
  · cases hr
  · split at hr
    · cases hr
    · obtain rfl := Option.some.inj hr
      exact hs.setBroadcast (some data) hs.broadcast_open
  · cases hr

theorem Sound.loopSend (hs : h.Sound) (hr : h.loopSend = some h') : h'.Sound := by
  obtain ⟨data, -, hr⟩ := Option.bind_eq_some_iff.mp hr
  cases hsend : h.broadcast.trySend data with
  | sent broadcast =>
    simp only [hsend, Option.some.injEq] at hr
    subst hr
    exact hs.setBroadcast none (Channel.trySend_eq_sent_iff.mp hsend).2.2.2
  | full => simp [hsend] at hr
  | fault =>
    have hclosed := Channel.trySend_eq_fault_iff.mp hsend
    rw [hs.broadcast_open] at hclosed
    cases hclosed

/-- The message taken is now due to every client. -/
theorem Sound.startSending (hs : h.Sound) (hphase : h.phase = .selecting) (message : β)
    {broadcast : Channel β 256} (hopen : broadcast.closed = false) :
    (h.startSending message broadcast).Sound := by
  refine ⟨hs.alive, hopen, hs.known, ?_, fun c' other hother ↦ ?_⟩
  · intro m rest slowClients heq
    obtain ⟨rfl, rfl, rfl⟩ := Phase.sending.inj heq
    exact Finset.Subset.refl _
  · have hold := hs.client c' other hother
    have hdrop : (h.taken ++ [message]).drop other.joined =
        h.taken.drop other.joined ++ [message] :=
      List.drop_append_of_le_length hold.joined_le
    have hserved (hmem : c' ∈ h.clients) : other.accepted = h.taken.drop other.joined :=
      hold.served hmem (by rw [hphase]; rfl)
    have hstanding (hmem : c' ∈ h.clients) :
        Phase.standing c' (h.startSending message broadcast).phase = .due message := by
      show Phase.standing c' (.sending message h.clients []) = .due message
      rw [Phase.standing, if_pos hmem]
    refine ⟨hold.open_iff, hold.inOrder, ?_, ?_, fun hmem hs' ↦ ?_, fun m hmem hdue ↦ ?_⟩
    · have := hold.joined_le
      show other.joined ≤ (h.taken ++ [message]).length
      rw [List.length_append]
      omega
    · show other.accepted <+: (h.taken ++ [message]).drop other.joined
      rw [hdrop]
      exact hold.isPrefix.trans (List.prefix_append _ _)
    · rw [hstanding hmem] at hs'
      cases hs'
    · rw [hstanding hmem] at hdue
      obtain rfl := Standing.due.inj hdue
      show other.accepted ++ [message] = (h.taken ++ [message]).drop other.joined
      rw [hdrop, hserved hmem]

theorem Sound.take [Inhabited β] (hs : h.Sound) (hr : h.take = some h') : h'.Sound := by
  rw [WebSocketHub.take] at hr
  split at hr
  · rename_i hphase
    cases hreceive : h.broadcast.receive with
    | value message broadcast =>
      obtain ⟨-, hclosed⟩ := Channel.receive_eq_value_iff.mp hreceive
      simp only [hreceive, Option.some.injEq] at hr
      subst hr
      exact hs.startSending hphase message (hclosed.trans hs.broadcast_open)
    | closed =>
      have hclosed := (Channel.receive_eq_closed_iff.mp hreceive).2
      rw [hs.broadcast_open] at hclosed
      cases hclosed
    | blocked => simp [hreceive] at hr
  · cases hr

theorem standing_erase_of_ne {c c' : κ} (hne : c' ≠ c) (message : β) (rest : Finset κ)
    (slowClients : List κ) :
    Phase.standing c' (.sending message (rest.erase c) slowClients) =
      Phase.standing c' (.sending message rest slowClients) := by
  simp only [Phase.standing, Finset.mem_erase, hne, ne_eq, not_false_eq_true, true_and]

theorem standing_slow_of_ne {c c' : κ} (hne : c' ≠ c) (message : β) (rest : Finset κ)
    (slowClients : List κ) :
    Phase.standing c' (.sending message (rest.erase c) (slowClients ++ [c])) =
      Phase.standing c' (.sending message rest slowClients) := by
  simp [Phase.standing, hne]

/-- A round of the range over the clients: the client is served, or found to be slow. -/
theorem Sound.sendNext (hs : h.Sound) (hr : h.sendNext c = some h') : h'.Sound := by
  rw [WebSocketHub.sendNext] at hr
  split at hr
  case h_2 => cases hr
  rename_i message rest slowClients hphase
  split at hr
  case isFalse => cases hr
  rename_i hmem
  have hsubset := hs.rest_subset message rest slowClients hphase
  obtain ⟨client, hclient⟩ := hs.known c (hsubset hmem)
  have hold := hs.client c client hclient
  have hopen := hold.open_iff.mpr (hsubset hmem)
  have hdue := hold.due message (hsubset hmem) (by rw [hphase, Phase.standing, if_pos hmem])
  rw [hclient, Option.map_some] at hr
  cases hsend : client.send.trySend message with
  | sent send =>
    obtain ⟨-, -, hbuffer, hsendOpen⟩ := Channel.trySend_eq_sent_iff.mp hsend
    simp only [hsend, Option.some.injEq] at hr
    subst hr
    refine ⟨hs.alive, hs.broadcast_open, fun c' hc' ↦ ?_, ?_, fun c' other hother ↦ ?_⟩
    · rw [connections_setClient]
      split
      · exact ⟨_, rfl⟩
      · exact hs.known c' hc'
    · intro m rest' slow heq
      obtain ⟨-, rfl, -⟩ := Phase.sending.inj heq
      exact (Finset.erase_subset c rest).trans hsubset
    · rw [connections_setClient] at hother
      split at hother
      · rename_i heq
        subst heq
        obtain rfl := Option.some.inj hother
        refine ⟨⟨fun _ ↦ hsubset hmem, fun _ ↦ hsendOpen⟩, hold.inOrder.put hbuffer,
          hold.joined_le, ⟨[], by rw [List.append_nil]; exact hdue⟩, fun _ _ ↦ hdue,
          fun m _ hdue' ↦ ?_⟩
        simp only [Phase.standing, Finset.notMem_erase, if_false] at hdue'
        split at hdue' <;> cases hdue'
      · rename_i hne
        have hother' := hs.client c' other hother
        have hsame := standing_erase_of_ne hne message rest slowClients
        rw [← hphase] at hsame
        exact ⟨hother'.open_iff, hother'.inOrder, hother'.joined_le, hother'.isPrefix,
          fun hmem' hserved ↦ hother'.served hmem' (hsame.symm.trans hserved),
          fun m hmem' hdue' ↦ hother'.due m hmem' (hsame.symm.trans hdue')⟩
  | full =>
    simp only [hsend, Option.some.injEq] at hr
    subst hr
    refine ⟨hs.alive, hs.broadcast_open, hs.known, ?_, fun c' other hother ↦ ?_⟩
    · intro m rest' slow heq
      obtain ⟨-, rfl, -⟩ := Phase.sending.inj heq
      exact (Finset.erase_subset c rest).trans hsubset
    · have hother' := hs.client c' other hother
      by_cases heq : c' = c
      · subst heq
        have hslow : Phase.standing c' (.sending message (rest.erase c') (slowClients ++ [c'])) =
            .slow := by
          simp [Phase.standing]
        refine ⟨hother'.open_iff, hother'.inOrder, hother'.joined_le, hother'.isPrefix,
          fun _ hserved ↦ ?_, fun m _ hdue' ↦ ?_⟩
        · rw [hslow] at hserved
          cases hserved
        · rw [hslow] at hdue'
          cases hdue'
      · have hsame := standing_slow_of_ne heq message rest slowClients
        rw [← hphase] at hsame
        exact ⟨hother'.open_iff, hother'.inOrder, hother'.joined_le, hother'.isPrefix,
          fun hmem' hserved ↦ hother'.served hmem' (hsame.symm.trans hserved),
          fun m hmem' hdue' ↦ hother'.due m hmem' (hsame.symm.trans hdue')⟩
  | fault =>
    have hclosed := Channel.trySend_eq_fault_iff.mp hsend
    rw [hopen] at hclosed
    cases hclosed

theorem Sound.endSending (hs : h.Sound) (hr : h.endSending = some h') : h'.Sound := by
  rw [WebSocketHub.endSending] at hr
  split at hr
  case h_2 => cases hr
  rename_i message rest slowClients hphase
  split at hr
  case isFalse => cases hr
  rename_i hempty
  obtain rfl := Option.some.inj hr
  have hold (c' : κ) : Phase.standing c' h.phase = if c' ∈ slowClients then .slow else .served := by
    rw [hphase, hempty, Phase.standing, if_neg (Finset.notMem_empty c')]
  cases slowClients with
  | nil => exact hs.setPhase (by simp) fun c' _ _ ↦ by simp [hold]
  | cons first slow => exact hs.setPhase (by simp) fun c' _ hserved ↦ (hold c').trans hserved

theorem Sound.removeNext (hs : h.Sound) (hr : h.removeNext = some h') : h'.Sound := by
  rw [WebSocketHub.removeNext] at hr
  split at hr
  · rename_i c rest hphase
    obtain ⟨h₁, hremove, rfl⟩ := Option.map_eq_some_iff.mp hr
    have hs₁ := hs.remove (by simp [hphase]) hremove
    refine hs₁.setPhase (by simp) fun c' hmem hserved ↦ ?_
    -- the client just removed is not in the map any more
    have hne : c' ≠ c := fun heq ↦ notMem_clients_remove hs hremove (heq ▸ hmem)
    rw [phase_remove hs hremove, hphase]
    simpa [Phase.standing, hne] using hserved
  · rename_i hphase
    obtain rfl := Option.some.inj hr
    exact hs.setPhase (by simp) fun c' _ _ ↦ by simp [hphase, Phase.standing]
  · cases hr

/-- The pumps of a client. -/
theorem Sound.leave (hs : h.Sound) (hr : h.leave c = some h') : h'.Sound := by
  obtain ⟨client, hclient, hr⟩ := Option.bind_eq_some_iff.mp hr
  split at hr
  · obtain rfl := Option.some.inj hr
    have hold := (hs.client c client hclient).inOrder
    exact hs.setClient hclient rfl rfl rfl
      ⟨hold.isPrefix, hold.append_buffer, hold.le_buffer⟩
  · cases hr

theorem Sound.unregister (hs : h.Sound) (hr : h.unregister c = some h') : h'.Sound := by
  rw [WebSocketHub.unregister] at hr
  split at hr
  case h_2 => cases hr
  rename_i hphase
  obtain ⟨client, hclient, hr⟩ := Option.bind_eq_some_iff.mp hr
  split at hr
  · have hold := (hs.client c client hclient).inOrder
    have hleft : (h.setClient c { client with readPump := .left }).Sound :=
      hs.setClient hclient rfl rfl rfl ⟨hold.isPrefix, hold.append_buffer, hold.le_buffer⟩
    refine hleft.remove (fun message rest slowClients heq ↦ ?_) hr
    have hsending : h.phase = .sending message rest slowClients := heq
    rw [hphase] at hsending
    cases hsending
  · cases hr

theorem Sound.pumpTake (hs : h.Sound) {ok : Bool} (hr : h.pumpTake c ok = some h') : h'.Sound := by
  obtain ⟨client, hclient, hr⟩ := Option.bind_eq_some_iff.mp hr
  have hold := (hs.client c client hclient).inOrder
  split at hr
  case h_2 => cases hr
  rename_i hwaiting
  cases hreceive : client.send.receive with
  | value message send =>
    obtain ⟨hbuffer, hclosed⟩ := Channel.receive_eq_value_iff.mp hreceive
    simp only [hreceive, Option.some.injEq] at hr
    subst hr
    refine hs.setClient hclient hclosed rfl rfl ?_
    cases ok with
    | true => exact hold.begin hwaiting hbuffer
    | false => exact hold.stop send
  | closed =>
    simp only [hreceive, Option.some.injEq] at hr
    subst hr
    exact hs.setClient hclient rfl rfl rfl (hold.stop client.send)
  | blocked => simp [hreceive] at hr

theorem Sound.pumpCount (hs : h.Sound) (hr : h.pumpCount c = some h') : h'.Sound := by
  obtain ⟨client, hclient, hr⟩ := Option.bind_eq_some_iff.mp hr
  split at hr
  · rename_i frame hwriting
    obtain rfl := Option.some.inj hr
    exact hs.setClient hclient rfl rfl rfl ((hs.client c client hclient).inOrder.count hwriting)
  · cases hr

theorem Sound.pumpBatch [Inhabited β] (hs : h.Sound) (hr : h.pumpBatch c = some h') :
    h'.Sound := by
  obtain ⟨client, hclient, hr⟩ := Option.bind_eq_some_iff.mp hr
  have hold := (hs.client c client hclient).inOrder
  split at hr
  case h_2 => cases hr
  rename_i frame n hbatching
  cases hreceive : client.send.receive with
  | value message send =>
    obtain ⟨hbuffer, hclosed⟩ := Channel.receive_eq_value_iff.mp hreceive
    simp only [hreceive, Option.some.injEq] at hr
    subst hr
    exact hs.setClient hclient hclosed rfl rfl (hold.batch hbatching hbuffer)
  | closed =>
    -- there are as many messages as rounds
    have hle := hold.le_buffer frame (n + 1) hbatching
    rw [(Channel.receive_eq_closed_iff.mp hreceive).1, List.length_nil] at hle
    omega
  | blocked => simp [hreceive] at hr

theorem Sound.pumpClose (hs : h.Sound) {ok : Bool} (hr : h.pumpClose c ok = some h') :
    h'.Sound := by
  obtain ⟨client, hclient, hr⟩ := Option.bind_eq_some_iff.mp hr
  have hold := (hs.client c client hclient).inOrder
  split at hr
  case h_2 => cases hr
  rename_i frame hbatching
  obtain rfl := Option.some.inj hr
  cases ok with
  | true => exact hs.setClient hclient rfl rfl rfl (hold.close hbatching)
  | false => exact hs.setClient hclient rfl rfl rfl (hold.stop client.send)

theorem Sound.pumpPing (hs : h.Sound) (hr : h.pumpPing c = some h') : h'.Sound := by
  obtain ⟨client, hclient, hr⟩ := Option.bind_eq_some_iff.mp hr
  split at hr
  · obtain rfl := Option.some.inj hr
    exact hs.setClient hclient rfl rfl rfl
      ((hs.client c client hclient).inOrder.stop client.send)
  · cases hr

theorem Sound.step [Inhabited β] (hs : h.Sound) {a : Action κ β} (hr : h.step a = some h') :
    h'.Sound := by
  simp only [WebSocketHub.step, hs.alive, Bool.false_eq_true, if_false] at hr
  cases a with
  | register c => exact hs.register hr
  | leave c => exact hs.leave hr
  | unregister c => exact hs.unregister hr
  | broadcastMessage data =>
    obtain rfl := Option.some.inj hr
    exact hs.broadcastMessage data
  | build data => exact hs.build hr
  | loopSend => exact hs.loopSend hr
  | take => exact hs.take hr
  | sendNext c => exact hs.sendNext hr
  | endSending => exact hs.endSending hr
  | removeNext => exact hs.removeNext hr
  | pumpTake c ok => exact hs.pumpTake hr
  | pumpCount c => exact hs.pumpCount hr
  | pumpBatch c => exact hs.pumpBatch hr
  | pumpClose c ok => exact hs.pumpClose hr
  | pumpPing c => exact hs.pumpPing hr

/-! ## All runs -/

variable [Inhabited β]

/-- All runs of the hub, its clients and the senders of messages. -/
def Reachable (h : WebSocketHub κ β) : Prop :=
  GuardedRun.Reachable step (fun _ _ ↦ True) Initial h

theorem Reachable.sound (hr : h.Reachable) : h.Sound :=
  GuardedRun.Reachable.invariant (by rintro _ rfl; exact sound_initial)
    (fun _ _ _ _ hs _ hstep ↦ hs.step hstep) hr

/-- **The server never panics, and every client gets the messages in order and without a gap.**
What a client's connection has been given is the beginning of what the hub took since the client
was registered.  As long as it is registered and its write pump runs, the rest is in its channel
whenever the hub is back in its `select`; its channel is closed as soon as it is not registered. -/
theorem delivered_in_order (hr : h.Reachable) :
    h.panicked = false ∧
      ∀ c client, h.connections c = some client →
        (client.send.closed = true ↔ c ∉ h.clients) ∧
        client.written <+: h.taken.drop client.joined ∧
        (c ∈ h.clients → client.writePump ≠ .stopped → h.phase = .selecting →
          client.written ++ client.send.buffer = h.taken.drop client.joined) := by
  have hs := hr.sound
  refine ⟨hs.alive, fun c client hclient ↦ ?_⟩
  have hc := hs.client c client hclient
  refine ⟨?_, hc.inOrder.isPrefix.trans hc.isPrefix, fun hmem hrunning hselecting ↦ ?_⟩
  · rw [← hc.open_iff, Bool.not_eq_false]
  · rw [hc.inOrder.append_buffer hrunning]
    exact hc.served hmem (by rw [hselecting]; rfl)

theorem delivered_in_order_two_messages :
    ∃ h : WebSocketHub ℕ ℕ, h.panicked = false ∧ ∃ client, h.connections 0 = some client ∧
      client.written = [7, 8] ∧ [7, 8] <+: h.taken.drop client.joined := by
  have hinit : Initial ({} : WebSocketHub ℕ ℕ) := rfl
  obtain ⟨h, hr, hP⟩ := GuardedRun.exists_reachable_of_run step (fun _ _ ↦ True) hinit
    [.register 0, .broadcastMessage 7, .take, .sendNext 0, .endSending, .broadcastMessage 8, .take,
      .sendNext 0, .endSending, .pumpTake 0 true, .pumpCount 0, .pumpBatch 0]
    (P := fun h ↦ (h.connections 0).map WebSocketClient.written = some [7, 8]) (by decide)
  obtain ⟨client, hclient, hwritten⟩ := Option.map_eq_some_iff.mp hP
  obtain ⟨halive, hall⟩ := delivered_in_order hr
  exact ⟨h, halive, client, hclient, hwritten, hwritten ▸ (hall 0 client hclient).2.1⟩

/-! ## Nobody waits for a client

The hub's own steps bring it back to its `select`, whatever the clients do or fail to do. -/

/-- The steps of the hub's loop between two rounds of its `select`. -/
def Action.OfHub : Action κ β → Prop
  | .sendNext _ | .endSending | .removeNext => True
  | _ => False

def HubSteps : WebSocketHub κ β → WebSocketHub κ β → Prop :=
  Relation.ReflTransGen fun h₁ h₂ ↦ ∃ a : Action κ β, a.OfHub ∧ h₁.step a = some h₂

theorem exists_removeNext (hs : h.Sound) {c : κ} {rest : List κ}
    (hphase : h.phase = .removing (c :: rest)) :
    ∃ h', h.step .removeNext = some h' ∧ h'.phase = .removing rest ∧ h'.taken = h.taken := by
  have hsome : ∃ h₁, h.remove c = some h₁ := by
    rw [WebSocketHub.remove]
    split
    · rename_i hmem
      obtain ⟨client, hclient⟩ := hs.known c hmem
      rw [hclient]
      exact ⟨_, rfl⟩
    · exact ⟨h, rfl⟩
  obtain ⟨h₁, hremove⟩ := hsome
  refine ⟨{ h₁ with phase := .removing rest }, ?_, rfl, ?_⟩
  · simp only [step, hs.alive, Bool.false_eq_true, if_false, WebSocketHub.removeNext, hphase,
      hremove, Option.map_some]
  · obtain ⟨-, rfl⟩ | ⟨client, send, -, -, -, rfl⟩ := remove_cases hs hremove
    · rfl
    · rfl

theorem removing_ends (hs : h.Sound) {slowClients : List κ}
    (hphase : h.phase = .removing slowClients) :
    ∃ h', HubSteps h h' ∧ h'.phase = .selecting ∧ h'.taken = h.taken := by
  induction slowClients generalizing h with
  | nil =>
    refine ⟨{ h with phase := .selecting }, .single ⟨.removeNext, trivial, ?_⟩, rfl, rfl⟩
    simp only [step, hs.alive, Bool.false_eq_true, if_false, WebSocketHub.removeNext, hphase]
  | cons c rest ih =>
    obtain ⟨h₁, hstep, hphase₁, htaken₁⟩ := exists_removeNext hs hphase
    obtain ⟨h', hsteps, hselecting, htaken⟩ := ih (hs.step hstep) hphase₁
    exact ⟨h', hsteps.head ⟨.removeNext, trivial, hstep⟩, hselecting, htaken.trans htaken₁⟩

theorem exists_sendNext (hs : h.Sound) {c : κ} {message : β} {rest : Finset κ}
    {slowClients : List κ} (hphase : h.phase = .sending message rest slowClients)
    (hmem : c ∈ rest) :
    ∃ h' slow, h.step (.sendNext c) = some h' ∧ h'.phase = .sending message (rest.erase c) slow ∧
      h'.taken = h.taken := by
  have hclients := hs.rest_subset message rest slowClients hphase hmem
  obtain ⟨client, hclient⟩ := hs.known c hclients
  have hopen := (hs.client c client hclient).open_iff.mpr hclients
  have hstep : h.step (.sendNext c) = h.sendNext c := by
    simp only [step, hs.alive, Bool.false_eq_true, if_false]
  rw [hstep]
  cases hsend : client.send.trySend message with
  | sent send =>
    refine ⟨{ h.setClient c { client with send, accepted := client.accepted ++ [message] } with
      phase := .sending message (rest.erase c) slowClients }, slowClients, ?_, rfl, rfl⟩
    simp only [WebSocketHub.sendNext, hphase, hmem, if_true, hclient, Option.map_some, hsend]
  | full =>
    refine ⟨{ h with phase := .sending message (rest.erase c) (slowClients ++ [c]) },
      slowClients ++ [c], ?_, rfl, rfl⟩
    simp only [WebSocketHub.sendNext, hphase, hmem, if_true, hclient, Option.map_some, hsend]
  | fault =>
    have hclosed := Channel.trySend_eq_fault_iff.mp hsend
    rw [hopen] at hclosed
    cases hclosed

theorem sending_ends (n : ℕ) (hs : h.Sound) {message : β} {rest : Finset κ}
    {slowClients : List κ} (hphase : h.phase = .sending message rest slowClients)
    (hcard : rest.card = n) :
    ∃ h', HubSteps h h' ∧ h'.phase = .selecting ∧ h'.taken = h.taken := by
  induction n generalizing h rest slowClients with
  | zero =>
    obtain rfl := Finset.card_eq_zero.mp hcard
    have hstep : h.step .endSending = some
        { h with phase := if slowClients.isEmpty then .selecting else .removing slowClients } := by
      simp only [step, hs.alive, Bool.false_eq_true, if_false, WebSocketHub.endSending, hphase,
        if_true]
    cases slowClients with
    | nil => exact ⟨_, .single ⟨.endSending, trivial, hstep⟩, rfl, rfl⟩
    | cons c slow =>
      obtain ⟨h', hsteps, hselecting, htaken⟩ := removing_ends (hs.step hstep) rfl
      exact ⟨h', hsteps.head ⟨.endSending, trivial, hstep⟩, hselecting, htaken⟩
  | succ n ih =>
    obtain ⟨c, hmem⟩ : rest.Nonempty := by
      rw [← Finset.card_pos]
      omega
    obtain ⟨h₁, slow, hstep, hphase₁, htaken₁⟩ := exists_sendNext hs hphase hmem
    have hcard₁ : (rest.erase c).card = n := by
      rw [Finset.card_erase_of_mem hmem]
      omega
    obtain ⟨h', hsteps, hselecting, htaken⟩ := ih (hs.step hstep) hphase₁ hcard₁
    exact ⟨h', hsteps.head ⟨.sendNext c, trivial, hstep⟩, hselecting, htaken.trans htaken₁⟩

/-- **No client can hold up the hub.**  Wherever the hub stands, its own steps alone bring it back
to its `select`; every client that is registered then has been given every message taken since it
was registered. -/
theorem hub_returns_to_select (hr : h.Reachable) :
    ∃ h', HubSteps h h' ∧ h'.phase = .selecting ∧ h'.taken = h.taken ∧
      ∀ c client, c ∈ h'.clients → h'.connections c = some client →
        client.accepted = h.taken.drop client.joined := by
  have hs := hr.sound
  obtain ⟨h', hsteps, hselecting, htaken⟩ :
      ∃ h', HubSteps h h' ∧ h'.phase = .selecting ∧ h'.taken = h.taken := by
    cases hphase : h.phase with
    | selecting => exact ⟨h, .refl, hphase, rfl⟩
    | sending message rest slowClients => exact sending_ends rest.card hs hphase rfl
    | removing slowClients => exact removing_ends hs hphase
  have hs' : h'.Sound := by
    clear hselecting htaken
    induction hsteps with
    | refl => exact hs
    | tail _ hstep ih =>
      obtain ⟨a, -, hstep⟩ := hstep
      exact ih.step hstep
  refine ⟨h', hsteps, hselecting, htaken, fun c client hmem hclient ↦ ?_⟩
  rw [← htaken]
  exact (hs'.client c client hclient).served hmem (by rw [hselecting]; rfl)

theorem hub_returns_to_select_registered :
    ∃ h : WebSocketHub ℕ ℕ, h.taken = [7] ∧ (h.connections 0).map (·.accepted) = some [] ∧
      ∃ h', HubSteps h h' ∧ h'.phase = .selecting := by
  have hinit : Initial ({} : WebSocketHub ℕ ℕ) := rfl
  obtain ⟨h, hr, htaken, haccepted⟩ :=
    GuardedRun.exists_reachable_of_run step (fun _ _ ↦ True) hinit
      [.register 0, .register 1, .broadcastMessage 7, .take]
      (P := fun h ↦ h.taken = [7] ∧ (h.connections 0).map (·.accepted) = some []) (by decide)
  obtain ⟨h', hsteps, hselecting, -, -⟩ := hub_returns_to_select hr
  exact ⟨h, htaken, haccepted, h', hsteps, hselecting⟩

/-- **The inner loop of a write pump goes through without waiting.**  It adds the messages that
were queued when the pump looked, and nothing else, also when the channel has been closed since. -/
theorem pumpBatch_ends (hr : h.Reachable) {frame : List β} {n : ℕ}
    (hclient : h.connections c = some client) (hbatching : client.writePump = .batching frame n) :
    ∃ h' client', Relation.ReflTransGen (fun h₁ h₂ ↦ h₁.step (.pumpBatch c) = some h₂) h h' ∧
      h'.connections c = some client' ∧ n ≤ client.send.buffer.length ∧
      client'.writePump = .batching (frame ++ client.send.buffer.take n) 0 ∧
      client'.send.buffer = client.send.buffer.drop n := by
  have hs := hr.sound
  have hle := (hs.client c client hclient).inOrder.le_buffer frame n hbatching
  clear hr
  induction n generalizing h client frame with
  | zero => exact ⟨h, client, .refl, hclient, hle, by simpa using hbatching, rfl⟩
  | succ n ih =>
    obtain ⟨message, buffer, hbuffer⟩ : ∃ message buffer, client.send.buffer = message :: buffer :=
      List.exists_cons_of_length_pos (by omega)
    -- the channel holds a message, so the receive gives one
    obtain ⟨send, hreceive⟩ : ∃ send, client.send.receive = .value message send := by
      have hlength := client.send.length_le
      rw [hbuffer, List.length_cons] at hlength
      exact ⟨{ client.send with buffer, length_le := by omega },
        Channel.receive_eq_value_iff.mpr ⟨hbuffer, rfl⟩⟩
    have hsend : send.buffer = buffer := by
      have := (Channel.receive_eq_value_iff.mp hreceive).1
      rw [hbuffer] at this
      exact (List.cons.inj this).2.symm
    have hstep : h.step (.pumpBatch c) = some (h.setClient c { client with
        send, writePump := .batching (frame ++ [message]) n }) := by
      simp only [step, hs.alive, Bool.false_eq_true, if_false, WebSocketHub.pumpBatch, hclient,
        Option.bind_some, hbatching, hreceive]
    have hclient₁ : (h.setClient c { client with
        send, writePump := .batching (frame ++ [message]) n }).connections c =
          some { client with send, writePump := .batching (frame ++ [message]) n } := by
      rw [connections_setClient, if_pos rfl]
    have hle₁ : n ≤ send.buffer.length := by
      rw [hbuffer, List.length_cons] at hle
      rw [hsend]
      omega
    obtain ⟨h', client', hsteps, hclient', -, hpump, hrest⟩ :=
      ih hclient₁ rfl (hs.step hstep) hle₁
    refine ⟨h', client', hsteps.head hstep, hclient', hle, ?_, ?_⟩
    · rw [hpump, hbuffer, List.take_succ_cons, List.append_assoc, List.singleton_append, hsend]
    · rw [hrest, hbuffer, List.drop_succ_cons, hsend]

theorem pumpBatch_ends_closed :
    ∃ (h h' : WebSocketHub ℕ ℕ) (client client' : WebSocketClient ℕ),
      h.connections 0 = some client ∧ client.send.closed = true ∧
        h'.connections 0 = some client' ∧ client'.writePump = .batching [7, 8] 0 := by
  have hinit : Initial ({} : WebSocketHub ℕ ℕ) := rfl
  obtain ⟨h, hr, hP⟩ := GuardedRun.exists_reachable_of_run step (fun _ _ ↦ True) hinit
    [.register 0, .broadcastMessage 7, .take, .sendNext 0, .endSending, .broadcastMessage 8, .take,
      .sendNext 0, .endSending, .pumpTake 0 true, .pumpCount 0, .leave 0, .unregister 0]
    (P := fun h ↦ (h.connections 0).map (fun client ↦
      (client.writePump, client.send.buffer, client.send.closed)) =
        some (.batching [7] 1, [8], true)) (by decide)
  obtain ⟨client, hclient, heq⟩ := Option.map_eq_some_iff.mp hP
  rw [Prod.mk.injEq, Prod.mk.injEq] at heq
  obtain ⟨hpump, hbuffer, hclosed⟩ := heq
  obtain ⟨h', client', -, hclient', -, hpump', -⟩ := pumpBatch_ends hr hclient hpump
  rw [hbuffer] at hpump'
  exact ⟨h, h', client, client', hclient, hclosed, hclient', hpump'⟩

end WebSocketHub
end Api
end FleetServer
