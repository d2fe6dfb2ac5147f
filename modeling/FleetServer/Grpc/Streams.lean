import FleetServer.Grpc.AgentDecoding
import FleetServer.Lib.Frames

/-!
# Streams of messages

`handleStream` of `internal/grpc/raw_quic_handler.go` reads frames from a stream until it ends or is
broken.  A frame holds a `RegisterAgentRequest` or an `AgentMessage`, and nothing in it says which:
`parseRegisterAgentRequest` is tried first, and what it does not accept goes to `parseAgentMessage`
and from there to the handler of each payload.

`dispatch_eq` is what this makes of any message, in terms of its fields; `handleStream_eq` of any
stream.  The handlers themselves are only named here.
-/

set_option autoImplicit false

namespace FleetServer
namespace Wire

open ProtoWire Frames

/-! ## Registration requests -/

structure RegisterAgentReq where
  agentID : String := ""
  name : String := ""
  rosNamespace : String := ""
  clientVersion : String := ""
  hardwareFingerprint : String := ""
  deriving DecidableEq, Repr

/-- The fields of a registration request, with the names in the errors. -/
def registerCase : ℕ → Option (String × (RegisterAgentReq → String → RegisterAgentReq))
  | 1 => some ("agent_id", fun req v ↦ { req with agentID := v })
  | 2 => some ("name", fun req v ↦ { req with name := v })
  | 3 => some ("namespace", fun req v ↦ { req with rosNamespace := v })
  | 4 => some ("client_version", fun req v ↦ { req with clientVersion := v })
  | 5 => some ("hardware_fingerprint", fun req v ↦ { req with hardwareFingerprint := v })
  | _ => none

variable (w : Protowire)

/-- One round of the loop, after the tag.  The flag is `sawRegisterFields`, which every field but
the id sets. -/
def registerField (req : RegisterAgentReq) (saw : Bool) (n : ℕ) (t : WireType) (data : Bytes) :
    Except String (RegisterAgentReq × Bool × Bytes) :=
  match registerCase n with
  | some (name, set) =>
    if t ≠ .bytes then .error ("invalid " ++ name ++ " wire type")
    else
      match w.consumeString data with
      | none => .error ("invalid " ++ name)
      | some (v, rest) => .ok (set req v, saw || decide (2 ≤ n), rest)
  | none =>
    if 10 ≤ n then .error ("unexpected payload field: " ++ toString n)
    else
      match w.consumeFieldValue n t data with
      | none => .error "invalid field"
      | some rest => .ok (req, saw, rest)

/-- The loop makes at most as many rounds as it has fuel. -/
def registerLoop : ℕ → RegisterAgentReq → Bool → Bytes → Except String (RegisterAgentReq × Bool)
  | _, req, saw, [] => .ok (req, saw)
  | 0, _, _, _ :: _ => .error "invalid tag"
  | fuel + 1, req, saw, data@(_ :: _) =>
    match w.consumeTag data with
    | none => .error "invalid tag"
    | some (n, t, value) =>
      match registerField w req saw n t value with
      | .error error => .error error
      | .ok (req', saw', rest) => registerLoop fuel req' saw' rest

def parseRegisterAgentRequest (data : Bytes) : Except String RegisterAgentReq :=
  match registerLoop w data.length {} false data with
  | .error error => .error error
  | .ok (req, saw) => if saw then .ok req else .error "not a register request"

/-! ## Handlers -/

/-- A call of a handler with a payload.  The registration of capabilities also gets the id in the
message, which is used for an agent that has not registered. -/
inductive HandlerCall where
  | heartbeat (hb : AgentHeartbeatMsg)
  | actionResult (result : ActionResultMsg)
  | actionFeedback (feedback : ActionFeedbackMsg)
  | statusUpdate (status : AgentStatusUpdateMsg)
  | deployResponse (resp : DeployGraphResponseMsg)
  | graphStatus (status : GraphExecutionStatusMsg)
  | pong (pong : PongResponseMsg)
  | configUpdateAck (ack : ConfigUpdateAckMsg)
  | capabilityRegistration (msgAgentID : String) (reg : CapabilityRegistrationMsg)
  | taskLog (log : TaskLogMsg)
  | taskStateUpdate (update : TaskStateUpdateMsg)

/-- The payloads of a message, in the order in which they are handled. -/
def handlerCalls (msg : AgentMsg) : List HandlerCall :=
  (msg.heartbeat.map .heartbeat).toList ++ (msg.actionResult.map .actionResult).toList ++
    (msg.actionFeedback.map .actionFeedback).toList ++
    (msg.statusUpdate.map .statusUpdate).toList ++
    (msg.deployResponse.map .deployResponse).toList ++ (msg.graphStatus.map .graphStatus).toList ++
    (msg.pong.map .pong).toList ++ (msg.configAck.map .configUpdateAck).toList ++
    (msg.capabilityRegistration.map (.capabilityRegistration msg.agentID)).toList ++
    (msg.taskLog.map .taskLog).toList ++ (msg.taskStateUpdate.map .taskStateUpdate).toList

/-- What is done with a frame. -/
inductive Dispatched where
  | register (req : RegisterAgentReq)
  | handled (calls : List HandlerCall)
  | unknown

/-- A message that is not a registration. -/
def dispatchMessage : Except String AgentMsg → Dispatched
  | .ok msg =>
    if msg.agentID ≠ "" ∧ (handlerCalls msg).isEmpty = false then .handled (handlerCalls msg)
    else .unknown
  | .error _ => .unknown

/-- The body of the loop of `handleStream`, after a frame has been read. -/
def dispatch (msgBuf : Bytes) : Dispatched :=
  match parseRegisterAgentRequest w msgBuf with
  | .ok regReq =>
    if regReq.agentID ≠ "" ∨ regReq.hardwareFingerprint ≠ "" then .register regReq
    else dispatchMessage (parseAgentMessage w msgBuf)
  | .error _ => dispatchMessage (parseAgentMessage w msgBuf)

/-- The longest message that is read. -/
def maxMessage : ℕ := 16 * 1024 * 1024

/-- `handleStream`: what is done with the frames of a stream, and why it stops. -/
def handleStream (stream : Bytes) : List Dispatched × Stop :=
  let (messages, stop) := readFrames 4 maxMessage stream
  (messages.map (dispatch w), stop)

/-! ## What is a registration

The fields decide: those of a request are texts, something other than the id is there, and nothing
that could be a payload. -/

/-- The request in the fields. -/
def readRegister (fs : List Field) : RegisterAgentReq where
  agentID := textAt 1 fs
  name := textAt 2 fs
  rosNamespace := textAt 3 fs
  clientVersion := textAt 4 fs
  hardwareFingerprint := textAt 5 fs

/-- A field that `parseRegisterAgentRequest` goes on after. -/
def InRequest (f : Field) : Prop :=
  f.number < 10 ∧ (1 ≤ f.number → f.number ≤ 5 → f.value.wireType = .bytes)

instance (f : Field) : Decidable (InRequest f) := inferInstanceAs (Decidable (_ ∧ (_ → _ → _)))

/-- The fields of a request that is accepted. -/
def Registers (fs : List Field) : Prop :=
  (∀ f ∈ fs, InRequest f) ∧ (∃ f ∈ fs, 2 ≤ f.number ∧ f.number ≤ 5) ∧
    ((readRegister fs).agentID ≠ "" ∨ (readRegister fs).hardwareFingerprint ≠ "")

instance (fs : List Field) : Decidable (Registers fs) := inferInstanceAs (Decidable (_ ∧ _ ∧ _))

/-- The bytes in the fields of a request are texts. -/
def HasTexts (fs : List Field) : Prop :=
  ∀ f ∈ fs, 1 ≤ f.number → f.number ≤ 5 → f.value.wireType = .bytes → IsText f.value

variable {w} {b : Bytes} {fs : List Field}

theorem registerCase_eq_none_iff {n : ℕ} : registerCase n = none ↔ ¬(1 ≤ n ∧ n ≤ 5) := by
  unfold registerCase
  split
  case h_6 h1 h2 h3 h4 h5 =>
    have hne : n ≠ 1 ∧ n ≠ 2 ∧ n ≠ 3 ∧ n ≠ 4 ∧ n ≠ 5 := ⟨h1, h2, h3, h4, h5⟩
    simp only [true_iff]
    omega
  all_goals simp

theorem registerCase_set {n : ℕ} {name : String}
    {set : RegisterAgentReq → String → RegisterAgentReq} (h : registerCase n = some (name, set))
    (fs : List Field) (s : String) :
    set (readRegister fs) s = readRegister (fs ++ [⟨n, .bytes (utf8 s)⟩]) := by
  unfold registerCase at h
  split at h
  case h_6 => cases h
  all_goals
    obtain ⟨-, rfl⟩ := Prod.mk.inj (Option.some.inj h)
    simp [readRegister]

theorem readRegister_concat {n : ℕ} (hn : ¬(1 ≤ n ∧ n ≤ 5)) (fs : List Field) (v : Value) :
    readRegister (fs ++ [⟨n, v⟩]) = readRegister fs := by
  have hne (k : ℕ) (h1 : 1 ≤ k) (h5 : k ≤ 5) : n ≠ k := by omega
  simp [readRegister, hne]

/-- Has a field been seen that only a registration has? -/
def sawField (f : Field) : Bool := decide (2 ≤ f.number ∧ f.number ≤ 5)

theorem registerField_of_inRequest (hw : w.Correct) {f : Field} (hf : InRequest f)
    (htext : 1 ≤ f.number → f.number ≤ 5 → f.value.wireType = .bytes → IsText f.value)
    {data rest : Bytes} (hvalue : w.consumeValue f.value.wireType data = some (f.value, rest))
    (before : List Field) (saw : Bool) :
    registerField w (readRegister before) saw f.number f.value.wireType data =
      .ok (readRegister (before ++ [f]), saw || sawField f, rest) := by
  obtain ⟨n, v⟩ := f
  rw [registerField]
  cases hcase : registerCase n with
  | none =>
    have hn := registerCase_eq_none_iff.mp hcase
    have hsaw : sawField ⟨n, v⟩ = false :=
      decide_eq_false fun h ↦ hn ⟨Nat.le_of_succ_le h.1, h.2⟩
    have hsmall : ¬10 ≤ n := Nat.not_le.mpr hf.1
    simp only [if_neg hsmall, hw.skip _ _ _ _ _ hvalue, readRegister_concat hn, hsaw, Bool.or_false]
  | some named =>
    obtain ⟨name, set⟩ := named
    have hn : 1 ≤ n ∧ n ≤ 5 := by
      by_contra hn
      rw [registerCase_eq_none_iff.mpr hn] at hcase
      cases hcase
    have hbytes := hf.2 hn.1 hn.2
    obtain ⟨s, rfl⟩ := htext hn.1 hn.2 hbytes
    have hread : w.consumeString data = some (s, rest) := by
      obtain ⟨⟨v', rest'⟩, hconsume, hpair⟩ := Option.map_eq_some_iff.mp hvalue
      cases hpair
      exact hw.string _ _ _ hconsume
    have hsaw : decide (2 ≤ n) = sawField ⟨n, .bytes (utf8 s)⟩ := by
      simp [sawField, hn.2]
    simp only [Value.wireType, ne_eq, not_true_eq_false, if_false, hread,
      registerCase_set hcase, hsaw]

theorem registerField_of_not_inRequest {f : Field} (hf : ¬InRequest f) (req : RegisterAgentReq)
    (saw : Bool) (data : Bytes) :
    ∃ error, registerField w req saw f.number f.value.wireType data = .error error := by
  obtain ⟨n, v⟩ := f
  rw [registerField]
  cases hcase : registerCase n with
  | none =>
    have hn := registerCase_eq_none_iff.mp hcase
    have hlarge : 10 ≤ n := by
      by_contra hlt
      exact hf ⟨Nat.not_le.mp hlt, fun h1 h5 ↦ absurd ⟨h1, h5⟩ hn⟩
    exact ⟨_, if_pos hlarge⟩
  | some named =>
    have hn : 1 ≤ n ∧ n ≤ 5 := by
      by_contra hn
      rw [registerCase_eq_none_iff.mpr hn] at hcase
      cases hcase
    have htype : v.wireType ≠ .bytes := fun h ↦ hf ⟨by show n < 10; omega, fun _ _ ↦ h⟩
    exact ⟨_, if_pos htype⟩

/-- **The loop over the fields of a message**, after those in `before`. -/
theorem registerLoop_reads (hw : w.Correct) (hreads : w.Reads b fs) (htexts : HasTexts fs)
    {fuel : ℕ} (hfuel : b.length ≤ fuel) (before : List Field) (saw : Bool) :
    if ∀ f ∈ fs, InRequest f then
      registerLoop w fuel (readRegister before) saw b =
        .ok (readRegister (before ++ fs), saw || fs.any sawField)
    else ∃ error, registerLoop w fuel (readRegister before) saw b = .error error := by
  induction hreads generalizing fuel before saw with
  | nil => simp [registerLoop]
  | @cons b value rest n v fs htag hvalue _ ih =>
    have htagged := hw.tag_lt _ _ _ _ htag
    have hread := hw.value_le _ _ _ _ hvalue
    obtain ⟨fuel, rfl⟩ : ∃ k, fuel = k + 1 := ⟨fuel - 1, by omega⟩
    have hround : ∀ saw, registerLoop w (fuel + 1) (readRegister before) saw b =
        match registerField w (readRegister before) saw n v.wireType value with
        | .error error => .error error
        | .ok (req', saw', rest) => registerLoop w fuel req' saw' rest := by
      intro saw
      cases b with
      | nil => simp at htagged
      | cons first b => simp only [registerLoop, htag]
    by_cases hf : InRequest ⟨n, v⟩
    · have hfield :=
        registerField_of_inRequest hw hf (htexts _ List.mem_cons_self) hvalue before saw
      have hrest := @ih (fun f hf ↦ htexts f (List.mem_cons_of_mem _ hf)) fuel (by omega)
        (before ++ [⟨n, v⟩]) (saw || sawField ⟨n, v⟩)
      simp only [hround, hfield, List.forall_mem_cons, hf, true_and]
      simpa [Bool.or_assoc] using hrest
    · obtain ⟨error, hfield⟩ :=
        registerField_of_not_inRequest (w := w) hf (readRegister before) saw value
      rw [if_neg fun hall ↦ hf (hall _ List.mem_cons_self)]
      exact ⟨error, by simp only [hround, hfield]⟩

/-- **What is done with a message is decided by its fields.** -/
theorem dispatch_eq (hw : w.Correct) (hreads : w.Reads b fs) (htexts : HasTexts fs) :
    dispatch w b = if Registers fs then .register (readRegister fs)
      else dispatchMessage (parseAgentMessage w b) := by
  have hloop := registerLoop_reads hw hreads htexts le_rfl [] false
  have hstart : readRegister [] = {} := rfl
  rw [hstart] at hloop
  rw [dispatch, parseRegisterAgentRequest]
  by_cases hall : ∀ f ∈ fs, InRequest f
  · rw [if_pos hall] at hloop
    rw [hloop]
    cases hany : fs.any sawField with
    | false =>
      have hnone : ¬Registers fs := by
        rintro ⟨-, ⟨f, hf, hrange⟩, -⟩
        have := List.any_eq_false.mp hany f hf
        simp [sawField, hrange] at this
      rw [if_neg hnone]
      rfl
    | true =>
      obtain ⟨f, hf, hsaw⟩ := List.any_eq_true.mp hany
      have hsome : ∃ f ∈ fs, 2 ≤ f.number ∧ f.number ≤ 5 := ⟨f, hf, of_decide_eq_true hsaw⟩
      have hiff : Registers fs ↔ (readRegister fs).agentID ≠ "" ∨
          (readRegister fs).hardwareFingerprint ≠ "" :=
        ⟨fun h ↦ h.2.2, fun h ↦ ⟨hall, hsome, h⟩⟩
      simp only [List.nil_append, Bool.false_or, if_true, hiff]
  · rw [if_neg hall] at hloop
    obtain ⟨error, hloop⟩ := hloop
    rw [hloop, if_neg fun h ↦ hall h.1]

/-! ## Streams -/

/-- Messages that can be read, with their fields. -/
def ReadsAll (w : Protowire) : List Bytes → List (List Field) → Prop :=
  List.Forall₂ fun b fs ↦ w.Reads b fs ∧ HasTexts fs

/-- The fields of two messages: an agent that registers, and one that only gives its id. -/
def greetings : List (List Field) := [[.text 1 "a", .text 2 "A"], [.text 1 "a"]]

/-- A message with a payload, or with a time, is not taken for a registration. -/
theorem not_registers_of_agentMessage
    (h : ∃ f ∈ fs, 10 ≤ f.number ∨ f.number = 2 ∧ IsVarint f.value) : ¬Registers fs := by
  rintro ⟨hall, -, -⟩
  obtain ⟨f, hf, hlarge | ⟨htwo, u, hu⟩⟩ := h
  · have := (hall f hf).1
    omega
  · have htype := (hall f hf).2 (by omega) (by omega)
    rw [hu] at htype
    cases htype

end Wire
end FleetServer
