import FleetServer.Grpc.AgentParsers
import FleetServer.Lib.RawFields

/-!
# Values of a type that is not expected

A field whose number a parser knows can come with a value of another wire type than the parser
expects under it.  The capability registration and the two loops over map entries skip such a value.
The other parsers compare the wire type, find no branch for it, and go on to the next tag at the
first byte of the value.

So `skipsMisplaced_iff` has two sides.  The three parsers skip misplaced fields in every message.
The others keep their promise only where there is nothing to skip: the first misplaced field of a
message is where they lose their place.
-/

set_option autoImplicit false

namespace FleetServer
namespace Wire

open ProtoWire ProtoWire.Switch

/-! ## The loop over a map entry in line -/

/-- A round of `inlineMapEntry`. -/
def inlineRound (w : Protowire) (entry : String × String) (mapData : Bytes) :
    Option ((String × String) × Bytes) :=
  match w.consumeTag mapData with
  | none => none
  | some (fn, wt, value) =>
    if fn = 1 ∧ wt = .bytes then
      match w.consumeString value with
      | some (k, rest) => some ((k, entry.2), rest)
      | none => some (entry, value)
    else if fn = 2 ∧ wt = .bytes then
      match w.consumeString value with
      | some (v, rest) => some ((entry.1, v), rest)
      | none => some (entry, value)
    else (w.consumeFieldValue fn wt value).map fun rest ↦ (entry, rest)

theorem inlineMapEntry_of_round {w : Protowire} {fuel : ℕ} {entry entry' : String × String}
    {mapData rest : Bytes} (hne : mapData ≠ [])
    (hround : inlineRound w entry mapData = some (entry', rest)) :
    inlineMapEntry w (fuel + 1) entry mapData = inlineMapEntry w fuel entry' rest := by
  cases mapData with
  | nil => exact absurd rfl hne
  | cons first mapData =>
    rw [inlineRound] at hround
    rw [inlineMapEntry]
    cases htag : w.consumeTag (first :: mapData) with
    | none => simp [htag] at hround
    | some tag =>
      obtain ⟨fn, wt, value⟩ := tag
      simp only [htag] at hround ⊢
      split_ifs at hround ⊢ with hkey hvalue
      · cases hread : w.consumeString value with
        | none =>
          obtain ⟨rfl, rfl⟩ : entry = entry' ∧ value = rest := by simpa [hread] using hround
          rfl
        | some read =>
          obtain ⟨rfl, rfl⟩ : (read.1, entry.2) = entry' ∧ read.2 = rest := by
            simpa [hread] using hround
          rfl
      · cases hread : w.consumeString value with
        | none =>
          obtain ⟨rfl, rfl⟩ : entry = entry' ∧ value = rest := by simpa [hread] using hround
          rfl
        | some read =>
          obtain ⟨rfl, rfl⟩ : (entry.1, read.1) = entry' ∧ read.2 = rest := by
            simpa [hread] using hround
          rfl
      · obtain ⟨left, hleft, hpair⟩ := Option.map_eq_some_iff.mp hround
        cases hpair
        rw [hleft]

def inlineMapEntryLoop (w : Protowire) : TagLoop where
  State := String × String
  Result := String × String
  start := ("", "")
  expected
    | 1 => some [.bytes]
    | 2 => some [.bytes]
    | _ => none
  round := inlineRound w
  run fuel _ entry mapData := inlineMapEntry w fuel entry mapData
  finish entry := entry
  parse mapData := inlineMapEntry w mapData.length ("", "") mapData
  run_nil fuel _ _ := by cases fuel <;> rw [inlineMapEntry]
  run_round _ _ _ _ _ _ hne hround := inlineMapEntry_of_round hne hround
  parse_eq _ := rfl

section InlineMapEntry

variable {w : Protowire} {f : RawField}

theorem takes_inlineRound (hw : w.Sequential) (hf : w.IsField f)
    (hkey : ¬(f.number = 1 ∧ f.wireType = .bytes))
    (hvalue : ¬(f.number = 2 ∧ f.wireType = .bytes)) : Takes (inlineRound w) f id := by
  intro entry rest
  rw [inlineRound, hf.tag_append hw]
  simp only [if_neg hkey, if_neg hvalue, hf.skip_append hw, Option.map_some]
  rfl

theorem exists_takes_inlineRound (hw : w.Sequential) (hf : w.IsField f) :
    ∃ take, Takes (inlineRound w) f take := by
  by_cases hkey : f.number = 1 ∧ f.wireType = .bytes
  · obtain ⟨k, hk⟩ := hf.read_append hw.string (hkey.2 ▸ hw.skip_string _ _)
    refine ⟨fun entry ↦ (k, entry.2), fun entry rest ↦ ?_⟩
    rw [inlineRound, hf.tag_append hw]
    simp only [if_pos hkey, hk]
  · by_cases hvalue : f.number = 2 ∧ f.wireType = .bytes
    · obtain ⟨v, hv⟩ := hf.read_append hw.string (hvalue.2 ▸ hw.skip_string _ _)
      refine ⟨fun entry ↦ (entry.1, v), fun entry rest ↦ ?_⟩
      rw [inlineRound, hf.tag_append hw]
      simp only [if_neg hkey, if_pos hvalue, hv]
    · exact ⟨id, takes_inlineRound hw hf hkey hvalue⟩

theorem readsPlaced_inlineMapEntryLoop (hw : w.Sequential) :
    (inlineMapEntryLoop w).ReadsPlaced w := by
  intro f hf _
  exact exists_takes_inlineRound hw hf

theorem passesOver_inlineMapEntryLoop (hw : w.Sequential) :
    (inlineMapEntryLoop w).PassesOver w := by
  intro f hf hmisplaced
  obtain ⟨ts, hts, hnot⟩ := hmisplaced
  have htype : f.wireType ≠ .bytes := by
    intro htype
    have hexpected : ts = [.bytes] := by
      simp only [inlineMapEntryLoop] at hts
      split at hts <;> cases hts <;> rfl
    exact hnot (by rw [hexpected, htype]; exact List.mem_singleton_self _)
  exact takes_inlineRound hw hf (fun h ↦ htype h.2) fun h ↦ htype h.2

end InlineMapEntry

/-! ## The parsers -/

inductive AgentParser
  | agentMessage
  | capabilityRegistration
  | taskLog
  | taskStateUpdate
  | inlineMapEntry
  | resourceEvent
  | stepResultInfo
  | actionCapability
  | successCriteria
  | agentHeartbeat
  | stringMapEntry
  | telemetryPayload
  | jointStateData
  | transformData
  | odometryData
  | vector3
  | quaternion
  | pose
  | twist
  | actionResult
  | actionFeedback
  | agentStatusUpdate
  | deployGraphResponse
  | graphExecutionStatus
  | pongResponse
  | configUpdateAck
  deriving DecidableEq

namespace AgentParser

variable (w : Protowire)

def loop : AgentParser → TagLoop
  | agentMessage =>
    .ofSwitch (agentMessageSwitch w) w {} outcome (parseAgentMessage w) fun _ ↦ rfl
  | capabilityRegistration =>
    .ofSwitch (capabilityRegistrationSwitch w) w {} outcome (parseCapabilityRegistration w)
      fun _ ↦ rfl
  | taskLog => .ofSwitch (taskLogSwitch w) w {} outcome (parseTaskLog w) fun _ ↦ rfl
  | taskStateUpdate =>
    .ofSwitch (taskStateSwitch w) w {} outcome (parseTaskStateUpdate w) fun _ ↦ rfl
  | inlineMapEntry => inlineMapEntryLoop w
  | resourceEvent =>
    .ofSwitch resourceEventSwitch w {} outcome (parseResourceEvent w) fun _ ↦ rfl
  | stepResultInfo => .ofSwitch stepResultSwitch w {} outcome (parseStepResultInfo w) fun _ ↦ rfl
  | actionCapability =>
    .ofSwitch (actionCapabilitySwitch w) w {}
      (fun r ↦ (outcome r).map fun cap ↦ fillLifecycle (fillKind cap))
      (parseActionCapability w) fun _ ↦ rfl
  | successCriteria =>
    .ofSwitch successCriteriaSwitch w {}
      (fun r ↦ (outcome r).map fun criteria ↦
        if criteria.field = "" ∧ criteria.operator = "" ∧ criteria.value = "" then none
        else some criteria)
      (parseSuccessCriteria w) fun _ ↦ rfl
  | agentHeartbeat =>
    .ofSwitch (heartbeatSwitch w) w {} outcome (parseAgentHeartbeat w) fun _ ↦ rfl
  | stringMapEntry =>
    .ofSwitch mapEntrySwitch w ("", "") Prod.fst (parseStringMapEntry w) fun _ ↦ rfl
  | telemetryPayload =>
    .ofSwitch (telemetrySwitch w) w {} outcome (parseTelemetryPayload w) fun _ ↦ rfl
  | jointStateData =>
    .ofSwitch jointStateSwitch w {} outcome (parseJointStateData w) fun _ ↦ rfl
  | transformData =>
    .ofSwitch (transformSwitch w) w {} outcome (parseTransformData w) fun _ ↦ rfl
  | odometryData =>
    .ofSwitch (odometrySwitch w) w {} outcome (parseOdometryData w) fun _ ↦ rfl
  | vector3 => .ofSwitch vector3Switch w {} outcome (parseVector3 w) fun _ ↦ rfl
  | quaternion => .ofSwitch quaternionSwitch w {} outcome (parseQuaternion w) fun _ ↦ rfl
  | pose => .ofSwitch (poseSwitch w) w {} outcome (parsePose w) fun _ ↦ rfl
  | twist => .ofSwitch (twistSwitch w) w {} outcome (parseTwist w) fun _ ↦ rfl
  | actionResult => .ofSwitch actionResultSwitch w {} outcome (parseActionResult w) fun _ ↦ rfl
  | actionFeedback =>
    .ofSwitch actionFeedbackSwitch w {} outcome (parseActionFeedback w) fun _ ↦ rfl
  | agentStatusUpdate =>
    .ofSwitch statusUpdateSwitch w {} outcome (parseAgentStatusUpdate w) fun _ ↦ rfl
  | deployGraphResponse =>
    .ofSwitch deployResponseSwitch w {} outcome (parseDeployGraphResponse w) fun _ ↦ rfl
  | graphExecutionStatus =>
    .ofSwitch graphStatusSwitch w {} outcome (parseGraphExecutionStatus w) fun _ ↦ rfl
  | pongResponse => .ofSwitch pongSwitch w {} outcome (parsePongResponse w) fun _ ↦ rfl
  | configUpdateAck =>
    .ofSwitch configAckSwitch w {} outcome (parseConfigUpdateAck w) fun _ ↦ rfl

/-- The parsers with a branch for the other wire types. -/
def SkipsUnexpected (p : AgentParser) : Prop :=
  p = capabilityRegistration ∨ p = stringMapEntry ∨ p = inlineMapEntry

instance (p : AgentParser) : Decidable p.SkipsUnexpected :=
  inferInstanceAs (Decidable (_ ∨ _ ∨ _))

variable {w : Protowire} {p : AgentParser}

theorem readsPlaced (hw : w.Sequential) (p : AgentParser) : (p.loop w).ReadsPlaced w := by
  cases p with
  | inlineMapEntry => exact readsPlaced_inlineMapEntryLoop hw
  | _ => exact TagLoop.readsPlaced_ofSwitch hw

theorem passesOver (hw : w.Sequential) (hp : p.SkipsUnexpected) : (p.loop w).PassesOver w := by
  obtain rfl | rfl | rfl := hp
  · refine TagLoop.passesOver_ofSwitch hw fun n ↦ ?_
    simp only [capabilityRegistrationSwitch]
    split <;> rfl
  · exact TagLoop.passesOver_ofSwitch hw fun _ ↦ rfl
  · exact passesOver_inlineMapEntryLoop hw

theorem leaves (hw : w.Sequential) (hp : ¬p.SkipsUnexpected) : (p.loop w).Leaves w := by
  cases p with
  | capabilityRegistration => exact absurd (.inl rfl) hp
  | stringMapEntry => exact absurd (.inr (.inl rfl)) hp
  | inlineMapEntry => exact absurd (.inr (.inr rfl)) hp
  | _ => exact TagLoop.leaves_ofSwitch hw fun _ ↦ rfl

/-- **Misplaced fields are skipped where there is a branch for them, and else only if there are
none.** -/
theorem skipsMisplaced_iff (hw : w.Sequential) (p : AgentParser) {b : Bytes} {fs : List RawField}
    (hfields : w.rawFields b = some fs) :
    (p.loop w).SkipsMisplaced w b ↔
      p.SkipsUnexpected ∨ ∀ f ∈ fs, ¬(p.loop w).Misplaced f := by
  by_cases hp : p.SkipsUnexpected
  · exact iff_of_true (TagLoop.skipsMisplaced_of_passesOver hw (readsPlaced hw p)
      (passesOver hw hp) b) (.inl hp)
  · rw [TagLoop.skipsMisplaced_iff_of_leaves hw (readsPlaced hw p) (leaves hw hp) hfields,
      or_iff_right hp]

/-- The ID of an agent as a number, which the registration skips and the message does not. -/
theorem skipsMisplaced_agentID :
    (capabilityRegistration.loop .anyText).SkipsMisplaced .anyText [0x08, 5, 0x0A, 1, 0x61] ∧
      ¬(agentMessage.loop .anyText).SkipsMisplaced .anyText [0x08, 5, 0x0A, 1, 0x61] := by
  have hfields : Protowire.anyText.rawFields [0x08, 5, 0x0A, 1, 0x61] =
      some [⟨1, .varint, [0x08], [5]⟩, ⟨1, .bytes, [0x0A], [1, 0x61]⟩] := by decide
  constructor
  · exact (skipsMisplaced_iff Protowire.anyText_sequential _ hfields).mpr (.inl (.inl rfl))
  · intro hskips
    obtain hskip | hplaced :=
      (skipsMisplaced_iff Protowire.anyText_sequential _ hfields).mp hskips
    · exact absurd hskip (by decide)
    · exact hplaced _ List.mem_cons_self ⟨[.bytes], rfl, by decide⟩

/-- The time of a message, sent in the shape of bytes, is taken from within these bytes. -/
theorem parseAgentMessage_reads_in_value :
    ¬(agentMessage.loop .anyText).SkipsMisplaced .anyText
        [0x12, 8, 0x10, 5, 0x18, 0, 0x18, 0, 0x18, 0] ∧
      (parseAgentMessage .anyText [0x12, 8, 0x10, 5, 0x18, 0, 0x18, 0, 0x18, 0]).map
        (·.timestampMs) = .ok 5 ∧
      (parseAgentMessage .anyText []).map (·.timestampMs) = .ok 0 := by
  have hread : (parseAgentMessage .anyText [0x12, 8, 0x10, 5, 0x18, 0, 0x18, 0, 0x18, 0]).map
      (·.timestampMs) = .ok 5 := by decide
  have hremoved : (parseAgentMessage .anyText []).map (·.timestampMs) = .ok 0 := by decide
  refine ⟨fun hskips ↦ ?_, hread, hremoved⟩
  have hsame : parseAgentMessage .anyText [0x12, 8, 0x10, 5, 0x18, 0, 0x18, 0, 0x18, 0] =
      parseAgentMessage .anyText [] :=
    (hskips [] ⟨2, .bytes, [0x12], [8, 0x10, 5, 0x18, 0, 0x18, 0, 0x18, 0]⟩ [] (by decide)
      ⟨[.varint], rfl, by decide⟩).1
  rw [hsame, hremoved] at hread
  exact absurd hread (by decide)

end AgentParser

end Wire
end FleetServer
