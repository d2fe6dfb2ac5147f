import FleetServer.Grpc.AgentSchema

/-!
# What the server makes of an agent's message

Two questions decide what comes out of `parseAgentMessage`.

The first is where a payload goes.  Heartbeats and results of actions have the number of the schema.
The three other kinds that the schema and the server share do not: a status update goes to the
parser of feedback, a log to that of answers to a deployment, and the state of a task to that of the
status of a graph.

The second is what a parser keeps of a payload.  Results of actions are kept whole.  A heartbeat
loses the fields that the server has no place for, the events without a resource, the variable with
the empty name, and the doubles that are before a packed value of their list.

`parseAgentMessage_carries_iff` puts the two together, for every encoding of every message.
-/

set_option autoImplicit false

namespace FleetServer
namespace Wire

open ProtoWire

variable {w : Protowire} {b : Bytes} {fs body : List Field}

/-! ## What the parsers keep -/

/-- What is left of a list of doubles after one more value: a packed value takes the place of what
is there. -/
def keepDoubles (us : List UInt64) : Value → List UInt64
  | .bytes packed => unpack packed
  | v => us ++ v.fixed64s

/-- The doubles that the parser of joint states keeps. -/
def keptAt (n : ℕ) (fs : List Field) : List UInt64 := (values fs n).foldl keepDoubles []

/-- What the parser of a message in the message makes of the last of a number. -/
def parsedAt {α : Type} (parse : Bytes → Except String α) (n : ℕ) (fs : List Field) : Option α :=
  (((values fs n).filterMap Value.bytes?).filterMap fun b ↦ (parse b).toOption).getLast?

variable (w) in
/-- What `parseAgentHeartbeat` makes of the fields of a heartbeat. -/
def receivedHeartbeat (fs : List Field) : AgentHeartbeatMsg where
  agentID := textAt 1 fs
  state := textAt 2 fs
  isExecuting := boolAt 3 fs
  currentAction := textAt 4 fs
  currentTaskID := textAt 10 fs
  currentStepID := textAt 11 fs
  networkLatencyMs := uint32At 5 fs
  hasNetworkLatency := values fs 5 ≠ []
  networkLatencyUs := uint32At 6 fs
  hasNetworkLatencyUs := values fs 6 ≠ []
  telemetry := (w.bodyAt 12 fs).map (readTelemetry w keptAt)
  resourceEvents := (eventsAt w 13 fs).foldl keepEvent []
  runtimeVariables := (entriesAt w 14 fs).foldl keepEntry fun _ ↦ none

variable (w) in
/-- What `parseAgentMessage` makes of the fields of a message by the schema. -/
def receivedMessage (fs : List Field) : AgentMsg where
  agentID := textAt 1 fs
  timestampMs := int64At 2 fs
  heartbeat := parsedAt (parseAgentHeartbeat w) 10 fs
  actionResult := parsedAt (parseActionResult w) 11 fs
  actionFeedback := parsedAt (parseActionFeedback w) 12 fs
  deployResponse := parsedAt (parseDeployGraphResponse w) 14 fs
  graphStatus := parsedAt (parseGraphExecutionStatus w) 15 fs

/-! ## One field more -/

section Concat

variable {n m : ℕ} {v : Value}

@[simp] theorem keptAt_concat : keptAt n (fs ++ [⟨m, v⟩]) =
    if m = n then keepDoubles (keptAt n fs) v else keptAt n fs := by
  rw [keptAt, values_concat]
  split
  · rw [List.foldl_append]
    rfl
  · rfl

@[simp] theorem parsedAt_concat {α : Type} (parse : Bytes → Except String α) :
    parsedAt parse n (fs ++ [⟨m, v⟩]) =
      if m = n then (v.bytes?.bind fun b ↦ (parse b).toOption).or (parsedAt parse n fs)
      else parsedAt parse n fs := by
  rw [parsedAt, values_concat]
  split
  · cases hbytes : v.bytes? with
    | none => simp [parsedAt, hbytes]
    | some b => cases hparse : (parse b).toOption <;> simp [parsedAt, hbytes, hparse]
  · rfl

@[simp] theorem eventsAt_concat : eventsAt w n (fs ++ [⟨m, v⟩]) =
    if m = n then eventsAt w n fs ++ (v.bytes?.map fun b ↦ readResourceEvent (w.body b)).toList
    else eventsAt w n fs := by
  rw [eventsAt, bodiesAt_concat]
  split
  · cases v.bytes? <;> simp [eventsAt]
  · rfl

@[simp] theorem entriesAt_concat : entriesAt w n (fs ++ [⟨m, v⟩]) =
    if m = n then entriesAt w n fs ++ (v.bytes?.map fun b ↦ readMapEntry (w.body b)).toList
    else entriesAt w n fs := by
  rw [entriesAt, bodiesAt_concat]
  split
  · cases v.bytes? <;> simp [entriesAt]
  · rfl

end Concat

/-! ## Messages without messages in them

In each of the proofs below, the cases are the numbers of the schema, and last the numbers that it
does not have. -/

theorem vector3Switch_step (fs : List Field) (n : ℕ) (v : Value) (h : vector3.shape n v) :
    vector3Switch.step (readVector3 fs) ⟨n, v⟩ = some (readVector3 (fs ++ [⟨n, v⟩])) := by
  simp only [vector3] at h
  split at h
  case h_4 => exact h.elim
  all_goals
    obtain ⟨u, rfl⟩ := h
    simp [Switch.step, vector3Switch, Value.wireType, readVector3]

theorem parseVector3_reads (hw : w.Correct) (hreads : w.Reads b fs) (hvalid : vector3.Valid fs) :
    parseVector3 w b = .ok (readVector3 fs) :=
  Switch.decode_reads hw rfl vector3Switch_step hreads hvalid.1

theorem quaternionSwitch_step (fs : List Field) (n : ℕ) (v : Value) (h : quaternion.shape n v) :
    quaternionSwitch.step (readQuaternion fs) ⟨n, v⟩ =
      some (readQuaternion (fs ++ [⟨n, v⟩])) := by
  simp only [quaternion] at h
  split at h
  case h_5 => exact h.elim
  all_goals
    obtain ⟨u, rfl⟩ := h
    simp [Switch.step, quaternionSwitch, Value.wireType, readQuaternion]

theorem parseQuaternion_reads (hw : w.Correct) (hreads : w.Reads b fs)
    (hvalid : quaternion.Valid fs) : parseQuaternion w b = .ok (readQuaternion fs) :=
  Switch.decode_reads hw rfl quaternionSwitch_step hreads hvalid.1

theorem parsePackedDoubles_pack (us : List UInt64) : parsePackedDoubles (pack us) = us := by
  induction us with
  | nil =>
    rw [parsePackedDoubles]
    exact if_neg (by simp [pack])
  | cons u us ih =>
    have hnumber : ofLittleEndian (littleEndian 8 u.toNat) = u.toNat :=
      ofLittleEndian_littleEndian u.toNat_lt
    have hpack : pack (u :: us) = littleEndian 8 u.toNat ++ pack us := rfl
    rw [parsePackedDoubles, hpack, if_pos (by simp), List.take_left' (length_littleEndian 8 _),
      List.drop_left' (length_littleEndian 8 _), hnumber, ih, UInt64.ofNat_toNat]

theorem jointStateSwitch_step (fs : List Field) (n : ℕ) (v : Value) (h : jointState.shape n v) :
    jointStateSwitch.step (readJointState keptAt fs) ⟨n, v⟩ =
      some (readJointState keptAt (fs ++ [⟨n, v⟩])) := by
  simp only [jointState] at h
  split at h
  case h_2 | h_3 | h_4 =>
    obtain ⟨u, rfl⟩ | ⟨us, rfl⟩ := h <;>
      simp [Switch.step, jointStateSwitch, doubles, Value.wireType, readJointState, int64At,
        keepDoubles, Value.fixed64s, parsePackedDoubles_pack, unpack_pack]
  case h_7 => exact h.elim
  all_goals
    obtain ⟨u, rfl⟩ := h
    simp [Switch.step, jointStateSwitch, Value.wireType, readJointState, int64At]

theorem parseJointStateData_reads (hw : w.Correct) (hreads : w.Reads b fs)
    (hvalid : jointState.Valid fs) : parseJointStateData w b = .ok (readJointState keptAt fs) :=
  Switch.decode_reads hw rfl jointStateSwitch_step hreads hvalid.1

theorem resourceEventSwitch_step (fs : List Field) (n : ℕ) (v : Value)
    (h : resourceEvent.shape n v) :
    resourceEventSwitch.step (readResourceEvent fs) ⟨n, v⟩ =
      some (readResourceEvent (fs ++ [⟨n, v⟩])) := by
  simp only [resourceEvent] at h
  split at h
  case h_4 => exact h.elim
  all_goals
    obtain ⟨u, rfl⟩ := h
    simp [Switch.step, resourceEventSwitch, Value.wireType, readResourceEvent, int32At]

theorem parseResourceEvent_reads (hw : w.Correct) (hreads : w.Reads b fs)
    (hvalid : resourceEvent.Valid fs) : parseResourceEvent w b = .ok (readResourceEvent fs) :=
  Switch.decode_reads hw rfl resourceEventSwitch_step hreads hvalid.1

theorem mapEntrySwitch_step (fs : List Field) (n : ℕ) (v : Value) (h : stringEntry.shape n v) :
    mapEntrySwitch.step (readMapEntry fs) ⟨n, v⟩ = some (readMapEntry (fs ++ [⟨n, v⟩])) := by
  simp only [stringEntry] at h
  split at h
  case h_3 => exact h.elim
  all_goals
    obtain ⟨u, rfl⟩ := h
    simp [Switch.step, mapEntrySwitch, Value.wireType, readMapEntry]

theorem parseStringMapEntry_reads (hw : w.Correct) (hreads : w.Reads b fs)
    (hvalid : stringEntry.Valid fs) : parseStringMapEntry w b = readMapEntry fs := by
  have hloop := Switch.decodeFrom_reads hw mapEntrySwitch_step hreads hvalid.1 le_rfl 0 []
  exact congrArg Prod.fst hloop

theorem actionResultSwitch_step (fs : List Field) (n : ℕ) (v : Value)
    (h : actionResult.shape n v) :
    actionResultSwitch.step (readActionResult fs) ⟨n, v⟩ =
      some (readActionResult (fs ++ [⟨n, v⟩])) := by
  simp only [actionResult] at h
  split at h
  case h_10 => exact h.elim
  all_goals
    obtain ⟨u, rfl⟩ := h
    simp [Switch.step, actionResultSwitch, Value.wireType, readActionResult, int32At, int64At]

/-- **A result of an action is kept whole.** -/
theorem parseActionResult_reads (hw : w.Correct) (hreads : w.Reads b fs)
    (hvalid : actionResult.Valid fs) : parseActionResult w b = .ok (readActionResult fs) :=
  Switch.decode_reads hw rfl actionResultSwitch_step hreads hvalid.1

/-! ## Messages with messages in them -/

theorem poseSwitch_step (hw : w.Correct) (fs : List Field) (n : ℕ) (v : Value)
    (h : (pose w).shape n v) :
    (poseSwitch w).step (readPose w fs) ⟨n, v⟩ = some (readPose w (fs ++ [⟨n, v⟩])) := by
  simp only [pose] at h
  split at h
  case h_1 =>
    obtain ⟨b, body, rfl, hreads, hvalid⟩ := h
    simp [Switch.step, poseSwitch, Case.message, Value.wireType, readPose,
      parseVector3_reads hw hreads hvalid, Protowire.body_of_reads hw hreads]
  case h_2 =>
    obtain ⟨b, body, rfl, hreads, hvalid⟩ := h
    simp [Switch.step, poseSwitch, Case.message, Value.wireType, readPose,
      parseQuaternion_reads hw hreads hvalid, Protowire.body_of_reads hw hreads]
  case h_3 => exact h.elim

theorem parsePose_reads (hw : w.Correct) (hreads : w.Reads b fs) (hvalid : (pose w).Valid fs) :
    parsePose w b = .ok (readPose w fs) :=
  Switch.decode_reads hw rfl (poseSwitch_step hw) hreads hvalid.1

theorem twistSwitch_step (hw : w.Correct) (fs : List Field) (n : ℕ) (v : Value)
    (h : (twist w).shape n v) :
    (twistSwitch w).step (readTwist w fs) ⟨n, v⟩ = some (readTwist w (fs ++ [⟨n, v⟩])) := by
  simp only [twist] at h
  split at h
  case h_3 => exact h.elim
  all_goals
    obtain ⟨b, body, rfl, hreads, hvalid⟩ := h
    simp [Switch.step, twistSwitch, Case.message, Value.wireType, readTwist,
      parseVector3_reads hw hreads hvalid, Protowire.body_of_reads hw hreads]

theorem parseTwist_reads (hw : w.Correct) (hreads : w.Reads b fs) (hvalid : (twist w).Valid fs) :
    parseTwist w b = .ok (readTwist w fs) :=
  Switch.decode_reads hw rfl (twistSwitch_step hw) hreads hvalid.1

theorem transformSwitch_step (hw : w.Correct) (fs : List Field) (n : ℕ) (v : Value)
    (h : (transform w).shape n v) :
    (transformSwitch w).step (readTransform w fs) ⟨n, v⟩ =
      some (readTransform w (fs ++ [⟨n, v⟩])) := by
  simp only [transform] at h
  split at h
  case h_3 =>
    obtain ⟨b, body, rfl, hreads, hvalid⟩ := h
    simp [Switch.step, transformSwitch, Case.message, Value.wireType, readTransform, int64At,
      parseVector3_reads hw hreads hvalid, Protowire.body_of_reads hw hreads]
  case h_4 =>
    obtain ⟨b, body, rfl, hreads, hvalid⟩ := h
    simp [Switch.step, transformSwitch, Case.message, Value.wireType, readTransform, int64At,
      parseQuaternion_reads hw hreads hvalid, Protowire.body_of_reads hw hreads]
  case h_6 => exact h.elim
  all_goals
    obtain ⟨u, rfl⟩ := h
    simp [Switch.step, transformSwitch, Value.wireType, readTransform, int64At]

theorem parseTransformData_reads (hw : w.Correct) (hreads : w.Reads b fs)
    (hvalid : (transform w).Valid fs) : parseTransformData w b = .ok (readTransform w fs) :=
  Switch.decode_reads hw rfl (transformSwitch_step hw) hreads hvalid.1

theorem odometrySwitch_step (hw : w.Correct) (fs : List Field) (n : ℕ) (v : Value)
    (h : (odometry w).shape n v) :
    (odometrySwitch w).step (readOdometry w fs) ⟨n, v⟩ =
      some (readOdometry w (fs ++ [⟨n, v⟩])) := by
  simp only [odometry] at h
  split at h
  case h_3 =>
    obtain ⟨b, body, rfl, hreads, hvalid⟩ := h
    simp [Switch.step, odometrySwitch, Case.message, Value.wireType, readOdometry, int64At,
      parsePose_reads hw hreads hvalid, Protowire.body_of_reads hw hreads]
  case h_4 =>
    obtain ⟨b, body, rfl, hreads, hvalid⟩ := h
    simp [Switch.step, odometrySwitch, Case.message, Value.wireType, readOdometry, int64At,
      parseTwist_reads hw hreads hvalid, Protowire.body_of_reads hw hreads]
  case h_7 => exact h.elim
  all_goals
    obtain ⟨u, rfl⟩ := h
    simp [Switch.step, odometrySwitch, Value.wireType, readOdometry, int64At]

theorem parseOdometryData_reads (hw : w.Correct) (hreads : w.Reads b fs)
    (hvalid : (odometry w).Valid fs) : parseOdometryData w b = .ok (readOdometry w fs) :=
  Switch.decode_reads hw rfl (odometrySwitch_step hw) hreads hvalid.1

theorem telemetrySwitch_step (hw : w.Correct) (fs : List Field) (n : ℕ) (v : Value)
    (h : (telemetryPayload w).shape n v) :
    (telemetrySwitch w).step (readTelemetry w keptAt fs) ⟨n, v⟩ =
      some (readTelemetry w keptAt (fs ++ [⟨n, v⟩])) := by
  simp only [telemetryPayload] at h
  split at h
  case h_2 =>
    obtain ⟨b, body, rfl, hreads, hvalid⟩ := h
    simp [Switch.step, telemetrySwitch, Case.message, Value.wireType, readTelemetry, int64At,
      parseJointStateData_reads hw hreads hvalid, Protowire.body_of_reads hw hreads]
  case h_3 =>
    obtain ⟨b, body, rfl, hreads, hvalid⟩ := h
    simp [Switch.step, telemetrySwitch, Case.message, Value.wireType, readTelemetry, int64At,
      parseTransformData_reads hw hreads hvalid, Protowire.body_of_reads hw hreads]
  case h_4 =>
    obtain ⟨b, body, rfl, hreads, hvalid⟩ := h
    simp [Switch.step, telemetrySwitch, Case.message, Value.wireType, readTelemetry, int64At,
      parseOdometryData_reads hw hreads hvalid, Protowire.body_of_reads hw hreads]
  case h_6 => exact h.elim
  all_goals
    obtain ⟨u, rfl⟩ := h
    simp [Switch.step, telemetrySwitch, Value.wireType, readTelemetry, int64At]

theorem parseTelemetryPayload_reads (hw : w.Correct) (hreads : w.Reads b fs)
    (hvalid : (telemetryPayload w).Valid fs) :
    parseTelemetryPayload w b = .ok (readTelemetry w keptAt fs) :=
  Switch.decode_reads hw rfl (telemetrySwitch_step hw) hreads hvalid.1

theorem heartbeatSwitch_step (hw : w.Correct) (fs : List Field) (n : ℕ) (v : Value)
    (h : (agentHeartbeat w).shape n v) :
    (heartbeatSwitch w).step (receivedHeartbeat w fs) ⟨n, v⟩ =
      some (receivedHeartbeat w (fs ++ [⟨n, v⟩])) := by
  simp only [agentHeartbeat] at h
  split at h
  case h_12 =>
    obtain ⟨b, body, rfl, hreads, hvalid⟩ := h
    simp [Switch.step, heartbeatSwitch, Case.message, Value.wireType, receivedHeartbeat, boolAt,
      uint32At, values_concat, parseTelemetryPayload_reads hw hreads hvalid,
      Protowire.body_of_reads hw hreads]
  case h_13 =>
    obtain ⟨b, body, rfl, hreads, hvalid⟩ := h
    simp [Switch.step, heartbeatSwitch, Case.message, Value.wireType, receivedHeartbeat, boolAt,
      uint32At, values_concat, parseResourceEvent_reads hw hreads hvalid,
      Protowire.body_of_reads hw hreads]
  case h_14 =>
    obtain ⟨b, body, rfl, hreads, hvalid⟩ := h
    simp [Switch.step, heartbeatSwitch, Value.wireType, receivedHeartbeat, boolAt, uint32At,
      values_concat, parseStringMapEntry_reads hw hreads hvalid,
      Protowire.body_of_reads hw hreads]
  case h_15 => exact h.elim
  all_goals
    obtain ⟨u, rfl⟩ := h
    simp [Switch.step, heartbeatSwitch, Value.wireType, receivedHeartbeat, boolAt, uint32At,
      values_concat]

theorem parseAgentHeartbeat_reads (hw : w.Correct) (hreads : w.Reads b fs)
    (hvalid : (agentHeartbeat w).Valid fs) :
    parseAgentHeartbeat w b = .ok (receivedHeartbeat w fs) :=
  Switch.decode_reads hw rfl (heartbeatSwitch_step hw) hreads hvalid.1

/-! ## What is kept whole -/

/-- No double of the list comes before a packed value of it. -/
def PackedFirst (n : ℕ) (fs : List Field) : Prop :=
  ∀ before packed after, values fs n = before ++ .bytes packed :: after →
    before.flatMap Value.fixed64s = []

theorem keepDoubles_of_ne {v : Value} (hv : ∀ packed, v ≠ .bytes packed) (us : List UInt64) :
    keepDoubles us v = us ++ v.fixed64s := by
  cases v with
  | bytes packed => exact absurd rfl (hv packed)
  | varint u => rfl
  | fixed32 u => rfl
  | fixed64 u => rfl

/-- A packed value of a list is its last value or one of those before. -/
theorem forall_packed_concat (vs : List Value) (v : Value) (P : List Value → Prop) :
    (∀ before packed after, vs ++ [v] = before ++ .bytes packed :: after → P before) ↔
      (∀ packed, v = .bytes packed → P vs) ∧
        ∀ before packed after, vs = before ++ .bytes packed :: after → P before := by
  constructor
  · intro h
    refine ⟨fun packed hv ↦ h vs packed [] (by rw [hv]), fun before packed after hvs ↦ ?_⟩
    exact h before packed (after ++ [v]) (by rw [hvs, List.append_assoc, List.cons_append])
  · rintro ⟨hlast, hbefore⟩ before packed after hvs
    rcases List.eq_nil_or_concat after with rfl | ⟨after, u, rfl⟩
    · obtain ⟨rfl, hv⟩ := List.append_inj' hvs rfl
      exact hlast packed (List.singleton_inj.mp hv)
    · rw [List.concat_eq_append, ← List.cons_append, ← List.append_assoc] at hvs
      exact hbefore before packed after (List.append_inj' hvs rfl).1

theorem foldl_keepDoubles_iff (vs : List Value) :
    vs.foldl keepDoubles [] = vs.flatMap Value.fixed64s ↔
      ∀ before packed after, vs = before ++ .bytes packed :: after →
        before.flatMap Value.fixed64s = [] := by
  induction vs using List.reverseRecOn with
  | nil => simp
  | append_singleton vs v ih =>
    rw [List.foldl_append, List.flatMap_append, List.foldl_cons, List.foldl_nil,
      List.flatMap_singleton, forall_packed_concat]
    by_cases hv : ∃ packed, v = .bytes packed
    · obtain ⟨packed, rfl⟩ := hv
      show unpack packed = _ ++ unpack packed ↔ _
      rw [List.self_eq_append_left]
      constructor
      · intro hnone
        refine ⟨fun _ _ ↦ hnone, fun before packed after hvs ↦ ?_⟩
        rw [hvs, List.flatMap_append] at hnone
        exact (List.append_eq_nil_iff.mp hnone).1
      · intro h
        exact h.1 packed rfl
    · have hne : ∀ packed, v ≠ .bytes packed := fun packed h ↦ hv ⟨packed, h⟩
      rw [keepDoubles_of_ne hne, List.append_left_inj, ih]
      exact ⟨fun h ↦ ⟨fun packed hpacked ↦ absurd hpacked (hne packed), h⟩, fun h ↦ h.2⟩

/-- **A list of doubles is kept if and only if none of them comes before a packed value.** -/
theorem keptAt_iff {n : ℕ} : keptAt n fs = fixed64sAt n fs ↔ PackedFirst n fs :=
  foldl_keepDoubles_iff (values fs n)

theorem readJointState_iff :
    readJointState keptAt fs = readJointState fixed64sAt fs ↔
      ∀ n ∈ [2, 3, 4], PackedFirst n fs := by
  simp [readJointState, keptAt_iff]

theorem map_eq_map_iff {α β : Type} {f g : α → β} (o : Option α) :
    o.map f = o.map g ↔ ∀ a ∈ o, f a = g a := by
  cases o <;> simp

theorem readTelemetry_iff :
    readTelemetry w keptAt fs = readTelemetry w fixed64sAt fs ↔
      ∀ joints ∈ w.bodyAt 2 fs, ∀ n ∈ [2, 3, 4], PackedFirst n joints := by
  simp only [readTelemetry, TelemetryPayloadMsg.mk.injEq, true_and, and_true, map_eq_map_iff,
    readJointState_iff]

theorem foldl_keepEvent (events kept : List ResourceEventMsg) :
    events.foldl keepEvent kept =
      kept ++ events.filter (GoString.trimSpace ·.resourceID ≠ "") := by
  induction events generalizing kept with
  | nil => simp
  | cons event events ih =>
    rw [List.foldl_cons, ih, keepEvent, List.filter_cons]
    split <;> simp_all

theorem foldl_keepEvent_iff (events : List ResourceEventMsg) :
    events.foldl keepEvent [] = events ↔
      ∀ event ∈ events, GoString.trimSpace event.resourceID ≠ "" := by
  rw [foldl_keepEvent, List.nil_append, List.filter_eq_self]
  simp

/-- The entries with a key are kept, and nothing is kept under the empty one. -/
theorem foldl_keepEntry (entries : List (String × String)) :
    entries.foldl keepEntry (fun _ ↦ none) = Function.update (mapOf entries) "" none := by
  induction entries using List.reverseRecOn with
  | nil =>
    funext key
    simp [mapOf, Function.update_apply]
  | append_singleton entries entry ih =>
    rw [mapOf, List.foldl_append, List.foldl_append, List.foldl_cons, List.foldl_nil,
      List.foldl_cons, List.foldl_nil, ih, keepEntry]
    split
    · rename_i hkey
      exact Function.update_comm (Ne.symm hkey) _ _ _
    · rename_i hkey
      rw [not_not.mp hkey, Function.update_idem]
      rfl

theorem foldl_keepEntry_iff (entries : List (String × String)) :
    entries.foldl keepEntry (fun _ ↦ none) = mapOf entries ↔ mapOf entries "" = none := by
  rw [foldl_keepEntry, Function.update_eq_self_iff, eq_comm]

variable (w) in
/-- The heartbeat, whose fields are `body`, has nothing that its parser drops. -/
structure PassesWhole (hb : AgentHeartbeat) (body : List Field) : Prop where
  stateCode : hb.stateCode = ""
  semanticTags : hb.semanticTags = []
  currentGraphId : hb.currentGraphId = ""
  resourceEvents : ∀ event ∈ hb.resourceEvents, GoString.trimSpace event.resourceID ≠ ""
  runtimeVariables : hb.runtimeVariables "" = none
  jointStates : ∀ telemetry ∈ w.bodyAt 12 body, ∀ joints ∈ w.bodyAt 2 telemetry,
    ∀ n ∈ [2, 3, 4], PackedFirst n joints

/-- The record has every value of the heartbeat.  For three of its fields there is no place, so they
have to be empty. -/
structure AgentHeartbeatMsg.Carries (msg : AgentHeartbeatMsg) (hb : AgentHeartbeat) : Prop where
  agentId : msg.agentID = hb.agentId
  state : msg.state = hb.state
  isExecuting : msg.isExecuting = hb.isExecuting
  currentAction : msg.currentAction = hb.currentAction
  networkLatencyMs : msg.networkLatencyMs = hb.networkLatencyMs
  networkLatencyUs : msg.networkLatencyUs = hb.networkLatencyUs
  stateCode : hb.stateCode = ""
  semanticTags : hb.semanticTags = []
  currentGraphId : hb.currentGraphId = ""
  currentTaskId : msg.currentTaskID = hb.currentTaskId
  currentStepId : msg.currentStepID = hb.currentStepId
  telemetry : msg.telemetry = hb.telemetry
  resourceEvents : msg.resourceEvents = hb.resourceEvents
  runtimeVariables : msg.runtimeVariables = hb.runtimeVariables

/-- **A heartbeat comes out whole if and only if it has nothing that its parser drops.** -/
theorem receivedHeartbeat_carries_iff :
    (receivedHeartbeat w body).Carries (readHeartbeat w body) ↔
      PassesWhole w (readHeartbeat w body) body := by
  have htelemetry : (receivedHeartbeat w body).telemetry = (readHeartbeat w body).telemetry ↔
      ∀ telemetry ∈ w.bodyAt 12 body, ∀ joints ∈ w.bodyAt 2 telemetry,
        ∀ n ∈ [2, 3, 4], PackedFirst n joints := by
    simp only [receivedHeartbeat, readHeartbeat, map_eq_map_iff, readTelemetry_iff]
  have hevents : (receivedHeartbeat w body).resourceEvents =
      (readHeartbeat w body).resourceEvents ↔ _ := foldl_keepEvent_iff (eventsAt w 13 body)
  have hvariables : (receivedHeartbeat w body).runtimeVariables =
      (readHeartbeat w body).runtimeVariables ↔ _ := foldl_keepEntry_iff (entriesAt w 14 body)
  constructor
  · intro h
    exact ⟨h.stateCode, h.semanticTags, h.currentGraphId, hevents.mp h.resourceEvents,
      hvariables.mp h.runtimeVariables, htelemetry.mp h.telemetry⟩
  · intro h
    exact ⟨rfl, rfl, rfl, rfl, rfl, rfl, h.stateCode, h.semanticTags, h.currentGraphId, rfl, rfl,
      htelemetry.mpr h.jointStates, hevents.mpr h.resourceEvents,
      hvariables.mpr h.runtimeVariables⟩

/-! ## Where a payload goes -/

/-- The fields of a message by the schema, as far as the switch tells them apart. -/
def MessageShape (n : ℕ) (v : Value) : Prop :=
  n = 1 ∧ IsText v ∨ n = 2 ∧ IsVarint v ∨ ∃ kind : PayloadKind, n = kind.number ∧ IsBytes v

theorem agentMessageSwitch_step (fs : List Field) (n : ℕ) (v : Value) (h : MessageShape n v) :
    (agentMessageSwitch w).step (receivedMessage w fs) ⟨n, v⟩ =
      some (receivedMessage w (fs ++ [⟨n, v⟩])) := by
  obtain ⟨rfl, u, rfl⟩ | ⟨rfl, u, rfl⟩ | ⟨kind, rfl, b, rfl⟩ := h
  · simp [Switch.step, agentMessageSwitch, Value.wireType, receivedMessage, int64At]
  · simp [Switch.step, agentMessageSwitch, Value.wireType, receivedMessage, int64At]
  · cases kind with
    | heartbeat =>
      cases hparse : parseAgentHeartbeat w b <;>
        simp [Switch.step, agentMessageSwitch, Case.message, PayloadKind.number, Value.wireType,
          receivedMessage, int64At, hparse, Except.toOption]
    | actionResult =>
      cases hparse : parseActionResult w b <;>
        simp [Switch.step, agentMessageSwitch, Case.message, PayloadKind.number, Value.wireType,
          receivedMessage, int64At, hparse, Except.toOption]
    | statusUpdate =>
      cases hparse : parseActionFeedback w b <;>
        simp [Switch.step, agentMessageSwitch, Case.message, PayloadKind.number, Value.wireType,
          receivedMessage, int64At, hparse, Except.toOption]
    | taskLog =>
      cases hparse : parseDeployGraphResponse w b <;>
        simp [Switch.step, agentMessageSwitch, Case.message, PayloadKind.number, Value.wireType,
          receivedMessage, int64At, hparse, Except.toOption]
    | taskState =>
      cases hparse : parseGraphExecutionStatus w b <;>
        simp [Switch.step, agentMessageSwitch, Case.message, PayloadKind.number, Value.wireType,
          receivedMessage, int64At, hparse, Except.toOption]

theorem values_eq_nil {n : ℕ} (h : ∀ f ∈ fs, f.number ≠ n) : values fs n = [] := by
  rw [values, List.filter_eq_nil_iff.mpr (by simpa using h), List.map_nil]

variable {kind : PayloadKind}

theorem IsEncoding.fits (h : IsEncoding w kind b fs body) : Fits MessageShape fs := by
  intro f hf
  by_cases hnumber : f.number = kind.number
  · obtain ⟨bytes, hvalues, -⟩ := h.payload
    have hmem : f.value ∈ values fs kind.number := hnumber ▸ mem_values hf
    rw [hvalues, List.mem_singleton] at hmem
    exact .inr (.inr ⟨kind, hnumber, bytes, hmem⟩)
  · exact (h.header f hf hnumber).imp_right .inl

theorem IsEncoding.parse_eq (hw : w.Correct) (h : IsEncoding w kind b fs body) :
    parseAgentMessage w b = .ok (receivedMessage w fs) :=
  Switch.decode_reads hw rfl agentMessageSwitch_step h.reads h.fits

/-- There is no payload of another number. -/
theorem IsEncoding.parsedAt_eq_none (h : IsEncoding w kind b fs body) {α : Type}
    (parse : Bytes → Except String α) (n : ℕ) (hn : 2 < n) (hne : n ≠ kind.number) :
    parsedAt parse n fs = none := by
  have hvalues : values fs n = [] := by
    refine values_eq_nil fun f hf hnumber ↦ ?_
    rcases h.header f hf (hnumber ▸ hne) with ⟨hone, -⟩ | ⟨htwo, -⟩ <;> omega
  rw [parsedAt, hvalues]
  rfl

theorem IsEncoding.parsedAt_eq (h : IsEncoding w kind b fs body) {α : Type}
    {parse : Bytes → Except String α} {a : α}
    (hparse : ∀ b, w.Reads b body → parse b = .ok a) :
    parsedAt parse kind.number fs = some a := by
  obtain ⟨bytes, hvalues, hreads⟩ := h.payload
  rw [parsedAt, hvalues]
  simp [hparse bytes hreads, Except.toOption]

/-- The parsed message has the payload, with its values, and no other. -/
def AgentMsg.Carries (msg : AgentMsg) (message : AgentMessage) : Prop :=
  match message.payload with
  | .heartbeat hb => ∃ hbMsg : AgentHeartbeatMsg, hbMsg.Carries hb ∧
      msg = { agentID := message.agentId, timestampMs := message.timestampMs
              heartbeat := some hbMsg }
  | .actionResult result =>
    msg = { agentID := message.agentId, timestampMs := message.timestampMs
            actionResult := some result }
  | .statusUpdate status =>
    msg = { agentID := message.agentId, timestampMs := message.timestampMs
            statusUpdate := some status }
  | .taskLog log =>
    msg = { agentID := message.agentId, timestampMs := message.timestampMs, taskLog := some log }
  | .taskState update =>
    msg = { agentID := message.agentId, timestampMs := message.timestampMs
            taskStateUpdate := some update }

variable (w) in
/-- The payload comes out as what it is, with all of its values. -/
def PayloadKind.Arrives (body : List Field) : PayloadKind → Prop
  | heartbeat => PassesWhole w (readHeartbeat w body) body
  | actionResult => True
  | statusUpdate => False
  | taskLog => False
  | taskState => False

theorem receivedMessage_heartbeat (hw : w.Correct) (h : IsEncoding w .heartbeat b fs body) :
    receivedMessage w fs =
      { agentID := textAt 1 fs, timestampMs := int64At 2 fs
        heartbeat := some (receivedHeartbeat w body) } := by
  have hparsed : parsedAt (parseAgentHeartbeat w) 10 fs = some (receivedHeartbeat w body) :=
    h.parsedAt_eq fun _ hreads ↦ parseAgentHeartbeat_reads hw hreads h.valid
  rw [receivedMessage, hparsed, h.parsedAt_eq_none (parseActionResult w) 11 (by decide) (by decide),
    h.parsedAt_eq_none (parseActionFeedback w) 12 (by decide) (by decide),
    h.parsedAt_eq_none (parseDeployGraphResponse w) 14 (by decide) (by decide),
    h.parsedAt_eq_none (parseGraphExecutionStatus w) 15 (by decide) (by decide)]

theorem receivedMessage_actionResult (hw : w.Correct) (h : IsEncoding w .actionResult b fs body) :
    receivedMessage w fs =
      { agentID := textAt 1 fs, timestampMs := int64At 2 fs
        actionResult := some (readActionResult body) } := by
  have hparsed : parsedAt (parseActionResult w) 11 fs = some (readActionResult body) :=
    h.parsedAt_eq fun _ hreads ↦ parseActionResult_reads hw hreads h.valid
  rw [receivedMessage, hparsed,
    h.parsedAt_eq_none (parseAgentHeartbeat w) 10 (by decide) (by decide),
    h.parsedAt_eq_none (parseActionFeedback w) 12 (by decide) (by decide),
    h.parsedAt_eq_none (parseDeployGraphResponse w) 14 (by decide) (by decide),
    h.parsedAt_eq_none (parseGraphExecutionStatus w) 15 (by decide) (by decide)]

theorem receivedMessage_carries_iff (hw : w.Correct) (h : IsEncoding w kind b fs body) :
    (receivedMessage w fs).Carries (readAgentMessage w kind fs body) ↔ kind.Arrives w body := by
  cases kind with
  | heartbeat =>
    rw [receivedMessage_heartbeat hw h]
    constructor
    · rintro ⟨hbMsg, hcarries, hmsg⟩
      obtain rfl : receivedHeartbeat w body = hbMsg :=
        Option.some.inj (congrArg AgentMsg.heartbeat hmsg)
      exact receivedHeartbeat_carries_iff.mp hcarries
    · intro hpasses
      exact ⟨_, receivedHeartbeat_carries_iff.mpr hpasses, rfl⟩
  | actionResult =>
    rw [receivedMessage_actionResult hw h]
    exact iff_of_true rfl trivial
  | statusUpdate =>
    refine iff_of_false (fun hcarries ↦ ?_) id
    exact Option.some_ne_none _ (congrArg AgentMsg.statusUpdate hcarries).symm
  | taskLog =>
    refine iff_of_false (fun hcarries ↦ ?_) id
    exact Option.some_ne_none _ (congrArg AgentMsg.taskLog hcarries).symm
  | taskState =>
    refine iff_of_false (fun hcarries ↦ ?_) id
    exact Option.some_ne_none _ (congrArg AgentMsg.taskStateUpdate hcarries).symm

variable (w) in
/-- The message as an encoder writes it. -/
def agentMessageFields (kind : PayloadKind) (agentID : String) (timestampMs : UInt64)
    (body : List Field) : List Field :=
  [.text 1 agentID, .varint 2 timestampMs, .bytes kind.number (w.encode body)]

theorem isEncoding_encode (hw : w.Correct) (kind : PayloadKind) (agentID : String)
    (timestampMs : UInt64) (hbody : Numbered body) (hvalid : (kind.schema w).Valid body) :
    IsEncoding w kind (w.encode (agentMessageFields w kind agentID timestampMs body))
      (agentMessageFields w kind agentID timestampMs body) body where
  reads := by
    refine Protowire.reads_encode hw ?_
    cases kind <;> simp [agentMessageFields, IsNumber, PayloadKind.number]
  header := by
    intro f hf hnumber
    simp only [agentMessageFields, List.mem_cons, List.not_mem_nil, or_false] at hf
    obtain rfl | rfl | rfl := hf
    · exact .inl ⟨rfl, agentID, rfl⟩
    · exact .inr ⟨rfl, timestampMs, rfl⟩
    · exact absurd rfl hnumber
  payload := by
    refine ⟨w.encode body, ?_, Protowire.reads_encode hw hbody⟩
    cases kind <;> simp [agentMessageFields, values_cons, PayloadKind.number]
  valid := hvalid

/-- An agent that has taken a dock and waits there. -/
def dockBody : List Field :=
  [.text 1 "agent-1", .text 2 "idle", .varint 5 12,
    .bytes 13 (Protowire.standard.encode [.text 1 "dock-1", .varint 3 1])]

theorem dockBody_valid : (agentHeartbeat .standard).Valid dockBody := by
  have hevent : IsMessage .standard resourceEvent
      (.bytes (Protowire.standard.encode [.text 1 "dock-1", .varint 3 1])) := by
    refine ⟨_, _, rfl, Protowire.reads_encode Protowire.standard_correct (by simp [IsNumber]), ?_⟩
    refine ⟨fun f hf ↦ ?_, by simp [resourceEvent]⟩
    rw [List.mem_pair] at hf
    obtain rfl | rfl := hf <;> exact ⟨_, rfl⟩
  refine ⟨fun f hf ↦ ?_, by simp [agentHeartbeat, dockBody, values_cons]⟩
  simp only [dockBody, List.mem_cons, List.not_mem_nil, or_false] at hf
  obtain rfl | rfl | rfl | rfl := hf
  · exact ⟨_, rfl⟩
  · exact ⟨_, rfl⟩
  · exact ⟨_, rfl⟩
  · exact hevent

/-- An agent that comes online. -/
def onlineBody : List Field := [.varint 1 1, .varint 2 1, .text 3 "up"]

end Wire
end FleetServer
