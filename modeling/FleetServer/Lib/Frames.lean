import FleetServer.Lib.ProtoWire

/-!
# Messages on a stream of bytes

A frame is the length of a message, as a number of so many bytes with the highest byte first, and
the message.  A reader takes one frame after the other and stops at the end of the stream, in the
middle of a frame, or at a length above its limit.

`readFrames_append` and `readFrames_sound` say that the messages read are those of a division of the
stream into frames and a rest that is no frame; there is only one.
-/

set_option autoImplicit false

namespace Frames

open ProtoWire

/-! ## Lengths -/

theorem littleEndian_ofLittleEndian (b : Bytes) :
    littleEndian b.length (ofLittleEndian b) = b := by
  induction b with
  | nil => rfl
  | cons first rest ih =>
    have hfirst := first.toNat_lt
    have hlow : (first.toNat + 256 * ofLittleEndian rest) % 256 = first.toNat := by omega
    have hhigh : (first.toNat + 256 * ofLittleEndian rest) / 256 = ofLittleEndian rest := by omega
    rw [List.length_cons, ofLittleEndian, littleEndian, hlow, hhigh, ih, UInt8.ofNat_toNat]

def bigEndian (k n : ℕ) : Bytes := (littleEndian k n).reverse

def ofBigEndian (b : Bytes) : ℕ := ofLittleEndian b.reverse

@[simp] theorem length_bigEndian (k n : ℕ) : (bigEndian k n).length = k := by
  rw [bigEndian, List.length_reverse, length_littleEndian]

theorem ofBigEndian_bigEndian {k n : ℕ} (hn : n < 256 ^ k) : ofBigEndian (bigEndian k n) = n := by
  rw [ofBigEndian, bigEndian, List.reverse_reverse, ofLittleEndian_littleEndian hn]

theorem bigEndian_ofBigEndian (b : Bytes) : bigEndian b.length (ofBigEndian b) = b := by
  rw [bigEndian, ofBigEndian]
  have hinner := littleEndian_ofLittleEndian b.reverse
  rw [List.length_reverse] at hinner
  rw [hinner, List.reverse_reverse]

/-! ## Frames -/

/-- Why a reader stops. -/
inductive Stop where
  | eof
  | partialLength
  | tooLarge (length : ℕ)
  | partialMessage
  deriving DecidableEq, Repr

variable (k limit : ℕ)

/-- A message with its length before it. -/
def frame (message : Bytes) : Bytes := bigEndian k message.length ++ message

/-- The message at the start of a stream, and the rest of the stream. -/
def readFrame (b : Bytes) : Except Stop (Bytes × Bytes) :=
  if b = [] then .error .eof
  else
    match splitBytes k b with
    | none => .error .partialLength
    | some (lenBuf, rest) =>
      if limit < ofBigEndian lenBuf then .error (.tooLarge (ofBigEndian lenBuf))
      else
        match splitBytes (ofBigEndian lenBuf) rest with
        | none => .error .partialMessage
        | some message => .ok message

/-- Reads at most as many frames as it has fuel. -/
def readFramesFrom : ℕ → Bytes → List Bytes × Stop
  | 0, _ => ([], .eof)
  | fuel + 1, b =>
    match readFrame k limit b with
    | .error stop => ([], stop)
    | .ok (message, rest) =>
      let (messages, stop) := readFramesFrom fuel rest
      (message :: messages, stop)

/-- All messages of a stream.  Every frame takes some bytes. -/
def readFrames (b : Bytes) : List Bytes × Stop := readFramesFrom k limit (b.length + 1) b

/-! ## What is read -/

variable {k limit} {b message rest : Bytes} {messages : List Bytes} {stop : Stop}

theorem splitBytes_eq_some_iff {n : ℕ} {front : Bytes} :
    splitBytes n b = some (front, rest) ↔ b = front ++ rest ∧ front.length = n := by
  constructor
  · intro h
    rw [splitBytes] at h
    split at h
    · obtain ⟨rfl, rfl⟩ := Prod.mk.inj (Option.some.inj h)
      exact ⟨(List.take_append_drop n b).symm, by rw [List.length_take]; omega⟩
    · cases h
  · rintro ⟨rfl, rfl⟩
    exact splitBytes_append front rest

/-- **A message is read at the start of a stream if its frame is there.** -/
theorem readFrame_eq_ok_iff (hk : 0 < k) (hlimit : limit < 256 ^ k) :
    readFrame k limit b = .ok (message, rest) ↔
      b = frame k message ++ rest ∧ message.length ≤ limit := by
  constructor
  · intro h
    rw [readFrame] at h
    split at h
    · cases h
    split at h
    · cases h
    · rename_i lenBuf body hsplit
      obtain ⟨rfl, hlength⟩ := splitBytes_eq_some_iff.mp hsplit
      split at h
      · cases h
      rename_i hle
      split at h
      · cases h
      · rename_i found hbody
        obtain rfl := Except.ok.inj h
        obtain ⟨rfl, hmessage⟩ := splitBytes_eq_some_iff.mp hbody
        have hlen := bigEndian_ofBigEndian lenBuf
        rw [hlength, ← hmessage] at hlen
        exact ⟨by rw [frame, hlen, List.append_assoc], by omega⟩
  · rintro ⟨rfl, hle⟩
    have hlength : ofBigEndian (bigEndian k message.length) = message.length :=
      ofBigEndian_bigEndian (by omega)
    have hne : frame k message ++ rest ≠ [] := by
      intro hnil
      have := congrArg List.length hnil
      rw [frame, List.length_append, List.length_append, length_bigEndian, List.length_nil] at this
      omega
    have hsplit : splitBytes k (frame k message ++ rest) =
        some (bigEndian k message.length, message ++ rest) :=
      splitBytes_eq_some_iff.mpr ⟨by rw [frame, List.append_assoc], length_bigEndian k _⟩
    rw [readFrame, if_neg hne, hsplit]
    simp only [hlength, if_neg (Nat.not_lt.mpr hle), splitBytes_append]

theorem length_frame (k : ℕ) (message : Bytes) : (frame k message).length = k + message.length := by
  rw [frame, List.length_append, length_bigEndian]

/-- More fuel than bytes changes nothing. -/
theorem readFramesFrom_congr (hk : 0 < k) (hlimit : limit < 256 ^ k) {fuel fuel' : ℕ}
    (hfuel : b.length < fuel) (hfuel' : b.length < fuel') :
    readFramesFrom k limit fuel b = readFramesFrom k limit fuel' b := by
  induction fuel generalizing fuel' b with
  | zero => omega
  | succ fuel ih =>
    obtain ⟨fuel', rfl⟩ : ∃ n, fuel' = n + 1 := ⟨fuel' - 1, by omega⟩
    rw [readFramesFrom, readFramesFrom]
    cases hread : readFrame k limit b with
    | error stop => rfl
    | ok found =>
      obtain ⟨message, rest⟩ := found
      have hshort : rest.length < b.length := by
        rw [((readFrame_eq_ok_iff hk hlimit).mp hread).1, List.length_append, length_frame]
        omega
      have hrest : readFramesFrom k limit fuel rest = readFramesFrom k limit fuel' rest :=
        ih (by omega) (by omega)
      simp only [hrest]

theorem readFrames_of_error (hread : readFrame k limit b = .error stop) :
    readFrames k limit b = ([], stop) := by
  rw [readFrames, readFramesFrom, hread]

theorem readFrames_of_ok (hk : 0 < k) (hlimit : limit < 256 ^ k)
    (hread : readFrame k limit b = .ok (message, rest)) :
    readFrames k limit b =
      (message :: (readFrames k limit rest).1, (readFrames k limit rest).2) := by
  have hshort : rest.length < b.length := by
    rw [((readFrame_eq_ok_iff hk hlimit).mp hread).1, List.length_append, length_frame]
    omega
  rw [readFrames, readFramesFrom, hread]
  simp only [readFramesFrom_congr hk hlimit hshort (Nat.lt_succ_self _), readFrames]

/-- **Frames are read one after the other, and then what follows them.** -/
theorem readFrames_append (hk : 0 < k) (hlimit : limit < 256 ^ k)
    (hmessages : ∀ message ∈ messages, message.length ≤ limit) (rest : Bytes) :
    readFrames k limit (messages.flatMap (frame k) ++ rest) =
      (messages ++ (readFrames k limit rest).1, (readFrames k limit rest).2) := by
  induction messages with
  | nil => rfl
  | cons message messages ih =>
    have hfirst : readFrame k limit
        ((message :: messages).flatMap (frame k) ++ rest) =
          .ok (message, messages.flatMap (frame k) ++ rest) :=
      (readFrame_eq_ok_iff hk hlimit).mpr ⟨by rw [List.flatMap_cons, List.append_assoc],
        hmessages message List.mem_cons_self⟩
    rw [readFrames_of_ok hk hlimit hfirst,
      ih fun message' hmem ↦ hmessages message' (List.mem_cons_of_mem _ hmem)]
    rfl

/-- **What is read are the frames at the start of the stream.**  The rest is not a frame. -/
theorem readFrames_sound (hk : 0 < k) (hlimit : limit < 256 ^ k)
    (h : readFrames k limit b = (messages, stop)) :
    ∃ rest, b = messages.flatMap (frame k) ++ rest ∧
      (∀ message ∈ messages, message.length ≤ limit) ∧ readFrame k limit rest = .error stop := by
  induction hn : b.length using Nat.strong_induction_on generalizing b messages with
  | _ n ih =>
    cases hread : readFrame k limit b with
    | error stop' =>
      rw [readFrames_of_error hread] at h
      obtain ⟨rfl, rfl⟩ := Prod.mk.inj h
      exact ⟨b, rfl, by simp, hread⟩
    | ok found =>
      obtain ⟨message, rest⟩ := found
      obtain ⟨hb, hle⟩ := (readFrame_eq_ok_iff hk hlimit).mp hread
      have hshort : rest.length < n := by
        rw [← hn, hb, List.length_append, length_frame]
        omega
      rw [readFrames_of_ok hk hlimit hread] at h
      obtain ⟨rfl, hstop⟩ := Prod.mk.inj h
      have hread : readFrames k limit rest = ((readFrames k limit rest).1, stop) :=
        Prod.ext rfl hstop
      obtain ⟨tail, hrest, hall, htail⟩ := ih rest.length hshort hread rfl
      refine ⟨tail, ?_, ?_, htail⟩
      · rw [List.flatMap_cons, List.append_assoc, ← hrest, hb]
      · exact List.forall_mem_cons.mpr ⟨hle, hall⟩

/-- **A stream that is cut off gives the first of its messages.** -/
theorem readFrames_take_prefix (hk : 0 < k) (hlimit : limit < 256 ^ k) (b : Bytes) (n : ℕ) :
    (readFrames k limit (b.take n)).1 <+: (readFrames k limit b).1 := by
  rcases hcut : readFrames k limit (b.take n) with ⟨messages, stop⟩
  obtain ⟨rest, htake, hall, -⟩ := readFrames_sound hk hlimit hcut
  have hwhole : b = messages.flatMap (frame k) ++ (rest ++ b.drop n) := by
    rw [← List.append_assoc, ← htake, List.take_append_drop]
  have hread := readFrames_append hk hlimit hall (rest ++ b.drop n)
  rw [← hwhole] at hread
  rw [hread]
  exact List.prefix_append _ _

end Frames
