import FleetServer.Lib.ProtoWire

/-!
# Decoders that are written by hand

Such a decoder is a loop.  It reads a tag, switches on the number of the field, reads a value of the
wire type that it expects there, stores it, and goes on with the bytes after it.  A `Switch` is what
one decoder has of its own, and `decode` is the loop.

A value of another wire type than the switch expects may be passed over, or it may be left where it
is: then the loop takes its bytes for the next tag.

What a decoder makes of a message is proved with `decode_reads`: a function of the fields that is
right for no field at all, and that follows every step of the switch.
-/

set_option autoImplicit false

namespace ProtoWire

/-! ## Schemas

What a schema says of the fields of a message, and how it reads those of which there are several or
that are messages themselves. -/

def IsVarint (v : Value) : Prop := ∃ u, v = .varint u

def IsFixed32 (v : Value) : Prop := ∃ u, v = .fixed32 u

def IsFixed64 (v : Value) : Prop := ∃ u, v = .fixed64 u

def IsBytes (v : Value) : Prop := ∃ b, v = .bytes b

def IsText (v : Value) : Prop := ∃ s, v = .bytes (utf8 s)

/-- Fixed numbers one after the other, in one value. -/
def pack (us : List UInt64) : Bytes := us.flatMap fun u ↦ littleEndian 8 u.toNat

/-- Eight bytes at a time, as long as there are eight. -/
def unpack : Bytes → List UInt64
  | a :: b :: c :: d :: e :: f :: g :: h :: rest =>
    UInt64.ofNat (ofLittleEndian [a, b, c, d, e, f, g, h]) :: unpack rest
  | _ => []

theorem unpack_pack (us : List UInt64) : unpack (pack us) = us := by
  induction us with
  | nil => rfl
  | cons u us ih =>
    have hnumber : ofLittleEndian (littleEndian 8 u.toNat) = u.toNat :=
      ofLittleEndian_littleEndian u.toNat_lt
    rw [pack, List.flatMap_cons]
    show UInt64.ofNat (ofLittleEndian (littleEndian 8 u.toNat)) :: unpack (pack us) = u :: us
    rw [hnumber, ih, UInt64.ofNat_toNat]

/-- A value of a repeated field of fixed numbers: a number or several that are packed. -/
def IsFixed64s (v : Value) : Prop := IsFixed64 v ∨ ∃ us, v = .bytes (pack us)

/-- The numbers in a value of such a field. -/
def Value.fixed64s : Value → List UInt64
  | .fixed64 u => [u]
  | .bytes b => unpack b
  | _ => []

def fixed64sAt (n : ℕ) (fs : List Field) : List UInt64 := (values fs n).flatMap Value.fixed64s

/-- The low half of a number. -/
def uint32At (n : ℕ) (fs : List Field) : UInt32 := (varintAt n fs).toUInt32

/-- Every field has a number of the schema and a value that the schema has there. -/
def Fits (shape : ℕ → Value → Prop) (fs : List Field) : Prop := ∀ f ∈ fs, shape f.number f.value

structure Schema where
  shape : ℕ → Value → Prop
  /-- The message fields that are not repeated. -/
  single : List ℕ := []

/-- The fields are what an encoder writes: a message field that is not repeated is there at most
once. -/
def Schema.Valid (schema : Schema) (fs : List Field) : Prop :=
  Fits schema.shape fs ∧ ∀ n ∈ schema.single, (values fs n).length ≤ 1

def IsMessage (w : Protowire) (schema : Schema) (v : Value) : Prop :=
  ∃ b fs, v = .bytes b ∧ w.Reads b fs ∧ schema.Valid fs

end ProtoWire

namespace Protowire

open ProtoWire

variable (w : Protowire)

/-- The fields of a message; there are none in what is no message. -/
def body (b : Bytes) : List Field := (w.fields b).getD []

theorem body_of_reads {w : Protowire} (hw : w.Correct) {b : Bytes} {fs : List Field}
    (hreads : w.Reads b fs) : w.body b = fs := by
  rw [body, fields_of_reads hw hreads, Option.getD_some]

/-- The messages in a repeated field. -/
def bodiesAt (n : ℕ) (fs : List Field) : List (List Field) :=
  ((values fs n).filterMap Value.bytes?).map w.body

/-- The message in a field that is not repeated. -/
def bodyAt (n : ℕ) (fs : List Field) : Option (List Field) := (w.bodiesAt n fs).getLast?

end Protowire

namespace ProtoWire

/-! ## Cases -/

/-- What a switch does with the values of one wire type: the name of the field in its errors, and
where the value goes. -/
inductive Case (σ : Type*)
  | varint (name : String) (set : σ → UInt64 → σ)
  | fixed32 (name : String) (set : σ → UInt32 → σ)
  | fixed64 (name : String) (set : σ → UInt64 → σ)
  | bytes (name : String) (set : σ → Bytes → σ)
  | text (name : String) (set : σ → String → σ)

namespace Case

variable {σ α : Type*}

def name : Case σ → String
  | varint name _ => name
  | fixed32 name _ => name
  | fixed64 name _ => name
  | bytes name _ => name
  | text name _ => name

@[simp] def wireType : Case σ → WireType
  | varint _ _ => .varint
  | fixed32 _ _ => .fixed32
  | fixed64 _ _ => .fixed64
  | bytes _ _ => .bytes
  | text _ _ => .bytes

/-- Reads the value at the start of the bytes and stores it. -/
def run (w : Protowire) (m : σ) (b : Bytes) : Case σ → Option (σ × Bytes)
  | varint _ set => (w.consumeVarint b).map fun p ↦ (set m p.1, p.2)
  | fixed32 _ set => (w.consumeFixed32 b).map fun p ↦ (set m p.1, p.2)
  | fixed64 _ set => (w.consumeFixed64 b).map fun p ↦ (set m p.1, p.2)
  | bytes _ set => (w.consumeBytes b).map fun p ↦ (set m p.1, p.2)
  | text _ set => (w.consumeString b).map fun p ↦ (set m p.1, p.2)

/-- Stores a value that is there already. -/
@[simp] def store (m : σ) (v : Value) : Case σ → Option σ
  | varint _ set => v.varint?.map (set m)
  | fixed32 _ set => v.fixed32?.map (set m)
  | fixed64 _ set => v.fixed64?.map (set m)
  | bytes _ set => v.bytes?.map (set m)
  | text _ set => v.text?.map (set m)

/-- The case of a message in the message: what its decoder makes of it is stored, and one that the
decoder rejects is passed over. -/
def message (name : String) (parse : Bytes → Except String α) (set : σ → α → σ) : Case σ :=
  .bytes name fun m b ↦
    match parse b with
    | .ok a => set m a
    | .error _ => m

end Case

/-! ## The loop -/

structure Switch (σ : Type*) where
  /-- The cases of a number; there are none for a field that is skipped. -/
  cases : ℕ → Option (List (Case σ))
  /-- The error under which a value of a wire type without a case is skipped, if it is. -/
  others : ℕ → Option String := fun _ ↦ none
  /-- The error of a field that cannot be skipped. -/
  unknown : ℕ → String := fun _ ↦ "invalid field"
  /-- The error of a tag that cannot be read, by the number of fields before it. -/
  badTag : ℕ → String := fun _ ↦ "invalid tag"

namespace Switch

variable {σ : Type*} (s : Switch σ) (w : Protowire)

def skip (m : σ) (n : ℕ) (t : WireType) (b : Bytes) (error : String) :
    Except String (σ × Bytes) :=
  match w.consumeFieldValue n t b with
  | none => .error error
  | some rest => .ok (m, rest)

/-- One round of the loop, after the tag. -/
def field (m : σ) (n : ℕ) (t : WireType) (b : Bytes) : Except String (σ × Bytes) :=
  match s.cases n with
  | none => skip w m n t b (s.unknown n)
  | some cs =>
    match cs.find? (·.wireType = t) with
    | some c =>
      match c.run w m b with
      | none => .error ("invalid " ++ c.name)
      | some stored => .ok stored
    | none =>
      match s.others n with
      | some error => skip w m n t b error
      | none => .ok (m, b)

/-- What is stored when the loop comes to its end, and the error that has ended it.  It makes at
most as many rounds as it has fuel. -/
def decodeFrom : ℕ → ℕ → σ → Bytes → σ × Option String
  | _, _, m, [] => (m, none)
  | 0, position, m, _ :: _ => (m, some (s.badTag position))
  | fuel + 1, position, m, b@(_ :: _) =>
    match w.consumeTag b with
    | none => (m, some (s.badTag position))
    | some (n, t, value) =>
      match s.field w m n t value with
      | .error error => (m, some error)
      | .ok (m', rest) => decodeFrom fuel (position + 1) m' rest

def decode (start : σ) (b : Bytes) : Except String σ :=
  match s.decodeFrom w b.length 0 start b with
  | (m, none) => .ok m
  | (_, some error) => .error error

/-- What a field changes, if the switch can read it. -/
def step (m : σ) (f : Field) : Option σ :=
  match s.cases f.number with
  | none => some m
  | some cs =>
    match cs.find? (·.wireType = f.value.wireType) with
    | some c => c.store m f.value
    | none => (s.others f.number).map fun _ ↦ m

end Switch

/-! ## What a decoder makes of a message -/

theorem utf8_of_textOf {v : Bytes} {s : String} (h : textOf v = some s) : v = utf8 s := by
  rw [textOf, String.fromUTF8?] at h
  split at h
  · obtain rfl := Option.some.inj h
    simp [utf8, String.fromUTF8]
  · exact absurd h (by simp)

section Decode

variable {σ : Type*} {s : Switch σ} {w : Protowire} {m m' : σ} {b rest : Bytes} {v : Value}

theorem Value.varint?_eq_some {u : UInt64} : v.varint? = some u ↔ v = .varint u := by
  cases v <;> simp [varint?]

theorem Value.fixed32?_eq_some {u : UInt32} : v.fixed32? = some u ↔ v = .fixed32 u := by
  cases v <;> simp [fixed32?]

theorem Value.fixed64?_eq_some {u : UInt64} : v.fixed64? = some u ↔ v = .fixed64 u := by
  cases v <;> simp [fixed64?]

theorem Value.bytes?_eq_some {u : Bytes} : v.bytes? = some u ↔ v = .bytes u := by
  cases v <;> simp [bytes?]

theorem Value.text?_eq_some {u : String} : v.text? = some u ↔ v = .bytes (utf8 u) := by
  constructor
  · intro h
    obtain ⟨bytes, hbytes, htext⟩ := Option.bind_eq_some_iff.mp h
    rw [bytes?_eq_some.mp hbytes, utf8_of_textOf htext]
  · rintro rfl
    exact text?_bytes u

/-- A case reads what it can store. -/
theorem Case.run_of_store (hw : w.Correct) {c : Case σ}
    (hvalue : w.consumeValue v.wireType b = some (v, rest)) (hstore : c.store m v = some m') :
    c.run w m b = some (m', rest) := by
  cases c with
  | varint name set =>
    obtain ⟨u, hu, rfl⟩ := Option.map_eq_some_iff.mp hstore
    obtain rfl := Value.varint?_eq_some.mp hu
    obtain ⟨⟨u', rest'⟩, hread, hpair⟩ := Option.map_eq_some_iff.mp hvalue
    cases hpair
    rw [run, hread, Option.map_some]
  | fixed32 name set =>
    obtain ⟨u, hu, rfl⟩ := Option.map_eq_some_iff.mp hstore
    obtain rfl := Value.fixed32?_eq_some.mp hu
    obtain ⟨⟨u', rest'⟩, hread, hpair⟩ := Option.map_eq_some_iff.mp hvalue
    cases hpair
    rw [run, hread, Option.map_some]
  | fixed64 name set =>
    obtain ⟨u, hu, rfl⟩ := Option.map_eq_some_iff.mp hstore
    obtain rfl := Value.fixed64?_eq_some.mp hu
    obtain ⟨⟨u', rest'⟩, hread, hpair⟩ := Option.map_eq_some_iff.mp hvalue
    cases hpair
    rw [run, hread, Option.map_some]
  | bytes name set =>
    obtain ⟨u, hu, rfl⟩ := Option.map_eq_some_iff.mp hstore
    obtain rfl := Value.bytes?_eq_some.mp hu
    obtain ⟨⟨u', rest'⟩, hread, hpair⟩ := Option.map_eq_some_iff.mp hvalue
    cases hpair
    rw [run, hread, Option.map_some]
  | text name set =>
    obtain ⟨u, hu, rfl⟩ := Option.map_eq_some_iff.mp hstore
    obtain rfl := Value.text?_eq_some.mp hu
    obtain ⟨⟨u', rest'⟩, hread, hpair⟩ := Option.map_eq_some_iff.mp hvalue
    cases hpair
    rw [run, hw.string _ _ _ hread, Option.map_some]

theorem Switch.field_of_step (hw : w.Correct) {n : ℕ}
    (hvalue : w.consumeValue v.wireType b = some (v, rest)) (hstep : s.step m ⟨n, v⟩ = some m') :
    s.field w m n v.wireType b = .ok (m', rest) := by
  have hskip (error : String) : skip w m n v.wireType b error = .ok (m, rest) := by
    rw [skip, hw.skip _ _ _ _ _ hvalue]
  rw [step] at hstep
  rw [field]
  split at hstep
  · rename_i hcases
    obtain rfl := Option.some.inj hstep
    simp only [hcases, hskip]
  · rename_i cs hcases
    simp only [hcases]
    split at hstep
    · rename_i c hc
      simp only [hc, Case.run_of_store hw hvalue hstep]
    · rename_i hc
      obtain ⟨error, hother, rfl⟩ := Option.map_eq_some_iff.mp hstep
      simp only [hc, hother, hskip]

variable {shape : ℕ → Value → Prop} {made : List Field → σ} {fs : List Field}

theorem Switch.decodeFrom_reads (hw : w.Correct)
    (hstep : ∀ fs n v, shape n v → s.step (made fs) ⟨n, v⟩ = some (made (fs ++ [⟨n, v⟩])))
    (hreads : w.Reads b fs) (hfits : Fits shape fs) {fuel : ℕ} (hfuel : b.length ≤ fuel)
    (position : ℕ) (before : List Field) :
    s.decodeFrom w fuel position (made before) b = (made (before ++ fs), none) := by
  induction hreads generalizing fuel position before with
  | nil => rw [decodeFrom, List.append_nil]
  | @cons b value rest n v fs htag hvalue _ ih =>
    have htagged := hw.tag_lt _ _ _ _ htag
    have hread := hw.value_le _ _ _ _ hvalue
    obtain ⟨fuel, rfl⟩ : ∃ k, fuel = k + 1 := ⟨fuel - 1, by omega⟩
    have hround : s.field w (made before) n v.wireType value =
        .ok (made (before ++ [⟨n, v⟩]), rest) :=
      field_of_step hw hvalue (hstep _ _ _ (hfits _ List.mem_cons_self))
    have hfuel' : rest.length ≤ fuel := by omega
    have hrest := ih (fun f hf ↦ hfits f (List.mem_cons_of_mem _ hf)) hfuel' (position + 1)
      (before ++ [⟨n, v⟩])
    cases b with
    | nil => simp at htagged
    | cons first b =>
      rw [List.append_assoc, List.singleton_append] at hrest
      simp only [decodeFrom, htag, hround, hrest]

/-- **The loop makes of a message what the steps of the switch make of its fields.** -/
theorem Switch.decode_reads (hw : w.Correct) {start : σ} (hstart : made [] = start)
    (hstep : ∀ fs n v, shape n v → s.step (made fs) ⟨n, v⟩ = some (made (fs ++ [⟨n, v⟩])))
    (hreads : w.Reads b fs) (hfits : Fits shape fs) : s.decode w start b = .ok (made fs) := by
  rw [decode, ← hstart, decodeFrom_reads hw hstep hreads hfits le_rfl 0 []]
  rfl

end Decode

/-! ## One field more -/

section Concat

variable {n m : ℕ} {fs : List Field} {v : Value} {w : Protowire}

theorem values_concat (fs : List Field) (m : ℕ) (v : Value) (n : ℕ) :
    values (fs ++ [⟨m, v⟩]) n = if m = n then values fs n ++ [v] else values fs n := by
  rw [values_append, values_cons, values_nil]
  split <;> simp

theorem last_concat {α : Type*} (read : Value → Option α) (default : α) (vs : List Value)
    (v : Value) : last read default (vs ++ [v]) = (read v).getD (last read default vs) := by
  rw [last, List.filterMap_append]
  cases h : read v with
  | none => simp [h, last]
  | some a => simp [h]

@[simp] theorem textAt_concat : textAt n (fs ++ [⟨m, v⟩]) =
    if m = n then v.text?.getD (textAt n fs) else textAt n fs := by
  rw [textAt, values_concat, last_ite, last_concat]
  rfl

@[simp] theorem bytesAt_concat : bytesAt n (fs ++ [⟨m, v⟩]) =
    if m = n then v.bytes?.getD (bytesAt n fs) else bytesAt n fs := by
  rw [bytesAt, values_concat, last_ite, last_concat]
  rfl

@[simp] theorem varintAt_concat : varintAt n (fs ++ [⟨m, v⟩]) =
    if m = n then v.varint?.getD (varintAt n fs) else varintAt n fs := by
  rw [varintAt, values_concat, last_ite, last_concat]
  rfl

@[simp] theorem fixed32At_concat : fixed32At n (fs ++ [⟨m, v⟩]) =
    if m = n then v.fixed32?.getD (fixed32At n fs) else fixed32At n fs := by
  rw [fixed32At, values_concat, last_ite, last_concat]
  rfl

@[simp] theorem fixed64At_concat : fixed64At n (fs ++ [⟨m, v⟩]) =
    if m = n then v.fixed64?.getD (fixed64At n fs) else fixed64At n fs := by
  rw [fixed64At, values_concat, last_ite, last_concat]
  rfl

@[simp] theorem textsAt_concat : textsAt n (fs ++ [⟨m, v⟩]) =
    if m = n then textsAt n fs ++ v.text?.toList else textsAt n fs := by
  rw [textsAt, values_concat]
  split
  · cases h : v.text? <;> simp [textsAt, h]
  · rfl

@[simp] theorem bodiesAt_concat : w.bodiesAt n (fs ++ [⟨m, v⟩]) =
    if m = n then w.bodiesAt n fs ++ (v.bytes?.map w.body).toList else w.bodiesAt n fs := by
  rw [Protowire.bodiesAt, values_concat]
  split
  · cases h : v.bytes? <;> simp [Protowire.bodiesAt, h]
  · rfl

@[simp] theorem bodyAt_concat : w.bodyAt n (fs ++ [⟨m, v⟩]) =
    if m = n then (v.bytes?.map w.body).or (w.bodyAt n fs) else w.bodyAt n fs := by
  rw [Protowire.bodyAt, bodiesAt_concat]
  split
  · cases h : v.bytes? <;> simp [Protowire.bodyAt]
  · rfl

@[simp] theorem fixed64sAt_concat : fixed64sAt n (fs ++ [⟨m, v⟩]) =
    if m = n then fixed64sAt n fs ++ v.fixed64s else fixed64sAt n fs := by
  rw [fixed64sAt, values_concat]
  split
  · simp [fixed64sAt]
  · rfl

end Concat
end ProtoWire
