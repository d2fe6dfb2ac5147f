import Mathlib.Data.List.Basic
import Mathlib.Tactic.Ring

/-!
# The wire format of protocol buffers

A message on the wire is a list of fields, each with its number and a value of one of four shapes.
`Protowire` is what an implementation of the format offers: one function to write and one to read
for each shape.  `Protowire.Correct` says that they fit together, and `standard` is an
implementation of which that is proved.

`Reads` relates bytes to the fields in them, in the order of the bytes.  What `encode` writes reads
as it was written (`reads_encode`), and `fields` decodes whatever reads (`fields_of_reads`).

Groups, which are no longer in use, have tags here but no values.
-/

set_option autoImplicit false

namespace ProtoWire

abbrev Bytes := List UInt8

/-! ## Fields -/

inductive WireType
  | varint
  | fixed64
  | bytes
  | startGroup
  | endGroup
  | fixed32
  deriving DecidableEq, Repr

inductive Value
  | varint (v : UInt64)
  | fixed64 (v : UInt64)
  | bytes (v : Bytes)
  | fixed32 (v : UInt32)
  deriving DecidableEq, Repr

def Value.wireType : Value → WireType
  | .varint _ => .varint
  | .fixed64 _ => .fixed64
  | .bytes _ => .bytes
  | .fixed32 _ => .fixed32

structure Field where
  number : ℕ
  value : Value
  deriving DecidableEq, Repr

/-- The numbers that a field can have. -/
def IsNumber (n : ℕ) : Prop := 0 < n ∧ n < 2 ^ 29

instance (n : ℕ) : Decidable (IsNumber n) := inferInstanceAs (Decidable (_ ∧ _))

/-- The values of the fields with a number, in their order. -/
def values (fs : List Field) (n : ℕ) : List Value :=
  (fs.filter (·.number = n)).map (·.value)

@[simp] theorem values_nil (n : ℕ) : values [] n = [] := rfl

theorem values_cons (f : Field) (fs : List Field) (n : ℕ) :
    values (f :: fs) n = if f.number = n then f.value :: values fs n else values fs n := by
  by_cases h : f.number = n <;> simp [values, h]

theorem values_append (fs gs : List Field) (n : ℕ) :
    values (fs ++ gs) n = values fs n ++ values gs n := by
  rw [values, List.filter_append, List.map_append]
  rfl

theorem mem_values {fs : List Field} {f : Field} (hf : f ∈ fs) : f.value ∈ values fs f.number :=
  List.mem_map_of_mem (List.mem_filter.mpr ⟨hf, by simp⟩)

/-! ## Texts -/

/-- The bytes of a text. -/
def utf8 (s : String) : Bytes := s.toByteArray.data.toList

/-- The text that the bytes are of, if they are of one. -/
def textOf (v : Bytes) : Option String := String.fromUTF8? ⟨v.toArray⟩

@[simp] theorem textOf_utf8 (s : String) : textOf (utf8 s) = some s := by
  have hbytes : (⟨(utf8 s).toArray⟩ : ByteArray) = s.toByteArray := by simp [utf8]
  rw [textOf, hbytes]
  exact dif_pos s.isValidUTF8

/-! ## Writing and reading single fields -/

namespace Field

def varint (n : ℕ) (v : UInt64) : Field := ⟨n, .varint v⟩

def fixed32 (n : ℕ) (v : UInt32) : Field := ⟨n, .fixed32 v⟩

def fixed64 (n : ℕ) (v : UInt64) : Field := ⟨n, .fixed64 v⟩

def bytes (n : ℕ) (v : Bytes) : Field := ⟨n, .bytes v⟩

def text (n : ℕ) (s : String) : Field := ⟨n, .bytes (utf8 s)⟩

section

variable (n : ℕ)

@[simp] theorem varint_number (v : UInt64) : (varint n v).number = n := rfl

@[simp] theorem varint_value (v : UInt64) : (varint n v).value = .varint v := rfl

@[simp] theorem fixed32_number (v : UInt32) : (fixed32 n v).number = n := rfl

@[simp] theorem fixed32_value (v : UInt32) : (fixed32 n v).value = .fixed32 v := rfl

@[simp] theorem fixed64_number (v : UInt64) : (fixed64 n v).number = n := rfl

@[simp] theorem fixed64_value (v : UInt64) : (fixed64 n v).value = .fixed64 v := rfl

@[simp] theorem bytes_number (v : Bytes) : (bytes n v).number = n := rfl

@[simp] theorem bytes_value (v : Bytes) : (bytes n v).value = .bytes v := rfl

@[simp] theorem text_number (s : String) : (text n s).number = n := rfl

@[simp] theorem text_value (s : String) : (text n s).value = .bytes (utf8 s) := rfl

end

end Field

namespace Value

def varint? : Value → Option UInt64
  | .varint v => some v
  | _ => none

def fixed32? : Value → Option UInt32
  | .fixed32 v => some v
  | _ => none

def fixed64? : Value → Option UInt64
  | .fixed64 v => some v
  | _ => none

def bytes? : Value → Option Bytes
  | .bytes v => some v
  | _ => none

def text? (v : Value) : Option String := v.bytes?.bind textOf

@[simp] theorem varint?_varint (v : UInt64) : (varint v).varint? = some v := rfl

@[simp] theorem fixed32?_fixed32 (v : UInt32) : (fixed32 v).fixed32? = some v := rfl

@[simp] theorem fixed64?_fixed64 (v : UInt64) : (fixed64 v).fixed64? = some v := rfl

@[simp] theorem bytes?_bytes (v : Bytes) : (bytes v).bytes? = some v := rfl

@[simp] theorem text?_bytes (s : String) : (bytes (utf8 s)).text? = some s := textOf_utf8 s

end Value

/-- The last of the values that can be read, and the default when there is none. -/
def last {α : Type*} (read : Value → Option α) (default : α) (vs : List Value) : α :=
  (vs.filterMap read).getLast?.getD default

section Last

variable {α : Type*} {read : Value → Option α} {default a : α} {v : Value}

@[simp] theorem last_nil : last read default [] = default := rfl

theorem last_singleton (hread : read v = some a) : last read default [v] = a := by
  simp [last, hread]

theorem last_of_unreadable {vs : List Value} (hvs : ∀ v ∈ vs, read v = none) :
    last read default vs = default := by
  rw [last, List.filterMap_eq_nil_iff.mpr hvs]
  rfl

theorem last_ite {c : Prop} [Decidable c] (vs us : List Value) :
    last read default (if c then vs else us) =
      if c then last read default vs else last read default us :=
  apply_ite (last read default) c vs us

/-- A field that is left out when it has its default reads the same. -/
theorem last_unless {c : Prop} [Decidable c] (hread : read v = some a)
    (hdefault : c → a = default) : last read default (if c then [] else [v]) = a := by
  rw [last_ite, last_nil, last_singleton hread]
  split
  · rename_i hc
    exact (hdefault hc).symm
  · rfl

end Last

section At

variable (n : ℕ) (fs : List Field)

def textAt : String := last Value.text? "" (values fs n)

def bytesAt : Bytes := last Value.bytes? [] (values fs n)

def varintAt : UInt64 := last Value.varint? 0 (values fs n)

def fixed32At : UInt32 := last Value.fixed32? 0 (values fs n)

def fixed64At : UInt64 := last Value.fixed64? 0 (values fs n)

def int64At : Int64 := (varintAt n fs).toInt64

/-- The low half of the number. -/
def int32At : Int32 := (varintAt n fs).toUInt32.toInt32

def boolAt : Bool := varintAt n fs ≠ 0

def textsAt : List String := (values fs n).filterMap Value.text?

end At

/-- Every field has a number that a field can have. -/
def Numbered (fs : List Field) : Prop := ∀ f ∈ fs, IsNumber f.number

section Numbered

variable {f : Field} {fs gs : List Field}

@[simp] theorem numbered_nil : Numbered [] := by
  simp [Numbered]

@[simp] theorem numbered_cons : Numbered (f :: fs) ↔ IsNumber f.number ∧ Numbered fs := by
  simp [Numbered]

@[simp] theorem numbered_append : Numbered (fs ++ gs) ↔ Numbered fs ∧ Numbered gs := by
  simp only [Numbered, List.mem_append, or_imp, forall_and]

theorem numbered_ite {c : Prop} [Decidable c] (hfs : Numbered fs) (hgs : Numbered gs) :
    Numbered (if c then fs else gs) := by
  split
  · exact hfs
  · exact hgs

theorem numbered_map {α : Type*} {field : α → Field} (hfield : ∀ a, IsNumber (field a).number)
    (as : List α) : Numbered (as.map field) := by
  intro f hf
  obtain ⟨a, -, rfl⟩ := List.mem_map.mp hf
  exact hfield a

end Numbered

theorem values_map {α : Type*} {field : α → Field} {m : ℕ} (hfield : ∀ a, (field a).number = m)
    (as : List α) (n : ℕ) :
    values (as.map field) n = if m = n then as.map fun a ↦ (field a).value else [] := by
  induction as with
  | nil => simp
  | cons a as ih =>
    rw [List.map_cons, values_cons, hfield, ih]
    split <;> simp

/-- The values of fields that are there under a condition. -/
theorem values_ite {c : Prop} [Decidable c] (fs gs : List Field) (n : ℕ) :
    values (if c then fs else gs) n = if c then values fs n else values gs n :=
  apply_ite (values · n) c fs gs

/-! ## Implementations -/

end ProtoWire

open ProtoWire in
/-- What an implementation of the format offers.  A function that reads gives what it has read and
the bytes after it. -/
structure Protowire where
  appendTag : ℕ → WireType → Bytes
  appendVarint : UInt64 → Bytes
  appendFixed32 : UInt32 → Bytes
  appendFixed64 : UInt64 → Bytes
  appendBytes : Bytes → Bytes
  consumeTag : Bytes → Option (ℕ × WireType × Bytes)
  consumeVarint : Bytes → Option (UInt64 × Bytes)
  consumeFixed32 : Bytes → Option (UInt32 × Bytes)
  consumeFixed64 : Bytes → Option (UInt64 × Bytes)
  consumeBytes : Bytes → Option (Bytes × Bytes)
  consumeString : Bytes → Option (String × Bytes)
  consumeFieldValue : ℕ → WireType → Bytes → Option Bytes

namespace Protowire

open ProtoWire

variable (w : Protowire)

/-- The value of a type at the start of the bytes. -/
def consumeValue : WireType → Bytes → Option (Value × Bytes)
  | .varint, b => (w.consumeVarint b).map fun p ↦ (.varint p.1, p.2)
  | .fixed64, b => (w.consumeFixed64 b).map fun p ↦ (.fixed64 p.1, p.2)
  | .bytes, b => (w.consumeBytes b).map fun p ↦ (.bytes p.1, p.2)
  | .fixed32, b => (w.consumeFixed32 b).map fun p ↦ (.fixed32 p.1, p.2)
  | .startGroup, _ => none
  | .endGroup, _ => none

/-- What is written is read again, a value is skipped as it is read, and reading makes progress. -/
structure Correct : Prop where
  tag : ∀ n t rest, IsNumber n → w.consumeTag (w.appendTag n t ++ rest) = some (n, t, rest)
  varint : ∀ v rest, w.consumeVarint (w.appendVarint v ++ rest) = some (v, rest)
  fixed32 : ∀ v rest, w.consumeFixed32 (w.appendFixed32 v ++ rest) = some (v, rest)
  fixed64 : ∀ v rest, w.consumeFixed64 (w.appendFixed64 v ++ rest) = some (v, rest)
  bytes : ∀ v rest, w.consumeBytes (w.appendBytes v ++ rest) = some (v, rest)
  string : ∀ s b rest, w.consumeBytes b = some (utf8 s, rest) → w.consumeString b = some (s, rest)
  skip : ∀ n t b v rest, w.consumeValue t b = some (v, rest) →
    w.consumeFieldValue n t b = some rest
  tag_lt : ∀ b n t rest, w.consumeTag b = some (n, t, rest) → rest.length < b.length
  value_le : ∀ t b v rest, w.consumeValue t b = some (v, rest) → rest.length ≤ b.length

/-! ## Messages -/

def appendValue : Value → Bytes
  | .varint v => w.appendVarint v
  | .fixed64 v => w.appendFixed64 v
  | .bytes v => w.appendBytes v
  | .fixed32 v => w.appendFixed32 v

def appendField (f : Field) : Bytes :=
  w.appendTag f.number f.value.wireType ++ w.appendValue f.value

def encode (fs : List Field) : Bytes := fs.flatMap w.appendField

/-- The bytes are a message with these fields. -/
inductive Reads : Bytes → List Field → Prop
  | nil : Reads [] []
  | cons {b value rest : Bytes} {n : ℕ} {v : Value} {fs : List Field} :
    w.consumeTag b = some (n, v.wireType, value) →
    w.consumeValue v.wireType value = some (v, rest) →
    Reads rest fs → Reads b (⟨n, v⟩ :: fs)

/-- Decodes at most as many fields as it has fuel. -/
def fieldsFrom : ℕ → Bytes → Option (List Field)
  | _, [] => some []
  | 0, _ :: _ => none
  | fuel + 1, b@(_ :: _) =>
    (w.consumeTag b).bind fun tag ↦
      (w.consumeValue tag.2.1 tag.2.2).bind fun value ↦
        (fieldsFrom fuel value.2).map (⟨tag.1, value.1⟩ :: ·)

/-- The fields of a message.  There are no more than there are bytes. -/
def fields (b : Bytes) : Option (List Field) := w.fieldsFrom b.length b

/-- The messages in the fields with a number. -/
def messagesAt {α : Type*} (read : List Field → Option α) (n : ℕ) (fs : List Field) :
    Option (List α) :=
  ((values fs n).filterMap Value.bytes?).mapM fun b ↦ (w.fields b).bind read

variable {w} {b rest : Bytes} {v : Value} {f : Field} {fs : List Field}

theorem Correct.value (hw : w.Correct) (v : Value) (rest : Bytes) :
    w.consumeValue v.wireType (w.appendValue v ++ rest) = some (v, rest) := by
  cases v with
  | varint v => simp [Value.wireType, consumeValue, appendValue, hw.varint]
  | fixed64 v => simp [Value.wireType, consumeValue, appendValue, hw.fixed64]
  | bytes v => simp [Value.wireType, consumeValue, appendValue, hw.bytes]
  | fixed32 v => simp [Value.wireType, consumeValue, appendValue, hw.fixed32]

/-- **A message reads as it was written.** -/
theorem reads_encode (hw : w.Correct) (hfs : Numbered fs) : w.Reads (w.encode fs) fs := by
  induction fs with
  | nil => exact .nil
  | cons f fs ih =>
    rw [encode, List.flatMap_cons, appendField, List.append_assoc]
    exact .cons (hw.tag _ _ _ (hfs f List.mem_cons_self)) (hw.value _ _)
      (ih fun g hg ↦ hfs g (List.mem_cons_of_mem _ hg))

theorem fieldsFrom_of_reads (hw : w.Correct) (hreads : w.Reads b fs) {fuel : ℕ}
    (hfuel : b.length ≤ fuel) : w.fieldsFrom fuel b = some fs := by
  induction hreads generalizing fuel with
  | nil => rw [fieldsFrom]
  | @cons b value rest n v fs htag hvalue _ ih =>
    have htagged := hw.tag_lt _ _ _ _ htag
    have hread := hw.value_le _ _ _ _ hvalue
    obtain ⟨fuel, rfl⟩ : ∃ k, fuel = k + 1 := ⟨fuel - 1, by omega⟩
    cases b with
    | nil => simp at htagged
    | cons first b => rw [fieldsFrom, htag, Option.bind_some, hvalue, Option.bind_some,
        ih (by omega), Option.map_some]

/-- **What reads is decoded.** -/
theorem fields_of_reads (hw : w.Correct) (hreads : w.Reads b fs) : w.fields b = some fs :=
  fieldsFrom_of_reads hw hreads le_rfl

theorem fields_encode (hw : w.Correct) (hfs : Numbered fs) : w.fields (w.encode fs) = some fs :=
  fields_of_reads hw (reads_encode hw hfs)

/-- The fields in a message are determined by its bytes. -/
theorem Reads.unique (hw : w.Correct) {gs : List Field} (hf : w.Reads b fs) (hg : w.Reads b gs) :
    fs = gs :=
  Option.some.inj ((fields_of_reads hw hf).symm.trans (fields_of_reads hw hg))

end Protowire

namespace ProtoWire

/-! ## Numbers in bytes -/

/-- Seven bits in each byte, the lowest first; all bytes but the last have the high bit set. -/
def varintBytes : ℕ → ℕ → Bytes
  | 0, n => [UInt8.ofNat n]
  | fuel + 1, n =>
    if n < 128 then [UInt8.ofNat n] else UInt8.ofNat (n % 128 + 128) :: varintBytes fuel (n / 128)

def getVarint : Bytes → Option (ℕ × Bytes)
  | [] => none
  | b :: rest =>
    if b.toNat < 128 then some (b.toNat, rest)
    else (getVarint rest).map fun p ↦ (b.toNat - 128 + 128 * p.1, p.2)

theorem getVarint_varintBytes {fuel n : ℕ} (hfuel : n ≤ fuel) (rest : Bytes) :
    getVarint (varintBytes fuel n ++ rest) = some (n, rest) := by
  induction fuel generalizing n with
  | zero =>
    obtain rfl : n = 0 := by omega
    simp [varintBytes, getVarint]
  | succ fuel ih =>
    rw [varintBytes]
    split
    · rename_i hlast
      have hbyte : (UInt8.ofNat n).toNat = n := by simp; omega
      simp [getVarint, hbyte, hlast]
    · rename_i hmore
      have hbyte : (UInt8.ofNat (n % 128 + 128)).toNat = n % 128 + 128 := by simp; omega
      rw [List.cons_append, getVarint, hbyte, if_neg (by omega), ih (by omega), Option.map_some,
        Nat.add_sub_cancel]
      congr 2
      omega

theorem length_of_getVarint {b rest : Bytes} {n : ℕ} (h : getVarint b = some (n, rest)) :
    rest.length < b.length := by
  induction b generalizing n with
  | nil => exact absurd h (by simp [getVarint])
  | cons first b ih =>
    rw [getVarint] at h
    split at h
    · obtain ⟨-, rfl⟩ := Prod.mk.inj (Option.some.inj h)
      simp
    · obtain ⟨⟨m, rest'⟩, hget, hpair⟩ := Option.map_eq_some_iff.mp h
      have hrest : rest' = rest := (Prod.mk.inj hpair).2
      subst hrest
      exact (ih hget).trans (Nat.lt_succ_self _)

/-- So many bytes, the lowest first. -/
def littleEndian : ℕ → ℕ → Bytes
  | 0, _ => []
  | k + 1, n => UInt8.ofNat (n % 256) :: littleEndian k (n / 256)

def ofLittleEndian : Bytes → ℕ
  | [] => 0
  | b :: rest => b.toNat + 256 * ofLittleEndian rest

@[simp] theorem length_littleEndian (k n : ℕ) : (littleEndian k n).length = k := by
  induction k generalizing n with
  | zero => rfl
  | succ k ih => rw [littleEndian, List.length_cons, ih]

theorem ofLittleEndian_littleEndian {k n : ℕ} (hn : n < 256 ^ k) :
    ofLittleEndian (littleEndian k n) = n := by
  induction k generalizing n with
  | zero =>
    obtain rfl : n = 0 := by simpa using hn
    rfl
  | succ k ih =>
    have hbyte : (UInt8.ofNat (n % 256)).toNat = n % 256 := by simp
    have hhigh : n / 256 < 256 ^ k := by
      rw [pow_succ] at hn
      omega
    rw [littleEndian, ofLittleEndian, hbyte, ih hhigh]
    omega

/-- The first bytes, if there are so many. -/
def splitBytes (k : ℕ) (b : Bytes) : Option (Bytes × Bytes) :=
  if k ≤ b.length then some (b.take k, b.drop k) else none

theorem splitBytes_append (v rest : Bytes) : splitBytes v.length (v ++ rest) = some (v, rest) := by
  rw [splitBytes, if_pos (by simp), List.take_left, List.drop_left]

theorem length_of_splitBytes {k : ℕ} {b v rest : Bytes} (h : splitBytes k b = some (v, rest)) :
    rest.length ≤ b.length := by
  rw [splitBytes] at h
  split at h
  · obtain ⟨-, rfl⟩ := Prod.mk.inj (Option.some.inj h)
    simp
  · exact absurd h (by simp)

end ProtoWire

/-! ## An implementation -/

namespace ProtoWire

def WireType.code : WireType → ℕ
  | .varint => 0
  | .fixed64 => 1
  | .bytes => 2
  | .startGroup => 3
  | .endGroup => 4
  | .fixed32 => 5

def WireType.ofCode : ℕ → Option WireType
  | 0 => some .varint
  | 1 => some .fixed64
  | 2 => some .bytes
  | 3 => some .startGroup
  | 4 => some .endGroup
  | 5 => some .fixed32
  | _ => none

theorem WireType.ofCode_code (t : WireType) : ofCode t.code = some t := by
  cases t <;> rfl

theorem WireType.code_lt (t : WireType) : t.code < 8 := by
  cases t <;> decide

/-- Writes a number in full. -/
def putVarint (n : ℕ) : Bytes := varintBytes n n

@[simp] theorem getVarint_putVarint (n : ℕ) (rest : Bytes) :
    getVarint (putVarint n ++ rest) = some (n, rest) :=
  getVarint_varintBytes le_rfl rest

/-- The number of a length and the bytes of that length after it. -/
def getBytes (b : Bytes) : Option (Bytes × Bytes) := (getVarint b).bind fun p ↦ splitBytes p.1 p.2

def getTag (b : Bytes) : Option (ℕ × WireType × Bytes) :=
  (getVarint b).bind fun p ↦ (WireType.ofCode (p.1 % 8)).map fun t ↦ (p.1 / 8, t, p.2)

def getFixed (k : ℕ) (b : Bytes) : Option (ℕ × Bytes) :=
  (splitBytes k b).map fun p ↦ (ofLittleEndian p.1, p.2)

theorem getFixed_littleEndian {k n : ℕ} (hn : n < 256 ^ k) (rest : Bytes) :
    getFixed k (littleEndian k n ++ rest) = some (n, rest) := by
  have hsplit := splitBytes_append (littleEndian k n) rest
  rw [length_littleEndian] at hsplit
  rw [getFixed, hsplit, Option.map_some, ofLittleEndian_littleEndian hn]

theorem length_of_getFixed {k n : ℕ} {b rest : Bytes} (h : getFixed k b = some (n, rest)) :
    rest.length ≤ b.length := by
  obtain ⟨⟨v, rest'⟩, hsplit, hpair⟩ := Option.map_eq_some_iff.mp h
  obtain ⟨-, hrest⟩ := Prod.mk.inj hpair
  exact hrest ▸ length_of_splitBytes hsplit

end ProtoWire

namespace Protowire

open ProtoWire

/-- Numbers in full, whatever their size. -/
def standard : Protowire where
  appendTag n t := putVarint (n * 8 + t.code)
  appendVarint v := putVarint v.toNat
  appendFixed32 v := littleEndian 4 v.toNat
  appendFixed64 v := littleEndian 8 v.toNat
  appendBytes v := putVarint v.length ++ v
  consumeTag := getTag
  consumeVarint b := (getVarint b).map fun p ↦ (UInt64.ofNat p.1, p.2)
  consumeFixed32 b := (getFixed 4 b).map fun p ↦ (UInt32.ofNat p.1, p.2)
  consumeFixed64 b := (getFixed 8 b).map fun p ↦ (UInt64.ofNat p.1, p.2)
  consumeBytes := getBytes
  consumeString b := (getBytes b).bind fun p ↦ (textOf p.1).map fun s ↦ (s, p.2)
  consumeFieldValue _ t b :=
    match t with
    | .varint => (getVarint b).map (·.2)
    | .fixed64 => (getFixed 8 b).map (·.2)
    | .bytes => (getBytes b).map (·.2)
    | .fixed32 => (getFixed 4 b).map (·.2)
    | .startGroup => none
    | .endGroup => none

theorem standard_tag_lt {b rest : Bytes} {n : ℕ} {t : WireType}
    (h : standard.consumeTag b = some (n, t, rest)) : rest.length < b.length := by
  obtain ⟨⟨m, rest'⟩, hget, htype⟩ := Option.bind_eq_some_iff.mp h
  obtain ⟨t', -, hpair⟩ := Option.map_eq_some_iff.mp htype
  have hrest : rest' = rest := (Prod.mk.inj (Prod.mk.inj hpair).2).2
  exact hrest ▸ length_of_getVarint hget

/-- A value is skipped as it is read. -/
theorem standard_skip_eq (n : ℕ) (t : WireType) (b : Bytes) :
    standard.consumeFieldValue n t b = (standard.consumeValue t b).map (·.2) := by
  cases t <;> simp only [standard, consumeValue, Option.map_map, Option.map_none] <;> rfl

theorem standard_skip_le {b rest : Bytes} {n : ℕ} {t : WireType}
    (h : standard.consumeFieldValue n t b = some rest) : rest.length ≤ b.length := by
  cases t with
  | varint =>
    obtain ⟨⟨m, rest'⟩, hget, rfl⟩ := Option.map_eq_some_iff.mp h
    exact (length_of_getVarint hget).le
  | fixed64 =>
    obtain ⟨⟨m, rest'⟩, hget, rfl⟩ := Option.map_eq_some_iff.mp h
    exact length_of_getFixed hget
  | fixed32 =>
    obtain ⟨⟨m, rest'⟩, hget, rfl⟩ := Option.map_eq_some_iff.mp h
    exact length_of_getFixed hget
  | bytes =>
    obtain ⟨⟨v, rest'⟩, hget, rfl⟩ := Option.map_eq_some_iff.mp h
    obtain ⟨⟨k, afterLength⟩, hlength, hsplit⟩ := Option.bind_eq_some_iff.mp hget
    exact (length_of_splitBytes hsplit).trans (length_of_getVarint hlength).le
  | startGroup => exact absurd h (by simp [standard])
  | endGroup => exact absurd h (by simp [standard])

theorem standard_correct : standard.Correct where
  tag n t rest _ := by
    have hcode := t.code_lt
    have htype : (n * 8 + t.code) % 8 = t.code := by omega
    have hnumber : (n * 8 + t.code) / 8 = n := by omega
    simp only [standard, getTag, getVarint_putVarint, Option.bind_some, htype, hnumber,
      WireType.ofCode_code, Option.map_some]
  varint v rest := by simp [standard]
  fixed32 v rest := by
    have hv : v.toNat < 256 ^ 4 := v.toNat_lt
    simp only [standard, getFixed_littleEndian hv, Option.map_some, UInt32.ofNat_toNat]
  fixed64 v rest := by
    have hv : v.toNat < 256 ^ 8 := v.toNat_lt
    simp only [standard, getFixed_littleEndian hv, Option.map_some, UInt64.ofNat_toNat]
  bytes v rest := by
    simp only [standard, getBytes, List.append_assoc, getVarint_putVarint, Option.bind_some,
      splitBytes_append]
  string s b rest h := by
    have hbytes : getBytes b = some (utf8 s, rest) := h
    simp only [standard, hbytes, Option.bind_some, textOf_utf8, Option.map_some]
  skip n t b v rest h := by rw [standard_skip_eq, h, Option.map_some]
  tag_lt _ _ _ _ := standard_tag_lt
  value_le t b v rest h := by
    have hskip := standard_skip_eq 0 t b
    rw [h, Option.map_some] at hskip
    exact standard_skip_le hskip

end Protowire
