import FleetServer.Lib.FieldLoop

/-!
# Fields with their bytes

A message on the wire cut into its fields, each with the bytes of its tag and of its value, whatever
type the value has (`rawFields`).

What comes after a field makes no difference to how it is read if the functions of an implementation
read from the front, and if a value is skipped as it is read.  `Protowire.Sequential` says so, and
`anyText` is an implementation of which it is proved.

A `TagLoop` is a decoder that makes one round after the other, and a field is misplaced in it if its
number is known but not with a value of that type.  A loop that passes over such fields skips them
in every message (`skipsMisplaced_of_passesOver`).  One that leaves their values where they are does
so in no message that has one: it takes the value of the first for a tag
(`skipsMisplaced_iff_of_leaves`).
-/

set_option autoImplicit false

namespace ProtoWire

/-! ## Fields -/

structure RawField where
  number : ℕ
  wireType : WireType
  tag : Bytes
  value : Bytes
  deriving DecidableEq, Repr

def RawField.bytes (f : RawField) : Bytes := f.tag ++ f.value

def rawBytes (fs : List RawField) : Bytes := fs.flatMap RawField.bytes

@[simp] theorem rawBytes_nil : rawBytes [] = [] := rfl

@[simp] theorem rawBytes_cons (f : RawField) (fs : List RawField) :
    rawBytes (f :: fs) = f.bytes ++ rawBytes fs := rfl

@[simp] theorem rawBytes_append (fs gs : List RawField) :
    rawBytes (fs ++ gs) = rawBytes fs ++ rawBytes gs :=
  List.flatMap_append

/-! ## Reading from the front -/

section Front

variable {α : Type*} {read : Bytes → Option (α × Bytes)} {front rest : Bytes} {a : α}

/-- What is read stands at the front, and is not empty: the bytes after it are given back, and do
not count. -/
def ReadsFront (read : Bytes → Option (α × Bytes)) : Prop :=
  ∀ b a rest, read b = some (a, rest) →
    ∃ front, front ≠ [] ∧ b = front ++ rest ∧ ∀ rest', read (front ++ rest') = some (a, rest')

theorem ReadsFront.ne_nil (hread : ReadsFront read) (h : read (front ++ rest) = some (a, rest)) :
    front ≠ [] := by
  obtain ⟨front', hne, heq, -⟩ := hread _ _ _ h
  rwa [List.append_cancel_right heq]

theorem ReadsFront.append (hread : ReadsFront read) (h : read (front ++ rest) = some (a, rest))
    (rest' : Bytes) : read (front ++ rest') = some (a, rest') := by
  obtain ⟨front', -, heq, hany⟩ := hread _ _ _ h
  rw [List.append_cancel_right heq]
  exact hany rest'

end Front

end ProtoWire

namespace Protowire

open ProtoWire

variable (w : Protowire)

/-- Tags and values are read from the front, and a value is skipped as it is read. -/
structure Sequential : Prop where
  tag : ReadsFront fun b ↦ (w.consumeTag b).map fun p ↦ ((p.1, p.2.1), p.2.2)
  varint : ReadsFront w.consumeVarint
  fixed32 : ReadsFront w.consumeFixed32
  fixed64 : ReadsFront w.consumeFixed64
  bytes : ReadsFront w.consumeBytes
  string : ReadsFront w.consumeString
  skip : ∀ n t, ReadsFront fun b ↦ (w.consumeFieldValue n t b).map fun rest ↦ ((), rest)
  skip_varint : ∀ n b, w.consumeFieldValue n .varint b = (w.consumeVarint b).map Prod.snd
  skip_fixed32 : ∀ n b, w.consumeFieldValue n .fixed32 b = (w.consumeFixed32 b).map Prod.snd
  skip_fixed64 : ∀ n b, w.consumeFieldValue n .fixed64 b = (w.consumeFixed64 b).map Prod.snd
  skip_bytes : ∀ n b, w.consumeFieldValue n .bytes b = (w.consumeBytes b).map Prod.snd
  skip_string : ∀ n b, w.consumeFieldValue n .bytes b = (w.consumeString b).map Prod.snd

/-- A tag and a value that is skipped to its end. -/
structure IsField (f : RawField) : Prop where
  tag : w.consumeTag f.bytes = some (f.number, f.wireType, f.value)
  skip : w.consumeFieldValue f.number f.wireType f.value = some []

/-- Cuts off at most as many fields as it has fuel. -/
def rawFieldsFrom : ℕ → Bytes → Option (List RawField)
  | _, [] => some []
  | 0, _ :: _ => none
  | fuel + 1, b@(_ :: _) =>
    (w.consumeTag b).bind fun tag ↦
      (w.consumeFieldValue tag.1 tag.2.1 tag.2.2).bind fun rest ↦
        (rawFieldsFrom fuel rest).map
          (⟨tag.1, tag.2.1, b.take (b.length - tag.2.2.length),
            tag.2.2.take (tag.2.2.length - rest.length)⟩ :: ·)

/-- The fields of a well-formed message.  There are no more than there are bytes. -/
def rawFields (b : Bytes) : Option (List RawField) := w.rawFieldsFrom b.length b

variable {w} {f : RawField} {fs : List RawField} {b rest : Bytes}

theorem IsField.tag_front (hf : w.IsField f) :
    (fun b ↦ (w.consumeTag b).map fun p ↦ ((p.1, p.2.1), p.2.2)) (f.tag ++ f.value) =
      some ((f.number, f.wireType), f.value) := by
  show (w.consumeTag f.bytes).map _ = _
  rw [hf.tag, Option.map_some]

theorem IsField.tag_ne_nil (hw : w.Sequential) (hf : w.IsField f) : f.tag ≠ [] :=
  hw.tag.ne_nil hf.tag_front

theorem IsField.tag_append (hw : w.Sequential) (hf : w.IsField f) (rest : Bytes) :
    w.consumeTag (f.bytes ++ rest) = some (f.number, f.wireType, f.value ++ rest) := by
  have hread := hw.tag.append hf.tag_front (f.value ++ rest)
  rw [← List.append_assoc] at hread
  obtain ⟨⟨n, t, left⟩, hconsume, hpair⟩ := Option.map_eq_some_iff.mp hread
  cases hpair
  exact hconsume

theorem IsField.value_front (hf : w.IsField f) :
    (fun b ↦ (w.consumeFieldValue f.number f.wireType b).map fun rest ↦ ((), rest))
      (f.value ++ []) = some ((), []) := by
  show (w.consumeFieldValue f.number f.wireType (f.value ++ [])).map _ = _
  rw [List.append_nil, hf.skip, Option.map_some]

theorem IsField.value_ne_nil (hw : w.Sequential) (hf : w.IsField f) : f.value ≠ [] :=
  (hw.skip f.number f.wireType).ne_nil hf.value_front

theorem IsField.skip_append (hw : w.Sequential) (hf : w.IsField f) (rest : Bytes) :
    w.consumeFieldValue f.number f.wireType (f.value ++ rest) = some rest := by
  have hread := (hw.skip f.number f.wireType).append hf.value_front rest
  obtain ⟨left, hconsume, hpair⟩ := Option.map_eq_some_iff.mp hread
  cases hpair
  exact hconsume

/-- A function that leaves what skipping leaves reads the value. -/
theorem IsField.read_append {α : Type*} {read : Bytes → Option (α × Bytes)}
    (hread : ReadsFront read) (hf : w.IsField f)
    (hskip : w.consumeFieldValue f.number f.wireType f.value = (read f.value).map Prod.snd) :
    ∃ a, ∀ rest, read (f.value ++ rest) = some (a, rest) := by
  rw [hf.skip] at hskip
  obtain ⟨⟨a, left⟩, ha, hleft⟩ := Option.map_eq_some_iff.mp hskip.symm
  obtain rfl : left = [] := hleft
  rw [← List.append_nil f.value] at ha
  exact ⟨a, hread.append ha⟩

theorem take_sub_length (front rest : Bytes) :
    (front ++ rest).take ((front ++ rest).length - rest.length) = front := by
  rw [List.length_append, Nat.add_sub_cancel, List.take_left]

theorem rawFieldsFrom_sound (hw : w.Sequential) {fuel : ℕ} (h : w.rawFieldsFrom fuel b = some fs) :
    (∀ f ∈ fs, w.IsField f) ∧ rawBytes fs = b := by
  induction fuel generalizing b fs with
  | zero =>
    cases b with
    | nil =>
      obtain rfl : [] = fs := Option.some.inj h
      simp
    | cons first b => cases h
  | succ fuel ih =>
    cases b with
    | nil =>
      obtain rfl : [] = fs := Option.some.inj h
      simp
    | cons first b =>
      obtain ⟨⟨n, t, afterTag⟩, htag, h⟩ := Option.bind_eq_some_iff.mp h
      obtain ⟨rest, hvalue, h⟩ := Option.bind_eq_some_iff.mp h
      obtain ⟨gs, hgs, rfl⟩ := Option.map_eq_some_iff.mp h
      obtain ⟨tag, -, hb, htag'⟩ := hw.tag (first :: b) (n, t) afterTag (by simp only [htag,
        Option.map_some])
      obtain ⟨value, -, rfl, hvalue'⟩ := hw.skip n t afterTag () rest (by simp only [hvalue,
        Option.map_some])
      obtain ⟨hfields, hbytes⟩ := ih hgs
      have htake := take_sub_length tag (value ++ rest)
      rw [← hb] at htake
      have hfield : w.IsField ⟨n, t, tag, value⟩ := by
        constructor
        · obtain ⟨⟨n', t', left⟩, hconsume, hpair⟩ := Option.map_eq_some_iff.mp (htag' value)
          cases hpair
          exact hconsume
        · obtain ⟨left, hconsume, hpair⟩ := Option.map_eq_some_iff.mp (hvalue' [])
          cases hpair
          rwa [List.append_nil] at hconsume
      simp only [htake, take_sub_length]
      constructor
      · intro g hg
        obtain rfl | hg := List.mem_cons.mp hg
        · exact hfield
        · exact hfields g hg
      · rw [rawBytes_cons, hbytes, hb, RawField.bytes, List.append_assoc]

theorem IsField.bytes_ne_nil (hw : w.Sequential) (hf : w.IsField f) (rest : Bytes) :
    f.bytes ++ rest ≠ [] := by
  simp [RawField.bytes, hf.tag_ne_nil hw]

/-- Fuel for a field and the bytes after it is fuel for one round more than these bytes need. -/
theorem IsField.exists_fuel (hw : w.Sequential) (hf : w.IsField f) {fuel : ℕ}
    (hfuel : (f.bytes ++ rest).length ≤ fuel) :
    ∃ k, fuel = k + 1 ∧ f.value.length + rest.length ≤ k := by
  have htag := List.length_pos_of_ne_nil (hf.tag_ne_nil hw)
  rw [RawField.bytes, List.length_append, List.length_append] at hfuel
  exact ⟨fuel - 1, by omega, by omega⟩

theorem rawFieldsFrom_rawBytes (hw : w.Sequential) (hfs : ∀ f ∈ fs, w.IsField f) {fuel : ℕ}
    (hfuel : (rawBytes fs).length ≤ fuel) : w.rawFieldsFrom fuel (rawBytes fs) = some fs := by
  induction fs generalizing fuel with
  | nil => rw [rawBytes_nil, rawFieldsFrom]
  | cons g fs ih =>
    have hg := hfs g List.mem_cons_self
    rw [rawBytes_cons] at hfuel
    obtain ⟨fuel, rfl, hleft⟩ := hg.exists_fuel hw hfuel
    have hrest : w.rawFieldsFrom fuel (rawBytes fs) = some fs :=
      ih (fun f hf ↦ hfs f (List.mem_cons_of_mem _ hf)) (by omega)
    have htagged := hg.tag_append hw (rawBytes fs)
    have htake := take_sub_length g.tag (g.value ++ rawBytes fs)
    rw [← List.append_assoc] at htake
    rw [rawBytes_cons]
    cases hb : g.bytes ++ rawBytes fs with
    | nil => exact absurd hb (hg.bytes_ne_nil hw _)
    | cons first b =>
      rw [hb] at htagged
      rw [← RawField.bytes, hb] at htake
      simp only [rawFieldsFrom, htagged, Option.bind_some, hg.skip_append hw, hrest,
        Option.map_some, htake, take_sub_length]

/-- The fields of a message are the fields that the message is put together from. -/
theorem rawFields_eq_some_iff (hw : w.Sequential) :
    w.rawFields b = some fs ↔ (∀ f ∈ fs, w.IsField f) ∧ rawBytes fs = b := by
  constructor
  · exact rawFieldsFrom_sound hw
  · rintro ⟨hfs, rfl⟩
    exact rawFieldsFrom_rawBytes hw hfs le_rfl

end Protowire

namespace ProtoWire

/-! ## Rounds

A round of a loop reads a tag and what it wants of the value. -/

section Rounds

variable {σ : Type*} (round : σ → Bytes → Option (σ × Bytes))

/-- The round reads the field to its end, whatever comes after it. -/
def Takes (f : RawField) (take : σ → σ) : Prop :=
  ∀ m rest, round m (f.bytes ++ rest) = some (take m, rest)

/-- The bytes that are left each time the loop reads a tag. -/
def tagsRead : ℕ → σ → Bytes → List Bytes
  | _, _, [] => []
  | 0, _, _ :: _ => []
  | fuel + 1, m, b@(_ :: _) =>
    b :: match round m b with
      | none => []
      | some (m', rest) => tagsRead fuel m' rest

variable {round} {take : RawField → σ → σ} {m m' : σ} {b rest : Bytes} {fuel : ℕ}

theorem tagsRead_of_round (hb : b ≠ []) (hround : round m b = some (m', rest)) :
    tagsRead round (fuel + 1) m b = b :: tagsRead round fuel m' rest := by
  cases b with
  | nil => exact absurd rfl hb
  | cons first b => rw [tagsRead, hround]

end Rounds

end ProtoWire

namespace Protowire

open ProtoWire

variable {w : Protowire} {σ : Type} {round : σ → Bytes → Option (σ × Bytes)}
variable {take : RawField → σ → σ} {f : RawField} {fs : List RawField} {m : σ} {fuel : ℕ}

/-- The loop reads its tags where the fields begin. -/
theorem exists_of_mem_tagsRead (hw : w.Sequential) (hfs : ∀ f ∈ fs, w.IsField f)
    (htakes : ∀ f ∈ fs, Takes round f (take f)) {left : Bytes}
    (hleft : left ∈ tagsRead round fuel m (rawBytes fs)) :
    ∃ before after, fs = before ++ after ∧ left = rawBytes after := by
  induction fs generalizing fuel m with
  | nil => simp [tagsRead] at hleft
  | cons g fs ih =>
    have hne := (hfs g List.mem_cons_self).bytes_ne_nil hw (rawBytes fs)
    cases fuel with
    | zero =>
      rw [rawBytes_cons] at hleft
      cases hb : g.bytes ++ rawBytes fs with
      | nil => exact absurd hb hne
      | cons first b => simp [hb, tagsRead] at hleft
    | succ fuel =>
      rw [rawBytes_cons, tagsRead_of_round hne (htakes g List.mem_cons_self m _)] at hleft
      obtain rfl | hleft := List.mem_cons.mp hleft
      · exact ⟨[], g :: fs, rfl, rfl⟩
      · obtain ⟨before, after, rfl, rfl⟩ := ih (fun f hf ↦ hfs f (List.mem_cons_of_mem _ hf))
          (fun f hf ↦ htakes f (List.mem_cons_of_mem _ hf)) hleft
        exact ⟨g :: before, after, rfl, rfl⟩

/-- A value that is left behind fields that are read is where the next tag is read. -/
theorem mem_tagsRead (hw : w.Sequential) {before : List RawField} {rest : Bytes}
    (hbefore : ∀ f ∈ before, w.IsField f) (hf : w.IsField f)
    (htakes : ∀ f ∈ before, Takes round f (take f))
    (hleaves : ∀ m, round m (f.bytes ++ rest) = some (m, f.value ++ rest))
    (hfuel : (rawBytes before ++ (f.bytes ++ rest)).length ≤ fuel) :
    f.value ++ rest ∈ tagsRead round fuel m (rawBytes before ++ (f.bytes ++ rest)) := by
  induction before generalizing fuel m with
  | nil =>
    have hvalue := List.length_pos_of_ne_nil (hf.value_ne_nil hw)
    obtain ⟨fuel, rfl, hleft⟩ := hf.exists_fuel hw hfuel
    obtain ⟨fuel, rfl⟩ : ∃ k, fuel = k + 1 := ⟨fuel - 1, by omega⟩
    rw [rawBytes_nil, List.nil_append, tagsRead_of_round (hf.bytes_ne_nil hw rest) (hleaves m)]
    refine List.mem_cons_of_mem _ ?_
    cases hb : f.value ++ rest with
    | nil => simp [hf.value_ne_nil hw] at hb
    | cons first b => exact List.mem_cons_self
  | cons g before ih =>
    have hg := hbefore g List.mem_cons_self
    rw [rawBytes_cons, List.append_assoc] at hfuel ⊢
    obtain ⟨fuel, rfl, hleft⟩ := hg.exists_fuel hw hfuel
    rw [tagsRead_of_round (hg.bytes_ne_nil hw _) (htakes g List.mem_cons_self m _)]
    exact List.mem_cons_of_mem _ (ih (fun f hf ↦ hbefore f (List.mem_cons_of_mem _ hf))
      (fun f hf ↦ htakes f (List.mem_cons_of_mem _ hf)) (by omega))

end Protowire

namespace ProtoWire

/-! ## Loops -/

/-- A decoder that makes one round after the other until no bytes are left. -/
structure TagLoop where
  State : Type
  Result : Type
  start : State
  /-- The types that a value can have under a number; a number without them is not known. -/
  expected : ℕ → Option (List WireType)
  round : State → Bytes → Option (State × Bytes)
  /-- At most so many rounds, after so many that have been made. -/
  run : ℕ → ℕ → State → Bytes → Result
  finish : State → Result
  parse : Bytes → Result
  run_nil : ∀ fuel position m, run fuel position m [] = finish m
  run_round : ∀ fuel position m m' b rest, b ≠ [] → round m b = some (m', rest) →
    run (fuel + 1) position m b = run fuel (position + 1) m' rest
  parse_eq : ∀ b, parse b = run b.length 0 start b

namespace TagLoop

variable (w : Protowire) (p : TagLoop)

/-- The number is known, but not with a value of that type. -/
def Misplaced (f : RawField) : Prop := ∃ ts, p.expected f.number = some ts ∧ f.wireType ∉ ts

/-- Between the first byte of the value and the byte after it. -/
def InValue (f : RawField) (after : List RawField) (left : Bytes) : Prop :=
  (rawBytes after).length < left.length ∧ left.length ≤ (f.value ++ rawBytes after).length

/-- A misplaced field makes no difference to the result, and no tag is read in its value. -/
def SkipsMisplaced (b : Bytes) : Prop :=
  ∀ before f after, w.rawFields b = some (before ++ f :: after) → p.Misplaced f →
    p.parse b = p.parse (rawBytes (before ++ after)) ∧
      ∀ left ∈ tagsRead p.round b.length p.start b, ¬InValue f after left

def ReadsPlaced : Prop :=
  ∀ f, w.IsField f → ¬p.Misplaced f → ∃ take, Takes p.round f take

/-- A misplaced field is read to its end too, and changes nothing. -/
def PassesOver : Prop := ∀ f, w.IsField f → p.Misplaced f → Takes p.round f id

/-- Of a misplaced field the tag is read, and no more. -/
def Leaves : Prop :=
  ∀ f, w.IsField f → p.Misplaced f →
    ∀ m rest, p.round m (f.bytes ++ rest) = some (m, f.value ++ rest)

variable {w p} {b : Bytes} {fs : List RawField} {take : RawField → p.State → p.State}

theorem run_takes (hw : w.Sequential) (hfs : ∀ f ∈ fs, w.IsField f)
    (htakes : ∀ f ∈ fs, Takes p.round f (take f)) {fuel : ℕ} (hfuel : (rawBytes fs).length ≤ fuel)
    (position : ℕ) (m : p.State) :
    p.run fuel position m (rawBytes fs) = p.finish (fs.foldl (fun m f ↦ take f m) m) := by
  induction fs generalizing fuel position m with
  | nil => exact p.run_nil fuel position m
  | cons g fs ih =>
    have hg := hfs g List.mem_cons_self
    rw [rawBytes_cons] at hfuel
    obtain ⟨fuel, rfl, hleft⟩ := hg.exists_fuel hw hfuel
    rw [rawBytes_cons, p.run_round fuel position m _ _ _ (hg.bytes_ne_nil hw _)
      (htakes g List.mem_cons_self m _), List.foldl_cons]
    exact ih (fun f hf ↦ hfs f (List.mem_cons_of_mem _ hf))
      (fun f hf ↦ htakes f (List.mem_cons_of_mem _ hf)) (by omega) (position + 1) (take g m)

theorem parse_takes (hw : w.Sequential) (hfs : ∀ f ∈ fs, w.IsField f)
    (htakes : ∀ f ∈ fs, Takes p.round f (take f)) :
    p.parse (rawBytes fs) = p.finish (fs.foldl (fun m f ↦ take f m) p.start) := by
  rw [p.parse_eq, run_takes hw hfs htakes le_rfl]

theorem exists_take (hplaced : p.ReadsPlaced w) (hpass : p.PassesOver w) :
    ∃ take : RawField → p.State → p.State, (∀ f, w.IsField f → Takes p.round f (take f)) ∧
      ∀ f, p.Misplaced f → take f = id := by
  classical
  have : Nonempty (p.State → p.State) := ⟨id⟩
  choose! take htake using hplaced
  refine ⟨fun f ↦ if p.Misplaced f then id else take f, fun f hf ↦ ?_, fun f hf ↦ if_pos hf⟩
  show Takes p.round f (if p.Misplaced f then id else take f)
  by_cases hmisplaced : p.Misplaced f
  · rw [if_pos hmisplaced]
    exact hpass f hf hmisplaced
  · rw [if_neg hmisplaced]
    exact htake f hf hmisplaced

theorem exists_first {placed : RawField → Prop} (h : ∃ f ∈ fs, placed f) :
    ∃ before f after, fs = before ++ f :: after ∧ placed f ∧ ∀ g ∈ before, ¬placed g := by
  classical
  have hfind : (fs.find? fun f ↦ decide (placed f)).isSome :=
    List.find?_isSome.mpr (by simpa using h)
  obtain ⟨f, hf⟩ := Option.isSome_iff_exists.mp hfind
  obtain ⟨hplaced, before, after, rfl, hbefore⟩ := List.find?_eq_some_iff_append.mp hf
  exact ⟨before, f, after, rfl, by simpa using hplaced, by simpa using hbefore⟩

theorem not_inValue (hw : w.Sequential) {f : RawField} (hf : w.IsField f)
    {before after before' after' : List RawField}
    (hsplit : before ++ f :: after = before' ++ after') : ¬InValue f after (rawBytes after') := by
  have htag := List.length_pos_of_ne_nil (hf.tag_ne_nil hw)
  rintro ⟨hlong, hshort⟩
  rw [List.length_append] at hshort
  obtain ⟨between, -, hsuffix⟩ | ⟨between, -, rfl⟩ := List.append_eq_append_iff.mp hsplit
  · obtain ⟨rfl, rfl⟩ | ⟨between, rfl, rfl⟩ := List.cons_eq_append_iff.mp hsuffix
    · rw [rawBytes_cons, RawField.bytes, List.length_append, List.length_append] at hshort
      omega
    · rw [rawBytes_append, List.length_append] at hlong
      omega
  · rw [rawBytes_append, rawBytes_cons, RawField.bytes, List.length_append, List.length_append,
      List.length_append] at hshort
    omega

/-- **A loop that passes over misplaced fields skips them.** -/
theorem skipsMisplaced_of_passesOver (hw : w.Sequential) (hplaced : p.ReadsPlaced w)
    (hpass : p.PassesOver w) (b : Bytes) : p.SkipsMisplaced w b := by
  obtain ⟨take, htakes, hid⟩ := exists_take hplaced hpass
  intro before f after hfields hmisplaced
  obtain ⟨hfs, rfl⟩ := (Protowire.rawFields_eq_some_iff hw).mp hfields
  have hrest : ∀ g ∈ before ++ after, w.IsField g := by
    intro g hg
    apply hfs g
    obtain hg | hg := List.mem_append.mp hg
    · exact List.mem_append_left _ hg
    · exact List.mem_append_right _ (List.mem_cons_of_mem _ hg)
  constructor
  · rw [parse_takes hw hfs fun g hg ↦ htakes g (hfs g hg),
      parse_takes hw hrest fun g hg ↦ htakes g (hrest g hg), List.foldl_append, List.foldl_cons,
      hid f hmisplaced, List.foldl_append]
    rfl
  · intro left hleft hinside
    obtain ⟨before', after', hsplit, rfl⟩ :=
      Protowire.exists_of_mem_tagsRead hw hfs (fun g hg ↦ htakes g (hfs g hg)) hleft
    exact not_inValue hw (hfs f (by simp)) hsplit hinside

/-- **A loop that leaves misplaced fields skips them in the messages that have none.** -/
theorem skipsMisplaced_iff_of_leaves (hw : w.Sequential) (hplaced : p.ReadsPlaced w)
    (hleaves : p.Leaves w) (hfields : w.rawFields b = some fs) :
    p.SkipsMisplaced w b ↔ ∀ f ∈ fs, ¬p.Misplaced f := by
  have : Nonempty (p.State → p.State) := ⟨id⟩
  choose! take htakes using hplaced
  constructor
  · intro hskips g hg hmisplaced
    -- The loop has not lost its place at the first field that is misplaced.
    obtain ⟨before, f, after, rfl, hf, hbefore⟩ := exists_first ⟨g, hg, hmisplaced⟩
    obtain ⟨hfs, rfl⟩ := (Protowire.rawFields_eq_some_iff hw).mp hfields
    have hread := Protowire.mem_tagsRead (m := p.start) hw (fun g hg ↦ hfs g (by simp [hg]))
      (hfs f (by simp)) (fun g hg ↦ htakes g (hfs g (by simp [hg])) (hbefore g hg))
      (fun m ↦ hleaves f (hfs f (by simp)) hf m (rawBytes after)) le_rfl
    rw [← rawBytes_cons, ← rawBytes_append] at hread
    refine (hskips before f after hfields hf).2 _ hread ⟨?_, le_rfl⟩
    have hvalue := List.length_pos_of_ne_nil ((hfs f (by simp)).value_ne_nil hw)
    rw [List.length_append]
    omega
  · intro hnone before f after hfields' hmisplaced
    obtain rfl := Option.some.inj (hfields.symm.trans hfields')
    exact absurd hmisplaced (hnone f (by simp))

end TagLoop

end ProtoWire

namespace ProtoWire

/-! ## Switches -/

section Switches

variable {σ : Type} {s : Switch σ} {w : Protowire} {f : RawField}

/-- A case reads a value of its type to the end. -/
theorem Case.exists_run_append (hw : w.Sequential) (hf : w.IsField f) {c : Case σ}
    (hc : c.wireType = f.wireType) :
    ∃ take : σ → σ, ∀ m rest, c.run w m (f.value ++ rest) = some (take m, rest) := by
  cases c with
  | varint name set =>
    obtain ⟨v, hv⟩ := hf.read_append hw.varint (hc ▸ hw.skip_varint _ _)
    exact ⟨fun m ↦ set m v, fun m rest ↦ by rw [run, hv, Option.map_some]⟩
  | fixed32 name set =>
    obtain ⟨v, hv⟩ := hf.read_append hw.fixed32 (hc ▸ hw.skip_fixed32 _ _)
    exact ⟨fun m ↦ set m v, fun m rest ↦ by rw [run, hv, Option.map_some]⟩
  | fixed64 name set =>
    obtain ⟨v, hv⟩ := hf.read_append hw.fixed64 (hc ▸ hw.skip_fixed64 _ _)
    exact ⟨fun m ↦ set m v, fun m rest ↦ by rw [run, hv, Option.map_some]⟩
  | bytes name set =>
    obtain ⟨v, hv⟩ := hf.read_append hw.bytes (hc ▸ hw.skip_bytes _ _)
    exact ⟨fun m ↦ set m v, fun m rest ↦ by rw [run, hv, Option.map_some]⟩
  | text name set =>
    obtain ⟨v, hv⟩ := hf.read_append hw.string (hc ▸ hw.skip_string _ _)
    exact ⟨fun m ↦ set m v, fun m rest ↦ by rw [run, hv, Option.map_some]⟩

namespace Switch

/-- The end of the loop as a decoder gives it back. -/
def outcome : σ × Option String → Except String σ
  | (m, none) => .ok m
  | (_, some error) => .error error

/-- A tag and what the switch does with it. -/
def round (s : Switch σ) (w : Protowire) (m : σ) (b : Bytes) : Option (σ × Bytes) :=
  match w.consumeTag b with
  | none => none
  | some (n, t, value) => (s.field w m n t value).toOption

theorem decodeFrom_of_round {fuel position : ℕ} {m m' : σ} {b rest : Bytes} (hb : b ≠ [])
    (hround : s.round w m b = some (m', rest)) :
    s.decodeFrom w (fuel + 1) position m b = s.decodeFrom w fuel (position + 1) m' rest := by
  cases b with
  | nil => exact absurd rfl hb
  | cons first b =>
    rw [round] at hround
    rw [decodeFrom]
    split at hround
    · cases hround
    · rename_i n t value htag
      cases hfield : s.field w m n t value with
      | error error => simp [hfield, Except.toOption] at hround
      | ok stored =>
        obtain rfl : stored = (m', rest) := by simpa [hfield, Except.toOption] using hround
        simp only [htag, hfield]

theorem round_append (hw : w.Sequential) (hf : w.IsField f) (m : σ) (rest : Bytes) :
    s.round w m (f.bytes ++ rest) =
      (s.field w m f.number f.wireType (f.value ++ rest)).toOption := by
  rw [round, hf.tag_append hw]

theorem skip_append (hw : w.Sequential) (hf : w.IsField f) (m : σ) (rest : Bytes)
    (error : String) :
    skip w m f.number f.wireType (f.value ++ rest) error = .ok (m, rest) := by
  rw [skip, hf.skip_append hw]

theorem takes_of_unknown (hw : w.Sequential) (hf : w.IsField f) (hcases : s.cases f.number = none) :
    Takes (s.round w) f id := by
  intro m rest
  rw [round_append hw hf, field, hcases]
  simp only [skip_append hw hf]
  rfl

variable {cs : List (Case σ)}

theorem takes_of_case (hw : w.Sequential) (hf : w.IsField f) (hcases : s.cases f.number = some cs)
    {c : Case σ} (hc : cs.find? (·.wireType = f.wireType) = some c) :
    ∃ take, Takes (s.round w) f take := by
  have hfound := List.find?_some hc
  have htype : c.wireType = f.wireType := of_decide_eq_true hfound
  obtain ⟨take, htake⟩ := c.exists_run_append hw hf htype
  refine ⟨take, fun m rest ↦ ?_⟩
  rw [round_append hw hf, field, hcases]
  simp only [hc, htake]
  rfl

theorem takes_of_others (hw : w.Sequential) (hf : w.IsField f)
    (hcases : s.cases f.number = some cs) (hc : cs.find? (·.wireType = f.wireType) = none)
    {error : String} (herror : s.others f.number = some error) : Takes (s.round w) f id := by
  intro m rest
  rw [round_append hw hf, field, hcases]
  simp only [hc, herror, skip_append hw hf]
  rfl

theorem round_of_no_others (hw : w.Sequential) (hf : w.IsField f)
    (hcases : s.cases f.number = some cs) (hc : cs.find? (·.wireType = f.wireType) = none)
    (hothers : s.others f.number = none) (m : σ) (rest : Bytes) :
    s.round w m (f.bytes ++ rest) = some (m, f.value ++ rest) := by
  rw [round_append hw hf, field, hcases]
  simp only [hc, hothers]
  rfl

end Switch

namespace TagLoop

/-- The loop of a switch. -/
def ofSwitch {ρ : Type} (s : Switch σ) (w : Protowire) (start : σ) (result : σ × Option String → ρ)
    (parse : Bytes → ρ) (parse_eq : ∀ b, parse b = result (s.decodeFrom w b.length 0 start b)) :
    TagLoop where
  State := σ
  Result := ρ
  start
  expected n := (s.cases n).map fun cs ↦ cs.map Case.wireType
  round := s.round w
  run fuel position m b := result (s.decodeFrom w fuel position m b)
  finish m := result (m, none)
  parse
  run_nil fuel _ _ := by cases fuel <;> rw [Switch.decodeFrom]
  run_round fuel position _ _ _ _ hb hround := by rw [Switch.decodeFrom_of_round hb hround]
  parse_eq

variable {ρ : Type} {start : σ} {result : σ × Option String → ρ} {parse : Bytes → ρ}
  {parse_eq : ∀ b, parse b = result (s.decodeFrom w b.length 0 start b)}

theorem exists_cases_of_misplaced
    (hmisplaced : (ofSwitch s w start result parse parse_eq).Misplaced f) :
    ∃ cs, s.cases f.number = some cs ∧ cs.find? (·.wireType = f.wireType) = none := by
  obtain ⟨ts, hts, hnot⟩ := hmisplaced
  obtain ⟨cs, hcs, rfl⟩ := Option.map_eq_some_iff.mp hts
  refine ⟨cs, hcs, List.find?_eq_none.mpr fun c hc htype ↦ hnot ?_⟩
  exact List.mem_map.mpr ⟨c, hc, of_decide_eq_true htype⟩

theorem readsPlaced_ofSwitch (hw : w.Sequential) :
    (ofSwitch s w start result parse parse_eq).ReadsPlaced w := by
  intro f hf hplaced
  cases hcases : s.cases f.number with
  | none => exact ⟨id, Switch.takes_of_unknown hw hf hcases⟩
  | some cs =>
    cases hc : cs.find? (·.wireType = f.wireType) with
    | none =>
      refine absurd ⟨cs.map Case.wireType, ?_, fun hmem ↦ ?_⟩ hplaced
      · show (s.cases f.number).map _ = _
        rw [hcases, Option.map_some]
      · obtain ⟨c, hmem, htype⟩ := List.mem_map.mp hmem
        exact List.find?_eq_none.mp hc c hmem (decide_eq_true htype)
    | some c => exact Switch.takes_of_case hw hf hcases hc

theorem passesOver_ofSwitch (hw : w.Sequential) (hothers : ∀ n, (s.others n).isSome) :
    (ofSwitch s w start result parse parse_eq).PassesOver w := by
  intro f hf hmisplaced
  obtain ⟨cs, hcases, hc⟩ := exists_cases_of_misplaced hmisplaced
  obtain ⟨error, herror⟩ := Option.isSome_iff_exists.mp (hothers f.number)
  exact Switch.takes_of_others hw hf hcases hc herror

theorem leaves_ofSwitch (hw : w.Sequential) (hothers : ∀ n, s.others n = none) :
    (ofSwitch s w start result parse parse_eq).Leaves w := by
  intro f hf hmisplaced
  obtain ⟨cs, hcases, hc⟩ := exists_cases_of_misplaced hmisplaced
  exact Switch.round_of_no_others hw hf hcases hc (hothers f.number)

end TagLoop

end Switches

end ProtoWire

/-! ## An implementation -/

namespace ProtoWire

section Front

variable {α β : Type*} {read : Bytes → Option (α × Bytes)}

/-- What is made of something that is read from the front. -/
theorem ReadsFront.map (hread : ReadsFront read) (g : α → β) :
    ReadsFront fun b ↦ (read b).map fun p ↦ (g p.1, p.2) := by
  intro b a rest h
  obtain ⟨⟨a', rest'⟩, hb, hpair⟩ := Option.map_eq_some_iff.mp h
  cases hpair
  obtain ⟨front, hne, rfl, hany⟩ := hread _ _ _ hb
  exact ⟨front, hne, rfl, fun rest'' ↦ by simp only [hany, Option.map_some]⟩

theorem ReadsFront.skip (hread : ReadsFront read) :
    ReadsFront fun b ↦ ((read b).map (·.2)).map fun rest ↦ ((), rest) := by
  have hunit := hread.map fun _ ↦ ()
  simp only [Option.map_map]
  exact hunit

theorem readsFront_getVarint : ReadsFront getVarint := by
  intro b
  induction b with
  | nil => simp [getVarint]
  | cons first b ih =>
    intro n rest h
    rw [getVarint] at h
    split at h
    · rename_i hlast
      cases h
      refine ⟨[first], by simp, rfl, fun rest' ↦ ?_⟩
      rw [List.singleton_append, getVarint, if_pos hlast]
    · rename_i hmore
      obtain ⟨⟨m, rest⟩, hget, hpair⟩ := Option.map_eq_some_iff.mp h
      cases hpair
      obtain ⟨front, -, rfl, hany⟩ := ih m rest hget
      refine ⟨first :: front, by simp, rfl, fun rest' ↦ ?_⟩
      rw [List.cons_append, getVarint, if_neg hmore, hany, Option.map_some]

theorem eq_of_splitBytes {k : ℕ} {b v rest : Bytes} (h : splitBytes k b = some (v, rest)) :
    b = v ++ rest ∧ v.length = k := by
  rw [splitBytes] at h
  split at h
  · rename_i hle
    cases h
    exact ⟨(List.take_append_drop k b).symm, List.length_take_of_le hle⟩
  · cases h

theorem readsFront_splitBytes {k : ℕ} (hk : 0 < k) : ReadsFront (splitBytes k) := by
  intro b v rest h
  obtain ⟨rfl, rfl⟩ := eq_of_splitBytes h
  exact ⟨v, List.ne_nil_of_length_pos hk, rfl, splitBytes_append v⟩

theorem readsFront_getFixed {k : ℕ} (hk : 0 < k) : ReadsFront (getFixed k) :=
  (readsFront_splitBytes hk).map ofLittleEndian

theorem readsFront_getBytes : ReadsFront getBytes := by
  intro b v rest h
  obtain ⟨⟨k, afterLength⟩, hlength, hsplit⟩ := Option.bind_eq_some_iff.mp h
  obtain ⟨rfl, rfl⟩ := eq_of_splitBytes hsplit
  obtain ⟨front, hne, rfl, hany⟩ := readsFront_getVarint _ _ _ hlength
  refine ⟨front ++ v, by simp [hne], (List.append_assoc front v rest).symm, fun rest' ↦ ?_⟩
  rw [getBytes, List.append_assoc, hany, Option.bind_some, splitBytes_append]

theorem readsFront_getTag :
    ReadsFront fun b ↦ (getTag b).map fun p ↦ ((p.1, p.2.1), p.2.2) := by
  intro b a rest h
  obtain ⟨⟨n, t, left⟩, htag, hpair⟩ := Option.map_eq_some_iff.mp h
  cases hpair
  obtain ⟨⟨m, left⟩, hget, htype⟩ := Option.bind_eq_some_iff.mp htag
  obtain ⟨t', ht, hpair⟩ := Option.map_eq_some_iff.mp htype
  cases hpair
  obtain ⟨front, hne, rfl, hany⟩ := readsFront_getVarint _ _ _ hget
  refine ⟨front, hne, rfl, fun rest' ↦ ?_⟩
  show (getTag (front ++ rest')).map _ = _
  rw [getTag, hany, Option.bind_some, ht]
  rfl

end Front

end ProtoWire

namespace Protowire

open ProtoWire

/-- The standard implementation, with an empty text for bytes that are none. -/
def anyText : Protowire :=
  { standard with consumeString := fun b ↦ (getBytes b).map fun p ↦ ((textOf p.1).getD "", p.2) }

theorem anyText_sequential : anyText.Sequential where
  tag := readsFront_getTag
  varint := readsFront_getVarint.map UInt64.ofNat
  fixed32 := (readsFront_getFixed (by decide)).map UInt32.ofNat
  fixed64 := (readsFront_getFixed (by decide)).map UInt64.ofNat
  bytes := readsFront_getBytes
  string := readsFront_getBytes.map fun v ↦ (textOf v).getD ""
  skip n t := by
    cases t with
    | varint => exact readsFront_getVarint.skip
    | fixed64 => exact (readsFront_getFixed (by decide)).skip
    | bytes => exact readsFront_getBytes.skip
    | fixed32 => exact (readsFront_getFixed (by decide)).skip
    | startGroup =>
      intro b a rest h
      cases h
    | endGroup =>
      intro b a rest h
      cases h
  skip_varint n b := by simp [anyText, standard]; rfl
  skip_fixed32 n b := by simp [anyText, standard]; rfl
  skip_fixed64 n b := by simp [anyText, standard]; rfl
  skip_bytes _ _ := rfl
  skip_string n b := by simp [anyText, standard]; rfl

end Protowire
