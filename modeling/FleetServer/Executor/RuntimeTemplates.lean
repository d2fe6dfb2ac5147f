import FleetServer.Lib.GoString
import FleetServer.Lib.Template

/-!
# Parameters that are put into a graph

`substituteRuntimeString` and `substituteRuntimeInterface` of
`internal/executor/runtime_graph_materializer.go`, which put the parameters of a task in the place
of the `${name}` of a graph.

A text is read once, so a text with a parameter put in could be read differently the next time.
`substituteRuntimeString_twice` says that it is not when the values are sealed: putting in the
parameters of one table and then those of another comes to the same as putting in both, with the
same two reports.  `substituteRuntimeInterface_spec` is about the values of a graph: what is
reported as changed is exactly what has a name in it that the parameters have, and the rest is not
touched.
-/

set_option autoImplicit false

namespace FleetServer
namespace Executor
namespace RuntimeTemplates

open Template GoString

abbrev RuntimeParams := List (String × String)

/-- The value a name stands for, without the space around it. -/
def paramValue (runtimeParams : RuntimeParams) (inner : List Char) : Option (List Char) :=
  (runtimeParams.lookup (trimSpace (String.ofList inner))).map String.toList

/-- The text, whether anything was replaced, and whether it was fully resolved. -/
def substituteRuntimeString (value : String) (runtimeParams : RuntimeParams) :
    String × Bool × Bool :=
  if value = "" ∨ runtimeParams = [] then (value, false, false)
  else
    let filled := fill (paramValue runtimeParams) value.toList
    if !filled.replacedAny then (value, false, false)
    else (String.ofList filled.text, true, filled.fullyResolved && (cutOpen filled.text).isNone)

/-- What a field of a graph was read into: a text, a list, an object, or something else. -/
inductive RuntimeValue (κ : Type) where
  | string (s : String)
  | array (items : List (RuntimeValue κ))
  | object (members : List (String × RuntimeValue κ))
  | other (v : κ)

variable {κ : Type}

mutual

/-- `coerce` reads a fully resolved text as what it looks like: a number, a truth value, a list. -/
def substituteRuntimeInterface (coerce : String → RuntimeValue κ) (runtimeParams : RuntimeParams) :
    RuntimeValue κ → RuntimeValue κ × Bool
  | .string s =>
    let (resolved, changed, fullyResolved) := substituteRuntimeString s runtimeParams
    if !changed then (.string s, false)
    else if fullyResolved then (coerce resolved, true)
    else (.string resolved, true)
  | .array items =>
    let (resolved, changed) := substituteItems coerce runtimeParams items
    if !changed then (.array items, false) else (.array resolved, true)
  | .object members =>
    let (resolved, changed) := substituteMembers coerce runtimeParams members
    if !changed then (.object members, false) else (.object resolved, true)
  | .other v => (.other v, false)

def substituteItems (coerce : String → RuntimeValue κ) (runtimeParams : RuntimeParams) :
    List (RuntimeValue κ) → List (RuntimeValue κ) × Bool
  | [] => ([], false)
  | item :: items =>
    let (next, itemChanged) := substituteRuntimeInterface coerce runtimeParams item
    let (resolved, changed) := substituteItems coerce runtimeParams items
    (next :: resolved, itemChanged || changed)

def substituteMembers (coerce : String → RuntimeValue κ) (runtimeParams : RuntimeParams) :
    List (String × RuntimeValue κ) → List (String × RuntimeValue κ) × Bool
  | [] => ([], false)
  | (key, item) :: members =>
    let (next, itemChanged) := substituteRuntimeInterface coerce runtimeParams item
    let (resolved, changed) := substituteMembers coerce runtimeParams members
    ((key, next) :: resolved, itemChanged || changed)

end

variable {runtimeParams moreParams : RuntimeParams} {coerce : String → RuntimeValue κ}

/-! ## Texts -/

theorem paramValue_append (inner : List Char) :
    paramValue (runtimeParams ++ moreParams) inner =
      orElse (paramValue runtimeParams) (paramValue moreParams) inner := by
  rw [paramValue, List.lookup_append, orElse, paramValue, paramValue]
  cases runtimeParams.lookup (trimSpace (String.ofList inner)) <;> rfl

/-- The tests for an empty text and an empty table change nothing. -/
theorem substituteRuntimeString_eq (value : String) (runtimeParams : RuntimeParams) :
    substituteRuntimeString value runtimeParams =
      (String.ofList (fill (paramValue runtimeParams) value.toList).text,
        (fill (paramValue runtimeParams) value.toList).replacedAny,
        (fill (paramValue runtimeParams) value.toList).replacedAny &&
          ((fill (paramValue runtimeParams) value.toList).fullyResolved &&
            (cutOpen (fill (paramValue runtimeParams) value.toList).text).isNone)) := by
  have hnothing : (fill (paramValue runtimeParams) value.toList).replacedAny = false →
      (value, false, false) =
        (String.ofList (fill (paramValue runtimeParams) value.toList).text, false, false) := by
    intro h
    rw [text_of_not_replacedAny h, String.ofList_toList]
  by_cases hempty : value = "" ∨ runtimeParams = []
  · have hany : (fill (paramValue runtimeParams) value.toList).replacedAny = false := by
      rw [Bool.eq_false_iff, Ne, replacedAny_iff]
      rintro ⟨inner, hmem, hvalue⟩
      rcases hempty with rfl | rfl
      · cases hmem
      · cases hvalue
    rw [substituteRuntimeString, if_pos hempty, hany]
    exact hnothing hany
  · rw [substituteRuntimeString, if_neg hempty]
    cases hany : (fill (paramValue runtimeParams) value.toList).replacedAny with
    | false =>
      simp only [hany, Bool.not_false, if_true]
      exact hnothing hany
    | true => simp only [hany, Bool.not_true, Bool.false_eq_true, if_false, Bool.true_and]

/-- The text of a parameter that has no part of a name in it. -/
def SealedParams (runtimeParams : RuntimeParams) : Prop :=
  ∀ pair ∈ runtimeParams, Sealed pair.2.toList

theorem SealedParams.paramValue (h : SealedParams runtimeParams) (inner v : List Char)
    (hv : paramValue runtimeParams inner = some v) : Sealed v := by
  obtain ⟨text, hlookup, rfl⟩ := Option.map_eq_some_iff.mp hv
  obtain ⟨before, after, heq, -⟩ := List.lookup_eq_some_iff.mp hlookup
  exact h (trimSpace (String.ofList inner), text) (heq ▸ List.mem_append_right _ List.mem_cons_self)

/-- **Putting in the parameters of one table and then those of another is putting in both**: the
text is the same, something was replaced if it was either time, and the text was fully resolved if
it was either time. -/
theorem substituteRuntimeString_twice (value : String) (h : SealedParams runtimeParams) :
    substituteRuntimeString value (runtimeParams ++ moreParams) =
      ((substituteRuntimeString (substituteRuntimeString value runtimeParams).1 moreParams).1,
        (substituteRuntimeString value runtimeParams).2.1 ||
          (substituteRuntimeString (substituteRuntimeString value runtimeParams).1 moreParams).2.1,
        (substituteRuntimeString value runtimeParams).2.2 ||
          (substituteRuntimeString (substituteRuntimeString value runtimeParams).1
            moreParams).2.2) := by
  have hvalues : paramValue (runtimeParams ++ moreParams) =
      orElse (paramValue runtimeParams) (paramValue moreParams) := funext paramValue_append
  simp only [substituteRuntimeString_eq, String.toList_ofList, hvalues]
  obtain ⟨htext, hresolved, hany⟩ :=
    @fill_fill (paramValue runtimeParams) (paramValue moreParams) h.paramValue value.toList
  rw [← htext, ← hresolved, ← hany, Prod.mk.injEq, Prod.mk.injEq]
  refine ⟨rfl, rfl, ?_⟩
  have hfirst := fullyResolved_iff h.paramValue value.toList
  generalize fill (paramValue runtimeParams) value.toList = first at hfirst ⊢
  cases hopen : cutOpen first.text with
  | none =>
    -- nothing is left for the second table
    rw [fill_of_none hopen, hfirst.mpr hopen]
    simp [hopen]
  | some cut =>
    have hunresolved : first.fullyResolved = false := by
      rw [Bool.eq_false_iff, Ne, hfirst, hopen]
      exact Option.some_ne_none cut
    rw [hunresolved]
    cases hsecond : (fill (paramValue moreParams) first.text).replacedAny with
    | true => simp
    | false =>
      rw [text_of_not_replacedAny hsecond, hopen]
      simp

/-- A name whose value is put in, and one that is left for a second table. -/
theorem substituteRuntimeString_twice_dock :
    substituteRuntimeString "${ robot }/${dock}" ([("robot", "amr")] ++ [("dock", "${d}")]) =
      ((substituteRuntimeString (substituteRuntimeString "${ robot }/${dock}"
          [("robot", "amr")]).1 [("dock", "${d}")]).1,
        (substituteRuntimeString "${ robot }/${dock}" [("robot", "amr")]).2.1 ||
          (substituteRuntimeString (substituteRuntimeString "${ robot }/${dock}"
            [("robot", "amr")]).1 [("dock", "${d}")]).2.1,
        (substituteRuntimeString "${ robot }/${dock}" [("robot", "amr")]).2.2 ||
          (substituteRuntimeString (substituteRuntimeString "${ robot }/${dock}"
            [("robot", "amr")]).1 [("dock", "${d}")]).2.2) := by
  refine substituteRuntimeString_twice "${ robot }/${dock}" fun pair hpair ↦ ?_
  rw [List.mem_singleton.mp hpair]
  exact ⟨by decide, by decide, by decide⟩

/-! ## Values -/

mutual

/-- The texts in a value. -/
def RuntimeValue.texts : RuntimeValue κ → List String
  | .string s => [s]
  | .array items => itemTexts items
  | .object members => memberTexts members
  | .other _ => []

def itemTexts : List (RuntimeValue κ) → List String
  | [] => []
  | item :: items => item.texts ++ itemTexts items

def memberTexts : List (String × RuntimeValue κ) → List String
  | [] => []
  | (_, item) :: members => item.texts ++ memberTexts members

end

mutual

/-- The value with something in the place of each text. -/
def RuntimeValue.mapTexts (f : String → RuntimeValue κ) : RuntimeValue κ → RuntimeValue κ
  | .string s => f s
  | .array items => .array (mapItems f items)
  | .object members => .object (mapMembers f members)
  | .other v => .other v

def mapItems (f : String → RuntimeValue κ) : List (RuntimeValue κ) → List (RuntimeValue κ)
  | [] => []
  | item :: items => item.mapTexts f :: mapItems f items

def mapMembers (f : String → RuntimeValue κ) :
    List (String × RuntimeValue κ) → List (String × RuntimeValue κ)
  | [] => []
  | (key, item) :: members => (key, item.mapTexts f) :: mapMembers f members

end

/-- Some name in the text is one of the parameters. -/
def NamesParam (runtimeParams : RuntimeParams) (s : String) : Prop :=
  ∃ inner ∈ names s.toList, (paramValue runtimeParams inner).isSome = true

/-- What stands for a text. -/
def textValue (coerce : String → RuntimeValue κ) (runtimeParams : RuntimeParams) (s : String) :
    RuntimeValue κ :=
  if (substituteRuntimeString s runtimeParams).2.2 then
    coerce (substituteRuntimeString s runtimeParams).1
  else .string (substituteRuntimeString s runtimeParams).1

theorem substituteRuntimeString_changed_iff (s : String) :
    (substituteRuntimeString s runtimeParams).2.1 = true ↔ NamesParam runtimeParams s := by
  rw [substituteRuntimeString_eq]
  exact replacedAny_iff s.toList

/-- A text that names no parameter is left as it is. -/
theorem textValue_of_not_namesParam {s : String} (h : ¬NamesParam runtimeParams s) :
    textValue coerce runtimeParams s = .string s := by
  have hany : (fill (paramValue runtimeParams) s.toList).replacedAny = false := by
    rw [Bool.eq_false_iff, Ne, replacedAny_iff]
    exact h
  rw [textValue, substituteRuntimeString_eq, hany, text_of_not_replacedAny hany,
    String.ofList_toList]
  rfl

mutual

/-- Nothing changes in a value that names no parameter. -/
theorem mapTexts_of_not_namesParam (v : RuntimeValue κ)
    (h : ¬∃ s ∈ v.texts, NamesParam runtimeParams s) :
    v.mapTexts (textValue coerce runtimeParams) = v := by
  cases v with
  | string s =>
    exact textValue_of_not_namesParam fun hs ↦ h ⟨s, List.mem_singleton_self s, hs⟩
  | array items => exact congrArg RuntimeValue.array (mapItems_of_not_namesParam items h)
  | object members =>
    exact congrArg RuntimeValue.object (mapMembers_of_not_namesParam members h)
  | other v => rfl

theorem mapItems_of_not_namesParam (items : List (RuntimeValue κ))
    (h : ¬∃ s ∈ itemTexts items, NamesParam runtimeParams s) :
    mapItems (textValue coerce runtimeParams) items = items := by
  cases items with
  | nil => rfl
  | cons item items =>
    have hitem := mapTexts_of_not_namesParam item
      fun hs ↦ h (hs.imp fun s hs ↦ ⟨List.mem_append_left _ hs.1, hs.2⟩)
    have hitems := mapItems_of_not_namesParam items
      fun hs ↦ h (hs.imp fun s hs ↦ ⟨List.mem_append_right _ hs.1, hs.2⟩)
    rw [mapItems, hitem, hitems]

theorem mapMembers_of_not_namesParam (members : List (String × RuntimeValue κ))
    (h : ¬∃ s ∈ memberTexts members, NamesParam runtimeParams s) :
    mapMembers (textValue coerce runtimeParams) members = members := by
  cases members with
  | nil => rfl
  | cons member members =>
    obtain ⟨key, item⟩ := member
    have hitem := mapTexts_of_not_namesParam item
      fun hs ↦ h (hs.imp fun s hs ↦ ⟨List.mem_append_left _ hs.1, hs.2⟩)
    have hmembers := mapMembers_of_not_namesParam members
      fun hs ↦ h (hs.imp fun s hs ↦ ⟨List.mem_append_right _ hs.1, hs.2⟩)
    rw [mapMembers, hitem, hmembers]

end

theorem substituteRuntimeInterface_string (s : String) :
    substituteRuntimeInterface coerce runtimeParams (.string s) =
      if (substituteRuntimeString s runtimeParams).2.1 then
        (textValue coerce runtimeParams s, true)
      else (.string s, false) := by
  rw [substituteRuntimeInterface, textValue]
  generalize substituteRuntimeString s runtimeParams = result
  obtain ⟨resolved, changed, fullyResolved⟩ := result
  cases changed <;> cases fullyResolved <;> rfl

theorem substituteRuntimeInterface_array (items : List (RuntimeValue κ)) :
    substituteRuntimeInterface coerce runtimeParams (.array items) =
      if (substituteItems coerce runtimeParams items).2 then
        (.array (substituteItems coerce runtimeParams items).1, true)
      else (.array items, false) := by
  rw [substituteRuntimeInterface]
  generalize substituteItems coerce runtimeParams items = result
  obtain ⟨resolved, changed⟩ := result
  cases changed <;> rfl

theorem substituteRuntimeInterface_object (members : List (String × RuntimeValue κ)) :
    substituteRuntimeInterface coerce runtimeParams (.object members) =
      if (substituteMembers coerce runtimeParams members).2 then
        (.object (substituteMembers coerce runtimeParams members).1, true)
      else (.object members, false) := by
  rw [substituteRuntimeInterface]
  generalize substituteMembers coerce runtimeParams members = result
  obtain ⟨resolved, changed⟩ := result
  cases changed <;> rfl

mutual

/-- **A value with the parameters put in has the value of each text in its place**, and it is
reported as changed if one of its texts names a parameter. -/
theorem substituteRuntimeInterface_spec (v : RuntimeValue κ) :
    (substituteRuntimeInterface coerce runtimeParams v).1 =
        v.mapTexts (textValue coerce runtimeParams) ∧
      ((substituteRuntimeInterface coerce runtimeParams v).2 = true ↔
        ∃ s ∈ v.texts, NamesParam runtimeParams s) := by
  cases v with
  | string s =>
    have hchanged := @substituteRuntimeString_changed_iff runtimeParams s
    have htexts : (∃ text ∈ (RuntimeValue.string s : RuntimeValue κ).texts,
        NamesParam runtimeParams text) ↔ NamesParam runtimeParams s := by
      simp [RuntimeValue.texts]
    rw [htexts, ← hchanged, substituteRuntimeInterface_string, RuntimeValue.mapTexts]
    cases hany : (substituteRuntimeString s runtimeParams).2.1 with
    | false =>
      rw [textValue_of_not_namesParam (by simp [← hchanged, hany])]
      exact ⟨rfl, Iff.rfl⟩
    | true => exact ⟨rfl, Iff.rfl⟩
  | array items =>
    obtain ⟨hvalue, hchanged⟩ := substituteItems_spec items
    rw [substituteRuntimeInterface_array, RuntimeValue.texts, ← hchanged, RuntimeValue.mapTexts,
      hvalue]
    cases hany : (substituteItems coerce runtimeParams items).2 with
    | false =>
      rw [mapItems_of_not_namesParam items (by simp [← hchanged, hany])]
      exact ⟨rfl, Iff.rfl⟩
    | true => exact ⟨rfl, Iff.rfl⟩
  | object members =>
    obtain ⟨hvalue, hchanged⟩ := substituteMembers_spec members
    rw [substituteRuntimeInterface_object, RuntimeValue.texts, ← hchanged, RuntimeValue.mapTexts,
      hvalue]
    cases hany : (substituteMembers coerce runtimeParams members).2 with
    | false =>
      rw [mapMembers_of_not_namesParam members (by simp [← hchanged, hany])]
      exact ⟨rfl, Iff.rfl⟩
    | true => exact ⟨rfl, Iff.rfl⟩
  | other v => simp [substituteRuntimeInterface, RuntimeValue.mapTexts, RuntimeValue.texts]

theorem substituteItems_spec (items : List (RuntimeValue κ)) :
    (substituteItems coerce runtimeParams items).1 =
        mapItems (textValue coerce runtimeParams) items ∧
      ((substituteItems coerce runtimeParams items).2 = true ↔
        ∃ s ∈ itemTexts items, NamesParam runtimeParams s) := by
  cases items with
  | nil => simp [substituteItems, mapItems, itemTexts]
  | cons item items =>
    obtain ⟨hitem, hitemChanged⟩ := substituteRuntimeInterface_spec item
    obtain ⟨hitems, hchanged⟩ := substituteItems_spec items
    rw [substituteItems, mapItems, ← hitem, ← hitems]
    refine ⟨rfl, ?_⟩
    rw [Bool.or_eq_true, hitemChanged, hchanged, itemTexts]
    simp only [List.mem_append, or_and_right, exists_or]

theorem substituteMembers_spec (members : List (String × RuntimeValue κ)) :
    (substituteMembers coerce runtimeParams members).1 =
        mapMembers (textValue coerce runtimeParams) members ∧
      ((substituteMembers coerce runtimeParams members).2 = true ↔
        ∃ s ∈ memberTexts members, NamesParam runtimeParams s) := by
  cases members with
  | nil => simp [substituteMembers, mapMembers, memberTexts]
  | cons member members =>
    obtain ⟨key, item⟩ := member
    obtain ⟨hitem, hitemChanged⟩ := substituteRuntimeInterface_spec item
    obtain ⟨hmembers, hchanged⟩ := substituteMembers_spec members
    rw [substituteMembers, mapMembers, ← hitem, ← hmembers]
    refine ⟨rfl, ?_⟩
    rw [Bool.or_eq_true, hitemChanged, hchanged, memberTexts]
    simp only [List.mem_append, or_and_right, exists_or]

end

end RuntimeTemplates
end Executor
end FleetServer
