import Mathlib.Data.List.Infix

/-!
# Templates that are filled in one pass

A hole of a template begins with `${` and ends with the first `}` after that; what stands between
names a value.  The template is read once, from the left: a hole whose name has a value is replaced,
one without stays as it is, and neither what is put in nor what stays is read again.  Two notes are
taken, whether anything was replaced, and whether every hole was.

What is put in could still make a hole for a later reader, on its own or with the text around it.
`Sealed` values do not: filling in some of the values now and the others later is then the same as
filling in all of them at once (`fill_fill`).
-/

set_option autoImplicit false

namespace Template

/-- The text before the first `${`, and the text after it. -/
def cutOpen : List Char → Option (List Char × List Char)
  | '$' :: '{' :: rest => some ([], rest)
  | c :: rest => (cutOpen rest).map fun p ↦ (c :: p.1, p.2)
  | [] => none

/-- The text before the first `}`, and the text after it. -/
def cutClose : List Char → Option (List Char × List Char)
  | '}' :: rest => some ([], rest)
  | c :: rest => (cutClose rest).map fun p ↦ (c :: p.1, p.2)
  | [] => none

structure Filled where
  text : List Char
  replacedAny : Bool
  fullyResolved : Bool
  deriving DecidableEq, Repr

/-- A hole as it is written. -/
def hole (inner : List Char) : List Char := '$' :: '{' :: inner ++ ['}']

/-- Fills the holes in, as many as there is fuel for. -/
def fillFrom (value : List Char → Option (List Char)) : ℕ → List Char → Filled
  | 0, cs => ⟨cs, false, false⟩
  | fuel + 1, cs =>
    match cutOpen cs with
    | none => ⟨cs, false, true⟩
    | some (before, after) =>
      match cutClose after with
      | none => ⟨cs, false, false⟩
      | some (inner, rest) =>
        let filled := fillFrom value fuel rest
        match value inner with
        | none => ⟨before ++ hole inner ++ filled.text, filled.replacedAny, false⟩
        | some v => ⟨before ++ v ++ filled.text, true, filled.fullyResolved⟩

/-- Fills all holes in.  There are fewer of them than characters. -/
def fill (value : List Char → Option (List Char)) (cs : List Char) : Filled :=
  fillFrom value (cs.length + 1) cs

/-! ## Where a hole begins and ends -/

variable {before after inner rest cs v : List Char}

theorem cutOpen_cons_of_ne {c : Char} (h : ¬∃ rest', c = '$' ∧ rest = '{' :: rest') :
    cutOpen (c :: rest) = (cutOpen rest).map fun p ↦ (c :: p.1, p.2) := by
  rw [cutOpen]
  rintro rest' rfl rfl
  exact h ⟨rest', rfl, rfl⟩

theorem eq_of_cutOpen (h : cutOpen cs = some (before, after)) :
    cs = before ++ '$' :: '{' :: after := by
  induction cs generalizing before with
  | nil => cases h
  | cons c rest ih =>
    by_cases hopen : ∃ rest', c = '$' ∧ rest = '{' :: rest'
    · obtain ⟨rest', rfl, rfl⟩ := hopen
      rw [cutOpen] at h
      obtain ⟨rfl, rfl⟩ := Prod.mk.inj (Option.some.inj h)
      rfl
    · rw [cutOpen_cons_of_ne hopen] at h
      obtain ⟨⟨b, a⟩, hcut, hpair⟩ := Option.map_eq_some_iff.mp h
      obtain ⟨rfl, rfl⟩ := Prod.mk.inj hpair
      rw [ih hcut, List.cons_append]

/-- What comes before a hole is read the same way when something else follows it, unless the two
make a hole together. -/
theorem cutOpen_before_append (h : cutOpen cs = some (before, after)) {other : List Char}
    (hother : other.head? ≠ some '{') :
    cutOpen (before ++ other) = (cutOpen other).map fun p ↦ (before ++ p.1, p.2) := by
  induction cs generalizing before with
  | nil => cases h
  | cons c rest ih =>
    by_cases hopen : ∃ rest', c = '$' ∧ rest = '{' :: rest'
    · obtain ⟨rest', rfl, rfl⟩ := hopen
      rw [cutOpen] at h
      obtain ⟨rfl, rfl⟩ := Prod.mk.inj (Option.some.inj h)
      exact Option.map_id'.symm
    · rw [cutOpen_cons_of_ne hopen] at h
      obtain ⟨⟨b, a⟩, hcut, hpair⟩ := Option.map_eq_some_iff.mp h
      obtain ⟨rfl, rfl⟩ := Prod.mk.inj hpair
      have hne : ¬∃ rest', c = '$' ∧ b ++ other = '{' :: rest' := by
        rintro ⟨rest', rfl, heq⟩
        cases b with
        | nil => exact hother (congrArg List.head? heq)
        | cons d b =>
          -- the text before the hole begins with the same character as the whole
          obtain ⟨rfl, -⟩ := List.cons.inj heq
          exact hopen ⟨b ++ '$' :: '{' :: a, rfl, eq_of_cutOpen hcut⟩
      rw [List.cons_append, cutOpen_cons_of_ne hne, ih hcut, Option.map_map]
      rfl

/-- Nothing changes before a hole when something else follows it. -/
theorem cutOpen_before (h : cutOpen cs = some (before, after)) (other : List Char) :
    cutOpen (before ++ '$' :: '{' :: other) = some (before, other) := by
  have hhead : ('$' :: '{' :: other).head? ≠ some '{' := by simp
  rw [cutOpen_before_append h hhead, cutOpen, Option.map_some, List.append_nil]

theorem cutOpen_before_hole (h : cutOpen cs = some (before, after)) (inner other : List Char) :
    cutOpen (before ++ hole inner ++ other) = some (before, inner ++ '}' :: other) := by
  rw [← cutOpen_before h]
  simp only [hole, List.append_assoc, List.cons_append, List.nil_append]

theorem cutClose_cons_of_ne {c : Char} (h : c ≠ '}') :
    cutClose (c :: rest) = (cutClose rest).map fun p ↦ (c :: p.1, p.2) := by
  rw [cutClose]
  exact h

theorem cutClose_eq_some_iff :
    cutClose cs = some (inner, rest) ↔ cs = inner ++ '}' :: rest ∧ '}' ∉ inner := by
  induction cs generalizing inner with
  | nil => simp [cutClose]
  | cons c cs ih =>
    by_cases hclose : c = '}'
    · subst hclose
      rw [cutClose, Option.some.injEq, Prod.mk.injEq]
      constructor
      · rintro ⟨rfl, rfl⟩
        exact ⟨rfl, by simp⟩
      · rintro ⟨heq, hmem⟩
        cases inner with
        | nil => exact ⟨rfl, (List.cons.inj heq).2⟩
        | cons d inner => exact absurd ((List.cons.inj heq).1 ▸ List.mem_cons_self) hmem
    · rw [cutClose_cons_of_ne hclose, Option.map_eq_some_iff]
      constructor
      · rintro ⟨⟨i, r⟩, hcut, hpair⟩
        obtain ⟨rfl, rfl⟩ := Prod.mk.inj hpair
        obtain ⟨rfl, hmem⟩ := ih.mp hcut
        exact ⟨rfl, fun h ↦ (List.mem_cons.mp h).elim (fun h ↦ hclose h.symm) hmem⟩
      · rintro ⟨heq, hmem⟩
        cases inner with
        | nil => exact absurd (List.cons.inj heq).1 hclose
        | cons d inner =>
          obtain ⟨rfl, rfl⟩ := List.cons.inj heq
          exact ⟨(inner, rest), ih.mpr ⟨rfl, fun h ↦ hmem (List.mem_cons_of_mem _ h)⟩, rfl⟩

/-- What is left after a hole is shorter. -/
theorem length_of_cuts (hopen : cutOpen cs = some (before, after))
    (hclose : cutClose after = some (inner, rest)) : rest.length < cs.length := by
  rw [eq_of_cutOpen hopen, (cutClose_eq_some_iff.mp hclose).1]
  simp only [List.length_append, List.length_cons]
  omega

variable {value value' : List Char → Option (List Char)}

theorem fillFrom_eq {fuel : ℕ} (hfuel : cs.length < fuel) :
    fillFrom value fuel cs = fill value cs := by
  rw [fill]
  induction hn : cs.length using Nat.strong_induction_on generalizing cs fuel with
  | _ n ih =>
    obtain ⟨fuel, rfl⟩ : ∃ k, fuel = k + 1 := ⟨fuel - 1, by omega⟩
    rw [fillFrom, fillFrom]
    cases hopen : cutOpen cs with
    | none => rfl
    | some cut =>
      obtain ⟨before, after⟩ := cut
      cases hclose : cutClose after with
      | none => simp only [hclose]
      | some cut =>
        obtain ⟨inner, rest⟩ := cut
        have hshort := length_of_cuts hopen hclose
        have hleft : fillFrom value fuel rest = fillFrom value (rest.length + 1) rest :=
          ih rest.length (by omega) (by omega) rfl
        have hright : fillFrom value n rest = fillFrom value (rest.length + 1) rest :=
          ih rest.length (by omega) (by omega) rfl
        simp only [hclose, hleft, hright]

/-! ## One hole after the other -/

theorem fill_of_none (h : cutOpen cs = none) : fill value cs = ⟨cs, false, true⟩ := by
  rw [fill, fillFrom, h]

theorem fill_of_broken (hopen : cutOpen cs = some (before, after))
    (hclose : cutClose after = none) : fill value cs = ⟨cs, false, false⟩ := by
  rw [fill, fillFrom, hopen]
  simp only [hclose]

theorem fill_of_unknown (hopen : cutOpen cs = some (before, after))
    (hclose : cutClose after = some (inner, rest)) (h : value inner = none) :
    fill value cs =
      ⟨before ++ hole inner ++ (fill value rest).text, (fill value rest).replacedAny, false⟩ := by
  have hrest : fillFrom value cs.length rest = fill value rest :=
    fillFrom_eq (length_of_cuts hopen hclose)
  rw [fill, fillFrom, hopen]
  simp only [hclose, hrest, h]

theorem fill_of_known (hopen : cutOpen cs = some (before, after))
    (hclose : cutClose after = some (inner, rest)) (h : value inner = some v) :
    fill value cs =
      ⟨before ++ v ++ (fill value rest).text, true, (fill value rest).fullyResolved⟩ := by
  have hrest : fillFrom value cs.length rest = fill value rest :=
    fillFrom_eq (length_of_cuts hopen hclose)
  rw [fill, fillFrom, hopen]
  simp only [hclose, hrest, h]

/-- The three cases of a template: no hole, one that is not closed, and one that is, with a
template after it. -/
theorem hole_cases (cs : List Char) :
    cutOpen cs = none ∨
      (∃ before after, cutOpen cs = some (before, after) ∧ cutClose after = none) ∨
      ∃ before after inner rest, cutOpen cs = some (before, after) ∧
        cutClose after = some (inner, rest) := by
  cases hopen : cutOpen cs with
  | none => exact .inl rfl
  | some cut =>
    obtain ⟨before, after⟩ := cut
    cases hclose : cutClose after with
    | none => exact .inr (.inl ⟨before, after, rfl, hclose⟩)
    | some cut => exact .inr (.inr ⟨before, after, cut.1, cut.2, rfl, hclose⟩)

/-! ## The names in a template -/

/-- The names of the holes, from the left, as many as there is fuel for. -/
def namesFrom : ℕ → List Char → List (List Char)
  | 0, _ => []
  | fuel + 1, cs =>
    match cutOpen cs with
    | none => []
    | some (_, after) =>
      match cutClose after with
      | none => []
      | some (inner, rest) => inner :: namesFrom fuel rest

/-- The names of the holes, from the left. -/
def names (cs : List Char) : List (List Char) := namesFrom (cs.length + 1) cs

theorem namesFrom_eq {fuel : ℕ} (hfuel : cs.length < fuel) : namesFrom fuel cs = names cs := by
  rw [names]
  induction hn : cs.length using Nat.strong_induction_on generalizing cs fuel with
  | _ n ih =>
    obtain ⟨fuel, rfl⟩ : ∃ k, fuel = k + 1 := ⟨fuel - 1, by omega⟩
    rw [namesFrom, namesFrom]
    cases hopen : cutOpen cs with
    | none => rfl
    | some cut =>
      obtain ⟨before, after⟩ := cut
      cases hclose : cutClose after with
      | none => simp only [hclose]
      | some cut =>
        obtain ⟨inner, rest⟩ := cut
        have hshort := length_of_cuts hopen hclose
        have hleft : namesFrom fuel rest = namesFrom (rest.length + 1) rest :=
          ih rest.length (by omega) (by omega) rfl
        have hright : namesFrom n rest = namesFrom (rest.length + 1) rest :=
          ih rest.length (by omega) (by omega) rfl
        simp only [hclose, hleft, hright]

theorem names_of_none (h : cutOpen cs = none) : names cs = [] := by
  rw [names, namesFrom, h]

theorem names_of_broken (hopen : cutOpen cs = some (before, after))
    (hclose : cutClose after = none) : names cs = [] := by
  rw [names, namesFrom, hopen]
  simp only [hclose]

theorem names_of_hole (hopen : cutOpen cs = some (before, after))
    (hclose : cutClose after = some (inner, rest)) : names cs = inner :: names rest := by
  have hrest : namesFrom cs.length rest = names rest := namesFrom_eq (length_of_cuts hopen hclose)
  rw [names, namesFrom, hopen]
  simp only [hclose, hrest]

/-- Something is replaced if some hole names a value. -/
theorem replacedAny_iff (cs : List Char) :
    (fill value cs).replacedAny = true ↔ ∃ inner ∈ names cs, (value inner).isSome = true := by
  induction hn : cs.length using Nat.strong_induction_on generalizing cs with
  | _ n ih =>
    rcases hole_cases cs with hopen | ⟨before, after, hopen, hclose⟩ |
      ⟨before, after, inner, rest, hopen, hclose⟩
    · simp [fill_of_none hopen, names_of_none hopen]
    · simp [fill_of_broken hopen hclose, names_of_broken hopen hclose]
    · have hrest := ih rest.length (hn ▸ length_of_cuts hopen hclose) rest rfl
      rw [names_of_hole hopen hclose, List.exists_mem_cons_iff]
      cases hvalue : value inner with
      | none =>
        rw [fill_of_unknown hopen hclose hvalue]
        simpa using hrest
      | some v =>
        rw [fill_of_known hopen hclose hvalue]
        simp

/-- A template in which nothing is replaced is unchanged. -/
theorem text_of_not_replacedAny (h : (fill value cs).replacedAny = false) :
    (fill value cs).text = cs := by
  induction hn : cs.length using Nat.strong_induction_on generalizing cs with
  | _ n ih =>
    rcases hole_cases cs with hopen | ⟨before, after, hopen, hclose⟩ |
      ⟨before, after, inner, rest, hopen, hclose⟩
    · rw [fill_of_none hopen]
    · rw [fill_of_broken hopen hclose]
    · cases hvalue : value inner with
      | none =>
        rw [fill_of_unknown hopen hclose hvalue] at h ⊢
        have hrest := ih rest.length (hn ▸ length_of_cuts hopen hclose) h rfl
        have heq := eq_of_cutOpen hopen
        rw [(cutClose_eq_some_iff.mp hclose).1] at heq
        show before ++ hole inner ++ (fill value rest).text = cs
        rw [hrest, heq, hole]
        simp only [List.append_assoc, List.cons_append, List.nil_append]
      | some v =>
        rw [fill_of_known hopen hclose hvalue] at h
        cases h

/-! ## Values that cannot make a hole -/

/-- A value that has no part of a hole's beginning, whatever it is put between. -/
structure Sealed (v : List Char) : Prop where
  ne_nil : v ≠ []
  head_ne : v.head? ≠ some '{'
  dollar_notMem : '$' ∉ v

/-- Without a `$` there is no hole to begin. -/
theorem cutOpen_append_of_notMem (h : '$' ∉ v) (other : List Char) :
    cutOpen (v ++ other) = (cutOpen other).map fun p ↦ (v ++ p.1, p.2) := by
  induction v with
  | nil => exact Option.map_id'.symm
  | cons c v ih =>
    have hne : ¬∃ rest', c = '$' ∧ v ++ other = '{' :: rest' := by
      rintro ⟨rest', rfl, -⟩
      exact h List.mem_cons_self
    have hv : '$' ∉ v := fun hmem ↦ h (List.mem_cons_of_mem c hmem)
    rw [List.cons_append, cutOpen_cons_of_ne hne, ih hv, Option.map_map]
    rfl

/-- A sealed value in the place of a hole leaves the holes after it, and makes none. -/
theorem cutOpen_sealed (h : cutOpen cs = some (before, after)) (hv : Sealed v)
    (other : List Char) :
    cutOpen (before ++ v ++ other) =
      (cutOpen other).map fun p ↦ (before ++ v ++ p.1, p.2) := by
  have hhead : (v ++ other).head? ≠ some '{' := by
    rw [List.head?_append_of_ne_nil _ hv.ne_nil]
    exact hv.head_ne
  rw [List.append_assoc, cutOpen_before_append h hhead,
    cutOpen_append_of_notMem hv.dollar_notMem, Option.map_map]
  refine congrArg (Option.map · (cutOpen other)) (funext fun p ↦ ?_)
  rw [Function.comp_apply, ← List.append_assoc]

/-- What holes are not in is handed on. -/
theorem fill_append {start other : List Char}
    (h : cutOpen (start ++ other) = (cutOpen other).map fun p ↦ (start ++ p.1, p.2)) :
    fill value (start ++ other) =
      { fill value other with text := start ++ (fill value other).text } := by
  rcases hole_cases other with hopen | ⟨before, after, hopen, hclose⟩ |
    ⟨before, after, inner, rest, hopen, hclose⟩
  · rw [hopen] at h
    rw [fill_of_none h, fill_of_none hopen]
  · rw [hopen] at h
    rw [fill_of_broken h hclose, fill_of_broken hopen hclose]
  · rw [hopen] at h
    cases hvalue : value inner with
    | none =>
      rw [fill_of_unknown h hclose hvalue, fill_of_unknown hopen hclose hvalue]
      simp only [List.append_assoc]
    | some v =>
      rw [fill_of_known h hclose hvalue, fill_of_known hopen hclose hvalue]
      simp only [List.append_assoc]

/-- The values of one table, and of another where the first has none. -/
def orElse (value value' : List Char → Option (List Char)) (inner : List Char) :
    Option (List Char) :=
  (value inner).or (value' inner)

/-- **Filling in some values and then others is filling in all of them**, if what is put in first
makes no holes. -/
theorem fill_fill (hsealed : ∀ inner v, value inner = some v → Sealed v) (cs : List Char) :
    (fill value' (fill value cs).text).text = (fill (orElse value value') cs).text ∧
      (fill value' (fill value cs).text).fullyResolved =
        (fill (orElse value value') cs).fullyResolved ∧
      ((fill value cs).replacedAny || (fill value' (fill value cs).text).replacedAny) =
        (fill (orElse value value') cs).replacedAny := by
  induction hn : cs.length using Nat.strong_induction_on generalizing cs with
  | _ n ih =>
    rcases hole_cases cs with hopen | ⟨before, after, hopen, hclose⟩ |
      ⟨before, after, inner, rest, hopen, hclose⟩
    · simp only [fill_of_none hopen, Bool.or_self, and_self]
    · simp only [fill_of_broken hopen hclose, Bool.or_self, and_self]
    · obtain ⟨htext, hresolved, hany⟩ :=
        ih rest.length (hn ▸ length_of_cuts hopen hclose) rest rfl
      cases hvalue : value inner with
      | some v =>
        have hboth : orElse value value' inner = some v := by rw [orElse, hvalue, Option.some_or]
        rw [fill_of_known hopen hclose hvalue, fill_of_known hopen hclose hboth]
        simp only [fill_append (cutOpen_sealed hopen (hsealed inner v hvalue) _), htext, hresolved,
          Bool.true_or, and_self]
      | none =>
        -- the hole is left, and is found where it was
        have hboth : orElse value value' inner = value' inner := by
          rw [orElse, hvalue, Option.none_or]
        have hopen' : cutOpen (before ++ hole inner ++ (fill value rest).text) =
            some (before, inner ++ '}' :: (fill value rest).text) :=
          cutOpen_before_hole hopen inner _
        have hclose' : cutClose (inner ++ '}' :: (fill value rest).text) =
            some (inner, (fill value rest).text) :=
          cutClose_eq_some_iff.mpr ⟨rfl, (cutClose_eq_some_iff.mp hclose).2⟩
        rw [fill_of_unknown hopen hclose hvalue]
        cases hvalue' : value' inner with
        | none =>
          rw [fill_of_unknown hopen' hclose' hvalue',
            fill_of_unknown hopen hclose (hboth.trans hvalue')]
          exact ⟨by rw [htext], rfl, hany⟩
        | some v =>
          rw [fill_of_known hopen' hclose' hvalue',
            fill_of_known hopen hclose (hboth.trans hvalue')]
          exact ⟨by rw [htext], hresolved, Bool.or_true _⟩

/-- With sealed values, a template is fully resolved if what comes out has no hole. -/
theorem fullyResolved_iff (hsealed : ∀ inner v, value inner = some v → Sealed v)
    (cs : List Char) :
    (fill value cs).fullyResolved = true ↔ cutOpen (fill value cs).text = none := by
  induction hn : cs.length using Nat.strong_induction_on generalizing cs with
  | _ n ih =>
    rcases hole_cases cs with hopen | ⟨before, after, hopen, hclose⟩ |
      ⟨before, after, inner, rest, hopen, hclose⟩
    · simp [fill_of_none hopen, hopen]
    · simp [fill_of_broken hopen hclose, hopen]
    · cases hvalue : value inner with
      | none =>
        rw [fill_of_unknown hopen hclose hvalue]
        rw [cutOpen_before_hole hopen]
        simp
      | some v =>
        rw [fill_of_known hopen hclose hvalue, cutOpen_sealed hopen (hsealed inner v hvalue),
          Option.map_eq_none_iff]
        exact ih rest.length (hn ▸ length_of_cuts hopen hclose) rest rfl

end Template
