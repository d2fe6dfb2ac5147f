import Mathlib.Logic.Basic
import Mathlib.Tactic.Tauto

/-!
# Chains of `and` and `or`

A list of truth values, each with the operator that joins it to what stands before it, has a value:
the links are joined from left to right (`eval`).  `evalEarly` stops at a link that leaves the value
false and is not itself joined by `or`, although an `or` may follow; `evalEarly_eq_iff` says for
which chains that makes a difference.
-/

set_option autoImplicit false

namespace BoolChain

structure Link where
  isOr : Bool
  value : Bool
  deriving DecidableEq, Repr

variable {links : List Link} {v : Bool}

/-- A link joined to the value so far. -/
def join (v : Bool) (l : Link) : Bool := if l.isOr then v || l.value else v && l.value

/-- The value of the chain.  The first link has nothing to be joined to. -/
def eval : List Link → Bool
  | [] => true
  | l :: rest => rest.foldl join l.value

/-- The loop that stops early. -/
def joinEarly : Bool → List Link → Bool
  | v, [] => v
  | v, l :: rest => if !join v l && !l.isOr then join v l else joinEarly (join v l) rest

def evalEarly : List Link → Bool
  | [] => true
  | l :: rest => if !l.value && !l.isOr then l.value else joinEarly l.value rest

/-- The link holds, or may be left out. -/
def Link.keeps (l : Link) : Bool := l.isOr || l.value

/-- An `or` that holds, after which every `and` holds. -/
def Revives (links : List Link) : Prop :=
  ∃ before l after, links = before ++ l :: after ∧ l.isOr = true ∧ l.value = true ∧
    ∀ l' ∈ after, l'.keeps = true

/-- The value is false at a link that is not joined by `or`, and the rest of the chain revives
it. -/
def CutShort (links : List Link) : Prop :=
  ∃ before l after, links = before ++ l :: after ∧ eval (before ++ [l]) = false ∧
    l.isOr = false ∧ Revives after

/-- The chain is carried over a link that fails: the loop that stops early ends with true
although a link fails.  The first link holds, or is joined by `or` and one of the `or`s that follow
it directly holds; every later `and` holds. -/
def CarriedOver : List Link → Prop
  | [] => False
  | l :: rest =>
    (∃ l' ∈ l :: rest, l'.value = false) ∧
      (l.value = true ∨ l.isOr = true ∧ ∃ l' ∈ rest.takeWhile Link.isOr, l'.value = true) ∧
        ∀ l' ∈ rest, l'.keeps = true

/-! ## What brings a chain to true -/

theorem revives_cons (l : Link) :
    Revives (l :: links) ↔
      (l.isOr = true ∧ l.value = true ∧ ∀ l' ∈ links, l'.keeps = true) ∨ Revives links := by
  constructor
  · rintro ⟨before, x, after, heq, hx⟩
    cases before with
    | nil =>
      obtain ⟨rfl, rfl⟩ := List.cons_eq_cons.mp heq
      exact Or.inl hx
    | cons b before =>
      obtain ⟨-, rfl⟩ := List.cons_eq_cons.mp heq
      exact Or.inr ⟨before, x, after, rfl, hx⟩
  · rintro (hl | ⟨before, x, after, rfl, hx⟩)
    · exact ⟨[], l, links, rfl, hl⟩
    · exact ⟨l :: before, x, after, rfl, hx⟩

theorem not_revives_nil : ¬Revives [] := by
  rintro ⟨before, x, after, heq, -⟩
  exact absurd heq (by simp)

/-- A chain joined to a value holds when the value does and nothing takes it away, or when an `or`
brings it back. -/
theorem foldl_join_iff :
    links.foldl join v = true ↔ Revives links ∨ v = true ∧ ∀ l ∈ links, l.keeps = true := by
  induction links generalizing v with
  | nil => simp [not_revives_nil]
  | cons l rest ih =>
    rw [List.foldl_cons, ih, revives_cons, List.forall_mem_cons, join, Link.keeps]
    cases l.isOr <;> cases l.value <;> cases v <;> simp <;> tauto

theorem foldl_join_false : links.foldl join false = true ↔ Revives links := by
  rw [foldl_join_iff]
  simp

theorem Revives.append (before : List Link) (h : Revives links) : Revives (before ++ links) := by
  obtain ⟨b, l, after, rfl, hl⟩ := h
  exact ⟨before ++ b, l, after, (List.append_assoc ..).symm, hl⟩

/-! ## When stopping early changes nothing -/

/-- `CutShort` for a chain that is joined to a value. -/
def CutFrom (v : Bool) (links : List Link) : Prop :=
  ∃ before l after, links = before ++ l :: after ∧ (before ++ [l]).foldl join v = false ∧
    l.isOr = false ∧ Revives after

theorem cutFrom_cons (l : Link) :
    CutFrom v (l :: links) ↔
      (join v l = false ∧ l.isOr = false ∧ Revives links) ∨ CutFrom (join v l) links := by
  constructor
  · rintro ⟨before, x, after, heq, hx⟩
    cases before with
    | nil =>
      obtain ⟨rfl, rfl⟩ := List.cons_eq_cons.mp heq
      exact Or.inl hx
    | cons b before =>
      obtain ⟨rfl, rfl⟩ := List.cons_eq_cons.mp heq
      exact Or.inr ⟨before, x, after, rfl, hx⟩
  · rintro (hl | ⟨before, x, after, rfl, hx⟩)
    · exact ⟨[], l, links, rfl, hl⟩
    · exact ⟨l :: before, x, after, rfl, hx⟩

theorem CutFrom.revives (h : CutFrom v links) : Revives links := by
  obtain ⟨before, l, after, rfl, -, -, hafter⟩ := h
  exact (hafter.append [l]).append before

theorem not_cutFrom_nil : ¬CutFrom v [] := by
  rintro ⟨before, l, after, heq, -⟩
  exact absurd heq (by simp)

theorem joinEarly_eq_iff : joinEarly v links = links.foldl join v ↔ ¬CutFrom v links := by
  induction links generalizing v with
  | nil => simp [joinEarly, not_cutFrom_nil]
  | cons l rest ih =>
    rw [joinEarly, List.foldl_cons, cutFrom_cons]
    by_cases hstop : join v l = false ∧ l.isOr = false
    · -- the loop stops here with false
      have hrevives : CutFrom false rest → Revives rest := CutFrom.revives
      rw [hstop.1, hstop.2, if_pos (by decide), eq_comm, Bool.eq_false_iff, Ne, foldl_join_false]
      tauto
    · have hgoes : ¬(!join v l && !l.isOr) = true := by simpa using hstop
      rw [if_neg hgoes, ih]
      exact not_congr ⟨Or.inr, fun h ↦ h.resolve_left fun h ↦ hstop ⟨h.1, h.2.1⟩⟩

/-- What the first link can be joined to, as if it were one of the others. -/
def start : List Link → Bool
  | [] => true
  | l :: _ => !l.isOr

theorem join_not_isOr (l : Link) : join (!l.isOr) l = l.value := by
  rw [join]
  cases l.isOr <;> rfl

theorem eval_eq_foldl (links : List Link) : eval links = links.foldl join (start links) := by
  cases links with
  | nil => rfl
  | cons l rest => rw [eval, start, List.foldl_cons, join_not_isOr]

theorem evalEarly_eq_joinEarly (links : List Link) :
    evalEarly links = joinEarly (start links) links := by
  cases links with
  | nil => rfl
  | cons l rest => rw [evalEarly, start, joinEarly, join_not_isOr]

theorem cutShort_iff : CutShort links ↔ CutFrom (start links) links := by
  have hstart : ∀ before (l : Link) after,
      start (before ++ [l]) = start (before ++ l :: after) := by
    intro before l after
    cases before <;> rfl
  refine exists_congr fun before ↦ exists_congr fun l ↦ exists_congr fun after ↦
    and_congr_right fun heq ↦ ?_
  rw [eval_eq_foldl, heq, hstart before l after]

/-- **The early exit changes the value of a chain exactly when it cuts the chain short.** -/
theorem evalEarly_eq_iff (links : List Link) :
    evalEarly links = eval links ↔ ¬CutShort links := by
  rw [evalEarly_eq_joinEarly, eval_eq_foldl, cutShort_iff]
  exact joinEarly_eq_iff

/-! ## The early loop and the conjunction -/

theorem joinEarly_true_iff : joinEarly true links = true ↔ ∀ l ∈ links, l.keeps = true := by
  induction links with
  | nil => simp [joinEarly]
  | cons l rest ih =>
    rw [joinEarly, List.forall_mem_cons, join, Link.keeps]
    cases l.isOr <;> cases l.value <;> simp [ih]

/-- A chain that is false so far is brought to true by one of the `or`s it goes on with. -/
theorem joinEarly_false_iff :
    joinEarly false links = true ↔
      (∃ l ∈ links.takeWhile Link.isOr, l.value = true) ∧ ∀ l ∈ links, l.keeps = true := by
  induction links with
  | nil => simp [joinEarly]
  | cons l rest ih =>
    rw [joinEarly, List.forall_mem_cons, List.takeWhile_cons, join, Link.keeps]
    cases hor : l.isOr with
    | false => simp
    | true =>
      cases hvalue : l.value with
      | false => simp [ih, hvalue]
      | true => simp [joinEarly_true_iff, hvalue]

theorem evalEarly_cons_iff (l : Link) (rest : List Link) :
    evalEarly (l :: rest) = true ↔
      (l.value = true ∨ l.isOr = true ∧ ∃ l' ∈ rest.takeWhile Link.isOr, l'.value = true) ∧
        ∀ l' ∈ rest, l'.keeps = true := by
  rw [evalEarly]
  cases hvalue : l.value with
  | true => simp [joinEarly_true_iff]
  | false =>
    cases hor : l.isOr with
    | true => simp [joinEarly_false_iff]
    | false => simp

/-- **The early loop computes the conjunction of the links exactly when the chain is not carried
over a link that fails.** -/
theorem evalEarly_eq_all_iff (links : List Link) :
    evalEarly links = links.all Link.value ↔ ¬CarriedOver links := by
  cases links with
  | nil => simp [evalEarly, CarriedOver]
  | cons l rest =>
    rw [CarriedOver, ← evalEarly_cons_iff]
    cases hall : (l :: rest).all Link.value with
    | true =>
      have hholds : ∀ l' ∈ l :: rest, l'.value = true := List.all_eq_true.mp hall
      have hpasses : evalEarly (l :: rest) = true := by
        rw [evalEarly_cons_iff]
        refine ⟨Or.inl (hholds l List.mem_cons_self), fun l' hl' ↦ ?_⟩
        rw [Link.keeps, hholds l' (List.mem_cons_of_mem l hl'), Bool.or_true]
      rw [hpasses]
      refine iff_of_true rfl ?_
      rintro ⟨⟨l', hl', hfails⟩, -⟩
      exact absurd ((hholds l' hl').symm.trans hfails) (by decide)
    | false =>
      obtain ⟨l', hl', hfails⟩ := List.all_eq_false.mp hall
      have hexists : ∃ l' ∈ l :: rest, l'.value = false := ⟨l', hl', by simpa using hfails⟩
      rw [← Bool.not_eq_true]
      exact not_congr (and_iff_right hexists).symm

end BoolChain
