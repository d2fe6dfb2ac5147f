import Mathlib.Data.Finset.Card
import Mathlib.Logic.Function.Basic
import Mathlib.Logic.Relation

/-!
# Marking what can be reached

The search that marks a node and goes on from each of its successors, and stops at a node that is
marked already.  The marks are shared by all branches.  A number bounds how deep the search goes; a
bound as large as a set of nodes that no edge leaves is enough, and then the nodes marked are those
that can be reached (`mark_iff`).
-/

set_option autoImplicit false

namespace Marking

variable {α : Type} [DecidableEq α]

/-- The marks after the search has been at a node. -/
def mark (succ : α → List α) : ℕ → (α → Bool) → α → α → Bool
  | 0, marked, _ => marked
  | fuel + 1, marked, x =>
    if marked x then marked
    else (succ x).foldl (mark succ fuel) (Function.update marked x true)

variable {succ : α → List α} {nodes : Finset α} {marked marked' marked'' : α → Bool} {x : α}

/-- The nodes that are still to be marked. -/
def unmarked (nodes : Finset α) (marked : α → Bool) : ℕ :=
  (nodes.filter fun x ↦ marked x = false).card

/-- A part of the search marks only what can be reached from one of `sources`, and with each node
that it marks the successors of that node. -/
structure Extends (succ : α → List α) (sources : List α) (marked marked' : α → Bool) : Prop where
  mono : ∀ x, marked x = true → marked' x = true
  sound : ∀ x, marked' x = true → marked x = true ∨
    ∃ source ∈ sources, Relation.ReflTransGen (fun a b ↦ b ∈ succ a) source x
  closed : ∀ x, marked' x = true → marked x = false → ∀ y ∈ succ x, marked' y = true
  sources : ∀ source ∈ sources, marked' source = true

omit [DecidableEq α] in
/-- Nothing is to be done. -/
theorem Extends.refl {sources : List α} (hsources : ∀ source ∈ sources, marked source = true) :
    Extends succ sources marked marked where
  mono _ := id
  sound _ := .inl
  closed x hx hold := by
    rw [hx] at hold
    cases hold
  sources := hsources

omit [DecidableEq α] in
theorem Extends.unmarked_le {sources : List α} (h : Extends succ sources marked marked') :
    unmarked nodes marked' ≤ unmarked nodes marked := by
  refine Finset.card_le_card fun x hx ↦ ?_
  obtain ⟨hmem, hnew⟩ := Finset.mem_filter.mp hx
  refine Finset.mem_filter.mpr ⟨hmem, Bool.eq_false_iff.mpr fun hold ↦ ?_⟩
  rw [h.mono x hold] at hnew
  cases hnew

omit [DecidableEq α] in
/-- One search after the other. -/
theorem Extends.append {sources sources' : List α} (h : Extends succ sources marked marked')
    (h' : Extends succ sources' marked' marked'') :
    Extends succ (sources ++ sources') marked marked'' where
  mono x hx := h'.mono x (h.mono x hx)
  sound x hx := by
    rcases h'.sound x hx with hx | ⟨source, hmem, hreach⟩
    · exact (h.sound x hx).imp_right fun ⟨source, hmem, hreach⟩ ↦
        ⟨source, List.mem_append_left _ hmem, hreach⟩
    · exact .inr ⟨source, List.mem_append_right _ hmem, hreach⟩
  closed x hx hold y hy := by
    cases hmid : marked' x with
    | true => exact h'.mono y (h.closed x hmid hold y hy)
    | false => exact h'.closed x hx hmid y hy
  sources source hmem := by
    rcases List.mem_append.mp hmem with hmem | hmem
    · exact h'.mono source (h.sources source hmem)
    · exact h'.sources source hmem

theorem unmarked_update_lt (hx : x ∈ nodes) (hnew : marked x = false) :
    unmarked nodes (Function.update marked x true) < unmarked nodes marked := by
  refine Finset.card_lt_card (Finset.ssubset_iff_of_subset (fun y hy ↦ ?_) |>.mpr ⟨x, ?_, ?_⟩)
  · obtain ⟨hmem, hfalse⟩ := Finset.mem_filter.mp hy
    rw [Function.update_apply] at hfalse
    split at hfalse
    · cases hfalse
    · exact Finset.mem_filter.mpr ⟨hmem, hfalse⟩
  · exact Finset.mem_filter.mpr ⟨hx, hnew⟩
  · intro hmem
    have := (Finset.mem_filter.mp hmem).2
    rw [Function.update_self] at this
    cases this

/-- **What the search at one node does.** -/
theorem mark_extends (hclosed : ∀ x ∈ nodes, ∀ y ∈ succ x, y ∈ nodes) {fuel : ℕ} (hx : x ∈ nodes)
    (hfuel : unmarked nodes marked ≤ fuel) :
    Extends succ [x] marked (mark succ fuel marked x) := by
  induction fuel generalizing marked x with
  | zero =>
    refine .refl fun source hsource ↦ ?_
    rw [List.mem_singleton.mp hsource]
    by_contra hnew
    have hmem : x ∈ nodes.filter fun y ↦ marked y = false :=
      Finset.mem_filter.mpr ⟨hx, Bool.eq_false_iff.mpr hnew⟩
    have := Finset.card_pos.mpr ⟨x, hmem⟩
    rw [unmarked] at hfuel
    omega
  | succ fuel ih =>
    rw [mark]
    split
    · rename_i hold
      exact .refl (by simpa using hold)
    rename_i hnew
    have hnew := Bool.eq_false_iff.mpr hnew
    -- the loop over the successors
    have hloop : ∀ (ys : List α) (m : α → Bool), (∀ y ∈ ys, y ∈ nodes) →
        unmarked nodes m ≤ fuel → Extends succ ys m (ys.foldl (mark succ fuel) m) := by
      intro ys
      induction ys with
      | nil => exact fun m _ _ ↦ .refl (by simp)
      | cons y ys ihys =>
        intro m hys hm
        obtain ⟨hy, hys⟩ := List.forall_mem_cons.mp hys
        have hfirst := ih hy hm
        exact hfirst.append (ihys _ hys (hfirst.unmarked_le.trans hm))
    have hlt := unmarked_update_lt hx hnew
    have hrest := hloop (succ x) (Function.update marked x true) (hclosed x hx) (by omega)
    refine ⟨fun y hy ↦ hrest.mono y ?_, fun y hy ↦ ?_, fun y hy hold z hz ↦ ?_, ?_⟩
    · rw [Function.update_apply]
      split
      · rfl
      · exact hy
    · rcases hrest.sound y hy with hy | ⟨source, hmem, hreach⟩
      · rw [Function.update_apply] at hy
        split at hy
        · rename_i heq
          exact .inr ⟨x, List.mem_singleton_self x, heq ▸ .refl⟩
        · exact .inl hy
      · exact .inr ⟨x, List.mem_singleton_self x, hreach.head hmem⟩
    · by_cases heq : y = x
      · subst heq
        exact hrest.sources z hz
      · exact hrest.closed y hy (by rw [Function.update_of_ne heq, hold]) z hz
    · intro source hmem
      rw [List.mem_singleton.mp hmem]
      exact hrest.mono x (Function.update_self ..)

/-- **The nodes marked are those that can be reached.** -/
theorem mark_iff (hclosed : ∀ x ∈ nodes, ∀ y ∈ succ x, y ∈ nodes) (hx : x ∈ nodes) {fuel : ℕ}
    (hfuel : nodes.card ≤ fuel) (y : α) :
    mark succ fuel (fun _ ↦ false) x y = true ↔
      Relation.ReflTransGen (fun a b ↦ b ∈ succ a) x y := by
  have hmark : Extends succ [x] (fun _ ↦ false) (mark succ fuel (fun _ ↦ false) x) :=
    mark_extends hclosed hx ((Finset.card_filter_le _ _).trans hfuel)
  constructor
  · intro hy
    rcases hmark.sound y hy with hy | ⟨source, hmem, hreach⟩
    · cases hy
    · rwa [List.mem_singleton.mp hmem] at hreach
  · intro hreach
    induction hreach with
    | refl => exact hmark.sources x (List.mem_singleton_self x)
    | tail _ hstep ih => exact hmark.closed _ ih rfl _ hstep

end Marking
