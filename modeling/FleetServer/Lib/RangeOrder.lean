import Mathlib.Data.List.Perm.Basic

/-!
# Iterating over a map

A loop over a map visits every entry once, in an order that nothing determines.  Where a loop may
depend on the order, the function that contains it takes the order as a parameter; what is proved
of the function is then proved for every order.
-/

set_option autoImplicit false

/-- An order to visit the entries of a map in. -/
structure RangeOrder (α : Type) where
  range : List α → List α
  perm : ∀ entries, (range entries).Perm entries

namespace RangeOrder

variable {α : Type}

/-- The entries as they come. -/
def asListed (α : Type) : RangeOrder α := ⟨id, fun _ ↦ .refl _⟩

@[simp] theorem mem_range (order : RangeOrder α) {entries : List α} {a : α} :
    a ∈ order.range entries ↔ a ∈ entries :=
  (order.perm entries).mem_iff

/-- Any order of the entries of one map may come up. -/
theorem exists_range_eq {entries l : List α} (h : l.Perm entries) :
    ∃ order : RangeOrder α, order.range entries = l := by
  classical
  refine ⟨⟨fun other ↦ if other = entries then l else other, fun other ↦ ?_⟩, if_pos rfl⟩
  split
  · rename_i heq
    rwa [heq]
  · exact .refl _

end RangeOrder
