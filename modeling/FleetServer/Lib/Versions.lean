import Mathlib.Data.Int.Notation
import Mathlib.Tactic.Common

/-!
# Values that carry a version

A value is stored over and over, each time with a version; readers keep pairs of a version and a
value they have seen.  `Coherent seen now` says of everything seen so far, and of what is stored
now, that the version tells the value: no two different values bear the same version, and no version
is newer than the one stored.

Two ways of storing keep this: the same pair again, and a new value under the next version.  What a
reader gets out of it is `Coherent.eq_now`: a pair that still bears the current version *is* what is
stored.
-/

set_option autoImplicit false

namespace Versions

variable {C : Type} {seen : List (ℤ × C)} {now p : ℤ × C}

/-- The version tells the value, among everything seen up to now. -/
structure Coherent (seen : List (ℤ × C)) (now : ℤ × C) : Prop where
  mem : now ∈ seen
  le : ∀ p ∈ seen, p.1 ≤ now.1
  agree : ∀ p ∈ seen, ∀ q ∈ seen, p.1 = q.1 → p.2 = q.2

theorem Coherent.start (now : ℤ × C) : Coherent [now] now where
  mem := List.mem_singleton_self now
  le := by simp
  agree := by
    intro p hp q hq _
    rw [List.mem_singleton.mp hp, List.mem_singleton.mp hq]

/-- **What bears the current version is what is stored.** -/
theorem Coherent.eq_now (h : Coherent seen now) (hp : p ∈ seen) (hv : p.1 = now.1) : p = now :=
  Prod.ext hv (h.agree p hp now h.mem hv)

/-- Storing the same value once more. -/
theorem Coherent.again (h : Coherent seen now) : Coherent (now :: seen) now where
  mem := List.mem_cons_self
  le := List.forall_mem_cons.mpr ⟨Int.le_refl _, h.le⟩
  agree := by
    intro p hp q hq hv
    have hseen : ∀ r ∈ now :: seen, r ∈ seen := List.forall_mem_cons.mpr ⟨h.mem, fun _ hr ↦ hr⟩
    exact h.agree p (hseen p hp) q (hseen q hq) hv

/-- Storing any value under the next version. -/
theorem Coherent.bump (h : Coherent seen now) (c : C) :
    Coherent ((now.1 + 1, c) :: seen) (now.1 + 1, c) where
  mem := List.mem_cons_self
  le := by
    refine List.forall_mem_cons.mpr ⟨Int.le_refl _, fun p hp ↦ ?_⟩
    have := h.le p hp
    show p.1 ≤ now.1 + 1
    omega
  agree := by
    -- nothing seen before bears the next version
    have hold : ∀ p ∈ seen, p.1 ≠ now.1 + 1 := by
      intro p hp
      have := h.le p hp
      omega
    intro p hp q hq hv
    rcases List.mem_cons.mp hp with rfl | hp <;> rcases List.mem_cons.mp hq with rfl | hq
    · rfl
    · exact absurd hv.symm (hold q hq)
    · exact absurd hv (hold p hp)
    · exact h.agree p hp q hq hv

end Versions
