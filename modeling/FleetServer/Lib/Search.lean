import Mathlib.Data.Nat.Init

/-!
# Searching upwards for the first free index

The loop `for blocked(n) { n++ }`, with a bound on the number of tries so that it is a function.
The bound is only ever a resource: a search that succeeds keeps its answer under a larger bound
(`firstFree_mono`), and *some* bound is enough exactly when there is a free index to be found
(`exists_firstFree_iff`).  So "the loop exits" is `∃ fuel, (firstFree blocked fuel n).isSome`, and
a loop that never exits is one whose search is `none` for every bound.
-/

set_option autoImplicit false

namespace UpwardSearch

variable {blocked : ℕ → Bool}

/-- The first index from `n` on that is not blocked, if it shows up within `fuel` tries. -/
def firstFree (blocked : ℕ → Bool) : ℕ → ℕ → Option ℕ
  | 0, _ => none
  | fuel + 1, n => if blocked n then firstFree blocked fuel (n + 1) else some n

/-- `m` is the least free index from `n` on. -/
def IsFirstFree (blocked : ℕ → Bool) (n m : ℕ) : Prop :=
  n ≤ m ∧ blocked m = false ∧ ∀ k, n ≤ k → k < m → blocked k = true

theorem IsFirstFree.unique {n m m' : ℕ} (h : IsFirstFree blocked n m)
    (h' : IsFirstFree blocked n m') : m = m' := by
  rcases Nat.lt_trichotomy m m' with hlt | heq | hlt
  · exact absurd (h'.2.2 m h.1 hlt) (by simp [h.2.1])
  · exact heq
  · exact absurd (h.2.2 m' h'.1 hlt) (by simp [h'.2.1])

/-- **What the loop returns**: the least free index from its starting point on. -/
theorem firstFree_spec {fuel n m : ℕ} (h : firstFree blocked fuel n = some m) :
    IsFirstFree blocked n m := by
  induction fuel generalizing n with
  | zero => simp [firstFree] at h
  | succ fuel ih =>
    rw [firstFree] at h
    split at h
    · rename_i hn
      obtain ⟨hle, hfree, hall⟩ := ih h
      refine ⟨by omega, hfree, fun k hk hkm ↦ ?_⟩
      rcases Nat.eq_or_lt_of_le hk with rfl | hlt
      · exact hn
      · exact hall k hlt hkm
    · rename_i hn
      obtain rfl : n = m := by simpa using h
      exact ⟨Nat.le_refl n, by simpa using hn, fun k hk hkm ↦ by omega⟩

theorem firstFree_mono {fuel fuel' n m : ℕ} (h : firstFree blocked fuel n = some m)
    (hle : fuel ≤ fuel') : firstFree blocked fuel' n = some m := by
  induction fuel generalizing fuel' n with
  | zero => simp [firstFree] at h
  | succ fuel ih =>
    obtain ⟨fuel', rfl⟩ : ∃ k, fuel' = k + 1 := ⟨fuel' - 1, by omega⟩
    rw [firstFree] at h ⊢
    split at h
    · rename_i hn
      rw [if_pos hn]
      exact ih h (by omega)
    · rename_i hn
      rw [if_neg hn]
      exact h

/-- The search finds its way to a free index that is `d` steps up. -/
theorem firstFree_isSome {d n : ℕ} (h : blocked (n + d) = false) :
    (firstFree blocked (d + 1) n).isSome := by
  induction d generalizing n with
  | zero => simp_all [firstFree]
  | succ d ih =>
    rw [firstFree]
    split
    · exact ih (by rw [← h]; congr 1; omega)
    · rfl

/-- **The loop exits exactly when there is a free index to exit at.** -/
theorem exists_firstFree_iff {n : ℕ} :
    (∃ fuel, (firstFree blocked fuel n).isSome) ↔ ∃ m, n ≤ m ∧ blocked m = false := by
  constructor
  · rintro ⟨fuel, h⟩
    obtain ⟨m, hm⟩ := Option.isSome_iff_exists.mp h
    obtain ⟨hle, hfree, -⟩ := firstFree_spec hm
    exact ⟨m, hle, hfree⟩
  · rintro ⟨m, hle, hfree⟩
    refine ⟨m - n + 1, firstFree_isSome ?_⟩
    rwa [Nat.add_sub_cancel' hle]

/-! ## A starting point raised by a loop -/

section

variable {α : Type*} {f : ℕ → α → ℕ}

theorem le_foldl (hf : ∀ n a, n ≤ f n a) (as : List α) (n : ℕ) : n ≤ as.foldl f n := by
  induction as generalizing n with
  | nil => exact Nat.le_refl n
  | cons a as ih => exact Nat.le_trans (hf n a) (ih (f n a))

/-- What one round of the loop raises the starting point to, it stays above. -/
theorem le_foldl_of_mem (hf : ∀ n a, n ≤ f n a) {as : List α} {a : α} (ha : a ∈ as) {r : ℕ}
    (hr : ∀ n, r ≤ f n a) (n : ℕ) : r ≤ as.foldl f n := by
  induction as generalizing n with
  | nil => exact absurd ha List.not_mem_nil
  | cons b as ih =>
    rw [List.foldl_cons]
    rcases List.mem_cons.mp ha with rfl | ha
    · exact Nat.le_trans (hr n) (le_foldl hf as (f n a))
    · exact ih ha (f n b)

end

end UpwardSearch
