import Mathlib.Data.Set.Basic
import Mathlib.Logic.Function.Basic
import FleetServer.Lib.Run

/-!
# Leases

A table gives each key at most one lease, and a lease has a holder and a time at which it ends.
Whoever works on the table at a time `now` does so on behalf of some agents, `who`.  It *respects*
the leases of the others when it leaves alone every key that is held by an agent outside `who`
whose lease has not ended (`Respects`).  Respecting the others composes, so it is checked for each
write to the table and holds of the loops over writes; and in a system that respects the others
step by step, a lease lasts until it ends for as long as nobody works on behalf of its holder
(`lease_kept`).
-/

set_option autoImplicit false

namespace Leases

variable {K A L ι σ α : Type}

/-- The two things that are read of a lease. -/
structure Reading (A L : Type) where
  holder : L → A
  expires : L → ℕ

variable (rd : Reading A L) (who : Set A) (now : ℕ)

/-- The key is leased to an agent outside `who`, and the lease has not ended. -/
def HeldOutside (t : K → Option L) (k : K) : Prop :=
  ∃ l, t k = some l ∧ rd.holder l ∉ who ∧ now < rd.expires l

/-- What is held outside stays as it is. -/
def Respects (t t' : K → Option L) : Prop := ∀ k, HeldOutside rd who now t k → t' k = t k

/-- The agent has a lease of the key that has not ended. -/
def Holds (t : K → Option L) (a : A) (k : K) : Prop :=
  ∃ l, t k = some l ∧ rd.holder l = a ∧ now < rd.expires l

variable {rd who now} {t t' t'' : K → Option L} {k : K}

/-- **At most one agent holds a key.** -/
theorem Holds.unique {a b : A} (ha : Holds rd now t a k) (hb : Holds rd now t b k) : a = b := by
  obtain ⟨l, hl, rfl, -⟩ := ha
  obtain ⟨l', hl', rfl, -⟩ := hb
  rw [Option.some.inj (hl.symm.trans hl')]

theorem Respects.refl (t : K → Option L) : Respects rd who now t t := fun _ _ ↦ rfl

theorem Respects.trans (h : Respects rd who now t t') (h' : Respects rd who now t' t'') :
    Respects rd who now t t'' := by
  intro k hk
  have heq := h k hk
  have hk' : HeldOutside rd who now t' k := by
    obtain ⟨l, hl, hlive⟩ := hk
    exact ⟨l, heq.trans hl, hlive⟩
  exact (h' k hk').trans heq

/-- Working for fewer agents asks for more. -/
theorem Respects.mono {who' : Set A} (hle : who ⊆ who') (h : Respects rd who now t t') :
    Respects rd who' now t t' := by
  rintro k ⟨l, hl, hout, hlive⟩
  exact h k ⟨l, hl, fun hmem ↦ hout (hle hmem), hlive⟩

/-- Writing a key that is not held outside. -/
theorem respects_update [DecidableEq K] (h : ¬HeldOutside rd who now t k) (l : Option L) :
    Respects rd who now t (Function.update t k l) := by
  intro k' hk'
  have hne : k' ≠ k := by
    rintro rfl
    exact h hk'
  exact Function.update_of_ne hne l t

/-- Deleting only leases of `who`, and leases that have ended. -/
theorem respects_filter {keep : L → Bool}
    (h : ∀ l, keep l = false → rd.holder l ∈ who ∨ rd.expires l ≤ now) :
    Respects rd who now t fun k ↦ (t k).filter keep := by
  rintro k ⟨l, hl, hout, hlive⟩
  have hkeep : keep l = true := by
    by_contra hnot
    rcases h l (by simpa using hnot) with hmem | hended
    · exact hout hmem
    · omega
  show (t k).filter keep = t k
  rw [hl, Option.filter_some_pos hkeep]

/-- A loop each of whose rounds respects the others. -/
theorem respects_foldl {table : σ → K → Option L} {f : σ → ι → σ} {rounds : List ι}
    (h : ∀ s, ∀ i ∈ rounds, Respects rd who now (table s) (table (f s i))) (s : σ) :
    Respects rd who now (table s) (table (rounds.foldl f s)) := by
  induction rounds generalizing s with
  | nil => exact Respects.refl _
  | cons i rest ih =>
    exact (h s i List.mem_cons_self).trans
      (ih (fun s j hj ↦ h s j (List.mem_cons_of_mem _ hj)) (f s i))

/-- **A lease lasts.**  In a run in which nobody works on behalf of its holder a lease stays in the
table until it ends. -/
theorem lease_kept {step : σ → α → Option σ} {time : σ → ℕ} {table : σ → K → Option L}
    {behalf : α → Set A}
    (hstep : ∀ s a s', step s a = some s' →
      time s ≤ time s' ∧ Respects rd (behalf a) (time s') (table s) (table s'))
    {s s' : σ} {l : L}
    (hrun : GuardedRun.Reachable step (fun _ a ↦ rd.holder l ∉ behalf a) (· = s) s')
    (hlease : table s k = some l) : time s' < rd.expires l → table s' k = some l := by
  refine hrun.invariant (I := fun s' ↦ time s' < rd.expires l → table s' k = some l) ?_ ?_
  · rintro s' rfl _
    exact hlease
  · intro s₁ a s₂ _ ih hout hs hlive
    obtain ⟨htime, hrespects⟩ := hstep s₁ a s₂ hs
    have hl := ih (by omega)
    exact (hrespects k ⟨l, hl, hout, hlive⟩).trans hl

end Leases
