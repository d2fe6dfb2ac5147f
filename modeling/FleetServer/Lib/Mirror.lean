import Mathlib.Data.Multiset.AddSub
import Mathlib.Data.Multiset.Replicate
import FleetServer.Lib.Run

/-!
# A value and its mirror

Several parties change one value, each under the value's lock, and each copies what it has written
to a mirror after it has let the lock go.  The copies arrive in any order, so an old one can come
last and stay.

`Current` is the condition that rules this out: a value is copied only while it is still the value,
or while a copy of the value is still to come.  In the runs that meet it the mirror is right
whenever nothing is left to copy (`mirror_eq_value`).
-/

set_option autoImplicit false

open GuardedRun

structure Mirrored (α : Type) where
  value : α
  mirror : α
  /-- What has been written and not been copied yet. -/
  pending : Multiset α

namespace Mirrored

variable {α : Type} [DecidableEq α] {s : Mirrored α}

inductive Action (α : Type)
  | write (a : α)
  | copy (a : α)

/-- One step of one of the parties. -/
def step (s : Mirrored α) : Action α → Option (Mirrored α)
  | .write a => some { s with value := a, pending := a ::ₘ s.pending }
  | .copy a =>
    if a ∈ s.pending then some { s with mirror := a, pending := s.pending.erase a } else none

/-- What is copied is the value, or a copy of the value is still to come. -/
def Current (s : Mirrored α) : Action α → Prop
  | .write _ => True
  | .copy a => a = s.value ∨ s.value ∈ s.pending.erase a

theorem step_copy {a : α} {rest : Multiset α} (h : s.pending = a ::ₘ rest) :
    s.step (.copy a) = some { s with mirror := a, pending := rest } := by
  rw [step, h, if_pos (Multiset.mem_cons_self a rest), Multiset.erase_cons_head]

theorem current_copy {a : α} {rest : Multiset α} (h : s.pending = a ::ₘ rest) :
    s.Current (.copy a) ↔ a = s.value ∨ s.value ∈ rest := by
  rw [Current, h, Multiset.erase_cons_head]

def Initial (s : Mirrored α) : Prop := s.mirror = s.value ∧ s.pending = 0

/-- **The mirror shows the value when nothing is left to copy.** -/
theorem mirror_eq_value (h : Reachable step Current Initial s) (hdone : s.pending = 0) :
    s.mirror = s.value := by
  have hinv : s.pending = 0 → s.mirror = s.value := by
    refine h.invariant (I := fun s ↦ s.pending = 0 → s.mirror = s.value)
      (fun s hs _ ↦ hs.1) fun s a s' _ _ hok hs hdone ↦ ?_
    cases a with
    | write a =>
      obtain rfl := Option.some.inj hs
      exact absurd hdone Multiset.cons_ne_zero
    | copy a =>
      rw [step] at hs
      split at hs
      · obtain rfl := Option.some.inj hs
        rcases hok with hcurrent | hcoming
        · exact hcurrent
        · rw [show s.pending.erase a = 0 from hdone] at hcoming
          exact absurd hcoming (Multiset.notMem_zero _)
      · exact absurd hs (by simp)
  exact hinv hdone

end Mirrored
