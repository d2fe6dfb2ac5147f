import Mathlib.Data.List.Forall2

/-!
# Loops that may fail

A function that may fail has its values in `Except`, and a loop of such functions stops at the first
one that does.  What is known of a loop that has succeeded is that every round has: a `mapM` that
returns a list relates the two lists element by element (`forall₂_of_mapM`), and lists related
element by element are composed (`forall₂_comp`) and read (`map_eq_of_forall₂`) as such.
-/

set_option autoImplicit false

namespace Fallible

variable {α β γ ε : Type}

theorem exists_of_map_eq_ok {f : α → β} {x : Except ε α} {b : β} (h : x.map f = .ok b) :
    ∃ a, x = .ok a ∧ f a = b := by
  cases x with
  | error e => exact absurd h (by simp [Except.map])
  | ok a => exact ⟨a, rfl, Except.ok.inj h⟩

theorem exists_of_bind_eq_ok {x : Except ε α} {f : α → Except ε β} {b : β}
    (h : x >>= f = .ok b) : ∃ a, x = .ok a ∧ f a = .ok b := by
  cases x with
  | error e => exact absurd h (by simp [bind, Except.bind])
  | ok a => exact ⟨a, rfl, h⟩

/-- A loop that succeeds has succeeded on every element. -/
theorem forall₂_of_mapM {f : α → Except ε β} {as : List α} {bs : List β}
    (h : as.mapM f = .ok bs) : List.Forall₂ (fun a b ↦ f a = .ok b) as bs := by
  induction as generalizing bs with
  | nil =>
    obtain rfl : [] = bs := by simpa [pure, Except.pure] using h
    exact .nil
  | cons a as ih =>
    rw [List.mapM_cons] at h
    obtain ⟨b, ha, h⟩ := exists_of_bind_eq_ok h
    obtain ⟨bs', has, h⟩ := exists_of_bind_eq_ok h
    obtain rfl : b :: bs' = bs := Except.ok.inj h
    exact .cons ha (ih has)

/-! ## Lists related element by element -/

theorem exists_of_mem_right {R : α → β → Prop} {as : List α} {bs : List β}
    (h : List.Forall₂ R as bs) {b : β} (hb : b ∈ bs) : ∃ a ∈ as, R a b := by
  induction h with
  | nil => exact absurd hb List.not_mem_nil
  | @cons a first as rest hfirst _ ih =>
    rcases List.mem_cons.mp hb with rfl | hrest
    · exact ⟨a, List.mem_cons_self, hfirst⟩
    · obtain ⟨a', ha', hR⟩ := ih hrest
      exact ⟨a', List.mem_cons_of_mem a ha', hR⟩

/-- An element of what the loop returns comes from one of the rounds. -/
theorem exists_of_mem_mapM_flatten {f : α → Except ε (List β)} {as : List α} {bs : List β}
    (h : (as.mapM f).map List.flatten = .ok bs) {b : β} (hb : b ∈ bs) :
    ∃ a ∈ as, ∃ group, f a = .ok group ∧ b ∈ group := by
  obtain ⟨groups, hgroups, rfl⟩ := exists_of_map_eq_ok h
  obtain ⟨group, hgroup, hmem⟩ := List.mem_flatten.mp hb
  obtain ⟨a, ha, hf⟩ := exists_of_mem_right (forall₂_of_mapM hgroups) hgroup
  exact ⟨a, ha, group, hf, hmem⟩

theorem forall₂_comp {R : α → β → Prop} {S : β → γ → Prop} {as : List α} {bs : List β}
    {cs : List γ} (h : List.Forall₂ R as bs) (h' : List.Forall₂ S bs cs) :
    List.Forall₂ (fun a c ↦ ∃ b, R a b ∧ S b c) as cs := by
  induction h generalizing cs with
  | nil =>
    rw [List.forall₂_nil_left_iff.mp h']
    exact .nil
  | cons hab _ ih =>
    obtain ⟨c, cs, hbc, hrest, rfl⟩ := List.forall₂_cons_left_iff.mp h'
    exact .cons ⟨_, hab, hbc⟩ (ih hrest)

theorem map_eq_of_forall₂ {f : α → γ} {g : β → γ} {as : List α} {bs : List β}
    (h : List.Forall₂ (fun a b ↦ g b = f a) as bs) : bs.map g = as.map f := by
  rw [← List.forall₂_eq_eq_eq, List.forall₂_map_left_iff, List.forall₂_map_right_iff]
  exact h.flip

end Fallible
