import Mathlib.Data.List.Count
import Mathlib.Data.List.Forall2
import Mathlib.Data.List.Nodup
import Mathlib.Data.List.Perm.Basic

/-!
# Choosing one element of each of several lists, no element twice

A search that gives every slot a value of its own tries, slot by slot, the candidates that are not
used yet, and takes a candidate back before it tries the next.  `choices` lists the leaves of that
search in the order they are reached, and `mem_choices` says which they are: the lists that take
one element of each candidate list and none twice.  When no candidate list repeats an element, no
leaf is reached twice (`nodup_choices`), and a leaf is reached once exactly when none of its
elements is repeated among its candidates (`count_choices_eq_one`).
-/

set_option autoImplicit false

namespace Choices

variable {α : Type}

/-- A list that has one element of each of the candidate lists, and no element twice. -/
structure IsChoice (sets : List (List α)) (c : List α) : Prop where
  mem : List.Forall₂ (· ∈ ·) c sets
  nodup : c.Nodup

theorem isChoice_nil {c : List α} : IsChoice [] c ↔ c = [] := by
  constructor
  · rintro ⟨hmem, -⟩
    exact List.forall₂_nil_right_iff.mp hmem
  · rintro rfl
    exact ⟨.nil, List.nodup_nil⟩

theorem isChoice_cons {set : List α} {sets : List (List α)} {c : List α} :
    IsChoice (set :: sets) c ↔
      ∃ a c', c = a :: c' ∧ a ∈ set ∧ a ∉ c' ∧ IsChoice sets c' := by
  constructor
  · rintro ⟨hmem, hnodup⟩
    obtain ⟨a, c', ha, hc', rfl⟩ := List.forall₂_cons_right_iff.mp hmem
    rw [List.nodup_cons] at hnodup
    exact ⟨a, c', rfl, ha, hnodup.1, hc', hnodup.2⟩
  · rintro ⟨a, c', rfl, ha, hnew, hc', hnodup⟩
    exact ⟨.cons ha hc', List.nodup_cons.mpr ⟨hnew, hnodup⟩⟩

/-- The order of the candidate lists does not matter for whether there is a choice. -/
theorem IsChoice.perm {sets sets' : List (List α)} (hperm : sets.Perm sets') {c : List α}
    (hc : IsChoice sets c) : ∃ c', IsChoice sets' c' := by
  obtain ⟨c', hmem, hc'⟩ := List.perm_comp_forall₂ hperm.symm hc.mem.flip
  exact ⟨c', hmem.flip, hc'.nodup_iff.mpr hc.nodup⟩

/-! ## The search -/

variable [DecidableEq α]

/-- The choices that avoid what is used already, in the order of the search. -/
def choices : List (List α) → List α → List (List α)
  | [], _ => [[]]
  | set :: sets, used =>
    set.flatMap fun a ↦ if a ∈ used then [] else (choices sets (a :: used)).map (a :: ·)

theorem mem_choices_cons {set : List α} {sets : List (List α)} {used c : List α} :
    c ∈ choices (set :: sets) used ↔
      ∃ a ∈ set, a ∉ used ∧ ∃ c' ∈ choices sets (a :: used), a :: c' = c := by
  rw [choices, List.mem_flatMap]
  refine exists_congr fun a ↦ and_congr_right fun _ ↦ ?_
  by_cases ha : a ∈ used
  · rw [if_pos ha]
    simp [ha]
  · rw [if_neg ha, List.mem_map]
    simp [ha]

/-- **The leaves of the search are the choices that avoid what is used.** -/
theorem mem_choices {sets : List (List α)} {used c : List α} :
    c ∈ choices sets used ↔ IsChoice sets c ∧ c.Disjoint used := by
  induction sets generalizing used c with
  | nil =>
    rw [choices, List.mem_singleton, isChoice_nil]
    exact ⟨fun h ↦ ⟨h, h ▸ List.disjoint_nil_left used⟩, fun h ↦ h.1⟩
  | cons set sets ih =>
    rw [mem_choices_cons, isChoice_cons]
    constructor
    · rintro ⟨a, ha, hfree, c', hc', rfl⟩
      obtain ⟨hchoice, hdisjoint⟩ := ih.mp hc'
      obtain ⟨hnew, hdisjoint⟩ := List.disjoint_cons_right.mp hdisjoint
      exact ⟨⟨a, c', rfl, ha, hnew, hchoice⟩, List.disjoint_cons_left.mpr ⟨hfree, hdisjoint⟩⟩
    · rintro ⟨⟨a, c', rfl, ha, hnew, hchoice⟩, hdisjoint⟩
      obtain ⟨hfree, hdisjoint⟩ := List.disjoint_cons_left.mp hdisjoint
      exact ⟨a, ha, hfree, c',
        ih.mpr ⟨hchoice, List.disjoint_cons_right.mpr ⟨hnew, hdisjoint⟩⟩, rfl⟩

theorem mem_choices_nil {sets : List (List α)} {c : List α} :
    c ∈ choices sets [] ↔ IsChoice sets c := by
  rw [mem_choices]
  exact and_iff_left (List.disjoint_nil_right c)

/-- **No leaf is reached twice.** -/
theorem nodup_choices {sets : List (List α)} (h : ∀ set ∈ sets, set.Nodup) {used : List α} :
    (choices sets used).Nodup := by
  induction sets generalizing used with
  | nil => exact List.nodup_singleton []
  | cons set sets ih =>
    obtain ⟨hset, hsets⟩ := List.forall_mem_cons.mp h
    rw [choices, List.nodup_flatMap]
    constructor
    · intro a _
      split
      · exact List.nodup_nil
      · exact (ih hsets).map List.cons_injective
    · refine hset.imp fun {a b} hne ↦ ?_
      -- the leaves below two candidates begin differently
      intro c hc hc'
      dsimp only at hc hc'
      split at hc
      · exact absurd hc List.not_mem_nil
      · split at hc'
        · exact absurd hc' List.not_mem_nil
        · obtain ⟨_, -, rfl⟩ := List.mem_map.mp hc
          obtain ⟨_, -, heq⟩ := List.mem_map.mp hc'
          exact hne (List.cons.inj heq).1.symm

/-- Below a candidate that is not used, a leaf is reached as often as the candidate is listed and
the rest of the leaf is. -/
theorem count_choices_cons {set : List α} {sets : List (List α)} {used c : List α} {a : α}
    (hfree : a ∉ used) : (choices (set :: sets) used).count (a :: c) =
      set.count a * (choices sets (a :: used)).count c := by
  rw [choices, List.count_flatMap]
  induction set with
  | nil => simp
  | cons b set ih =>
    have hhere : (if b ∈ used then [] else (choices sets (b :: used)).map (b :: ·)).count (a :: c) =
        if b = a then (choices sets (a :: used)).count c else 0 := by
      by_cases hb : b = a
      · subst hb
        rw [if_neg hfree, if_pos rfl, List.count_map_of_injective _ _ List.cons_injective]
      · rw [if_neg hb]
        refine List.count_eq_zero.mpr fun hmem ↦ ?_
        split at hmem
        · exact absurd hmem List.not_mem_nil
        · obtain ⟨c', -, heq⟩ := List.mem_map.mp hmem
          exact hb (List.cons.inj heq).1
    rw [List.map_cons, List.sum_cons, ih, Function.comp_apply, hhere, List.count_cons]
    by_cases hb : b = a
    · subst hb
      rw [if_pos rfl, if_pos (beq_self_eq_true b), Nat.add_mul, Nat.one_mul, Nat.add_comm]
    · rw [if_neg hb, if_neg (by simpa using hb), Nat.zero_add, Nat.add_zero]

/-- **A leaf is reached once** exactly when each of its elements is listed once. -/
theorem count_choices_eq_one {sets : List (List α)} {used c : List α}
    (hc : c ∈ choices sets used) : (choices sets used).count c = 1 ↔
      List.Forall₂ (fun a set ↦ set.count a = 1) c sets := by
  induction sets generalizing used c with
  | nil =>
    obtain rfl := List.mem_singleton.mp hc
    exact ⟨fun _ ↦ .nil, fun _ ↦ by simp [choices]⟩
  | cons set sets ih =>
    obtain ⟨a, -, hfree, c', hc', rfl⟩ := mem_choices_cons.mp hc
    rw [count_choices_cons hfree, List.forall₂_cons, ← ih hc']
    constructor
    · exact fun h ↦ ⟨Nat.eq_one_of_mul_eq_one_right h, Nat.eq_one_of_mul_eq_one_left h⟩
    · rintro ⟨hset, hrest⟩
      rw [hset, hrest]

/-! ## What a search returns -/

variable {β γ : Type}

/-- When only one leaf has anything to return, it is returned as often as the leaf is reached. -/
theorem flatMap_eq_replicate [BEq γ] [LawfulBEq γ] {f : γ → List β} {x : γ} {cs : List γ}
    (h : ∀ c ∈ cs, c ≠ x → f c = []) :
    cs.flatMap f = (List.replicate (cs.count x) (f x)).flatten := by
  induction cs with
  | nil => rfl
  | cons c cs ih =>
    obtain ⟨hc, hcs⟩ := List.forall_mem_cons.mp h
    rw [List.flatMap_cons, ih hcs, List.count_cons]
    by_cases heq : c = x
    · subst heq
      rw [if_pos (beq_self_eq_true c), List.replicate_succ, List.flatten_cons]
    · rw [if_neg (by simpa using heq), hc heq, List.nil_append, Nat.add_zero]

theorem eq_flatten_replicate_iff {group : List β} (hne : group ≠ []) {k : ℕ} :
    group = (List.replicate k group).flatten ↔ k = 1 := by
  constructor
  · intro h
    have hlength := congrArg List.length h
    rw [List.length_flatten, List.map_replicate, List.sum_replicate_nat] at hlength
    have hpos : 0 < group.length := List.length_pos_of_ne_nil hne
    exact Nat.eq_of_mul_eq_mul_right hpos (by rw [← hlength, Nat.one_mul])
  · rintro rfl
    simp

end Choices
