import Mathlib.Data.List.Induction
import Mathlib.Data.List.MinMax

/-!
# The first of the best

A loop over a list that keeps the best element so far, and lets only a strictly better one replace
it, ends with the element that `List.argmax` gives, unless that one is no better than what the loop
starts from (`foldl_eq`).  When the elements carry their places in the list, the element is the one
of the highest score and, of these, of the lowest place (`mem_argmax_iff`).
-/

set_option autoImplicit false

namespace RunningBest

variable {α β γ : Type} [LinearOrder β] {score : α → β} {l : List α} {a : α}

/-- **The loop ends with the first element of the highest score**, if that beats the start. -/
theorem foldl_eq (score : α → β) (val : α → γ) (start : γ × β) (l : List α) :
    l.foldl (fun best a ↦ if best.2 < score a then (val a, score a) else best) start =
      match l.argmax score with
      | none => start
      | some a => if start.2 < score a then (val a, score a) else start := by
  induction l using List.reverseRecOn with
  | nil => rfl
  | append_singleton l a ih =>
    rw [List.foldl_append, ih, List.argmax_concat, List.foldl_cons, List.foldl_nil]
    cases l.argmax score with
    | none => rfl
    | some b =>
      dsimp only
      by_cases hbetter : score b < score a
      · rw [if_pos hbetter]
        by_cases hstart : start.2 < score b
        · simp only [hstart, hbetter, hstart.trans hbetter, if_true]
        · simp only [hstart, if_false]
      · rw [if_neg hbetter]
        by_cases hstart : start.2 < score b
        · simp only [hstart, hbetter, if_true, if_false]
        · have hworse : ¬start.2 < score a := fun h ↦ hstart (h.trans_le (not_lt.mp hbetter))
          simp only [hstart, hworse, if_false]

/-- **The element of the highest score, and of these the one of the lowest place.** -/
theorem mem_argmax_iff [DecidableEq α] {place : α → ℕ}
    (hplace : l.Pairwise fun a b ↦ place a < place b) :
    a ∈ l.argmax score ↔ a ∈ l ∧ ∀ b ∈ l, score b ≤ score a ∧
      (score b = score a → place a ≤ place b) := by
  have hidx : ∀ b ∈ l, ∀ c ∈ l, l.idxOf b < l.idxOf c → place b < place c := by
    intro b hb c hc hlt
    have := List.pairwise_iff_getElem.mp hplace _ _ (List.idxOf_lt_length_of_mem hb)
      (List.idxOf_lt_length_of_mem hc) hlt
    simpa using this
  rw [Option.mem_def, List.argmax_eq_some_iff]
  refine and_congr_right fun ha ↦ ⟨fun ⟨hmax, hfirst⟩ b hb ↦ ⟨hmax b hb, fun heq ↦ ?_⟩,
    fun h ↦ ⟨fun b hb ↦ (h b hb).1, fun b hb hle ↦ ?_⟩⟩
  · rcases (hfirst b hb heq.ge).lt_or_eq with hlt | heq
    · exact (hidx a ha b hb hlt).le
    · rw [List.idxOf_inj ha] at heq
      rw [heq]
  · by_contra hlt
    have := (h b hb).2 (le_antisymm (h b hb).1 hle)
    have := hidx b hb a ha (not_le.mp hlt)
    omega

end RunningBest
