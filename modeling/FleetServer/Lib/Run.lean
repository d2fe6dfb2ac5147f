import Mathlib.Data.Option.Basic

/-!
# Runs of a step function

A system is a function `step` that takes a state and an action to the next state, or to nothing
when the action cannot happen there.  An interleaving of several parties is a list of actions.
`Reachable step ok init` are the states of the runs whose every step satisfies `ok`, a condition on
the action and the state *before* it; with `ok` always true these are all runs.

`Reachable.invariant` is the only induction: what holds initially and is preserved by every allowed
step holds in every state reached.
-/

set_option autoImplicit false

namespace GuardedRun

variable {σ α : Type} {step : σ → α → Option σ} {ok : σ → α → Prop} {init : σ → Prop}

/-- The states of the runs whose every step satisfies `ok`. -/
inductive Reachable (step : σ → α → Option σ) (ok : σ → α → Prop) (init : σ → Prop) : σ → Prop
  | start {s : σ} (h : init s) : Reachable step ok init s
  | next {s s' : σ} {a : α} (h : Reachable step ok init s) (hok : ok s a)
      (hstep : step s a = some s') : Reachable step ok init s'

/-- Doing the actions one after the other, as long as each is allowed. -/
def run (step : σ → α → Option σ) (ok : σ → α → Prop) [∀ s a, Decidable (ok s a)] :
    σ → List α → Option σ
  | s, [] => some s
  | s, a :: rest => if ok s a then (step s a).bind fun s' ↦ run step ok s' rest else none

/-- **What every allowed step preserves holds in every state reached.**  A step may use that the
state it starts from was itself reached. -/
theorem Reachable.invariant {I : σ → Prop} (hinit : ∀ s, init s → I s)
    (hstep : ∀ s a s', Reachable step ok init s → I s → ok s a → step s a = some s' → I s')
    {s : σ} (h : Reachable step ok init s) : I s := by
  induction h with
  | start h => exact hinit _ h
  | next h hok hs ih => exact hstep _ _ _ h ih hok hs

/-- A weaker condition allows more runs. -/
theorem Reachable.mono {ok' : σ → α → Prop} (hok : ∀ s a, ok s a → ok' s a) {s : σ}
    (h : Reachable step ok init s) : Reachable step ok' init s :=
  h.invariant (fun _ ↦ Reachable.start) fun _ _ _ _ ih ha hs ↦ ih.next (hok _ _ ha) hs

/-- **Simulation.**  When every allowed step does nothing to what `view` shows of a state, or is an
allowed step of a second system there, what it shows of the states reached is reached in the second
system. -/
theorem Reachable.simulate {τ β : Type} {step' : τ → β → Option τ} {ok' : τ → β → Prop}
    {init' : τ → Prop} (view : σ → τ) (hinit : ∀ s, init s → init' (view s))
    (hstep : ∀ s a s', Reachable step ok init s → ok s a → step s a = some s' →
      view s' = view s ∨ ∃ b, ok' (view s) b ∧ step' (view s) b = some (view s'))
    {s : σ} (h : Reachable step ok init s) : Reachable step' ok' init' (view s) := by
  induction h with
  | start h => exact .start (hinit _ h)
  | next h hok hs ih =>
    rcases hstep _ _ _ h hok hs with hsame | ⟨b, hb, hview⟩
    · rw [hsame]
      exact ih
    · exact ih.next hb hview

/-- The end of a run is reached. -/
theorem Reachable.of_run [∀ s a, Decidable (ok s a)] {acts : List α} {s s' : σ}
    (h : Reachable step ok init s) (hrun : run step ok s acts = some s') :
    Reachable step ok init s' := by
  induction acts generalizing s with
  | nil =>
    obtain rfl : s = s' := Option.some.inj hrun
    exact h
  | cons a rest ih =>
    rw [run] at hrun
    split at hrun
    · rename_i hok
      obtain ⟨m, hm, hrest⟩ := Option.bind_eq_some_iff.mp hrun
      exact ih (h.next hok hm) hrest
    · exact absurd hrun (by simp)

/-- What a run of a concrete system ends with is found in a reachable state. -/
theorem exists_reachable_of_run (step : σ → α → Option σ) (ok : σ → α → Prop)
    [∀ s a, Decidable (ok s a)] {s : σ} (hinit : init s) (acts : List α) {P : σ → Prop}
    [DecidablePred P]
    (h : ((run step ok s acts).any fun s' ↦ P s') = true) :
    ∃ s', Reachable step ok init s' ∧ P s' := by
  obtain ⟨s', hrun, hP⟩ := (Option.any_eq_true _ _).mp h
  exact ⟨s', (Reachable.start hinit).of_run hrun, of_decide_eq_true hP⟩

/-- The same for actions that are allowed wherever they occur. -/
theorem exists_reachable_of_foldlM (step : σ → α → Option σ) {s : σ} (hinit : init s)
    (acts : List α)
    (hok : ∀ a ∈ acts, ∀ s, ok s a) {P : σ → Prop} [DecidablePred P]
    (h : ((acts.foldlM step s).any fun s' ↦ P s') = true) :
    ∃ s', Reachable step ok init s' ∧ P s' := by
  have hrun : ∀ (acts : List α) (s s' : σ), (∀ a ∈ acts, ∀ s, ok s a) →
      Reachable step ok init s → acts.foldlM step s = some s' → Reachable step ok init s' := by
    intro acts
    induction acts with
    | nil =>
      intro s s' _ hs heq
      obtain rfl : s = s' := Option.some.inj heq
      exact hs
    | cons a rest ih =>
      intro s s' hall hs heq
      rw [List.foldlM_cons] at heq
      obtain ⟨m, hm, hrest⟩ := Option.bind_eq_some_iff.mp heq
      obtain ⟨hfirst, hall⟩ := List.forall_mem_cons.mp hall
      exact ih m s' hall (hs.next (hfirst s) hm) hrest
  obtain ⟨s', heq, hP⟩ := (Option.any_eq_true _ _).mp h
  exact ⟨s', hrun acts s s' hok (.start hinit) heq, of_decide_eq_true hP⟩

end GuardedRun
