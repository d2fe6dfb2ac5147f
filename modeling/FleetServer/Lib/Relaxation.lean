import Mathlib.Data.Set.Basic

/-!
# Relaxed attainability

Tasks have conditions and effects.  In the *relaxation* of such a system nothing is ever undone:
a task can be used as soon as each of its conditions is met by some fact attained so far, and from
then on its effects are attained as well.  `Attainable` is the least set of facts that arises so.

It is an over-approximation of every system with the same tasks (`Attainable.step`): if each step
only makes effects of its task true, and each condition of the task is met by a fact that is true
before, then every fact that is ever true is attainable.  An algorithm that computes the set has to
stay inside it and to be closed (`Attainable.of_closed`).
-/

set_option autoImplicit false

namespace Relaxation

variable {T C F : Type}

/-- The tasks at hand, what each needs and produces, and when a fact meets a condition. -/
structure System (T C F : Type) where
  tasks : Set T
  pre : T → Set C
  eff : T → Set F
  meets : C → F → Prop

variable {sys : System T C F}

/-- A set of facts in which every condition of a task is met. -/
def System.Enables (sys : System T C F) (facts : Set F) (t : T) : Prop :=
  ∀ c ∈ sys.pre t, ∃ f ∈ facts, sys.meets c f

/-- The facts attained from some that are given; `pick` says which fact meets a condition. -/
inductive Attainable (sys : System T C F) (start : Set F) : F → Prop
  | given {f : F} (h : f ∈ start) : Attainable sys start f
  | task {t : T} (ht : t ∈ sys.tasks) (pick : C → F)
      (hpick : ∀ c ∈ sys.pre t, Attainable sys start (pick c))
      (hmeets : ∀ c ∈ sys.pre t, sys.meets c (pick c)) {f : F} (hf : f ∈ sys.eff t) :
      Attainable sys start f

/-- Every task whose conditions are met in the set has its effects in the set. -/
def System.Closed (sys : System T C F) (facts : Set F) : Prop :=
  ∀ t ∈ sys.tasks, sys.Enables facts t → sys.eff t ⊆ facts

variable {start facts : Set F}

/-- **A closed set that has the given facts has every attainable one.** -/
theorem Attainable.of_closed (hstart : start ⊆ facts) (hclosed : sys.Closed facts) {f : F}
    (h : Attainable sys start f) : f ∈ facts := by
  induction h with
  | given h => exact hstart h
  | task ht pick _ hmeets hf ih =>
    exact hclosed _ ht (fun c hc ↦ ⟨pick c, ih c hc, hmeets c hc⟩) hf

/-- The attainable facts are closed themselves. -/
theorem closed_attainable (sys : System T C F) (start : Set F) :
    sys.Closed {f | Attainable sys start f} := by
  intro t ht henabled f hf
  classical
  choose pick hpick hmeets using henabled
  have hpick' : ∀ c (hc : c ∈ sys.pre t),
      (if h : c ∈ sys.pre t then pick c h else f) = pick c hc := fun c hc ↦ dif_pos hc
  refine .task ht (fun c ↦ if h : c ∈ sys.pre t then pick c h else f) (fun c hc ↦ ?_)
    (fun c hc ↦ ?_) hf
  · rw [hpick' c hc]
    exact hpick c hc
  · rw [hpick' c hc]
    exact hmeets c hc

/-- **A step of a concrete system stays within what is attainable.**  `old` are the facts true
before the step and `new` those true after it: each condition of the task is met before, and what
becomes true is an effect of it. -/
theorem Attainable.step {old new : Set F} {t : T} (ht : t ∈ sys.tasks) (hcan : sys.Enables old t)
    (hnew : ∀ f ∈ new, f ∈ old ∨ f ∈ sys.eff t) (hold : ∀ f ∈ old, Attainable sys start f) :
    ∀ f ∈ new, Attainable sys start f := by
  intro f hf
  rcases hnew f hf with hf | hf
  · exact hold f hf
  · refine closed_attainable sys start t ht (fun c hc ↦ ?_) hf
    obtain ⟨g, hg, hmeets⟩ := hcan c hc
    exact ⟨g, hold g hg, hmeets⟩

end Relaxation
