import Mathlib.Data.List.Perm.Basic

/-!
# Overlays in any order

Several sources report a value for a variable, and are laid over the value it has one after the
other: each sets the variable, or only fills it while it has no value.  When the sources come in an
order that nothing determines, the value at the end is determined exactly if no two of them
disagree, or if none of them counts (`foldl_perm_iff`).
-/

set_option autoImplicit false

namespace Overlay

variable {α β : Type} {replaces : Bool} {report : α → Option β} {v : Option β} {l l₁ l₂ : List α}
  {a : α} {x : β}

/-- A source is laid over a value; `replaces` says whether it may replace one. -/
def lay (replaces : Bool) (report : α → Option β) (v : Option β) (a : α) : Option β :=
  match report a with
  | none => v
  | some x => if v.isNone || replaces then some x else v

/-- Two of the sources disagree. -/
def Disagree (report : α → Option β) (l : List α) : Prop :=
  ∃ a ∈ l, ∃ b ∈ l, ∃ x y, report a = some x ∧ report b = some y ∧ x ≠ y

/-- Sources count for a variable without a value, and for one that they may replace. -/
def Open (replaces : Bool) (v : Option β) : Prop := v = none ∨ replaces = true

theorem lay_of_some (h : Open replaces v) (ha : report a = some x) :
    lay replaces report v a = some x := by
  rw [lay, ha]
  dsimp only
  rw [if_pos]
  rcases h with rfl | rfl
  · rfl
  · rw [Bool.or_true]

/-- A value that may not be replaced stays. -/
theorem foldl_of_closed (h : ¬Open replaces v) (l : List α) :
    l.foldl (lay replaces report) v = v := by
  induction l with
  | nil => rfl
  | cons a rest ih =>
    have hstays : lay replaces report v a = v := by
      rw [Open, not_or, Bool.not_eq_true] at h
      obtain ⟨hsome, hreplaces⟩ := h
      rw [lay]
      split
      · rfl
      · rw [if_neg]
        simpa [hreplaces] using hsome
    rw [List.foldl_cons, hstays, ih]

/-- The value at the end, when the sources agree. -/
theorem foldl_of_agree (hopen : Open replaces v) (hagree : ∀ b ∈ l, ∀ y, report b = some y → y = x)
    (ha : a ∈ l) (hx : report a = some x) : l.foldl (lay replaces report) v = some x := by
  have hkeeps : ∀ rest : List α, (∀ b ∈ rest, ∀ y, report b = some y → y = x) →
      rest.foldl (lay replaces report) (some x) = some x := by
    intro rest
    induction rest with
    | nil => exact fun _ ↦ rfl
    | cons b rest ih =>
      intro hrest
      have hstep : lay replaces report (some x) b = some x := by
        rw [lay]
        cases hb : report b with
        | none => rfl
        | some y =>
          dsimp only
          rw [hrest b List.mem_cons_self y hb, ite_self]
      rw [List.foldl_cons, hstep]
      exact ih fun c hc ↦ hrest c (List.mem_cons_of_mem b hc)
  induction l generalizing v with
  | nil => exact absurd ha List.not_mem_nil
  | cons b rest ih =>
    have hrest : ∀ c ∈ rest, ∀ y, report c = some y → y = x :=
      fun c hc ↦ hagree c (List.mem_cons_of_mem b hc)
    rw [List.foldl_cons]
    cases hb : report b with
    | some y =>
      rw [lay_of_some hopen hb, hagree b List.mem_cons_self y hb]
      exact hkeeps rest hrest
    | none =>
      have hstep : lay replaces report v b = v := by rw [lay, hb]
      rw [hstep]
      refine ih hopen hrest ((List.mem_cons.mp ha).resolve_left ?_)
      rintro rfl
      exact absurd (hb.symm.trans hx) (by simp)

theorem foldl_of_silent (h : ∀ a ∈ l, report a = none) : l.foldl (lay replaces report) v = v := by
  induction l with
  | nil => rfl
  | cons a rest ih =>
    have hstep : lay replaces report v a = v := by rw [lay, h a List.mem_cons_self]
    rw [List.foldl_cons, hstep]
    exact ih fun b hb ↦ h b (List.mem_cons_of_mem a hb)

/-- Sources that agree may come in any order. -/
theorem foldl_perm_of_agree (h : ¬(Open replaces v ∧ Disagree report l)) (h₁ : l₁.Perm l)
    (h₂ : l₂.Perm l) : l₁.foldl (lay replaces report) v = l₂.foldl (lay replaces report) v := by
  by_cases hopen : Open replaces v
  · have hagree : ¬Disagree report l := fun hdisagree ↦ h ⟨hopen, hdisagree⟩
    by_cases hsilent : ∀ a ∈ l, report a = none
    · rw [foldl_of_silent fun a ha ↦ hsilent a (h₁.mem_iff.mp ha),
        foldl_of_silent fun a ha ↦ hsilent a (h₂.mem_iff.mp ha)]
    · push Not at hsilent
      obtain ⟨a, ha, hsome⟩ := hsilent
      obtain ⟨x, hx⟩ := Option.ne_none_iff_exists'.mp hsome
      have hall : ∀ b ∈ l, ∀ y, report b = some y → y = x := by
        intro b hb y hy
        by_contra hne
        exact hagree ⟨b, hb, a, ha, y, x, hy, hx, hne⟩
      rw [foldl_of_agree hopen (fun b hb ↦ hall b (h₁.mem_iff.mp hb)) (h₁.mem_iff.mpr ha) hx,
        foldl_of_agree hopen (fun b hb ↦ hall b (h₂.mem_iff.mp hb)) (h₂.mem_iff.mpr ha) hx]
  · rw [foldl_of_closed hopen, foldl_of_closed hopen]

/-- Each report is the value at the end for some order: the source that gives it comes last, or
first if a value is not replaced. -/
theorem exists_perm_foldl_eq (hopen : Open replaces v) (ha : a ∈ l) (hx : report a = some x) :
    ∃ l₁ : List α, l₁.Perm l ∧ l₁.foldl (lay replaces report) v = some x := by
  obtain ⟨front, back, rfl⟩ := List.append_of_mem ha
  cases hreplaces : replaces with
  | true =>
    refine ⟨front ++ back ++ [a], ?_, ?_⟩
    · exact (List.perm_append_singleton a _).trans List.perm_middle.symm
    · rw [List.foldl_append, List.foldl_cons, List.foldl_nil]
      exact lay_of_some (.inr rfl) hx
  | false =>
    refine ⟨a :: (front ++ back), List.perm_middle.symm, ?_⟩
    rw [List.foldl_cons, lay_of_some (hreplaces ▸ hopen) hx]
    exact foldl_of_closed (by simp [Open]) _

/-- **The order of the sources does not matter** exactly when they do not count or do not
disagree. -/
theorem foldl_perm_iff : (∀ l₁ l₂ : List α, l₁.Perm l → l₂.Perm l →
      l₁.foldl (lay replaces report) v = l₂.foldl (lay replaces report) v) ↔
    ¬(Open replaces v ∧ Disagree report l) := by
  constructor
  · rintro h ⟨hopen, a, ha, b, hb, x, y, hx, hy, hne⟩
    obtain ⟨l₁, h₁, heq₁⟩ := exists_perm_foldl_eq hopen ha hx
    obtain ⟨l₂, h₂, heq₂⟩ := exists_perm_foldl_eq hopen hb hy
    have hsame := h l₁ l₂ h₁ h₂
    rw [heq₁, heq₂] at hsame
    exact hne (Option.some.inj hsame)
  · exact fun h l₁ l₂ h₁ h₂ ↦ foldl_perm_of_agree h h₁ h₂

end Overlay
