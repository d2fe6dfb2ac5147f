import Mathlib.Data.Option.Basic

/-!
# Secondary indexes

A store keeps values under keys.  An index beside it lists keys under labels, each with something it
remembers of the value.  The index is *sound* when what it lists is in the store, with the label it
is listed under and with what is remembered of it, and *complete* when every value of the store that
has a label is listed under it.

A store and its indexes are written one after the other, so an index can get out of step.  After a
write each key needs a look only if it was written or is newly listed (`Sound.change`,
`Complete.change`).
-/

set_option autoImplicit false

namespace SecondaryIndex

variable {K P V W : Type}

/-- The label of a value, if it has one, and what an index remembers of the value. -/
structure Scheme (P V W : Type) where
  label : V → Option P
  view : V → W

variable (ix : Scheme P V W)

/-- What is listed is in the store. -/
def Sound (store : K → Option V) (lists : P → K → W → Prop) : Prop :=
  ∀ p k w, lists p k w → ∃ v, store k = some v ∧ ix.label v = some p ∧ ix.view v = w

/-- What is in the store is listed. -/
def Complete (store : K → Option V) (lists : P → K → W → Prop) : Prop :=
  ∀ k v p, store k = some v → ix.label v = some p → ∃ w, lists p k w

variable {ix} {store store' : K → Option V} {lists lists' : P → K → W → Prop} {k : K} {p p' : P}
  {w w' : W}

/-- **A key is listed under one label.** -/
theorem Sound.label_unique (h : Sound ix store lists) (hp : lists p k w) (hp' : lists p' k w') :
    p = p' := by
  obtain ⟨v, hv, hlabel, -⟩ := h p k w hp
  obtain ⟨v', hv', hlabel', -⟩ := h p' k w' hp'
  obtain rfl := Option.some.inj (hv.symm.trans hv')
  exact Option.some.inj (hlabel.symm.trans hlabel')

/-- After a write: what is still listed was listed before and its key was not written, or it is
right now. -/
theorem Sound.change (h : Sound ix store lists)
    (hnew : ∀ p k w, lists' p k w → (lists p k w ∧ store' k = store k) ∨
      ∃ v, store' k = some v ∧ ix.label v = some p ∧ ix.view v = w) :
    Sound ix store' lists' := by
  intro p k w hlists
  rcases hnew p k w hlists with ⟨hold, hsame⟩ | hright
  · rw [hsame]
    exact h p k w hold
  · exact hright

/-- After a write: what is in the store was there before and is still listed if it was, or it is
listed now. -/
theorem Complete.change (h : Complete ix store lists)
    (hnew : ∀ k v p, store' k = some v → ix.label v = some p →
      (store k = some v ∧ ∀ w, lists p k w → ∃ w, lists' p k w) ∨ ∃ w, lists' p k w) :
    Complete ix store' lists' := by
  intro k v p hv hlabel
  rcases hnew k v p hv hlabel with ⟨hold, hkeeps⟩ | hlisted
  · obtain ⟨w, hw⟩ := h k v p hold hlabel
    exact hkeeps w hw
  · exact hlisted

end SecondaryIndex
