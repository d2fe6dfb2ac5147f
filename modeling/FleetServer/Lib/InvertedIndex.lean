import Mathlib.Data.List.Nodup
import Mathlib.Logic.Function.Basic

/-!
# Inverted indexes

A store keeps values under keys, and every value has labels.  An inverted index beside it is a map
from a label to the set of the keys whose value has it: a key is added to the set of a label, or
taken out of it, and a set that has become empty is dropped.

The index is *exact* when what it lists under a label are the keys whose value has the label.  A
write to the store takes the key out of the sets of the old labels and adds it to those of the new
ones; `Exact.write` says that this keeps an exact index exact.
-/

set_option autoImplicit false

namespace InvertedIndex

/-- A set of keys, listed. -/
structure KeySet (K : Type) where
  keys : List K
  nodup : keys.Nodup

namespace KeySet

variable {K : Type} [DecidableEq K]

def empty : KeySet K := ⟨[], List.nodup_nil⟩

def insert (s : KeySet K) (k : K) : KeySet K := ⟨s.keys.insert k, s.nodup.insert⟩

def erase (s : KeySet K) (k : K) : KeySet K := ⟨s.keys.erase k, s.nodup.erase k⟩

@[simp] theorem mem_insert (s : KeySet K) {k k' : K} :
    k' ∈ (s.insert k).keys ↔ k' = k ∨ k' ∈ s.keys := List.mem_insert_iff

@[simp] theorem mem_erase (s : KeySet K) {k k' : K} :
    k' ∈ (s.erase k).keys ↔ k' ≠ k ∧ k' ∈ s.keys := s.nodup.mem_erase_iff

end KeySet

/-- A map from labels to sets of keys. -/
abbrev Index (L K : Type) : Type := L → Option (KeySet K)

namespace Index

variable {L K : Type}

/-- What is listed under a label. -/
def keysAt (ix : Index L K) (l : L) : List K := (ix l).elim [] KeySet.keys

theorem nodup_keysAt (ix : Index L K) (l : L) : (ix.keysAt l).Nodup := by
  rw [keysAt]
  cases ix l with
  | none => exact List.nodup_nil
  | some s => exact s.nodup

variable [DecidableEq L] [DecidableEq K]

def add (k : K) (ix : Index L K) (l : L) : Index L K :=
  Function.update ix l (some (((ix l).getD KeySet.empty).insert k))

def remove (k : K) (ix : Index L K) (l : L) : Index L K :=
  match ix l with
  | none => ix
  | some s => Function.update ix l (if (s.erase k).keys = [] then none else some (s.erase k))

variable {ix : Index L K} {k k' : K} {l l' : L}

theorem mem_keysAt_add :
    k' ∈ (add k ix l).keysAt l' ↔ k' ∈ ix.keysAt l' ∨ k' = k ∧ l' = l := by
  by_cases hl : l' = l
  · subst hl
    rw [keysAt, keysAt, add, Function.update_self]
    cases ix l' with
    | none => simp [KeySet.empty]
    | some s => simp [or_comm]
  · rw [keysAt, keysAt, add, Function.update_of_ne hl]
    simp [hl]

theorem mem_keysAt_remove :
    k' ∈ (remove k ix l).keysAt l' ↔ k' ∈ ix.keysAt l' ∧ ¬(k' = k ∧ l' = l) := by
  rw [remove]
  cases hset : ix l with
  | none =>
    dsimp only
    refine (and_iff_left_of_imp fun h heq ↦ ?_).symm
    rw [keysAt, heq.2, hset] at h
    exact absurd h List.not_mem_nil
  | some s =>
    dsimp only
    by_cases hl : l' = l
    · subst hl
      have hkeys : keysAt (Function.update ix l'
          (if (s.erase k).keys = [] then none else some (s.erase k))) l' = (s.erase k).keys := by
        rw [keysAt, Function.update_self]
        split
        · rename_i hnil
          exact hnil.symm
        · rfl
      rw [hkeys, keysAt, hset]
      simp [and_comm]
    · rw [keysAt, keysAt, Function.update_of_ne hl]
      simp [hl]

/-- Adding a key under several labels. -/
theorem mem_keysAt_foldl_add (labels : List L) (ix : Index L K) :
    k' ∈ (labels.foldl (add k) ix).keysAt l' ↔ k' ∈ ix.keysAt l' ∨ k' = k ∧ l' ∈ labels := by
  induction labels generalizing ix with
  | nil => simp
  | cons l rest ih =>
    rw [List.foldl_cons, ih, mem_keysAt_add, List.mem_cons, or_assoc, ← and_or_left]

/-- Taking a key out of the sets of several labels. -/
theorem mem_keysAt_foldl_remove (labels : List L) (ix : Index L K) :
    k' ∈ (labels.foldl (remove k) ix).keysAt l' ↔
      k' ∈ ix.keysAt l' ∧ ¬(k' = k ∧ l' ∈ labels) := by
  induction labels generalizing ix with
  | nil => simp
  | cons l rest ih =>
    rw [List.foldl_cons, ih, mem_keysAt_remove, List.mem_cons, and_assoc, ← not_or, ← and_or_left]

end Index

/-! ## Exact indexes -/

section Exact

open Index

variable {L K V : Type}

/-- What is listed under a label are the keys whose value has the label. -/
def Exact (labels : V → List L) (store : K → Option V) (ix : Index L K) : Prop :=
  ∀ l k, k ∈ ix.keysAt l ↔ ∃ v, store k = some v ∧ l ∈ labels v

variable {labels : V → List L} {store : K → Option V} {ix ix' : Index L K} {k : K}

theorem exact_empty : Exact labels (fun _ : K ↦ none) (fun _ ↦ none) :=
  fun l k ↦ by simp [keysAt]

variable [DecidableEq K]

/-- An index that lists a key as its new value asks for, and every other key as before. -/
theorem Exact.change (h : Exact labels store ix) (v? : Option V)
    (hself : ∀ l, k ∈ ix'.keysAt l ↔ ∃ v, v? = some v ∧ l ∈ labels v)
    (hother : ∀ l k', k' ≠ k → (k' ∈ ix'.keysAt l ↔ k' ∈ ix.keysAt l)) :
    Exact labels (Function.update store k v?) ix' := by
  intro l k'
  by_cases hk : k' = k
  · subst hk
    rw [hself l, Function.update_self]
  · rw [hother l k' hk, h l k', Function.update_of_ne hk]

/-- What is listed is not changed by a write that leaves the labels of the value as they are. -/
theorem Exact.write_same {v v' : V} (h : Exact labels store ix) (hv : store k = some v)
    (hlabels : labels v' = labels v) : Exact labels (Function.update store k (some v')) ix := by
  refine h.change (some v') (fun l ↦ ?_) fun l k' _ ↦ Iff.rfl
  rw [h l k, hv]
  simp [hlabels]

variable [DecidableEq L]

/-- **The key of a write is taken out of the sets of its old labels and added to those of its new
ones.** -/
theorem Exact.write (h : Exact labels store ix) (v? : Option V) :
    Exact labels (Function.update store k v?)
      ((v?.elim [] labels).foldl (add k) (((store k).elim [] labels).foldl (remove k) ix)) := by
  have hold : ∀ l, k ∈ ix.keysAt l ↔ l ∈ (store k).elim [] labels := by
    intro l
    rw [h l k]
    cases store k with
    | none => simp
    | some v => simp
  refine h.change v? (fun l ↦ ?_) fun l k' hk ↦ ?_
  · rw [mem_keysAt_foldl_add, mem_keysAt_foldl_remove, hold l]
    cases v? with
    | none => simp
    | some v => simp
  · rw [mem_keysAt_foldl_add, mem_keysAt_foldl_remove]
    simp [hk]

end Exact

end InvertedIndex
