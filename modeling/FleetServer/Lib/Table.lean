import Mathlib.Data.List.Nodup

/-!
# Tables with a primary key

A table is a list of rows no two of which have the same key.  `put` writes a whole row; `modify`
rewrites the row of a key and leaves the key alone, which is what an update statement that matches
on the primary key does.  The two facts used of `modify` are what a row looks like after one
`modify` (`find?_modify`, `find?_modify_of_ne`), and what the whole table looks like after a loop of
them over distinct keys (`rows_foldl_modify`): every row is rewritten by the round of the loop that
names its key, if there is one.
-/

set_option autoImplicit false

/-- A list of rows with distinct keys. -/
structure Table (κ ρ : Type) (key : ρ → κ) where
  rows : List ρ
  nodup : (rows.map key).Nodup

namespace Table

variable {κ ρ ι : Type} {key : ρ → κ} [DecidableEq κ]

/-- The row of a key. -/
def find? (t : Table κ ρ key) (k : κ) : Option ρ := t.rows.find? fun r ↦ key r = k

/-- Rewrite the row of a key. -/
def modify (t : Table κ ρ key) (k : κ) (f : ρ → ρ) (hf : ∀ r, key (f r) = key r) :
    Table κ ρ key where
  rows := t.rows.map fun r ↦ if key r = k then f r else r
  nodup := by
    have hkey : key ∘ (fun r ↦ if key r = k then f r else r) = key := by
      funext r
      simp only [Function.comp_apply]
      split
      · exact hf r
      · rfl
    rw [List.map_map, hkey]
    exact t.nodup

/-- Write a row, in place of the one of its key if there is one. -/
def put (t : Table κ ρ key) (r : ρ) : Table κ ρ key where
  rows := r :: t.rows.filter fun r' ↦ key r' ≠ key r
  nodup := by
    rw [List.map_cons, List.nodup_cons]
    refine ⟨?_, (List.filter_sublist.map key).nodup t.nodup⟩
    simp

variable {t : Table κ ρ key}

omit [DecidableEq κ] in
theorem eq_of_key_eq {r r' : ρ} (hr : r ∈ t.rows) (hr' : r' ∈ t.rows) (h : key r = key r') :
    r = r' :=
  List.inj_on_of_nodup_map t.nodup hr hr' h

theorem find?_eq_some_iff {k : κ} {r : ρ} : t.find? k = some r ↔ r ∈ t.rows ∧ key r = k := by
  refine ⟨fun h ↦ ⟨List.mem_of_find?_eq_some h, by simpa using List.find?_some h⟩, ?_⟩
  rintro ⟨hr, rfl⟩
  cases hf : t.find? (key r) with
  | none =>
    have hne := List.find?_eq_none.mp hf r hr
    simp at hne
  | some r' =>
    have hkey : key r' = key r := by simpa using List.find?_some hf
    rw [eq_of_key_eq (List.mem_of_find?_eq_some hf) hr hkey]

theorem find?_eq_none_iff {k : κ} : t.find? k = none ↔ ∀ r ∈ t.rows, key r ≠ k := by
  simp [find?]

theorem mem_rows_put {r r' : ρ} : r' ∈ (t.put r).rows ↔ r' = r ∨ r' ∈ t.rows ∧ key r' ≠ key r := by
  simp [put]

theorem rows_modify {k : κ} {f : ρ → ρ} {hf : ∀ r, key (f r) = key r} :
    (t.modify k f hf).rows = t.rows.map fun r ↦ if key r = k then f r else r := rfl

/-- **The row of the key is rewritten.** -/
theorem find?_modify {k : κ} {f : ρ → ρ} {hf : ∀ r, key (f r) = key r} :
    (t.modify k f hf).find? k = (t.find? k).map f := by
  cases h : t.find? k with
  | none =>
    rw [Option.map_none, find?_eq_none_iff, rows_modify]
    intro r' hr'
    obtain ⟨r, hr, rfl⟩ := List.mem_map.mp hr'
    have hne := find?_eq_none_iff.mp h r hr
    rw [if_neg hne]
    exact hne
  | some r =>
    obtain ⟨hr, hk⟩ := find?_eq_some_iff.mp h
    rw [Option.map_some, find?_eq_some_iff, rows_modify]
    exact ⟨List.mem_map.mpr ⟨r, hr, if_pos hk⟩, (hf r).trans hk⟩

/-- **Every other row is as it was.** -/
theorem find?_modify_of_ne {k k' : κ} {f : ρ → ρ} {hf : ∀ r, key (f r) = key r} (hne : k' ≠ k) :
    (t.modify k f hf).find? k' = t.find? k' := by
  cases h : t.find? k' with
  | none =>
    rw [find?_eq_none_iff, rows_modify]
    intro r' hr'
    obtain ⟨r, hr, rfl⟩ := List.mem_map.mp hr'
    have := find?_eq_none_iff.mp h r hr
    split
    · rwa [hf r]
    · exact this
  | some r =>
    obtain ⟨hr, hk⟩ := find?_eq_some_iff.mp h
    rw [find?_eq_some_iff, rows_modify]
    exact ⟨List.mem_map.mpr ⟨r, hr, if_neg (by rw [hk]; exact hne)⟩, hk⟩

/-! ## A loop of rewrites -/

/-- Rewriting the rows a list of rounds names, one after the other. -/
def modifyAll (t : Table κ ρ key) (k : ι → κ) (f : ι → ρ → ρ) (hf : ∀ i r, key (f i r) = key r)
    (is : List ι) : Table κ ρ key :=
  is.foldl (fun t i ↦ t.modify (k i) (f i) (hf i)) t

/-- **After a loop over distinct keys every row has been rewritten by the round that names it.** -/
theorem rows_modifyAll {k : ι → κ} {f : ι → ρ → ρ} {hf : ∀ i r, key (f i r) = key r}
    {is : List ι} (hnd : (is.map k).Nodup) :
    (t.modifyAll k f hf is).rows =
      t.rows.map fun r ↦ ((is.find? fun i ↦ k i = key r).map (f · r)).getD r := by
  induction is generalizing t with
  | nil => simp [modifyAll]
  | cons i is ih =>
    rw [List.map_cons, List.nodup_cons] at hnd
    rw [modifyAll, List.foldl_cons, ← modifyAll, ih hnd.2, rows_modify, List.map_map]
    refine List.map_congr_left fun r _ ↦ ?_
    rw [Function.comp_apply, List.find?_cons]
    by_cases hk : key r = k i
    · -- no later round names the key again
      have hlater : (is.find? fun j ↦ k j = key r) = none := by
        rw [List.find?_eq_none]
        intro j hj
        have hne : k j ≠ k i := fun h ↦ hnd.1 (h ▸ List.mem_map_of_mem hj)
        simpa [hk] using hne
      rw [if_pos hk, hf, hlater]
      simp [hk]
    · have hne : k i ≠ key r := Ne.symm hk
      rw [if_neg hk]
      simp [hne]

/-- **A loop over what was read of some of the rows rewrites exactly these rows.**  `h` is what was
read of a row; it must tell which row it was read of. -/
theorem rows_modifyAll_filter {k : ι → κ} {f : ι → ρ → ρ} {hf : ∀ i r, key (f i r) = key r}
    {p : ρ → Bool} {h : ρ → ι} (hk : ∀ r, k (h r) = key r) :
    (t.modifyAll k f hf ((t.rows.filter p).map h)).rows =
      t.rows.map fun r ↦ if p r then f (h r) r else r := by
  have hkeys : ((t.rows.filter p).map h).map k = (t.rows.filter p).map key := by
    rw [List.map_map]
    exact List.map_congr_left fun r _ ↦ hk r
  have hnd : (((t.rows.filter p).map h).map k).Nodup := by
    rw [hkeys]
    exact t.nodup.sublist (List.filter_sublist.map key)
  rw [rows_modifyAll hnd]
  refine List.map_congr_left fun r hr ↦ ?_
  split
  · rename_i hp
    obtain ⟨i, hi⟩ : ∃ i, ((t.rows.filter p).map h).find? (fun i ↦ k i = key r) = some i := by
      rw [← Option.isSome_iff_exists, List.find?_isSome]
      exact ⟨h r, List.mem_map_of_mem (List.mem_filter.mpr ⟨hr, hp⟩), by simp [hk]⟩
    obtain ⟨r', hr', rfl⟩ := List.mem_map.mp (List.mem_of_find?_eq_some hi)
    have hkey : key r' = key r := by
      have := List.find?_some hi
      simpa [hk] using this
    rw [hi, eq_of_key_eq (List.mem_filter.mp hr').1 hr hkey]
    rfl
  · rename_i hp
    have hnone : ((t.rows.filter p).map h).find? (fun i ↦ k i = key r) = none := by
      rw [List.find?_eq_none]
      intro i hi
      obtain ⟨r', hr', rfl⟩ := List.mem_map.mp hi
      obtain ⟨hr', hp'⟩ := List.mem_filter.mp hr'
      intro hkey
      have hkey : key r' = key r := by simpa [hk] using hkey
      exact hp (eq_of_key_eq hr' hr hkey ▸ hp')
    rw [hnone]
    rfl

end Table
