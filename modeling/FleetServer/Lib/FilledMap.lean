import FleetServer.Lib.Fallible

/-!
# Maps that a loop fills

A loop that files every element of a list under a key of its own, if it has one, leaves under each
key the last of the elements filed there (`look_foldl`).  The lemma is about any state that the loop
may carry, seen through a function `look` that reads one of the maps in it, so a loop that fills
several maps at once is an instance for each of them.

A loop may instead refuse to file two values under one key.  It succeeds exactly when no two
elements disagree, and then the order of the elements does not matter
(`FilesOrFails.exists_foldlM_ok_iff`, `FilesOrFails.files_of_foldlM`).
-/

set_option autoImplicit false

namespace FilledMap

variable {α κ : Type} [DecidableEq κ] {key : α → Option κ} {as : List α} {a : α} {k : κ}

/-- The last of the elements that are filed under `k`. -/
def lastWith (key : α → Option κ) : List α → κ → Option α
  | [], _ => none
  | a :: as, k => (lastWith key as k).or (if key a = some k then some a else none)

theorem mem_of_lastWith (h : lastWith key as k = some a) : a ∈ as ∧ key a = some k := by
  induction as with
  | nil => exact absurd h (by simp [lastWith])
  | cons b as ih =>
    rw [lastWith, Option.or_eq_some_iff] at h
    rcases h with hlater | ⟨-, hhere⟩
    · exact (ih hlater).imp_left (List.mem_cons_of_mem b)
    · rw [Option.ite_none_right_eq_some] at hhere
      obtain ⟨hkey, heq⟩ := hhere
      obtain rfl := Option.some.inj heq
      exact ⟨List.mem_cons_self, hkey⟩

/-- **What the loop leaves under a key is the last element filed there**, and what was there before
when there is none. -/
theorem look_foldl {σ β : Type} (f : σ → α → σ) (key : α → Option κ) (look : σ → κ → Option β)
    (val : α → β)
    (hstep : ∀ s a k, look (f s a) k = if key a = some k then some (val a) else look s k)
    (as : List α) (s : σ) (k : κ) :
    look (as.foldl f s) k = ((lastWith key as k).map val).or (look s k) := by
  induction as generalizing s with
  | nil => rfl
  | cons a as ih =>
    rw [List.foldl_cons, ih, hstep, lastWith]
    cases lastWith key as k with
    | some b => rfl
    | none => split <;> simp

/-! ## Loops that stop at a conflict -/

section Conflict

variable {σ β ε : Type} {f : σ → α → Except ε σ} {look : σ → κ → Option β} {val : α → β}
  {Accepted : α → Prop}

/-- The map holds just what the elements file. -/
def Files (key : α → Option κ) (val : α → β) (as : List α) (look : κ → Option β) : Prop :=
  ∀ k v, look k = some v ↔ ∃ a ∈ as, key a = some k ∧ val a = v

omit [DecidableEq κ] in
theorem Files.congr {val : α → β} {bs : List α} {look : κ → Option β} (h : Files key val as look)
    (hmem : ∀ a, a ∈ bs ↔ a ∈ as) : Files key val bs look := fun k v ↦ by
  rw [h k v]
  simp only [hmem]

/-- Two elements do not file two values under one key. -/
def Agree (key : α → Option κ) (val : α → β) (a b : α) : Prop :=
  ∀ k, key a = some k → key b = some k → val a = val b

/-- What a round of such a loop does: it fails if the element is not accepted, or if another value
is there. -/
structure FilesOrFails (f : σ → α → Except ε σ) (look : σ → κ → Option β) (key : α → Option κ)
    (val : α → β) (Accepted : α → Prop) : Prop where
  succeeds : ∀ s a, (∃ s', f s a = .ok s') ↔
    Accepted a ∧ ∀ k v, key a = some k → look s k = some v → v = val a
  files : ∀ {s a s'}, f s a = .ok s' → ∀ k,
    look s' k = if key a = some k then some (val a) else look s k

omit [DecidableEq κ] in
theorem Agree.symm {b : α} (h : Agree key val a b) : Agree key val b a :=
  fun k hb ha ↦ (h k ha hb).symm

theorem FilesOrFails.files_concat (hf : FilesOrFails f look key val Accepted) {s s' : σ}
    (hs : Files key val as (look s)) (h : f s a = .ok s') :
    Files key val (as ++ [a]) (look s') := by
  have hagree := ((hf.succeeds s a).mp ⟨s', h⟩).2
  intro k v
  rw [hf.files h]
  split
  · rename_i hkey
    constructor
    · rintro ⟨⟩
      exact ⟨a, by simp, hkey, rfl⟩
    · rintro ⟨other, hother, hkey', rfl⟩
      rcases List.mem_append.mp hother with hbefore | hlast
      · exact congrArg some (hagree k _ hkey ((hs k _).mpr ⟨other, hbefore, hkey', rfl⟩)).symm
      · rw [List.mem_singleton.mp hlast]
  · rename_i hkey
    rw [hs k v]
    simp [hkey, or_and_right, exists_or]

/-- What a round needs, of the elements filed before it. -/
theorem FilesOrFails.exists_ok_iff (hf : FilesOrFails f look key val Accepted) {s : σ}
    (hs : Files key val as (look s)) :
    (∃ s', f s a = .ok s') ↔ Accepted a ∧ ∀ b ∈ as, Agree key val a b := by
  rw [hf.succeeds]
  refine and_congr_right fun _ ↦ ⟨fun h b hb k ha hkey ↦ ?_, fun h k v ha hlook ↦ ?_⟩
  · exact (h k _ ha ((hs k _).mpr ⟨b, hb, hkey, rfl⟩)).symm
  · obtain ⟨b, hb, hkey, rfl⟩ := (hs k v).mp hlook
    exact (h b hb k ha hkey).symm

/-- **The loop succeeds exactly when it accepts every element and no two of them disagree**; here
`before` is what it has filed already. -/
theorem FilesOrFails.exists_foldlM_ok_iff (hf : FilesOrFails f look key val Accepted)
    {before : List α} {s : σ} (hs : Files key val before (look s)) :
    (∃ s', as.foldlM f s = .ok s') ↔
      ∀ a ∈ as, Accepted a ∧ ∀ b ∈ before ++ as, Agree key val a b := by
  induction as generalizing before s with
  | nil => exact iff_of_true ⟨s, rfl⟩ (by simp)
  | cons a as ih =>
    rw [List.foldlM_cons]
    constructor
    · rintro ⟨s', h⟩
      obtain ⟨s₁, hfirst, hrest⟩ := Fallible.exists_of_bind_eq_ok h
      obtain ⟨haccepted, hagree⟩ := (hf.exists_ok_iff hs).mp ⟨s₁, hfirst⟩
      have hlater := (ih (hf.files_concat hs hfirst)).mp ⟨s', hrest⟩
      rw [List.append_assoc, List.singleton_append] at hlater
      intro b hb
      rcases List.mem_cons.mp hb with rfl | hb
      · refine ⟨haccepted, fun c hc ↦ ?_⟩
        rcases List.mem_append.mp hc with hbefore | hc
        · exact hagree c hbefore
        · rcases List.mem_cons.mp hc with rfl | hc
          · exact fun _ _ _ ↦ rfl
          · exact ((hlater c hc).2 b (by simp)).symm
      · exact hlater b hb
    · intro h
      obtain ⟨haccepted, hagree⟩ := h a List.mem_cons_self
      obtain ⟨s₁, hfirst⟩ := (hf.exists_ok_iff hs).mpr
        ⟨haccepted, fun b hb ↦ hagree b (List.mem_append_left _ hb)⟩
      obtain ⟨s', hrest⟩ := (ih (hf.files_concat hs hfirst)).mpr fun b hb ↦ by
        rw [List.append_assoc, List.singleton_append]
        exact h b (List.mem_cons_of_mem a hb)
      refine ⟨s', ?_⟩
      rw [hfirst]
      exact hrest

theorem FilesOrFails.files_of_foldlM (hf : FilesOrFails f look key val Accepted)
    {before : List α} {s s' : σ} (hs : Files key val before (look s))
    (h : as.foldlM f s = .ok s') : Files key val (before ++ as) (look s') := by
  induction as generalizing before s with
  | nil =>
    obtain rfl : s = s' := Except.ok.inj h
    rwa [List.append_nil]
  | cons a as ih =>
    rw [List.foldlM_cons] at h
    obtain ⟨s₁, hfirst, hrest⟩ := Fallible.exists_of_bind_eq_ok h
    have hfiles := ih (hf.files_concat hs hfirst) hrest
    rwa [List.append_assoc, List.singleton_append] at hfiles

end Conflict

end FilledMap
