import Mathlib.Data.List.Nodup
import Mathlib.Tactic.Ring

/-!
# Ring buffers with an index

Entries are added to a buffer of bounded size; the `n`-th entry goes to slot `n % size`, over the
entry that was there.  The buffer may grow until it has its full size.  `Holds` says that every one
of the last `size` entries is found in its slot.

An index beside the buffer keeps, for each key, the slots of the newest entries with that key.  What
it has to keep (`keptAt`) follows from the history alone, and changes with each entry in one way:
the entry that is written over leaves the index, the new one comes in front, and only the newest
`perKey` stay (`keptAt_cons`).

The history is a list of entries, the newest first.
-/

set_option autoImplicit false

namespace RingBuffer

variable {α κ : Type}

/-- The entries with their numbers: the first one ever added has the number 0. -/
def numbered : List α → List (ℕ × α)
  | [] => []
  | a :: older => (older.length, a) :: numbered older

@[simp] theorem map_snd_numbered (added : List α) : (numbered added).map Prod.snd = added := by
  induction added with
  | nil => rfl
  | cons a older ih => rw [numbered, List.map_cons, ih]

theorem lt_of_mem_numbered {added : List α} {e : ℕ × α} (h : e ∈ numbered added) :
    e.1 < added.length := by
  induction added with
  | nil => exact absurd h List.not_mem_nil
  | cons a older ih =>
    rw [List.length_cons]
    rcases List.mem_cons.mp h with rfl | h
    · omega
    · have := ih h
      omega

theorem pairwise_numbered (added : List α) :
    (numbered added).Pairwise fun e e' ↦ e'.1 < e.1 := by
  induction added with
  | nil => exact .nil
  | cons a older ih => exact .cons (fun e he ↦ lt_of_mem_numbered he) ih

theorem exists_mem_numbered {added : List α} {n : ℕ} (h : n < added.length) :
    ∃ a, (n, a) ∈ numbered added := by
  induction added with
  | nil => exact absurd h (Nat.not_lt_zero n)
  | cons a older ih =>
    rw [List.length_cons] at h
    by_cases hn : n = older.length
    · exact ⟨a, by rw [hn]; exact List.mem_cons_self⟩
    · obtain ⟨b, hb⟩ := ih (by omega)
      exact ⟨b, List.mem_cons_of_mem _ hb⟩

theorem eq_of_mem_numbered {added : List α} {n : ℕ} {a b : α} (ha : (n, a) ∈ numbered added)
    (hb : (n, b) ∈ numbered added) : a = b := by
  have hnodup : ((numbered added).map Prod.fst).Nodup := by
    rw [List.Nodup, List.pairwise_map]
    exact (pairwise_numbered added).imp fun hlt ↦ hlt.ne'
  exact congrArg Prod.snd (List.inj_on_of_nodup_map hnodup ha hb rfl)

/-- The newest entries are those with the greatest numbers. -/
theorem filter_numbered (added : List α) (first : ℕ) :
    ((numbered added).filter fun e ↦ first ≤ e.1).map Prod.snd =
      added.take (added.length - first) := by
  induction added with
  | nil => simp [numbered]
  | cons a older ih =>
    rw [numbered, List.filter_cons, List.length_cons]
    by_cases hfirst : first ≤ older.length
    · rw [if_pos (by simpa using hfirst), List.map_cons, ih, Nat.succ_sub hfirst,
        List.take_succ_cons]
    · have hnone : older.length - first = 0 := by omega
      have hnone' : older.length + 1 - first = 0 := by omega
      rw [if_neg (by simpa using hfirst), ih, hnone, hnone', List.take_zero, List.take_zero]

/-- An entry is followed by the older ones. -/
theorem drop_of_mem_numbered {added : List α} {n : ℕ} {a : α} (h : (n, a) ∈ numbered added) :
    added.drop (added.length - (n + 1)) = a :: added.drop (added.length - n) := by
  induction added with
  | nil => exact absurd h List.not_mem_nil
  | cons b older ih =>
    rw [numbered, List.mem_cons] at h
    rcases h with h | h
    · obtain ⟨rfl, rfl⟩ := Prod.mk.inj h
      rw [List.length_cons, Nat.sub_self, Nat.add_sub_cancel_left]
      rfl
    · have hlt := lt_of_mem_numbered h
      have hlt : n < older.length := hlt
      have hfirst : older.length + 1 - (n + 1) = (older.length - (n + 1)) + 1 := by omega
      have hrest : older.length + 1 - n = (older.length - n) + 1 := by omega
      rw [List.length_cons, hfirst, hrest, List.drop_succ_cons, List.drop_succ_cons, ih h]

/-! ## The slots -/

section Slots

variable {size : ℕ} {slots : List α} {added : List α}

/-- A slot is written; the first free one is appended. -/
def put (slots : List α) (i : ℕ) (a : α) : List α :=
  if slots.length ≤ i then slots ++ [a] else slots.set i a

/-- The last `size` entries are in their slots. -/
structure Holds (size : ℕ) (slots : List α) (added : List α) : Prop where
  grown : min added.length size ≤ slots.length
  found : ∀ e ∈ numbered added, added.length ≤ e.1 + size → slots[e.1 % size]? = some e.2

theorem holds_nil (slots : List α) : Holds size slots [] :=
  ⟨by simp, fun _ he ↦ absurd he List.not_mem_nil⟩

theorem getElem?_put {i : ℕ} (hi : i ≤ slots.length) (a : α) (j : ℕ) :
    (put slots i a)[j]? = if j = i then some a else slots[j]? := by
  rw [put]
  split
  · obtain rfl : i = slots.length := by omega
    by_cases hj : j = slots.length
    · rw [hj, if_pos rfl, List.getElem?_concat_length]
    · rw [if_neg hj]
      by_cases hlt : j < slots.length
      · rw [List.getElem?_append_left hlt]
      · rw [List.getElem?_eq_none (by rw [List.length_append, List.length_singleton]; omega),
          List.getElem?_eq_none (by omega)]
  · rename_i hlt
    rw [List.getElem?_set]
    by_cases hj : i = j
    · rw [if_pos hj, if_pos (by omega), if_pos hj.symm]
    · rw [if_neg hj, if_neg (Ne.symm hj)]

/-- The slot of the next entry is there, or is the first free one. -/
theorem Holds.slot_le (h : Holds size slots added) (hsize : 0 < size) :
    added.length % size ≤ slots.length := by
  have hgrown := h.grown
  have hlt := Nat.mod_lt added.length hsize
  by_cases hfull : size ≤ added.length
  · omega
  · rw [Nat.mod_eq_of_lt (by omega)]
    omega

/-- Different numbers among the last `size` have different slots. -/
theorem mod_inj {m n total : ℕ} (hm : m < total) (hn : n < total) (hm' : total ≤ m + size)
    (hn' : total ≤ n + size) (h : m % size = n % size) : m = n := by
  wlog hle : m ≤ n generalizing m n
  · exact (this hn hm hn' hm' h.symm (by omega)).symm
  · have hdiff := Nat.dvd_of_mod_eq_zero (Nat.sub_mod_eq_zero_of_mod_eq h.symm)
    have hzero := Nat.eq_zero_of_dvd_of_lt hdiff (by omega)
    omega

/-- **An entry is added**, and found in its slot from then on. -/
theorem Holds.put (h : Holds size slots added) (hsize : 0 < size) (a : α) :
    Holds size (put slots (added.length % size) a) (a :: added) := by
  have hslot := h.slot_le hsize
  have hgrown := h.grown
  refine ⟨?_, fun e he hlast ↦ ?_⟩
  · rw [RingBuffer.put, List.length_cons]
    split
    · rw [List.length_append, List.length_singleton]
      omega
    · rw [List.length_set]
      have hlt := Nat.mod_lt added.length hsize
      by_cases hfull : size ≤ added.length
      · omega
      · rw [Nat.mod_eq_of_lt (by omega)] at *
        omega
  · rw [getElem?_put hslot]
    rcases List.mem_cons.mp he with rfl | he
    · rw [if_pos rfl]
    · rw [List.length_cons] at hlast
      have hlt := lt_of_mem_numbered he
      have hne : e.1 % size ≠ added.length % size := fun heq ↦ by
        have hsame := mod_inj (by omega) (by omega) hlast (by omega) heq
        omega
      rw [if_neg hne]
      exact h.found e he (by omega)

/-- What is written over is the entry that leaves the buffer. -/
theorem Holds.overwritten (h : Holds size slots added) (hsize : 0 < size)
    (hfull : size ≤ added.length) :
    ∃ a, (added.length - size, a) ∈ numbered added ∧ slots[added.length % size]? = some a := by
  have hlt : added.length - size < added.length := by omega
  obtain ⟨a, ha⟩ := exists_mem_numbered hlt
  have hfound := h.found _ ha (by omega)
  rw [← Nat.mod_eq_sub_mod hfull] at hfound
  exact ⟨a, ha, hfound⟩

end Slots

/-! ## The index -/

section Index

variable [DecidableEq κ] (size perKey since : ℕ) (key : α → κ) (added : List α) (k : κ)

/-- The entry is still in the buffer, and was not forgotten. -/
def live (e : ℕ × α) : Bool := decide (since ≤ e.1) && decide (added.length ≤ e.1 + size)

/-- What the index keeps for a key, the newest first. -/
def keptAt : List (ℕ × α) :=
  (((numbered added).filter fun e ↦ live size since added e && decide (key e.2 = k)).take perKey)

variable {size perKey since key added k}

theorem take_filter_of_sorted {es : List (ℕ × α)} (h : es.Pairwise fun e e' ↦ e'.1 < e.1)
    (first n : ℕ) :
    (es.filter fun e ↦ first ≤ e.1).take n = (es.take n).filter fun e ↦ first ≤ e.1 := by
  induction es generalizing n with
  | nil => simp
  | cons e es ih =>
    obtain ⟨hlt, hes⟩ := List.pairwise_cons.mp h
    cases n with
    | zero => simp
    | succ n =>
      rw [List.filter_cons, List.take_succ_cons, List.filter_cons]
      by_cases he : first ≤ e.1
      · rw [if_pos (by simpa using he), if_pos (by simpa using he), List.take_succ_cons, ih hes]
      · have hnone : ∀ e' ∈ es, ¬first ≤ e'.1 := fun e' he' ↦ by
          have := hlt e' he'
          omega
        rw [if_neg (by simpa using he), if_neg (by simpa using he),
          List.filter_eq_nil_iff.mpr (by simpa using hnone), List.take_nil, eq_comm,
          List.filter_eq_nil_iff]
        exact fun e' he' ↦ by simpa using hnone e' (List.mem_of_mem_take he')

theorem mem_keptAt {e : ℕ × α} (h : e ∈ keptAt size perKey since key added k) :
    e ∈ numbered added ∧ since ≤ e.1 ∧ added.length ≤ e.1 + size ∧ key e.2 = k := by
  obtain ⟨hmem, hkept⟩ := List.mem_filter.mp (List.mem_of_mem_take h)
  simp only [live, Bool.and_eq_true, decide_eq_true_eq] at hkept
  exact ⟨hmem, hkept.1.1, hkept.1.2, hkept.2⟩

theorem length_keptAt_le : (keptAt size perKey since key added k).length ≤ perKey :=
  List.length_take_le perKey _

theorem pairwise_keptAt : (keptAt size perKey since key added k).Pairwise fun e e' ↦ e'.1 < e.1 :=
  ((pairwise_numbered added).sublist List.filter_sublist).sublist (List.take_sublist _ _)

/-- **An entry is added**: the one that is written over leaves the index, the new one comes in
front, and the newest stay. -/
theorem keptAt_cons (hsize : 0 < size) (hsince : since ≤ added.length) (a : α) :
    keptAt size perKey since key (a :: added) k =
      (let rest := (keptAt size perKey since key added k).filter fun e ↦
        added.length + 1 - size ≤ e.1
      if key a = k then (added.length, a) :: rest else rest).take perKey := by
  have hrest : (((numbered added).filter fun e ↦ live size since (a :: added) e &&
      decide (key e.2 = k))) =
        ((numbered added).filter fun e ↦ live size since added e && decide (key e.2 = k)).filter
          fun e ↦ added.length + 1 - size ≤ e.1 := by
    rw [List.filter_filter]
    refine List.filter_congr fun e he ↦ ?_
    have hlt := lt_of_mem_numbered he
    by_cases hkey : key e.2 = k
    · rw [live, live, List.length_cons, Bool.eq_iff_iff]
      simp only [hkey, Bool.and_eq_true, decide_eq_true_eq, and_true]
      omega
    · simp [hkey]
  have hsorted := (pairwise_numbered added).sublist (List.filter_sublist
    (p := fun e ↦ live size since added e && decide (key e.2 = k)))
  have hlive : live size since (a :: added) (added.length, a) = true := by
    simp only [live, List.length_cons, Bool.and_eq_true, decide_eq_true_eq]
    omega
  rw [keptAt, numbered, List.filter_cons, hlive, Bool.true_and, hrest]
  dsimp only
  rw [keptAt, ← take_filter_of_sorted hsorted]
  by_cases hkey : key a = k
  · rw [if_pos (by simpa using hkey), if_pos hkey]
    cases perKey with
    | zero => rfl
    | succ n =>
      rw [List.take_succ_cons, List.take_succ_cons, List.take_take, Nat.min_eq_left (by omega)]
  · rw [if_neg (by simpa using hkey), if_neg hkey, List.take_take, Nat.min_self]

/-- **What the index keeps** are the newest of the entries with the key, of those that are among the
last `size` and were not forgotten. -/
theorem map_keptAt : (keptAt size perKey since key added k).map Prod.snd =
    (((added.take (added.length - since)).take size).filter fun a ↦ key a = k).take perKey := by
  have hlive : ((numbered added).filter fun e ↦ live size since added e && decide (key e.2 = k)) =
      ((numbered added).filter fun e ↦ max since (added.length - size) ≤ e.1).filter
        fun e ↦ decide (key e.2 = k) := by
    rw [List.filter_filter]
    refine List.filter_congr fun e _ ↦ ?_
    by_cases hkey : key e.2 = k
    · rw [live, Bool.eq_iff_iff]
      simp only [hkey, Bool.and_eq_true, decide_eq_true_eq, and_true, true_and]
      omega
    · simp [hkey]
  have hsnd : ((numbered added).filter fun e ↦ max since (added.length - size) ≤ e.1).map Prod.snd =
      (added.take (added.length - since)).take size := by
    rw [filter_numbered, List.take_take]
    congr 1
    omega
  rw [keptAt, hlive, List.map_take, ← hsnd, List.filter_map]
  rfl

/-- The slots of what is kept, the oldest first. -/
def slotsAt (size : ℕ) (kept : List (ℕ × α)) : List ℕ := (kept.map fun e ↦ e.1 % size).reverse

/-- **Taking the slot that is written over out of the list** leaves the slots of what stays. -/
theorem erase_slotsAt (hsize : 0 < size) (hfull : size ≤ added.length) :
    (slotsAt size (keptAt size perKey since key added k)).erase (added.length % size) =
      slotsAt size ((keptAt size perKey since key added k).filter fun e ↦
        added.length + 1 - size ≤ e.1) := by
  have hbounds : ∀ e ∈ keptAt size perKey since key added k,
      e.1 < added.length ∧ added.length ≤ e.1 + size := fun e he ↦
    ⟨lt_of_mem_numbered (mem_keptAt he).1, (mem_keptAt he).2.2.1⟩
  have hnodup : (slotsAt size (keptAt size perKey since key added k)).Nodup := by
    rw [slotsAt, List.nodup_reverse, List.Nodup, List.pairwise_map]
    refine pairwise_keptAt.imp_of_mem fun {e e'} he he' hlt heq ↦ ?_
    obtain ⟨hlt₁, hlast₁⟩ := hbounds e he
    obtain ⟨hlt₂, hlast₂⟩ := hbounds e' he'
    have := mod_inj hlt₁ hlt₂ hlast₁ hlast₂ heq
    omega
  rw [hnodup.erase_eq_filter, slotsAt, slotsAt, List.filter_reverse, List.filter_map]
  congr 2
  refine List.filter_congr fun e he ↦ ?_
  obtain ⟨hlt, hlast⟩ := hbounds e he
  have hoverwritten : added.length % size = (added.length - size) % size :=
    Nat.mod_eq_sub_mod hfull
  have hiff : e.1 % size = added.length % size ↔ e.1 = added.length - size := by
    rw [hoverwritten]
    exact ⟨fun h ↦ mod_inj hlt (by omega) hlast (by omega) h, fun h ↦ by rw [h]⟩
  rw [Bool.eq_iff_iff]
  simp only [Function.comp_apply, bne_iff_ne, ne_eq, hiff, decide_eq_true_eq]
  omega

end Index

end RingBuffer
