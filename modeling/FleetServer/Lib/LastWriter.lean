import Mathlib.Data.List.Induction
import Mathlib.Data.List.Perm.Basic
import Mathlib.Data.List.Sort
import Mathlib.Tactic.Linarith

/-!
# Group schedules and their last writers

A finite list of items, each with a group number and with what it writes to each variable, is run
group by group, the items of one group in any order (`IsSchedule`).  Which value a variable has at
some point of such a run is decided by the last item before that point that writes it, and which
item that can be is a matter of the group numbers alone.

`Agree` says of a point — a group `g`, with the items `others` of that group that may come first —
that every item that can be the last writer writes an acceptable value.  `accepts_before_iff` shows
that this is exact for the point where an item starts, and `accepts_end_iff` for the end of the run:
the value is acceptable in *every* schedule precisely when it is acceptable from every possible
last writer.  The schedules that show the condition necessary are sorted by a key that puts the
chosen writer last in its group and the reader first in its own.
-/

set_option autoImplicit false

namespace LastWriter

variable {ι V A : Type}

/-- A run of the items, group after group. -/
structure IsSchedule (grp : ι → ℕ) (items run : List ι) : Prop where
  perm : run.Perm items
  sorted : run.Pairwise fun a b ↦ grp a ≤ grp b

/-- The groups `0, …, total - 1` of the items one after the other, each in some order of its own. -/
structure RunsGroups (grp : ι → ℕ) (total : ℕ) (items run : List ι) (group : ℕ → List ι) :
    Prop where
  perm : ∀ order < total, (group order).Perm (items.filter (grp · = order))
  run_eq : run = (List.range total).flatMap group

/-- The value of a variable after a run, given what it was before. -/
def valueAfter (w : ι → V → Option A) (init : V → A) (run : List ι) (v : V) : A :=
  run.foldl (fun acc y ↦ (w y v).getD acc) (init v)

/-! ## Running one group after the other -/

section Groups

variable {grp : ι → ℕ} {items run : List ι}

/-- A sorted list is its part below a bound followed by the rest. -/
theorem filter_lt_append_of_sorted (bound : ℕ) (h : run.Pairwise fun a b ↦ grp a ≤ grp b) :
    run = run.filter (grp · < bound) ++ run.filter (¬ grp · < bound) := by
  induction run with
  | nil => rfl
  | cons z rest ih =>
    obtain ⟨hz, hrest⟩ := List.pairwise_cons.mp h
    by_cases hlt : grp z < bound
    · rw [List.filter_cons_of_pos (by simpa using hlt),
        List.filter_cons_of_neg (by simpa using hlt), List.cons_append, ← ih hrest]
    · have hnone : rest.filter (grp · < bound) = [] := by
        rw [List.filter_eq_nil_iff]
        intro y hy
        have := hz y hy
        simpa using by omega
      have hall : rest.filter (¬ grp · < bound) = rest := by
        rw [List.filter_eq_self]
        intro y hy
        have := hz y hy
        simpa using by omega
      rw [List.filter_cons_of_neg (by simpa using hlt),
        List.filter_cons_of_pos (by simpa using hlt), hnone, hall, List.nil_append]

/-- The groups of a list below a bound, one after the other, are the list up to its order; and the
list itself when it is sorted. -/
theorem flatMap_groups (total : ℕ) (hlt : ∀ z ∈ items, grp z < total) :
    ((List.range total).flatMap fun order ↦ items.filter (grp · = order)).Perm items ∧
      (items.Pairwise (fun a b ↦ grp a ≤ grp b) →
        items = (List.range total).flatMap fun order ↦ items.filter (grp · = order)) := by
  induction total generalizing items with
  | zero =>
    cases items with
    | nil => exact ⟨List.Perm.nil, fun _ ↦ rfl⟩
    | cons z rest => exact absurd (hlt z List.mem_cons_self) (Nat.not_lt_zero _)
  | succ total ih =>
    have hlow : ∀ z ∈ items.filter (grp · < total), grp z < total := by simp
    have hgroup : ∀ order ∈ List.range total,
        (items.filter (grp · < total)).filter (grp · = order) = items.filter (grp · = order) := by
      intro order horder
      have horder : order < total := List.mem_range.mp horder
      rw [List.filter_filter]
      refine List.filter_congr fun z _ ↦ ?_
      by_cases hz : grp z = order <;> simp [hz, horder]
    have htop : items.filter (grp · = total) = items.filter (¬ grp · < total) := by
      refine List.filter_congr fun z hz ↦ ?_
      have := hlt z hz
      simp only [decide_eq_decide]
      omega
    obtain ⟨hperm, hsorted⟩ := ih hlow
    rw [List.range_succ, List.flatMap_append, List.flatMap_singleton, htop,
      ← List.flatMap_congr hgroup]
    constructor
    · refine (hperm.append_right _).trans ?_
      simpa only [decide_not] using List.filter_append_perm (fun z ↦ decide (grp z < total)) items
    · intro h
      rw [← hsorted (h.filter _)]
      exact filter_lt_append_of_sorted total h

/-- **A schedule is a run of the groups one after the other.** -/
theorem isSchedule_iff_runsGroups {total : ℕ} (hlt : ∀ z ∈ items, grp z < total) :
    IsSchedule grp items run ↔ ∃ group, RunsGroups grp total items run group := by
  constructor
  · intro h
    exact ⟨fun order ↦ run.filter (grp · = order), fun order _ ↦ h.perm.filter _,
      (flatMap_groups total fun z hz ↦ hlt z (h.perm.mem_iff.mp hz)).2 h.sorted⟩
  · rintro ⟨group, hgroup, rfl⟩
    have hmem : ∀ order < total, ∀ z ∈ group order, grp z = order := by
      intro order horder z hz
      simpa using (List.mem_filter.mp ((hgroup order horder).mem_iff.mp hz)).2
    constructor
    · refine List.Perm.trans ?_ (flatMap_groups total hlt).1
      exact List.Perm.flatMap_left _ fun order horder ↦ hgroup order (List.mem_range.mp horder)
    · rw [List.flatMap, List.pairwise_flatten, List.pairwise_map]
      constructor
      · intro l hl
        obtain ⟨order, horder, rfl⟩ := List.mem_map.mp hl
        refine List.Pairwise.imp_of_mem (R := fun _ _ ↦ True) ?_
          (List.pairwise_of_forall fun _ _ ↦ trivial)
        intro a b ha hb _
        have horder := List.mem_range.mp horder
        rw [hmem order horder a ha, hmem order horder b hb]
      · refine List.Pairwise.imp_of_mem ?_ List.pairwise_lt_range
        intro o₁ o₂ h₁ h₂ hlt a ha b hb
        rw [hmem o₁ (List.mem_range.mp h₁) a ha, hmem o₂ (List.mem_range.mp h₂) b hb]
        exact hlt.le

end Groups

/-! ## Which item wrote the value -/

section Value

variable {w : ι → V → Option A} {init : V → A} {v : V}

theorem foldl_of_silent {run : List ι} (h : ∀ z ∈ run, w z v = none) (acc : A) :
    run.foldl (fun acc y ↦ (w y v).getD acc) acc = acc := by
  induction run with
  | nil => rfl
  | cons z rest ih =>
    rw [List.foldl_cons, h z List.mem_cons_self, Option.getD_none]
    exact ih fun y hy ↦ h y (List.mem_cons_of_mem _ hy)

theorem valueAfter_of_silent (init : V → A) {run : List ι} (h : ∀ z ∈ run, w z v = none) :
    valueAfter w init run v = init v :=
  foldl_of_silent h _

theorem valueAfter_of_append {pre post : List ι} {y : ι} {a : A} (hy : w y v = some a)
    (hpost : ∀ z ∈ post, w z v = none) : valueAfter w init (pre ++ y :: post) v = a := by
  rw [valueAfter, List.foldl_append, List.foldl_cons, hy, Option.getD_some]
  exact foldl_of_silent hpost a

/-- Either nothing wrote the variable, or there was a last item that did. -/
theorem valueAfter_cases (run : List ι) :
    (∀ z ∈ run, w z v = none) ∨
      ∃ pre y post a, run = pre ++ y :: post ∧ w y v = some a ∧ ∀ z ∈ post, w z v = none := by
  induction run using List.reverseRecOn with
  | nil => exact Or.inl (by simp)
  | append_singleton run x ih =>
    cases hx : w x v with
    | some a => exact Or.inr ⟨run, x, [], a, rfl, hx, by simp⟩
    | none =>
      rcases ih with hall | ⟨pre, y, post, a, rfl, hy, hpost⟩
      · refine Or.inl fun z hz ↦ ?_
        rcases List.mem_append.mp hz with hz | hz
        · exact hall z hz
        · rw [List.mem_singleton.mp hz, hx]
      · refine Or.inr ⟨pre, y, post ++ [x], a, by simp, hy, fun z hz ↦ ?_⟩
        rcases List.mem_append.mp hz with hz | hz
        · exact hpost z hz
        · rw [List.mem_singleton.mp hz, hx]

/-- In a run sorted by a key, the last writer is the one nothing of a later key overwrites. -/
theorem valueAfter_of_sorted (init : V → A) {key : ι → ℕ} {run : List ι} {y : ι} {a : A}
    (hsort : run.Pairwise fun a b ↦ key a ≤ key b) (hnodup : run.Nodup) (hy : y ∈ run)
    (ha : w y v = some a) (hlast : ∀ z ∈ run, z ≠ y → key y ≤ key z → w z v = none) :
    valueAfter w init run v = a := by
  obtain ⟨pre, post, rfl⟩ := List.append_of_mem hy
  refine valueAfter_of_append ha fun z hz ↦ ?_
  have hle : key y ≤ key z := (List.pairwise_cons.mp (List.pairwise_append.mp hsort).2.1).1 z hz
  have hne : z ≠ y := by
    rintro rfl
    exact (List.nodup_cons.mp (List.nodup_append.mp hnodup).2.1).1 hz
  exact hlast z (by simp [hz]) hne hle

end Value

/-! ## Agreement of the possible last writers -/

section Agree

variable (grp : ι → ℕ) (w : ι → V → Option A) (init : V → A) (items : List ι)

/-- Every possible last writer before a point of group `g` leaves an acceptable value: an item of
the group that satisfies `others`; an item of the nearest earlier group that writes at all; the
initial value if there is none. -/
structure Agree (others : ι → Prop) (g : ℕ) (v : V) (P : A → Prop) : Prop where
  same : ∀ y ∈ items, others y → grp y = g → ∀ a, w y v = some a → P a
  nearest : ∀ y ∈ items, grp y < g →
    (∀ z ∈ items, grp z < g → (w z v).isSome → grp z ≤ grp y) → ∀ a, w y v = some a → P a
  initial : (∀ y ∈ items, grp y < g → w y v = none) → P (init v)

end Agree

section Exact

variable {grp : ι → ℕ} {w : ι → V → Option A} {init : V → A} {items run : List ι} {v : V}
  {P : A → Prop}

/-- What ran before a point of group `g`: everything of the earlier groups, nothing of the later
ones, and of the group itself only items that satisfy `others`. -/
theorem accepts_of_agree {others : ι → Prop} {g : ℕ} {pre : List ι}
    (h : Agree grp w init items others g v P) (hsort : pre.Pairwise fun a b ↦ grp a ≤ grp b)
    (hsub : ∀ z ∈ pre, z ∈ items ∧ grp z ≤ g ∧ (grp z = g → others z))
    (hall : ∀ z ∈ items, grp z < g → z ∈ pre) : P (valueAfter w init pre v) := by
  rcases valueAfter_cases (w := w) (v := v) pre with hnone | ⟨p, y, q, a, rfl, ha, hq⟩
  · rw [valueAfter_of_silent init hnone]
    exact h.initial fun z hz hlt ↦ hnone z (hall z hz hlt)
  · rw [valueAfter_of_append ha hq]
    obtain ⟨hitem, hle, hothers⟩ := hsub y (by simp)
    rcases Nat.lt_or_eq_of_le hle with hlt | heq
    · refine h.nearest y hitem hlt (fun z hz hzg hw ↦ ?_) a ha
      -- an item that writes the variable comes no later than its last writer
      rcases List.mem_append.mp (hall z hz hzg) with hzp | hzq
      · exact (List.pairwise_append.mp hsort).2.2 z hzp y List.mem_cons_self
      · rcases List.mem_cons.mp hzq with rfl | hzq
        · exact le_rfl
        · rw [hq z hzq] at hw
          exact absurd hw (by simp)
    · exact h.same y hitem (hothers heq) heq a ha

/-- A sort by any key that respects the groups is a schedule. -/
theorem isSchedule_sort (items : List ι) (key : ι → ℕ)
    (hkey : ∀ a b, key a ≤ key b → grp a ≤ grp b) :
    IsSchedule grp items (items.insertionSort fun a b ↦ key a ≤ key b) :=
  ⟨List.perm_insertionSort _ _, ((List.pairwise_insertionSort _ items).imp fun h ↦ hkey _ _ h)⟩

/-- Three places within a group: first, in the middle, last. -/
def rankKey (grp rank : ι → ℕ) (z : ι) : ℕ := 3 * grp z + rank z

theorem rankKey_respects {rank : ι → ℕ} (hrank : ∀ z, rank z ≤ 2) (a b : ι)
    (h : rankKey grp rank a ≤ rankKey grp rank b) : grp a ≤ grp b := by
  have ha := hrank a
  have hb := hrank b
  simp only [rankKey] at h
  omega

/-- The value before an item in the schedule sorted by a key, from the writer with the last key. -/
theorem accepts_of_sorted_before (rank : ι → ℕ) {x y : ι} {a : A} (hnodup : items.Nodup)
    (hrank : ∀ z, rank z ≤ 2)
    (h : ∀ run, IsSchedule grp items run → ∀ pre post, run = pre ++ x :: post →
      P (valueAfter w init pre v))
    (hx : x ∈ items) (hy : y ∈ items) (ha : w y v = some a)
    (hyx : rankKey grp rank y < rankKey grp rank x)
    (hlast : ∀ z ∈ items, z ≠ y → z ≠ x → rankKey grp rank y ≤ rankKey grp rank z →
      rankKey grp rank z ≤ rankKey grp rank x → w z v = none) : P a := by
  let key := rankKey grp rank
  have hsched := isSchedule_sort items key (rankKey_respects hrank)
  have hperm : (items.insertionSort fun a b ↦ key a ≤ key b).Perm items := hsched.perm
  have hsort := List.pairwise_insertionSort (fun a b ↦ key a ≤ key b) items
  obtain ⟨pre, post, hrun⟩ := List.append_of_mem (hperm.mem_iff.mpr hx)
  rw [hrun] at hsort hperm
  have hnd : (pre ++ x :: post).Nodup := hperm.nodup_iff.mpr hnodup
  obtain ⟨hpre, hpost, hcross⟩ := List.pairwise_append.mp hsort
  obtain ⟨hndpre, -, hdisj⟩ := List.nodup_append.mp hnd
  have hypre : y ∈ pre := by
    rcases List.mem_append.mp (hperm.mem_iff.mpr hy) with hy | hy
    · exact hy
    · rcases List.mem_cons.mp hy with rfl | hy
      · exact absurd hyx (lt_irrefl _)
      · exact absurd ((List.pairwise_cons.mp hpost).1 y hy) (not_le.mpr hyx)
  have hval : valueAfter w init pre v = a :=
    valueAfter_of_sorted init hpre hndpre hypre ha fun z hz hzy hyz ↦
      hlast z (hperm.mem_iff.mp (by simp [hz])) hzy (hdisj z hz x List.mem_cons_self) hyz
        (hcross z hz x List.mem_cons_self)
  rw [← hval]
  exact h _ hsched pre post hrun

/-- **An item starts with an acceptable value in every schedule exactly when every possible last
writer before it leaves one.** -/
theorem accepts_before_iff {x : ι} (hnodup : items.Nodup) (hx : x ∈ items) :
    (∀ run, IsSchedule grp items run → ∀ pre post, run = pre ++ x :: post →
        P (valueAfter w init pre v)) ↔
      Agree grp w init items (· ≠ x) (grp x) v P := by
  classical
  constructor
  · intro h
    refine ⟨fun y hy hyx hg a ha ↦ ?_, fun y hy hlt hnear a ha ↦ ?_, fun hnone ↦ ?_⟩
    · -- `y` first in the common group, then `x`, then the rest
      refine accepts_of_sorted_before (fun z ↦ if z = y then 0 else if z = x then 1 else 2)
        hnodup (fun z ↦ by split_ifs <;> omega) h hx hy ha ?_ ?_
      · simp only [rankKey, if_true, if_neg hyx.symm]
        omega
      · intro z _ hzy hzx hyz hzx'
        simp only [rankKey, if_true, if_neg hyx.symm, if_neg hzy, if_neg hzx] at hyz hzx'
        omega
    · -- `y` last in its group, `x` first in its own
      have hyx : y ≠ x := fun heq ↦ absurd hlt (by rw [heq]; exact lt_irrefl _)
      refine accepts_of_sorted_before (fun z ↦ if z = y then 2 else if z = x then 0 else 1)
        hnodup (fun z ↦ by split_ifs <;> omega) h hx hy ha ?_ ?_
      · simp only [rankKey, if_true, if_neg hyx.symm]
        omega
      · intro z hz hzy hzx hyz hzx'
        simp only [rankKey, if_true, if_neg hyx.symm, if_neg hzy, if_neg hzx] at hyz hzx'
        by_contra hw
        have hle := hnear z hz (by omega) (Option.isSome_iff_ne_none.mpr hw)
        omega
    · -- `x` first in its group
      let rank : ι → ℕ := fun z ↦ if z = x then 0 else 1
      have hsched := isSchedule_sort items (rankKey grp rank)
        (rankKey_respects fun z ↦ by dsimp only [rank]; split_ifs <;> omega)
      have hsort := List.pairwise_insertionSort
        (fun a b ↦ rankKey grp rank a ≤ rankKey grp rank b) items
      obtain ⟨pre, post, hrun⟩ := List.append_of_mem (hsched.perm.mem_iff.mpr hx)
      have hperm := hsched.perm
      rw [hrun] at hsort hperm
      have hnd : (pre ++ x :: post).Nodup := hperm.nodup_iff.mpr hnodup
      have hsilent : ∀ z ∈ pre, w z v = none := by
        intro z hz
        have hzx : z ≠ x := (List.nodup_append.mp hnd).2.2 z hz x List.mem_cons_self
        have hle := (List.pairwise_append.mp hsort).2.2 z hz x List.mem_cons_self
        simp only [rankKey, rank, if_true, if_neg hzx] at hle
        exact hnone z (hperm.mem_iff.mp (by simp [hz])) (by omega)
      rw [← valueAfter_of_silent init hsilent]
      exact h _ hsched pre post hrun
  · intro h run hrun pre post heq
    have hperm := hrun.perm
    have hsort := hrun.sorted
    rw [heq] at hperm hsort
    have hnd : (pre ++ x :: post).Nodup := hperm.nodup_iff.mpr hnodup
    obtain ⟨hpre, hpost, hcross⟩ := List.pairwise_append.mp hsort
    refine accepts_of_agree h hpre (fun z hz ↦ ?_) fun z hz hlt ↦ ?_
    · exact ⟨hperm.mem_iff.mp (by simp [hz]), hcross z hz x List.mem_cons_self,
        fun _ ↦ (List.nodup_append.mp hnd).2.2 z hz x List.mem_cons_self⟩
    · rcases List.mem_append.mp (hperm.mem_iff.mpr hz) with hz | hz
      · exact hz
      · rcases List.mem_cons.mp hz with rfl | hz
        · exact absurd hlt (lt_irrefl _)
        · exact absurd ((List.pairwise_cons.mp hpost).1 z hz) (not_le.mpr hlt)

/-- **Every schedule ends with an acceptable value exactly when every possible last writer leaves
one.**  The end is a point of a group `g` past all the items. -/
theorem accepts_end_iff {g : ℕ} (hnodup : items.Nodup) (hg : ∀ z ∈ items, grp z < g) :
    (∀ run, IsSchedule grp items run → P (valueAfter w init run v)) ↔
      Agree grp w init items (fun _ ↦ False) g v P := by
  classical
  constructor
  · intro h
    refine ⟨fun _ _ hfalse ↦ hfalse.elim, fun y hy hlt hnear a ha ↦ ?_, fun hnone ↦ ?_⟩
    · -- `y` last in its group
      let rank : ι → ℕ := fun z ↦ if z = y then 2 else 1
      have hsched := isSchedule_sort items (rankKey grp rank)
        (rankKey_respects fun z ↦ by dsimp only [rank]; split_ifs <;> omega)
      have hsort := List.pairwise_insertionSort
        (fun a b ↦ rankKey grp rank a ≤ rankKey grp rank b) items
      rw [← valueAfter_of_sorted init hsort (hsched.perm.nodup_iff.mpr hnodup)
        (hsched.perm.mem_iff.mpr hy) ha fun z hz hzy hyz ↦ ?_]
      · exact h _ hsched
      · have hz := hsched.perm.mem_iff.mp hz
        simp only [rankKey, rank, if_true, if_neg hzy] at hyz
        by_contra hw
        have hle := hnear z hz (hg z hz) (Option.isSome_iff_ne_none.mpr hw)
        omega
    · have hsched := isSchedule_sort items grp fun _ _ hab ↦ hab
      rw [← valueAfter_of_silent init fun z hz ↦
        hnone z (hsched.perm.mem_iff.mp hz) (hg z (hsched.perm.mem_iff.mp hz))]
      exact h _ hsched
  · intro h run hrun
    refine accepts_of_agree h hrun.sorted (fun z hz ↦ ?_) fun z hz _ ↦ hrun.perm.mem_iff.mpr hz
    have hz := hrun.perm.mem_iff.mp hz
    exact ⟨hz, (hg z hz).le, fun heq ↦ absurd (hg z hz) (by rw [heq]; exact lt_irrefl _)⟩

end Exact

end LastWriter
