import Mathlib.Data.Finset.Card
import Mathlib.Logic.Relation

/-!
# Looking for a cycle depth first

The search that marks every node it enters, keeps a second mark on the nodes it has not left yet,
and reports a cycle when an edge leads to one of these.  The edges are given by a function `succ`.
A number bounds how deep the search goes; a bound as large as a set of nodes that no edge leaves is
enough (`findsCycle_iff`).
-/

set_option autoImplicit false

namespace CycleSearch

open Relation

variable {α : Type}

/-! ## Marks -/

/-- The nodes that have been entered, and those of them that have not been left. -/
structure Marks (α : Type) where
  visited : α → Bool := fun _ ↦ false
  onStack : α → Bool := fun _ ↦ false

variable {succ : α → List α} {m m' m'' : Marks α} {nodes : Finset α} {fuel : ℕ}

/-- An edge. -/
def Arrow (succ : α → List α) (x y : α) : Prop := y ∈ succ x

/-- The node has been left. -/
def Marks.Left (m : Marks α) (x : α) : Prop := m.visited x = true ∧ m.onStack x = false

/-- No edge leads from a node that has been left to one that has not, and none of them is on a
cycle. -/
structure Marks.Sound (succ : α → List α) (m : Marks α) : Prop where
  visited : ∀ x, m.onStack x = true → m.visited x = true
  closed : ∀ x, m.Left x → ∀ y ∈ succ x, m.Left y
  acyclic : ∀ x, m.Left x → ¬TransGen (Arrow succ) x x

theorem Marks.Sound.left_of_reach (hm : m.Sound succ) {x y : α} (hx : m.Left x)
    (hxy : ReflTransGen (Arrow succ) x y) : m.Left y := by
  induction hxy with
  | refl => exact hx
  | tail _ hyz ih => exact hm.closed _ ih _ hyz

/-- The nodes that the search has still to enter. -/
def unvisited (nodes : Finset α) (m : Marks α) : ℕ :=
  (nodes.filter fun x ↦ m.visited x = false).card

/-- The marks after a part of the search. -/
structure Extends (succ : α → List α) (m m' : Marks α) : Prop where
  sound : m'.Sound succ
  stack : m'.onStack = m.onStack
  visited : ∀ x, m.visited x = true → m'.visited x = true

theorem Extends.refl (hm : m.Sound succ) : Extends succ m m := ⟨hm, rfl, fun _ ↦ id⟩

theorem Extends.trans (h : Extends succ m m') (h' : Extends succ m' m'') : Extends succ m m'' :=
  ⟨h'.sound, h'.stack.trans h.stack, fun x hx ↦ h'.visited x (h.visited x hx)⟩

theorem Extends.left (h : Extends succ m m') {x : α} (hx : m.Left x) : m'.Left x :=
  ⟨h.visited x hx.1, h.stack ▸ hx.2⟩

theorem Extends.unvisited_le (h : Extends succ m m') : unvisited nodes m' ≤ unvisited nodes m := by
  refine Finset.card_le_card fun x hx ↦ ?_
  obtain ⟨hmem, hnew⟩ := Finset.mem_filter.mp hx
  refine Finset.mem_filter.mpr ⟨hmem, Bool.eq_false_iff.mpr fun hold ↦ ?_⟩
  exact absurd (hnew.symm.trans (h.visited x hold)) (by simp)

/-! ## Outcomes -/

inductive Outcome (α : Type)
  | outOfFuel
  | cycle
  | done (marks : Marks α)

def Outcome.andThen (o : Outcome α) (next : Marks α → Outcome α) : Outcome α :=
  match o with
  | .done marks => next marks
  | .cycle => .cycle
  | .outOfFuel => .outOfFuel

/-- What an outcome says of a search that was to visit some nodes from the node `start`. -/
def Outcome.Means (succ : α → List α) (nodes : Finset α) (fuel : ℕ) (start : α → Prop)
    (ids : List α) (m : Marks α) : Outcome α → Prop
  | .outOfFuel => fuel < unvisited nodes m
  | .cycle => ∃ x w, start x ∧ ReflTransGen (Arrow succ) x w ∧ TransGen (Arrow succ) w w
  | .done m' => Extends succ m m' ∧ ∀ id ∈ ids, m'.Left id

/-- What is left to do starts from the marks that were made so far. -/
theorem Outcome.Means.andThen {start : α → Prop} {id : α} {ids : List α} {o : Outcome α}
    {next : Marks α → Outcome α} (ho : o.Means succ nodes fuel start [id] m)
    (hnext : ∀ m', Extends succ m m' → (next m').Means succ nodes fuel start ids m') :
    (o.andThen next).Means succ nodes fuel start (id :: ids) m := by
  cases o with
  | outOfFuel => exact ho
  | cycle => exact ho
  | done m' =>
    obtain ⟨hext, hid⟩ := ho
    have hrest := hnext m' hext
    rw [Outcome.andThen]
    cases hresult : next m' with
    | outOfFuel =>
      rw [hresult] at hrest
      exact lt_of_lt_of_le hrest hext.unvisited_le
    | cycle =>
      rw [hresult] at hrest
      exact hrest
    | done m'' =>
      rw [hresult] at hrest
      obtain ⟨hext', hids⟩ := hrest
      exact ⟨hext.trans hext', List.forall_mem_cons.mpr
        ⟨hext'.left (hid id List.mem_cons_self), hids⟩⟩

/-- The same outcome, of a search from nodes that lead to the former ones, and that was to visit
nodes which have been left as well. -/
theorem Outcome.Means.imp {start start' : α → Prop} {ids ids' : List α} {o : Outcome α}
    (ho : o.Means succ nodes fuel start ids m)
    (hstart : ∀ x, start x → ∃ y, start' y ∧ ReflTransGen (Arrow succ) y x)
    (hids : ∀ m', Extends succ m m' → (∀ id ∈ ids, m'.Left id) → ∀ id ∈ ids', m'.Left id) :
    o.Means succ nodes fuel start' ids' m := by
  cases o with
  | outOfFuel => exact ho
  | cycle =>
    obtain ⟨x, w, hx, hreach, hcycle⟩ := ho
    obtain ⟨y, hy, hyx⟩ := hstart x hx
    exact ⟨y, w, hy, hyx.trans hreach, hcycle⟩
  | done m' => exact ⟨ho.1, hids m' ho.1 ho.2⟩

/-- What holds of every visit to a node that has not been entered, when the nodes on the stack lead
to it. -/
def VisitSpec (succ : α → List α) (nodes : Finset α) (fuel : ℕ)
    (visit : α → Marks α → Outcome α) : Prop :=
  ∀ (id : α) (m : Marks α), m.Sound succ → id ∈ nodes → m.visited id = false →
    (∀ x, m.onStack x = true → ReflTransGen (Arrow succ) x id) →
    (visit id m).Means succ nodes fuel (· = id) [id] m

variable {visit : α → Marks α → Outcome α}

/-! ## Going from node to node -/

/-- The edges of a node that is on the stack, one after the other. -/
def scan (visit : α → Marks α → Outcome α) : List α → Marks α → Outcome α
  | [], m => .done m
  | next :: rest, m =>
    if !m.visited next then (visit next m).andThen (scan visit rest)
    else if m.onStack next then .cycle
    else scan visit rest m

/-- The search from several nodes. -/
def searchFrom (visit : α → Marks α → Outcome α) : List α → Marks α → Outcome α
  | [], m => .done m
  | root :: rest, m =>
    if !m.visited root then (visit root m).andThen (searchFrom visit rest)
    else searchFrom visit rest m

/-- An edge to a node on the stack closes a cycle. -/
theorem scan_means (hvisit : VisitSpec succ nodes fuel visit) {id : α} {todo : List α}
    (htodo : ∀ y ∈ todo, y ∈ succ id ∧ y ∈ nodes) (hm : m.Sound succ)
    (hstack : ∀ x, m.onStack x = true → ReflTransGen (Arrow succ) x id) :
    (scan visit todo m).Means succ nodes fuel (· = id) todo m := by
  induction todo generalizing m with
  | nil => exact ⟨Extends.refl hm, fun y hy ↦ absurd hy List.not_mem_nil⟩
  | cons next rest ih =>
    obtain ⟨⟨hto, hmem⟩, hrest⟩ := List.forall_mem_cons.mp htodo
    rw [scan]
    split
    · rename_i hnew
      have hfirst := hvisit next m hm hmem (by simpa using hnew) fun x hx ↦ (hstack x hx).tail hto
      have hfrom : (visit next m).Means succ nodes fuel (· = id) [next] m :=
        hfirst.imp (fun x hx ↦ ⟨id, rfl, hx ▸ ReflTransGen.single hto⟩) fun _ _ hids ↦ hids
      exact hfrom.andThen fun m' hext ↦ ih hrest hext.sound (hext.stack ▸ hstack)
    · rename_i hold
      split
      · rename_i hon
        exact ⟨id, id, rfl, .refl, TransGen.head' hto (hstack next hon)⟩
      · rename_i hoff
        have hleft : m.Left next := ⟨by simpa using hold, by simpa using hoff⟩
        exact (ih hrest hm hstack).imp (fun x hx ↦ ⟨x, hx, .refl⟩) fun m' hext hids ↦
          List.forall_mem_cons.mpr ⟨hext.left hleft, hids⟩

theorem searchFrom_means (hvisit : VisitSpec succ nodes fuel visit) {roots : List α}
    (hroots : ∀ r ∈ roots, r ∈ nodes) (hm : m.Sound succ) (hstack : ∀ x, m.onStack x = false) :
    (searchFrom visit roots m).Means succ nodes fuel (· ∈ roots) roots m := by
  induction roots generalizing m with
  | nil => exact ⟨Extends.refl hm, fun y hy ↦ absurd hy List.not_mem_nil⟩
  | cons root rest ih =>
    obtain ⟨hroot, hrest⟩ := List.forall_mem_cons.mp hroots
    rw [searchFrom]
    split
    · rename_i hnew
      have hfirst := hvisit root m hm hroot (by simpa using hnew) fun x hx ↦
        absurd ((hstack x).symm.trans hx) (by simp)
      refine (hfirst.imp (fun x hx ↦ ⟨root, List.mem_cons_self, hx ▸ .refl⟩) fun _ _ ↦ id).andThen
        fun m' hext ↦ ?_
      exact (ih hrest hext.sound (hext.stack ▸ hstack)).imp
        (fun x hx ↦ ⟨x, List.mem_cons_of_mem _ hx, .refl⟩) fun _ _ ↦ id
    · rename_i hold
      have hleft : m.Left root := ⟨by simpa using hold, hstack root⟩
      exact (ih hrest hm hstack).imp (fun x hx ↦ ⟨x, List.mem_cons_of_mem _ hx, .refl⟩)
        fun m' hext hids ↦ List.forall_mem_cons.mpr ⟨hext.left hleft, hids⟩

/-! ## The search -/

variable [DecidableEq α]

def Marks.enter (m : Marks α) (id : α) : Marks α where
  visited := Function.update m.visited id true
  onStack := Function.update m.onStack id true

def Marks.leave (m : Marks α) (id : α) : Marks α :=
  { m with onStack := Function.update m.onStack id false }

@[simp] theorem Marks.visited_enter (id : α) :
    (m.enter id).visited = Function.update m.visited id true := rfl

@[simp] theorem Marks.onStack_enter (id : α) :
    (m.enter id).onStack = Function.update m.onStack id true := rfl

@[simp] theorem Marks.visited_leave (id : α) : (m.leave id).visited = m.visited := rfl

@[simp] theorem Marks.onStack_leave (id : α) :
    (m.leave id).onStack = Function.update m.onStack id false := rfl

def dfs (succ : α → List α) : ℕ → α → Marks α → Outcome α
  | 0, _, _ => .outOfFuel
  | fuel + 1, id, m =>
    (scan (fun next m ↦ dfs succ fuel next m) (succ id) (m.enter id)).andThen fun m ↦
      .done (m.leave id)

def findsCycle (succ : α → List α) (fuel : ℕ) (roots : List α) : Bool :=
  match searchFrom (dfs succ fuel) roots {} with
  | .cycle => true
  | _ => false

theorem Marks.Sound.enter (hm : m.Sound succ) {id : α} (hnew : m.visited id = false) :
    (m.enter id).Sound succ := by
  have hleft : ∀ x, (m.enter id).Left x ↔ m.Left x := by
    intro x
    by_cases hx : x = id
    · simp [Marks.Left, hx, hnew]
    · simp [Marks.Left, hx]
  refine ⟨fun x hx ↦ ?_, fun x hx y hy ↦ ?_, fun x hx ↦ hm.acyclic x ((hleft x).mp hx)⟩
  · by_cases hself : x = id
    · simp [hself]
    · rw [Marks.onStack_enter, Function.update_of_ne hself] at hx
      rw [Marks.visited_enter, Function.update_of_ne hself]
      exact hm.visited x hx
  · exact (hleft y).mpr (hm.closed x ((hleft x).mp hx) y hy)

/-- **A node can be left once every edge of it leads to one that has been left**: it is on no cycle
then, since a cycle would lead back to a node that was still on the stack. -/
theorem Marks.Sound.leave (hm : m.Sound succ) {id : α} (hstack : m.onStack id = true)
    (hdone : ∀ y ∈ succ id, m.Left y) : (m.leave id).Sound succ := by
  have hleft : ∀ x, (m.leave id).Left x ↔ m.Left x ∨ x = id := by
    intro x
    by_cases hx : x = id
    · simp [Marks.Left, hx, hm.visited id hstack]
    · simp [Marks.Left, hx]
  refine ⟨fun x hx ↦ ?_, fun x hx y hy ↦ ?_, fun x hx hcycle ↦ ?_⟩
  · by_cases hself : x = id
    · exact hself ▸ hm.visited id hstack
    · rw [Marks.onStack_leave, Function.update_of_ne hself] at hx
      exact hm.visited x hx
  · rcases (hleft x).mp hx with hx | rfl
    · exact (hleft y).mpr (Or.inl (hm.closed x hx y hy))
    · exact (hleft y).mpr (Or.inl (hdone y hy))
  · rcases (hleft x).mp hx with hx | rfl
    · exact hm.acyclic x hx hcycle
    · obtain ⟨y, hy, hback⟩ := TransGen.head'_iff.mp hcycle
      have hself : m.Left x := hm.left_of_reach (hdone y hy) hback
      exact absurd (hstack.symm.trans hself.2) (by simp)

theorem unvisited_enter {id : α} (hmem : id ∈ nodes) (hnew : m.visited id = false) :
    unvisited nodes (m.enter id) + 1 = unvisited nodes m := by
  have hset : nodes.filter (fun x ↦ m.visited x = false) =
      insert id (nodes.filter fun x ↦ (m.enter id).visited x = false) := by
    ext x
    rw [Finset.mem_insert, Finset.mem_filter, Finset.mem_filter]
    by_cases hx : x = id
    · simp [hx, hmem, hnew]
    · simp [hx]
  have hout : id ∉ nodes.filter fun x ↦ (m.enter id).visited x = false := by
    rw [Finset.mem_filter]
    simp
  rw [unvisited, unvisited, hset, Finset.card_insert_of_notMem hout]

/-- **The search from a node leaves it, or finds a cycle that it leads to.** -/
theorem dfs_means (hnodes : ∀ x ∈ nodes, ∀ y ∈ succ x, y ∈ nodes) (fuel : ℕ) :
    VisitSpec succ nodes fuel (dfs succ fuel) := by
  induction fuel with
  | zero =>
    intro id m _ hmem hnew _
    have := unvisited_enter hmem hnew
    show 0 < unvisited nodes m
    omega
  | succ fuel ih =>
    intro id m hm hmem hnew hstack
    have hcount := unvisited_enter hmem hnew
    have hscan := scan_means ih (fun y hy ↦ ⟨hy, hnodes id hmem y hy⟩) (hm.enter hnew)
      fun x hx ↦ by
        by_cases hself : x = id
        · exact hself ▸ .refl
        · rw [Marks.onStack_enter, Function.update_of_ne hself] at hx
          exact hstack x hx
    rw [dfs]
    cases hresult : scan (fun next m ↦ dfs succ fuel next m) (succ id) (m.enter id) with
    | outOfFuel =>
      rw [hresult] at hscan
      have hlt : fuel < unvisited nodes (m.enter id) := hscan
      show fuel + 1 < unvisited nodes m
      omega
    | cycle =>
      rw [hresult] at hscan
      exact hscan
    | done m' =>
      rw [hresult] at hscan
      obtain ⟨hext, hdone⟩ := hscan
      have hon : m'.onStack id = true := by simp [hext.stack]
      have hoff : m.onStack id = false := Bool.eq_false_iff.mpr fun hon ↦
        absurd (hnew.symm.trans (hm.visited id hon)) (by simp)
      have hself : m'.visited id = true := hext.sound.visited id hon
      refine ⟨⟨hext.sound.leave hon hdone, ?_, fun x hx ↦ ?_⟩, fun x hx ↦ ?_⟩
      · rw [Marks.onStack_leave, hext.stack, Marks.onStack_enter, Function.update_idem, ← hoff,
          Function.update_eq_self]
      · by_cases hx' : x = id
        · exact hx' ▸ hself
        · refine hext.visited x ?_
          rw [Marks.visited_enter, Function.update_of_ne hx']
          exact hx
      · obtain rfl := List.mem_singleton.mp hx
        exact ⟨hself, Function.update_self ..⟩

/-- The whole search, which starts without marks. -/
theorem searchFrom_dfs_means {roots : List α} (hnodes : ∀ x ∈ nodes, ∀ y ∈ succ x, y ∈ nodes)
    (hroots : ∀ r ∈ roots, r ∈ nodes) (fuel : ℕ) :
    (searchFrom (dfs succ fuel) roots {}).Means succ nodes fuel (· ∈ roots) roots {} := by
  have hstart : Marks.Sound succ ({} : Marks α) :=
    ⟨by simp, fun x hx ↦ absurd hx.1 (by simp), fun x hx ↦ absurd hx.1 (by simp)⟩
  exact searchFrom_means (dfs_means hnodes fuel) hroots hstart fun _ ↦ rfl

/-- **The search comes to an end** when it may go as deep as there are nodes. -/
theorem searchFrom_ne_outOfFuel {roots : List α} (hnodes : ∀ x ∈ nodes, ∀ y ∈ succ x, y ∈ nodes)
    (hroots : ∀ r ∈ roots, r ∈ nodes) (hfuel : nodes.card ≤ fuel) :
    searchFrom (dfs succ fuel) roots {} ≠ .outOfFuel := by
  intro hresult
  have hmeans := searchFrom_dfs_means hnodes hroots fuel
  rw [hresult] at hmeans
  have hle : unvisited nodes ({} : Marks α) ≤ nodes.card := Finset.card_filter_le ..
  have hlt : fuel < unvisited nodes ({} : Marks α) := hmeans
  omega

/-- **The search finds a cycle when the nodes it starts from lead to one.** -/
theorem findsCycle_iff {roots : List α} (hnodes : ∀ x ∈ nodes, ∀ y ∈ succ x, y ∈ nodes)
    (hroots : ∀ r ∈ roots, r ∈ nodes) (hfuel : nodes.card ≤ fuel) :
    findsCycle succ fuel roots = true ↔
      ∃ r ∈ roots, ∃ w, ReflTransGen (Arrow succ) r w ∧ TransGen (Arrow succ) w w := by
  have hmeans := searchFrom_dfs_means hnodes hroots fuel
  rw [findsCycle]
  cases hresult : searchFrom (dfs succ fuel) roots {} with
  | outOfFuel => exact absurd hresult (searchFrom_ne_outOfFuel hnodes hroots hfuel)
  | cycle =>
    rw [hresult] at hmeans
    obtain ⟨r, w, hr, hcycle⟩ := hmeans
    exact iff_of_true rfl ⟨r, hr, w, hcycle⟩
  | done m' =>
    rw [hresult] at hmeans
    refine iff_of_false (by simp) ?_
    rintro ⟨r, hr, w, hreach, hcycle⟩
    exact hmeans.1.sound.acyclic w (hmeans.1.sound.left_of_reach (hmeans.2 r hr) hreach) hcycle

end CycleSearch
