import FleetServer.Lib.FilledMap
import FleetServer.Api.PlaceholderTexts
import FleetServer.Api.RealtimeSolve

/-!
# What a goal state expands to

`expandGoalStatePlaceholders` (`internal/api/pddl.go`) makes of each entry of a goal state an entry
for every instance and every agent, and files them under their variables.  It fails if there is
nothing to expand over, if a placeholder is left, and if two entries disagree.

Every call replaces the placeholders of its text in an order of its own, and the entries come in an
order of their own.  What is filed is determined by the set of the expansions (`expand_ok_iff`,
`expanded_lookup_iff`); the expansions themselves are determined as long as no value is read again
as a placeholder (`goalExpansions_eq`).
-/

set_option autoImplicit false

namespace FleetServer
namespace Api

open GoString Pddl
open FilledMap (Files Agree FilesOrFails)
open Placeholders (ReadOnce filled)

/-- What may be iterated over in any order: the goal state, and the placeholders in each call. -/
structure ExpansionOrders where
  goalState : RangeOrder (Σ _ : String, String)
  calls : GoalCall → SubstitutionOrder

/-! ## Filing the expansions -/

/-- No placeholder is left in the entry. -/
def Resolved (entry : String × String) : Prop :=
  (containsResourcePlaceholder entry.1 || containsAgentPlaceholder entry.1) = false ∧
    (containsResourcePlaceholder entry.2 || containsAgentPlaceholder entry.2) = false

/-- What an entry is filed under.  A blank variable is skipped. -/
def goalKey (entry : String × String) : Option String :=
  if trimSpace entry.1 = "" then none else some (trimSpace entry.1)

theorem goalKey_eq_some {entry : String × String} {key : String} :
    goalKey entry = some key ↔ key ≠ "" ∧ trimSpace entry.1 = key := by
  rw [goalKey]
  split
  · rename_i hblank
    exact iff_of_false (by simp) fun h ↦ h.1 (h.2.symm.trans hblank)
  · rename_i hblank
    rw [Option.some.injEq]
    exact ⟨fun h ↦ ⟨h ▸ hblank, h⟩, And.right⟩

theorem exists_addGoalEntry_error {entry : String × String} (h : ¬Resolved entry)
    (expanded : StringMap) : ∃ err, addGoalEntry expanded entry = .error err := by
  rw [addGoalEntry]
  split
  · exact ⟨_, rfl⟩
  · rename_i hvariable
    rw [if_pos]
    · exact ⟨_, rfl⟩
    · by_contra hvalue
      exact h ⟨Bool.eq_false_of_not_eq_true hvariable, Bool.eq_false_of_not_eq_true hvalue⟩

theorem addGoalEntry_of_blank {entry : String × String} (h : Resolved entry)
    (hblank : trimSpace entry.1 = "") (expanded : StringMap) :
    addGoalEntry expanded entry = .ok expanded := by
  rw [addGoalEntry, h.1, h.2, if_neg Bool.false_ne_true, if_neg Bool.false_ne_true]
  exact if_pos hblank

theorem addGoalEntry_of_new {entry : String × String} {expanded : StringMap} (h : Resolved entry)
    (hblank : trimSpace entry.1 ≠ "") (hnew : expanded.lookup (trimSpace entry.1) = none) :
    addGoalEntry expanded entry = .ok (expanded.insert (trimSpace entry.1) entry.2) := by
  rw [addGoalEntry, h.1, h.2, if_neg Bool.false_ne_true, if_neg Bool.false_ne_true]
  simp only [hblank, hnew, if_false]

theorem addGoalEntry_of_old {entry : String × String} {expanded : StringMap} {existing : String}
    (h : Resolved entry) (hblank : trimSpace entry.1 ≠ "")
    (hold : expanded.lookup (trimSpace entry.1) = some existing) :
    (existing = entry.2 → addGoalEntry expanded entry = .ok expanded) ∧
      (existing ≠ entry.2 → ∃ err, addGoalEntry expanded entry = .error err) := by
  rw [addGoalEntry, h.1, h.2, if_neg Bool.false_ne_true, if_neg Bool.false_ne_true]
  simp only [hblank, hold, if_false]
  exact ⟨fun hsame ↦ if_pos hsame, fun hne ↦ ⟨_, if_neg hne⟩⟩

theorem addGoalEntry_filesOrFails :
    FilesOrFails addGoalEntry (fun (expanded : StringMap) key ↦ expanded.lookup key) goalKey
      Prod.snd Resolved where
  succeeds expanded entry := by
    by_cases hresolved : Resolved entry
    · rw [and_iff_right hresolved]
      by_cases hblank : trimSpace entry.1 = ""
      · have hnone : goalKey entry = none := if_pos hblank
        exact iff_of_true ⟨_, addGoalEntry_of_blank hresolved hblank expanded⟩
          fun k v hk ↦ absurd (hnone.symm.trans hk) (by simp)
      · cases hlookup : expanded.lookup (trimSpace entry.1) with
        | none =>
          refine iff_of_true ⟨_, addGoalEntry_of_new hresolved hblank hlookup⟩ fun k v hk hv ↦ ?_
          rw [← (goalKey_eq_some.mp hk).2, hlookup] at hv
          exact absurd hv (by simp)
        | some existing =>
          have hold := addGoalEntry_of_old hresolved hblank hlookup
          by_cases hsame : existing = entry.2
          · refine iff_of_true ⟨_, hold.1 hsame⟩ fun k v hk hv ↦ ?_
            rw [← (goalKey_eq_some.mp hk).2, hlookup] at hv
            exact (Option.some.inj hv).symm.trans hsame
          · obtain ⟨err, herr⟩ := hold.2 hsame
            exact iff_of_false (by simp [herr]) fun h ↦
              hsame (h _ existing (goalKey_eq_some.mpr ⟨hblank, rfl⟩) hlookup)
    · obtain ⟨err, herr⟩ := exists_addGoalEntry_error hresolved expanded
      exact iff_of_false (by simp [herr]) fun h ↦ hresolved h.1
  files {expanded entry expanded'} h k := by
    have hresolved : Resolved entry := by
      by_contra hnot
      obtain ⟨err, herr⟩ := exists_addGoalEntry_error hnot expanded
      exact absurd (herr.symm.trans h) (by simp)
    by_cases hblank : trimSpace entry.1 = ""
    · have hnone : goalKey entry = none := if_pos hblank
      obtain rfl := Except.ok.inj ((addGoalEntry_of_blank hresolved hblank expanded).symm.trans h)
      rw [hnone, if_neg (by simp)]
    · have hkey : goalKey entry = some k ↔ trimSpace entry.1 = k := by
        rw [goalKey_eq_some, and_iff_right_of_imp fun heq ↦ heq ▸ hblank]
      cases hlookup : expanded.lookup (trimSpace entry.1) with
      | none =>
        obtain rfl := Except.ok.inj ((addGoalEntry_of_new hresolved hblank hlookup).symm.trans h)
        by_cases hk : trimSpace entry.1 = k
        · rw [if_pos (hkey.mpr hk), ← hk, AList.lookup_insert]
        · rw [if_neg fun heq ↦ hk (hkey.mp heq), AList.lookup_insert_ne (Ne.symm hk)]
      | some existing =>
        have hold := addGoalEntry_of_old hresolved hblank hlookup
        by_cases hsame : existing = entry.2
        · obtain rfl := Except.ok.inj ((hold.1 hsame).symm.trans h)
          by_cases hk : trimSpace entry.1 = k
          · rw [if_pos (hkey.mpr hk), ← hk, hlookup, hsame]
          · rw [if_neg fun heq ↦ hk (hkey.mp heq)]
        · obtain ⟨err, herr⟩ := hold.2 hsame
          exact absurd (herr.symm.trans h) (by simp)

/-! ## The expansions of one entry -/

/-- There is something to expand the entry over. -/
def Supplied (resources : List ResourceInfo) (agents : List AgentInfo)
    (entry : Σ _ : String, String) : Prop :=
  ¬(needsResource entry ∧ resourceInstances resources = []) ∧ ¬(needsAgent entry ∧ agents = [])

/-- What all entries of a goal state expand to in a call. -/
def allExpansions (calls : GoalCall → SubstitutionOrder) (goalState : StringMap)
    (resources : List ResourceInfo) (agents : List AgentInfo) : List (String × String) :=
  goalState.entries.flatMap (goalExpansions calls (resourceInstances resources) agents)

section Run

variable {orders : ExpansionOrders} {calls : GoalCall → SubstitutionOrder} {goalState : StringMap}
  {resources : List ResourceInfo} {agents : List AgentInfo} {entry : Σ _ : String, String}

theorem expandGoalEntry_of_supplied (calls : GoalCall → SubstitutionOrder)
    (h : Supplied resources agents entry) :
    expandGoalEntry calls (resourceInstances resources) agents entry =
      .ok (goalExpansions calls (resourceInstances resources) agents entry) := by
  rw [expandGoalEntry, if_neg h.1, if_neg h.2]

theorem supplied_of_expandGoalEntry {entries : List (String × String)}
    (h : expandGoalEntry calls (resourceInstances resources) agents entry = .ok entries) :
    Supplied resources agents entry := by
  rw [expandGoalEntry] at h
  split at h
  · exact absurd h (by simp)
  · rename_i hresource
    split at h
    · exact absurd h (by simp)
    · rename_i hagent
      exact ⟨hresource, hagent⟩

/-- The two loops are one loop over all expansions. -/
theorem foldlM_supplied {goals : List (Σ _ : String, String)}
    (h : ∀ entry ∈ goals, Supplied resources agents entry) (expanded : StringMap) :
    goals.foldlM (fun expanded entry ↦ do
        let entries ← expandGoalEntry calls (resourceInstances resources) agents entry
        entries.foldlM addGoalEntry expanded) expanded =
      (goals.flatMap (goalExpansions calls (resourceInstances resources) agents)).foldlM
        addGoalEntry expanded := by
  induction goals generalizing expanded with
  | nil => rfl
  | cons entry rest ih =>
    have hfirst := expandGoalEntry_of_supplied calls (h entry List.mem_cons_self)
    rw [List.foldlM_cons, List.flatMap_cons, List.foldlM_append, hfirst]
    have hrest : ∀ other ∈ rest, Supplied resources agents other := fun other hother ↦
      h other (List.mem_cons_of_mem entry hother)
    exact bind_congr fun next ↦ ih hrest next

theorem supplied_of_foldlM {goals : List (Σ _ : String, String)} {expanded expanded' : StringMap}
    (h : goals.foldlM (fun expanded entry ↦ do
        let entries ← expandGoalEntry calls (resourceInstances resources) agents entry
        entries.foldlM addGoalEntry expanded) expanded = .ok expanded') :
    ∀ entry ∈ goals, Supplied resources agents entry := by
  induction goals generalizing expanded with
  | nil => simp
  | cons entry rest ih =>
    rw [List.foldlM_cons] at h
    obtain ⟨next, hfirst, hrest⟩ := Fallible.exists_of_bind_eq_ok h
    obtain ⟨entries, hentries, -⟩ := Fallible.exists_of_bind_eq_ok hfirst
    intro other hother
    rcases List.mem_cons.mp hother with rfl | hother
    · exact supplied_of_expandGoalEntry hentries
    · exact ih hrest other hother

/-- The order of the goal state does not change what there is to file. -/
theorem mem_flatMap_range {e : String × String} :
    e ∈ (orders.goalState.range goalState.entries).flatMap
        (goalExpansions calls (resourceInstances resources) agents) ↔
      e ∈ allExpansions calls goalState resources agents := by
  simp only [allExpansions, List.mem_flatMap, RangeOrder.mem_range]

theorem files_nothing : Files goalKey Prod.snd [] fun key ↦ (∅ : StringMap).lookup key :=
  fun key value ↦ by simp

/-- **What the expansion leaves**: each non-blank variable of the expansions has its value. -/
theorem files_of_expand {expanded : StringMap}
    (h : expandGoalStatePlaceholders orders.goalState orders.calls goalState resources agents =
      .ok expanded) :
    Files goalKey Prod.snd (allExpansions orders.calls goalState resources agents)
      fun key ↦ expanded.lookup key := by
  rw [expandGoalStatePlaceholders] at h
  rw [foldlM_supplied (supplied_of_foldlM h)] at h
  have hfiles := addGoalEntry_filesOrFails.files_of_foldlM files_nothing h
  rw [List.nil_append] at hfiles
  exact hfiles.congr fun _ ↦ mem_flatMap_range.symm

/-- **When the goal state can be expanded**, in a run with its own orders. -/
theorem expand_ok_iff :
    (∃ expanded, expandGoalStatePlaceholders orders.goalState orders.calls goalState resources
        agents = .ok expanded) ↔
      (∀ entry ∈ goalState.entries, Supplied resources agents entry) ∧
      ∀ e ∈ allExpansions orders.calls goalState resources agents, Resolved e ∧
        ∀ e' ∈ allExpansions orders.calls goalState resources agents,
          Agree goalKey Prod.snd e e' := by
  have hloop (es : List (String × String)) : (∃ expanded, es.foldlM addGoalEntry ∅ = .ok expanded) ↔
      ∀ e ∈ es, Resolved e ∧ ∀ e' ∈ es, Agree goalKey Prod.snd e e' :=
    addGoalEntry_filesOrFails.exists_foldlM_ok_iff files_nothing
  have hall := hloop ((orders.goalState.range goalState.entries).flatMap
    (goalExpansions orders.calls (resourceInstances resources) agents))
  simp only [mem_flatMap_range] at hall
  rw [← hall, expandGoalStatePlaceholders]
  constructor
  · rintro ⟨expanded, h⟩
    have hsupplied := supplied_of_foldlM h
    rw [foldlM_supplied hsupplied] at h
    exact ⟨fun entry hentry ↦ hsupplied entry (orders.goalState.mem_range.mpr hentry),
      expanded, h⟩
  · rintro ⟨hsupplied, expanded, h⟩
    refine ⟨expanded, ?_⟩
    rw [foldlM_supplied fun entry hentry ↦ hsupplied entry (orders.goalState.mem_range.mp hentry)]
    exact h

end Run

/-! ## Expansions that no order changes -/

def agentFilled (text : String) (agent : AgentInfo) : String :=
  String.ofList (filled (goalAgentValues agent) (reading text))

/-- The entry with the instances filled in. -/
def resourceExpansions (instances : List ResourceInfo) (entry : Σ _ : String, String) :
    List (String × String) :=
  if needsResource entry then instances.map fun resource ↦
    (resourceFilled entry.1 resource, resourceFilled entry.2 resource)
  else [(entry.1, entry.2)]

/-- The entry with the instances and the agents filled in. -/
def filledExpansions (instances : List ResourceInfo) (agents : List AgentInfo)
    (entry : Σ _ : String, String) : List (String × String) :=
  if needsAgent entry then (resourceExpansions instances entry).flatMap fun e ↦
    agents.map fun agent ↦ (agentFilled e.1 agent, agentFilled e.2 agent)
  else resourceExpansions instances entry

/-- No value is read again as a placeholder when the entry is expanded. -/
structure EntryReadOnce (instances : List ResourceInfo) (agents : List AgentInfo)
    (entry : Σ _ : String, String) : Prop where
  resource : needsResource entry → ∀ resource ∈ instances, ∀ text ∈ [entry.1, entry.2],
    ReadOnce (goalResourceValues resource) (reading text)
  agent : needsAgent entry → ∀ agent ∈ agents, ∀ e ∈ resourceExpansions instances entry,
    ∀ text ∈ [e.1, e.2], ReadOnce (goalAgentValues agent) (reading text)

theorem mapIdx_eq_map {α β : Type} {f : ℕ → α → β} {g : α → β} {l : List α}
    (h : ∀ i, ∀ a ∈ l, f i a = g a) : l.mapIdx f = l.map g := by
  refine List.ext_getElem (by simp) fun i hi _ ↦ ?_
  rw [List.getElem_mapIdx, List.getElem_map]
  exact h i _ (List.getElem_mem _)

/-- **The expansions of an entry do not depend on any order** if no value is read again. -/
theorem goalExpansions_eq {instances : List ResourceInfo} {agents : List AgentInfo}
    {entry : Σ _ : String, String} (h : EntryReadOnce instances agents entry)
    (calls : GoalCall → SubstitutionOrder) :
    goalExpansions calls instances agents entry = filledExpansions instances agents entry := by
  have hresource : (if needsResource entry then instances.mapIdx fun i resource ↦
        (applyResourcePlaceholders
            (calls { goal := entry.1, ofValue := false, resourceRound := i, agentRound := none })
            entry.1 resource,
          applyResourcePlaceholders
            (calls { goal := entry.1, ofValue := true, resourceRound := i, agentRound := none })
            entry.2 resource)
      else [(entry.1, entry.2)]) = resourceExpansions instances entry := by
    rw [resourceExpansions]
    split
    · rename_i hneeds
      refine mapIdx_eq_map fun i resource hmem ↦ ?_
      rw [applyResourcePlaceholders_eq (h.resource hneeds resource hmem _ (by simp)),
        applyResourcePlaceholders_eq (h.resource hneeds resource hmem _ (by simp))]
      rfl
    · rfl
  simp only [goalExpansions, hresource, filledExpansions]
  split
  · rename_i hneeds
    rw [List.flatMap_def]
    refine congrArg List.flatten (mapIdx_eq_map fun i e he ↦ ?_)
    refine mapIdx_eq_map fun j agent hmem ↦ ?_
    rw [applyAgentPlaceholders_eq (h.agent hneeds agent hmem e he _ (by simp)),
      applyAgentPlaceholders_eq (h.agent hneeds agent hmem e he _ (by simp))]
    rfl
  · rfl

/-! ## The whole goal state -/

/-- What the expansion of a goal state is meant to do, in every run: it succeeds when every entry
can be supplied, nothing is left unresolved and no two expansions give one variable two values; it
returns the variables that are not blank; and no order changes the verdict or the map. -/
def ExpandsExactly (goalState : StringMap) (resources : List ResourceInfo)
    (agents : List AgentInfo) : Prop :=
  ∀ orders : ExpansionOrders,
    ((∃ expanded, expandGoalStatePlaceholders orders.goalState orders.calls goalState resources
        agents = .ok expanded) ↔
      (∀ entry ∈ goalState.entries, Supplied resources agents entry) ∧
      (∀ e ∈ allExpansions orders.calls goalState resources agents, Resolved e) ∧
      ∀ e ∈ allExpansions orders.calls goalState resources agents,
        ∀ e' ∈ allExpansions orders.calls goalState resources agents,
          trimSpace e.1 = trimSpace e'.1 → e.2 = e'.2) ∧
    ∀ expanded, expandGoalStatePlaceholders orders.goalState orders.calls goalState resources
        agents = .ok expanded →
      (∀ key value, expanded.lookup key = some value ↔
        key ≠ "" ∧ ∃ e ∈ allExpansions orders.calls goalState resources agents,
          trimSpace e.1 = key ∧ e.2 = value) ∧
      ∀ orders' : ExpansionOrders, ∃ expanded',
        expandGoalStatePlaceholders orders'.goalState orders'.calls goalState resources agents =
          .ok expanded' ∧ ∀ key, expanded'.lookup key = expanded.lookup key

section Exact

variable {goalState : StringMap} {resources : List ResourceInfo} {agents : List AgentInfo}

/-- All entries are expanded without reading a value again. -/
def GoalReadOnce (goalState : StringMap) (resources : List ResourceInfo)
    (agents : List AgentInfo) : Prop :=
  ∀ entry ∈ goalState.entries, EntryReadOnce (resourceInstances resources) agents entry

theorem allExpansions_eq (h : GoalReadOnce goalState resources agents)
    (calls : GoalCall → SubstitutionOrder) :
    allExpansions calls goalState resources agents =
      goalState.entries.flatMap (filledExpansions (resourceInstances resources) agents) :=
  List.flatMap_congr fun entry hentry ↦ goalExpansions_eq (h entry hentry) calls

theorem agree_iff {e e' : String × String} :
    Agree goalKey Prod.snd e e' ↔
      (trimSpace e.1 = trimSpace e'.1 → trimSpace e.1 ≠ "" → e.2 = e'.2) := by
  constructor
  · intro h hsame hblank
    exact h _ (goalKey_eq_some.mpr ⟨hblank, rfl⟩) (goalKey_eq_some.mpr ⟨hblank, hsame.symm⟩)
  · intro h key hkey hkey'
    obtain ⟨hblank, rfl⟩ := goalKey_eq_some.mp hkey
    exact h (goalKey_eq_some.mp hkey').2.symm hblank

/-- Nothing refuses the goal state: the entries can be supplied, no placeholder is left, and no two
expansions give one variable that is not blank two values. -/
def Expandable (goalState : StringMap) (resources : List ResourceInfo) (agents : List AgentInfo) :
    Prop :=
  (∀ entry ∈ goalState.entries, Supplied resources agents entry) ∧
  ∀ e ∈ goalState.entries.flatMap (filledExpansions (resourceInstances resources) agents),
    Resolved e ∧
    ∀ e' ∈ goalState.entries.flatMap (filledExpansions (resourceInstances resources) agents),
      Agree goalKey Prod.snd e e'

theorem expand_ok_iff_expandable (h : GoalReadOnce goalState resources agents)
    (orders : ExpansionOrders) :
    (∃ expanded, expandGoalStatePlaceholders orders.goalState orders.calls goalState resources
        agents = .ok expanded) ↔ Expandable goalState resources agents := by
  rw [expand_ok_iff, allExpansions_eq h]
  rfl

/-- **A goal state in which no value is read again expands as it is meant to, in every order,
exactly when no two blank variables have different values**, or it is refused anyway: blank
variables are skipped before they are compared. -/
theorem expandsExactly_iff (h : GoalReadOnce goalState resources agents) :
    ExpandsExactly goalState resources agents ↔
      (Expandable goalState resources agents →
        ∀ e ∈ goalState.entries.flatMap (filledExpansions (resourceInstances resources) agents),
          ∀ e' ∈ goalState.entries.flatMap (filledExpansions (resourceInstances resources) agents),
            trimSpace e.1 = "" → trimSpace e'.1 = "" → e.2 = e'.2) := by
  constructor
  · intro hexact hexpandable e he e' he' hblank hblank'
    let orders : ExpansionOrders := ⟨.asListed _, fun _ _ ↦ .asListed _⟩
    have hsuccess := (expand_ok_iff_expandable h orders).mpr hexpandable
    have hsame := ((hexact orders).1.mp hsuccess).2.2
    rw [allExpansions_eq h] at hsame
    exact hsame e he e' he' (hblank.trans hblank'.symm)
  · intro hblanks orders
    rw [allExpansions_eq h]
    refine ⟨?_, fun expanded hexpanded ↦ ?_⟩
    · rw [expand_ok_iff_expandable h]
      constructor
      · intro hexpandable
        refine ⟨hexpandable.1, fun e he ↦ (hexpandable.2 e he).1, fun e he e' he' hsame ↦ ?_⟩
        by_cases hblank : trimSpace e.1 = ""
        · exact hblanks hexpandable e he e' he' hblank (hsame.symm.trans hblank)
        · exact agree_iff.mp ((hexpandable.2 e he).2 e' he') hsame hblank
      · rintro ⟨hsupplied, hresolved, hsame⟩
        exact ⟨hsupplied, fun e he ↦
          ⟨hresolved e he, fun e' he' ↦ agree_iff.mpr fun hkey _ ↦ hsame e he e' he' hkey⟩⟩
    · have hfiles := files_of_expand hexpanded
      rw [allExpansions_eq h] at hfiles
      refine ⟨fun key value ↦ ?_, fun orders' ↦ ?_⟩
      · rw [hfiles key value]
        constructor
        · rintro ⟨e, he, hkey, hvalue⟩
          obtain ⟨hblank, heq⟩ := goalKey_eq_some.mp hkey
          exact ⟨hblank, e, he, heq, hvalue⟩
        · rintro ⟨hblank, e, he, heq, hvalue⟩
          exact ⟨e, he, goalKey_eq_some.mpr ⟨hblank, heq⟩, hvalue⟩
      · have hexpandable := (expand_ok_iff_expandable h orders).mp ⟨expanded, hexpanded⟩
        obtain ⟨expanded', hexpanded'⟩ := (expand_ok_iff_expandable h orders').mpr hexpandable
        have hfiles' := files_of_expand hexpanded'
        rw [allExpansions_eq h] at hfiles'
        refine ⟨expanded', hexpanded', fun key ↦ Option.ext fun value ↦ ?_⟩
        exact (hfiles' key value).trans (hfiles key value).symm

/-- Each station is to be had by each agent. -/
def stationOwners : StringMap :=
  (∅ : StringMap).insert "\x7b\x7bresource.name\x7d\x7d_owner" "\x7b\x7bagent.id\x7d\x7d"

def firstDock : ResourceInfo := { noResource with id := "d1", name := "Dock" }

def bob : AgentInfo := { noAgent with id := "r1", name := "Bob" }

theorem stationOwners_readOnce : GoalReadOnce stationOwners [firstDock] [bob] := by
  intro entry hentry
  obtain rfl := List.mem_singleton.mp hentry
  exact
    { resource := fun _ ↦ by decide +kernel
      agent := fun _ ↦ by decide +kernel }

theorem stationOwners_expandsExactly : ExpandsExactly stationOwners [firstDock] [bob] :=
  (expandsExactly_iff stationOwners_readOnce).mpr fun _ ↦ by decide +kernel

/-- An instance whose name is a placeholder itself. -/
def selfNamed : ResourceInfo :=
  { noResource with id := "d1", name := "\x7b\x7bresource.id\x7d\x7d" }

def atSelfNamed : StringMap := (∅ : StringMap).insert "at" "\x7b\x7bresource.name\x7d\x7d"

/-- If the id is replaced before the name, the name is left as a placeholder; if it is replaced
after it, the name becomes the id. -/
theorem selfNamed_depends_on_order : ¬ExpandsExactly atSelfNamed [selfNamed] [] := by
  intro h
  let idFirst : ExpansionOrders := ⟨.asListed _, fun _ _ ↦ .asListed _⟩
  let idLast : ExpansionOrders := ⟨.asListed _, fun _ _ ↦ ⟨List.reverse, List.reverse_perm⟩⟩
  have hsucceeds : (expandGoalStatePlaceholders idLast.goalState idLast.calls atSelfNamed
      [selfNamed] []).toBool = true := by
    decide +kernel
  have hfails : (expandGoalStatePlaceholders idFirst.goalState idFirst.calls atSelfNamed
      [selfNamed] []).toBool = false := by
    decide +kernel
  cases hexpand : expandGoalStatePlaceholders idLast.goalState idLast.calls atSelfNamed
      [selfNamed] [] with
  | error err =>
    rw [hexpand] at hsucceeds
    exact Bool.false_ne_true hsucceeds
  | ok expanded =>
    obtain ⟨expanded', hexpand', -⟩ := ((h idLast).2 expanded hexpand).2 idFirst
    rw [hexpand'] at hfails
    exact Bool.false_ne_true hfails.symm

end Exact

end Api
end FleetServer
