import FleetServer.Lib.InvertedIndex
import FleetServer.State.Operations

/-!
# The indexes of the state registry

`internal/state/state_registry.go`: the entries of the agents, an index from a semantic tag to the
agents that have it and one from a state code to the agents in that state.  The manager's model
keeps the entries alone (`stateRegistry`); the operations here are the same ones with the indexes
beside them (`stateRegistry_apply`).

Every operation keeps both indexes exact, whatever tags are repeated, empty or shared
(`registry_exact`).
-/

set_option autoImplicit false

namespace FleetServer
namespace State

open InvertedIndex

structure StateRegistry where
  agentStates : String → Option AgentStateEntry := fun _ ↦ none
  tagIndex : Index String String := fun _ ↦ none
  stateIndex : Index String String := fun _ ↦ none

namespace StateRegistry

variable (r : StateRegistry) (now : ℕ)

/-! ## The operations -/

/-- `addToIndexesLocked`. -/
def addToIndexes (agentID stateCode : String) (tags : List String) : StateRegistry :=
  { r with
    stateIndex := if stateCode ≠ "" then r.stateIndex.add agentID stateCode else r.stateIndex
    tagIndex := tags.foldl (fun ix tag ↦ if tag = "" then ix else ix.add agentID tag) r.tagIndex }

/-- `removeFromIndexesLocked`. -/
def removeFromIndexes (agentID stateCode : String) (tags : List String) : StateRegistry :=
  { r with
    stateIndex := if stateCode ≠ "" then r.stateIndex.remove agentID stateCode else r.stateIndex
    tagIndex :=
      tags.foldl (fun ix tag ↦ if tag = "" then ix else ix.remove agentID tag) r.tagIndex }

def setEntry (agentID : String) (newEntry : Option AgentStateEntry) : StateRegistry :=
  { r with agentStates := Function.update r.agentStates agentID newEntry }

/-- The entry of an agent, or the one that is created for it. -/
def entryOf (agentID : String) : AgentStateEntry :=
  (r.agentStates agentID).getD
    { agentID, stateCode := "", semanticTags := [], currentGraphID := "", isOnline := false
      isExecuting := false, updatedAt := 0 }

def updateAgentState (agentID stateCode : String) (semanticTags : List String) (graphID : String)
    (isOnline isExecuting : Bool) : StateRegistry :=
  let entry := r.entryOf agentID
  let r := r.removeFromIndexes agentID entry.stateCode entry.semanticTags
  let r := r.setEntry agentID
    (some
      { entry with
        stateCode, semanticTags, currentGraphID := graphID, isOnline, isExecuting
        updatedAt := now })
  r.addToIndexes agentID stateCode semanticTags

def setAgentOnline (agentID : String) (isOnline : Bool) : StateRegistry :=
  match r.agentStates agentID with
  | none => r
  | some entry => r.setEntry agentID (some { entry with isOnline, updatedAt := now })

def setAgentExecuting (agentID : String) (isExecuting : Bool) : StateRegistry :=
  match r.agentStates agentID with
  | none => r
  | some entry => r.setEntry agentID (some { entry with isExecuting, updatedAt := now })

def removeAgent (agentID : String) : StateRegistry :=
  match r.agentStates agentID with
  | none => r
  | some entry =>
    (r.removeFromIndexes agentID entry.stateCode entry.semanticTags).setEntry agentID none

/-! ## The questions -/

section Questions

variable (order : RangeOrder String)

def getAgentsByTag (tag : String) : List String := order.range (r.tagIndex.keysAt tag)

def getAgentsByState (stateCode : String) : List String :=
  order.range (r.stateIndex.keysAt stateCode)

def countAgentsWithTag (tag : String) : ℕ := (r.tagIndex.keysAt tag).length

def countAgentsInState (stateCode : String) : ℕ := (r.stateIndex.keysAt stateCode).length

end Questions

/-! ## Runs -/

inductive Op where
  | updateAgentState (agentID stateCode : String) (semanticTags : List String) (graphID : String)
      (isOnline isExecuting : Bool)
  | setAgentOnline (agentID : String) (isOnline : Bool)
  | setAgentExecuting (agentID : String) (isExecuting : Bool)
  | removeAgent (agentID : String)

def apply : Op → StateRegistry
  | .updateAgentState agentID stateCode semanticTags graphID isOnline isExecuting =>
    r.updateAgentState now agentID stateCode semanticTags graphID isOnline isExecuting
  | .setAgentOnline agentID isOnline => r.setAgentOnline now agentID isOnline
  | .setAgentExecuting agentID isExecuting => r.setAgentExecuting now agentID isExecuting
  | .removeAgent agentID => r.removeAgent agentID

/-- One operation, at some time. -/
def step (r : StateRegistry) (call : Op × ℕ) : Option StateRegistry := some (r.apply call.2 call.1)

/-- `NewStateRegistry`. -/
def Initial (r : StateRegistry) : Prop := r = {}

/-- The registries that come about from a new one. -/
abbrev Reachable : StateRegistry → Prop := GuardedRun.Reachable step (fun _ _ ↦ True) Initial

/-! ## The indexes are exact -/

/-- The tags an entry is listed under. -/
def tagLabels (entry : AgentStateEntry) : List String := entry.semanticTags.filter (· ≠ "")

/-- The state code an entry is listed under. -/
def stateLabels (entry : AgentStateEntry) : List String := [entry.stateCode].filter (· ≠ "")

structure IndexesExact : Prop where
  tags : Exact tagLabels r.agentStates r.tagIndex
  states : Exact stateLabels r.agentStates r.stateIndex
  ids : ∀ agentID entry, r.agentStates agentID = some entry → entry.agentID = agentID

variable {r now} {agentID : String}

/-- A loop that skips the empty words. -/
theorem foldl_skip_empty {σ : Type} (f : σ → String → σ) (words : List String) (s : σ) :
    words.foldl (fun s word ↦ if word = "" then s else f s word) s =
      (words.filter (· ≠ "")).foldl f s := by
  induction words generalizing s with
  | nil => rfl
  | cons word rest ih =>
    by_cases hword : word = ""
    · simpa [hword] using ih s
    · simpa [hword] using ih (f s word)

/-- Both indexes are written for the labels of an entry. -/
theorem addToIndexes_entry (r : StateRegistry) (agentID : String) (entry : AgentStateEntry) :
    r.addToIndexes agentID entry.stateCode entry.semanticTags =
      { r with
        stateIndex := (stateLabels entry).foldl (Index.add agentID) r.stateIndex
        tagIndex := (tagLabels entry).foldl (Index.add agentID) r.tagIndex } := by
  rw [addToIndexes, foldl_skip_empty]
  by_cases hcode : entry.stateCode = ""
  · simp [stateLabels, tagLabels, hcode]
  · simp [stateLabels, tagLabels, hcode]

theorem removeFromIndexes_entry (r : StateRegistry) (agentID : String) (entry : AgentStateEntry) :
    r.removeFromIndexes agentID entry.stateCode entry.semanticTags =
      { r with
        stateIndex := (stateLabels entry).foldl (Index.remove agentID) r.stateIndex
        tagIndex := (tagLabels entry).foldl (Index.remove agentID) r.tagIndex } := by
  rw [removeFromIndexes, foldl_skip_empty]
  by_cases hcode : entry.stateCode = ""
  · simp [stateLabels, tagLabels, hcode]
  · simp [stateLabels, tagLabels, hcode]

/-- An agent without an entry is listed nowhere, like the entry that is created for it. -/
theorem labels_entryOf (r : StateRegistry) (agentID : String) :
    tagLabels (r.entryOf agentID) = (r.agentStates agentID).elim [] tagLabels ∧
      stateLabels (r.entryOf agentID) = (r.agentStates agentID).elim [] stateLabels := by
  rw [entryOf]
  cases r.agentStates agentID with
  | none => exact ⟨rfl, rfl⟩
  | some entry => exact ⟨rfl, rfl⟩

theorem agentID_entryOf (h : r.IndexesExact) (agentID : String) :
    (r.entryOf agentID).agentID = agentID := by
  rw [entryOf]
  cases hentry : r.agentStates agentID with
  | none => rfl
  | some entry => exact h.ids agentID entry hentry

/-- The ids stay right when an entry of the agent itself is written. -/
theorem ids_update {store : String → Option AgentStateEntry} {newEntry : Option AgentStateEntry}
    (h : ∀ agentID entry, store agentID = some entry → entry.agentID = agentID)
    (hnew : ∀ entry, newEntry = some entry → entry.agentID = agentID) :
    ∀ agentID' entry, Function.update store agentID newEntry agentID' = some entry →
      entry.agentID = agentID' := by
  intro agentID' entry hentry
  by_cases hagent : agentID' = agentID
  · subst hagent
    rw [Function.update_self] at hentry
    exact hnew entry hentry
  · rw [Function.update_of_ne hagent] at hentry
    exact h agentID' entry hentry

theorem IndexesExact.updateAgentState (h : r.IndexesExact) (agentID stateCode : String)
    (semanticTags : List String) (graphID : String) (isOnline isExecuting : Bool) :
    (r.updateAgentState now agentID stateCode semanticTags graphID isOnline
      isExecuting).IndexesExact := by
  obtain ⟨htags, hstates⟩ := r.labels_entryOf agentID
  let entry : AgentStateEntry :=
    { r.entryOf agentID with
      stateCode, semanticTags, currentGraphID := graphID, isOnline, isExecuting, updatedAt := now }
  have heq := addToIndexes_entry ((r.removeFromIndexes agentID (r.entryOf agentID).stateCode
    (r.entryOf agentID).semanticTags).setEntry agentID (some entry)) agentID entry
  rw [removeFromIndexes_entry, htags, hstates] at heq
  rw [StateRegistry.updateAgentState, removeFromIndexes_entry, htags, hstates, heq]
  exact ⟨h.tags.write (some entry), h.states.write (some entry),
    ids_update h.ids fun entry' hentry ↦ by
      obtain rfl := Option.some.inj hentry
      exact agentID_entryOf h agentID⟩

/-- Writing an entry with the labels it had. -/
theorem IndexesExact.setEntry_same {entry entry' : AgentStateEntry} (h : r.IndexesExact)
    (hentry : r.agentStates agentID = some entry) (hid : entry'.agentID = entry.agentID)
    (hcode : entry'.stateCode = entry.stateCode)
    (htags : entry'.semanticTags = entry.semanticTags) :
    (r.setEntry agentID (some entry')).IndexesExact := by
  refine ⟨h.tags.write_same hentry (by rw [tagLabels, tagLabels, htags]),
    h.states.write_same hentry (by rw [stateLabels, stateLabels, hcode]),
    ids_update h.ids fun e he ↦ ?_⟩
  obtain rfl := Option.some.inj he
  rw [hid]
  exact h.ids agentID entry hentry

theorem IndexesExact.setAgentOnline (h : r.IndexesExact) (agentID : String) (isOnline : Bool) :
    (r.setAgentOnline now agentID isOnline).IndexesExact := by
  rw [StateRegistry.setAgentOnline]
  split
  · exact h
  · rename_i entry hentry
    exact h.setEntry_same hentry rfl rfl rfl

theorem IndexesExact.setAgentExecuting (h : r.IndexesExact) (agentID : String)
    (isExecuting : Bool) : (r.setAgentExecuting now agentID isExecuting).IndexesExact := by
  rw [StateRegistry.setAgentExecuting]
  split
  · exact h
  · rename_i entry hentry
    exact h.setEntry_same hentry rfl rfl rfl

theorem IndexesExact.removeAgent (h : r.IndexesExact) (agentID : String) :
    (r.removeAgent agentID).IndexesExact := by
  rw [StateRegistry.removeAgent]
  split
  · exact h
  · rename_i entry hentry
    have htags := h.tags.write (k := agentID) none
    have hstates := h.states.write (k := agentID) none
    rw [hentry] at htags hstates
    rw [removeFromIndexes_entry]
    exact ⟨htags, hstates, ids_update h.ids fun _ he ↦ absurd he (by simp)⟩

theorem IndexesExact.apply (h : r.IndexesExact) (op : Op) : (r.apply now op).IndexesExact := by
  cases op with
  | updateAgentState agentID stateCode semanticTags graphID isOnline isExecuting =>
    exact h.updateAgentState agentID stateCode semanticTags graphID isOnline isExecuting
  | setAgentOnline agentID isOnline => exact h.setAgentOnline agentID isOnline
  | setAgentExecuting agentID isExecuting => exact h.setAgentExecuting agentID isExecuting
  | removeAgent agentID => exact h.removeAgent agentID

theorem Reachable.indexesExact (h : Reachable r) : r.IndexesExact := by
  refine GuardedRun.Reachable.invariant (I := IndexesExact) (fun s hs ↦ ?_)
    (fun s call s' _ hexact _ hstep ↦ ?_) h
  · obtain rfl : s = {} := hs
    exact ⟨exact_empty, exact_empty, fun _ _ hentry ↦ absurd hentry (by simp)⟩
  · obtain rfl := Option.some.inj hstep
    exact hexact.apply call.1

/-- A list of the agents with a property, each once. -/
structure ListsExactly (agents : List String) (p : String → Prop) : Prop where
  nodup : agents.Nodup
  mem_iff : ∀ agentID, agentID ∈ agents ↔ p agentID

theorem listsExactly_range {labels : AgentStateEntry → List String} {ix : Index String String}
    (h : Exact labels r.agentStates ix) (order : RangeOrder String) {label : String}
    {p : AgentStateEntry → Prop} (hp : ∀ entry, label ∈ labels entry ↔ p entry) :
    ListsExactly (order.range (ix.keysAt label)) fun agentID ↦
      ∃ entry, r.agentStates agentID = some entry ∧ p entry := by
  refine ⟨(order.perm _).nodup_iff.mpr (Index.nodup_keysAt ix label), fun agentID ↦ ?_⟩
  rw [order.mem_range, h label agentID]
  exact exists_congr fun entry ↦ and_congr_right fun _ ↦ hp entry

/-- **In every registry that comes about, an agent is listed under a tag or a state code, once,
exactly when its entry has it, and the counts are the lengths of these lists.** -/
theorem registry_exact (h : Reachable r) (order : RangeOrder String) {tag stateCode : String}
    (htag : tag ≠ "") (hcode : stateCode ≠ "") :
    (ListsExactly (r.getAgentsByTag order tag) fun agentID ↦
        ∃ entry, r.agentStates agentID = some entry ∧ tag ∈ entry.semanticTags) ∧
      (ListsExactly (r.getAgentsByState order stateCode) fun agentID ↦
        ∃ entry, r.agentStates agentID = some entry ∧ entry.stateCode = stateCode) ∧
      r.countAgentsWithTag tag = (r.getAgentsByTag order tag).length ∧
      r.countAgentsInState stateCode = (r.getAgentsByState order stateCode).length := by
  have hexact := h.indexesExact
  refine ⟨listsExactly_range hexact.tags order fun entry ↦ ?_,
    listsExactly_range hexact.states order fun entry ↦ ?_,
    (order.perm _).length_eq.symm, (order.perm _).length_eq.symm⟩
  · simp [tagLabels, htag]
  · by_cases hempty : entry.stateCode = ""
    · simp [stateLabels, hempty, Ne.symm hcode]
    · simp [stateLabels, hempty, eq_comm]

/-- Two agents share a tag, one of them twice over; then the first is updated and the second
leaves. -/
def sharedTag : List (Op × ℕ) :=
  [(.updateAgentState "r1" "idle" ["busy", "busy", ""] "" true false, 1),
    (.updateAgentState "r2" "" ["busy"] "" true false, 2), (.setAgentOnline "r1" false, 3),
    (.updateAgentState "r1" "idle" ["free", "busy"] "g" true true, 4), (.removeAgent "r2", 5)]

theorem sharedTag_exact :
    ∃ r, Reachable r ∧ ((r.getAgentsByTag (.asListed _) "busy") = ["r1"] ∧
      r.countAgentsInState "idle" = 1) ∧
      (ListsExactly (r.getAgentsByTag (.asListed _) "busy") fun agentID ↦
        ∃ entry, r.agentStates agentID = some entry ∧ "busy" ∈ entry.semanticTags) := by
  have hinit : Initial {} := rfl
  obtain ⟨r, hr, hvalue⟩ := GuardedRun.exists_reachable_of_foldlM step hinit sharedTag
    (fun _ _ _ ↦ trivial)
    (P := fun r ↦ r.getAgentsByTag (.asListed _) "busy" = ["r1"] ∧
      r.countAgentsInState "idle" = 1) (by decide)
  exact ⟨r, hr, hvalue,
    (@registry_exact r hr (.asListed _) "busy" "idle" (by decide) (by decide)).1⟩

/-! ## The manager's registry -/

/-- The operations as the manager's model has them. -/
def applyToManager (m : Manager) (now : ℕ) : Op → Manager
  | .updateAgentState agentID stateCode semanticTags graphID isOnline isExecuting =>
    m.updateAgentState now agentID stateCode semanticTags graphID isOnline isExecuting
  | .setAgentOnline agentID isOnline => m.setAgentOnline now agentID isOnline
  | .setAgentExecuting agentID isExecuting => m.setAgentExecuting now agentID isExecuting
  | .removeAgent agentID => m.removeAgent agentID

/-- **The manager's model keeps the entries of this registry.** -/
theorem stateRegistry_apply {m : Manager} (hexact : r.IndexesExact)
    (h : m.stateRegistry = r.agentStates) (op : Op) :
    (applyToManager m now op).stateRegistry = (r.apply now op).agentStates := by
  cases op with
  | updateAgentState agentID stateCode semanticTags graphID isOnline isExecuting =>
    show Function.update m.stateRegistry agentID _ = Function.update r.agentStates agentID _
    rw [h, agentID_entryOf hexact]
  | setAgentOnline agentID isOnline =>
    show (m.setAgentOnline now agentID isOnline).stateRegistry = _
    rw [Manager.setAgentOnline, h, apply, StateRegistry.setAgentOnline]
    cases hentry : r.agentStates agentID with
    | none => exact h
    | some entry => rfl
  | setAgentExecuting agentID isExecuting =>
    show (m.setAgentExecuting now agentID isExecuting).stateRegistry = _
    rw [Manager.setAgentExecuting, h, apply, StateRegistry.setAgentExecuting]
    cases hentry : r.agentStates agentID with
    | none => exact h
    | some entry => rfl
  | removeAgent agentID =>
    show Function.update m.stateRegistry agentID none = _
    rw [h, apply, StateRegistry.removeAgent]
    cases hentry : r.agentStates agentID with
    | none =>
      rw [Function.update_eq_self_iff]
      exact hentry.symm
    | some entry => rfl

end StateRegistry
end State
end FleetServer
