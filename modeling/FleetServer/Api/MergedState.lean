import FleetServer.Api.Reservations
import FleetServer.Api.StateMerge
import FleetServer.Lib.Overlay

/-!
# The merged state of a session

`sessionMergedState` (`internal/api/realtime_pddl.go`) lays what the runtime sources report over the
current state of a session, and reconciles the reservations.  The sources are the entries of a map,
and come in no particular order; when each was updated is noted, but not asked for.

A variable that two sources report differently has the value of the last of them, or of the first
if it is left to the planner and the current state does not have it.  The order matters exactly for
such variables (`sessionMergedState_order`).
-/

set_option autoImplicit false

namespace FleetServer
namespace Api

open GoString Pddl

/-! ## The data -/

/-- What a source has reported.  The times are those of one clock. -/
structure RuntimeStateSource where
  values : StringMap
  updatedAt : ℤ
  expiresAt : Option ℤ

/-- What the state of a session is merged from. -/
structure OverlaidSession where
  currentState : StringMap
  runtimeStateSources : AList fun _ : String ↦ RuntimeStateSource
  stateMergePolicies : List TaskDistributorStateMergePolicy
  agents : List AgentInfo
  resources : List ResourceInfo

abbrev SourceEntry := Σ _ : String, RuntimeStateSource

def RuntimeStateSource.isExpired (source : RuntimeStateSource) (now : ℤ) : Bool :=
  match source.expiresAt with
  | none => false
  | some expiresAt => expiresAt < now

/-! ## Merging -/

namespace OverlaidSession

variable (lib : LibraryFunctions) (pathMatch : String → String → Option Bool)
  (equalFold : String → String → Bool) (order : RangeOrder SourceEntry) (now : ℤ)
  (s : OverlaidSession)

/-- The reports for a variable replace the value it has. -/
def isLive (key : String) : Bool :=
  stateMergePriorityForKey pathMatch key (normalizeStateMergePolicies lib s.stateMergePolicies)
    s.agents s.resources = "live"

def overlayValue (merged : StringMap) (value : Σ _ : String, String) : StringMap :=
  if (merged.lookup value.1).isNone || s.isLive lib pathMatch value.1 then
    merged.insert value.1 value.2
  else merged

/-- The loop over the values of a source, each of another variable. -/
def overlaySource (merged : StringMap) (source : SourceEntry) : StringMap :=
  source.2.values.entries.foldl (s.overlayValue lib pathMatch) merged

/-- The sources that count, in the order in which they come up. -/
def unexpiredSources : List SourceEntry :=
  (order.range s.runtimeStateSources.entries).filter fun source ↦ !source.2.isExpired now

def overlaidState : StringMap :=
  (s.unexpiredSources order now).foldl (s.overlaySource lib pathMatch) s.currentState

/-- The merged state, and the session without the sources that have expired.  What reconciling has
changed is also changed in the current state. -/
def sessionMergedState : StringMap × OverlaidSession :=
  let merged := s.overlaidState lib pathMatch order now
  let reconciled :=
    reconcileRealtimeReservationState lib equalFold merged s.currentState s.agents s.resources
  let currentState :=
    if reconciled.2 then
      reconciled.1.entries.foldl (fun current entry ↦
        if (current.lookup entry.1).isSome then current.insert entry.1 entry.2 else current)
        s.currentState
    else s.currentState
  let runtimeStateSources :=
    (order.range s.runtimeStateSources.entries).foldl (fun sources source ↦
      if source.2.isExpired now then sources.erase source.1 else sources) s.runtimeStateSources
  (reconciled.1, { s with currentState, runtimeStateSources })

end OverlaidSession

/-! ## States with the same values -/

/-- Two states give every variable the same value. -/
def SameState (m m' : StringMap) : Prop := ∀ key, m'.lookup key = m.lookup key

section SameState

variable {lib : LibraryFunctions} {equalFold : String → String → Bool} {current m m' : StringMap}

theorem SameState.sameLocations (h : SameState m m') : SameLocations m m' :=
  fun _ key _ ↦ h key

theorem SameState.insert (h : SameState m m') (key value : String) :
    SameState (m.insert key value) (m'.insert key value) := by
  intro other
  by_cases hsame : other = key
  · rw [hsame, AList.lookup_insert, AList.lookup_insert]
  · rw [AList.lookup_insert_ne hsame, AList.lookup_insert_ne hsame, h]

theorem SameState.readKey_eq (h : SameState m m') (key : String) :
    readKey m' key = readKey m key := by
  rw [readKey, readKey, h]

theorem SameState.isEmpty_eq (h : SameState m m') :
    m'.entries.isEmpty = m.entries.isEmpty := by
  rw [Bool.eq_iff_iff, ← not_iff_not, Bool.not_eq_true, Bool.not_eq_true,
    entries_isEmpty_eq_false_iff, entries_isEmpty_eq_false_iff]
  exact exists_congr fun key ↦ by rw [h key]

/-- Filling in reads the values of the variables only. -/
theorem foldl_fillLocation_congr (aliases : List AgentAlias) (s s' : LocationFill)
    (hmerged : SameState s.merged s'.merged) (hchanged : s'.changed = s.changed)
    (hlocations : s'.locationByCanonical = s.locationByCanonical) :
    let filled := aliases.foldl (fillLocation equalFold current) s
    let filled' := aliases.foldl (fillLocation equalFold current) s'
    SameState filled.merged filled'.merged ∧ filled'.changed = filled.changed ∧
      filled'.locationByCanonical = filled.locationByCanonical := by
  induction aliases generalizing s s' with
  | nil => exact ⟨hmerged, hchanged, hlocations⟩
  | cons known rest ih =>
    rw [List.foldl_cons, List.foldl_cons]
    have hstate := hmerged.sameLocations.stateKey_eq known.agent
    have hlocation := hmerged.sameLocations.location_eq known.agent
    rw [fillLocation, fillLocation, hstate, hlocation, hlocations]
    dsimp only
    split
    · split
      · exact ih _ _ (hmerged.insert _ _) rfl rfl
      · exact ih _ _ hmerged hchanged rfl
    · exact ih _ _ hmerged hchanged rfl

theorem foldl_reconcileTarget_congr {byToken : TokenMap} {locations : StringMap}
    (targets : List (String × String)) {state state' : StringMap × Bool}
    (hmerged : SameState state.1 state'.1) (hchanged : state'.2 = state.2) :
    let after := targets.foldl (reconcileTarget lib equalFold byToken locations) state
    let after' := targets.foldl (reconcileTarget lib equalFold byToken locations) state'
    SameState after.1 after'.1 ∧ after'.2 = after.2 := by
  induction targets generalizing state state' with
  | nil => exact ⟨hmerged, hchanged⟩
  | cons target rest ih =>
    rw [List.foldl_cons, List.foldl_cons, reconcileTarget, reconcileTarget, hmerged.readKey_eq]
    split
    · exact ih hmerged hchanged
    · exact ih (hmerged.insert _ _) rfl

/-- **Reconciling reads the values of the variables only.** -/
theorem reconcile_congr (h : SameState m m') (agents : List AgentInfo)
    (resources : List ResourceInfo) :
    SameState (reconcileRealtimeReservationState lib equalFold m current agents resources).1
      (reconcileRealtimeReservationState lib equalFold m' current agents resources).1 := by
  have hsame : nothingToReconcile m' current agents resources =
      nothingToReconcile m current agents resources := by
    rw [nothingToReconcile, nothingToReconcile, h.isEmpty_eq]
  cases hnothing : nothingToReconcile m current agents resources with
  | true =>
    rw [reconcile_of_nothing hnothing, reconcile_of_nothing (hsame.trans hnothing)]
    exact h
  | false =>
    obtain ⟨hmerged, hchanged, hlocations⟩ := foldl_fillLocation_congr (agentAliases agents)
      { merged := m, changed := false, locationByCanonical := ∅ }
      { merged := m', changed := false, locationByCanonical := ∅ } h rfl rfl
    rw [reconcile_of_something hnothing, reconcile_of_something (hsame.trans hnothing)]
    rw [fillLocations, fillLocations, hlocations]
    exact (foldl_reconcileTarget_congr _ hmerged hchanged).1

end SameState

/-! ## The order of the sources -/

namespace OverlaidSession

variable {lib : LibraryFunctions} {pathMatch : String → String → Option Bool}
  {equalFold : String → String → Bool} {order : RangeOrder SourceEntry} {now : ℤ}
  {s : OverlaidSession} {key : String}

/-- The sources that count, as the session has them. -/
def countedSources (s : OverlaidSession) (now : ℤ) : List SourceEntry :=
  s.runtimeStateSources.entries.filter fun source ↦ !source.2.isExpired now

def reportFor (key : String) (source : SourceEntry) : Option String := source.2.values.lookup key

/-- Two sources that count report a variable differently, and it is live or not in the current
state. -/
def Contested (lib : LibraryFunctions) (pathMatch : String → String → Option Bool)
    (s : OverlaidSession) (now : ℤ) (key : String) : Prop :=
  Overlay.Open (s.isLive lib pathMatch key) (s.currentState.lookup key) ∧
    Overlay.Disagree (reportFor key) (s.countedSources now)

/-- Reconciling may write the variable: it may hold the location of an agent, or is the reservation
of a resource. -/
def Reconciled (lib : LibraryFunctions) (s : OverlaidSession) (key : String) : Prop :=
  (∃ known ∈ agentAliases s.agents, key ∈ locationKeys known.agent) ∨
    ∃ target ∈ reservationTargets lib s.currentState s.resources, target.1 = key

/-- A source is laid over each variable by itself. -/
theorem lookup_overlaySource (merged : StringMap) (source : SourceEntry) (key : String) :
    (s.overlaySource lib pathMatch merged source).lookup key =
      Overlay.lay (s.isLive lib pathMatch key) (reportFor key) (merged.lookup key) source := by
  have hloop : ∀ (values : List (Σ _ : String, String)) (merged : StringMap), values.NodupKeys →
      (values.foldl (s.overlayValue lib pathMatch) merged).lookup key =
        Overlay.lay (s.isLive lib pathMatch key) (List.dlookup key) (merged.lookup key) values := by
    intro values
    induction values with
    | nil => exact fun _ _ ↦ rfl
    | cons value rest ih =>
      intro merged hnodup
      obtain ⟨hnew, hrest⟩ := List.nodupKeys_cons.mp hnodup
      rw [List.foldl_cons, ih _ hrest, overlayValue, Overlay.lay, Overlay.lay]
      obtain ⟨other, x⟩ := value
      by_cases hsame : key = other
      · subst hsame
        have hnone : rest.dlookup key = none := List.dlookup_eq_none.mpr hnew
        rw [hnone, List.dlookup_cons_eq]
        dsimp only
        split
        · exact AList.lookup_insert merged
        · rfl
      · have hkept : (if (merged.lookup other).isNone || s.isLive lib pathMatch other then
            merged.insert other x else merged).lookup key = merged.lookup key := by
          split
          · exact AList.lookup_insert_ne hsame
          · rfl
        rw [List.dlookup_cons_ne _ _ hsame]
        dsimp only
        rw [hkept]
  exact hloop _ _ source.2.values.nodupKeys

theorem lookup_overlaidState (key : String) :
    (s.overlaidState lib pathMatch order now).lookup key =
      (s.unexpiredSources order now).foldl
        (Overlay.lay (s.isLive lib pathMatch key) (reportFor key)) (s.currentState.lookup key) := by
  have hloop : ∀ (sources : List SourceEntry) (merged : StringMap),
      (sources.foldl (s.overlaySource lib pathMatch) merged).lookup key =
        sources.foldl (Overlay.lay (s.isLive lib pathMatch key) (reportFor key))
          (merged.lookup key) := by
    intro sources
    induction sources with
    | nil => exact fun _ ↦ rfl
    | cons source rest ih =>
      intro merged
      rw [List.foldl_cons, List.foldl_cons, ih, lookup_overlaySource]
  exact hloop _ _

theorem unexpiredSources_perm : (s.unexpiredSources order now).Perm (s.countedSources now) :=
  (order.perm _).filter _

/-- The sources that count may come up in any order. -/
theorem exists_unexpiredSources_eq {l : List SourceEntry} (h : l.Perm (s.countedSources now)) :
    ∃ order, s.unexpiredSources order now = l := by
  let expired := s.runtimeStateSources.entries.filter fun source ↦
    !!source.2.isExpired now
  have hperm : (l ++ expired).Perm s.runtimeStateSources.entries :=
    (h.append_right expired).trans (List.filter_append_perm _ _)
  obtain ⟨order, horder⟩ := RangeOrder.exists_range_eq hperm
  refine ⟨order, ?_⟩
  have hcounted : l.filter (fun source ↦ !source.2.isExpired now) = l :=
    List.filter_eq_self.mpr fun source hmem ↦ (List.mem_filter.mp (h.mem_iff.mp hmem)).2
  have hexpired : expired.filter (fun source ↦ !source.2.isExpired now) = [] :=
    List.filter_eq_nil_iff.mpr fun source hmem ↦ by
      simpa using (List.mem_filter.mp hmem).2
  rw [unexpiredSources, horder, List.filter_append, hcounted, hexpired, List.append_nil]

/-- **The order decides over a variable** exactly when it is contested. -/
theorem overlaidState_order_iff :
    (∀ o₁ o₂, (s.overlaidState lib pathMatch o₁ now).lookup key =
        (s.overlaidState lib pathMatch o₂ now).lookup key) ↔
      ¬s.Contested lib pathMatch now key := by
  rw [Contested, ← Overlay.foldl_perm_iff]
  simp only [lookup_overlaidState]
  constructor
  · intro h l₁ l₂ h₁ h₂
    obtain ⟨o₁, rfl⟩ := exists_unexpiredSources_eq h₁
    obtain ⟨o₂, rfl⟩ := exists_unexpiredSources_eq h₂
    exact h o₁ o₂
  · exact fun h o₁ o₂ ↦ h _ _ unexpiredSources_perm unexpiredSources_perm

/-- Reconciling leaves the other variables as they are. -/
theorem lookup_sessionMergedState (hkey : ¬s.Reconciled lib key) :
    (s.sessionMergedState lib pathMatch equalFold order now).1.lookup key =
      (s.overlaidState lib pathMatch order now).lookup key := by
  rw [Reconciled, not_or] at hkey
  obtain ⟨hlocation, htarget⟩ := hkey
  show (reconcileRealtimeReservationState lib equalFold (s.overlaidState lib pathMatch order now)
    s.currentState s.agents s.resources).1.lookup key = _
  generalize s.overlaidState lib pathMatch order now = merged
  cases hnothing : nothingToReconcile merged s.currentState s.agents s.resources with
  | true => rw [reconcile_of_nothing hnothing]
  | false =>
    rw [reconcile_of_something hnothing, lookup_foldl_reconcileTarget]
    · exact lookup_fillLocations fun known hmem hloc ↦ hlocation ⟨known, hmem, hloc⟩
    · exact fun target hmem heq ↦ htarget ⟨target, hmem, heq⟩

variable (lib pathMatch equalFold now s)

/-- **The merged state does not depend on the order of the sources** when no variable is contested;
and it does for every variable that is, unless reconciling writes it. -/
theorem sessionMergedState_order :
    ((∀ key, ¬s.Contested lib pathMatch now key) → ∀ o₁ o₂ key,
      (s.sessionMergedState lib pathMatch equalFold o₁ now).1.lookup key =
        (s.sessionMergedState lib pathMatch equalFold o₂ now).1.lookup key) ∧
    ∀ key, s.Contested lib pathMatch now key → ¬s.Reconciled lib key → ∃ o₁ o₂,
      (s.sessionMergedState lib pathMatch equalFold o₁ now).1.lookup key ≠
        (s.sessionMergedState lib pathMatch equalFold o₂ now).1.lookup key := by
  constructor
  · intro h o₁ o₂
    have hsame : SameState (s.overlaidState lib pathMatch o₂ now)
        (s.overlaidState lib pathMatch o₁ now) :=
      fun key ↦ overlaidState_order_iff.mpr (h key) o₁ o₂
    exact reconcile_congr hsame s.agents s.resources
  · intro key hcontested hkey
    have hdiffer := overlaidState_order_iff.not_left.mpr hcontested
    push Not at hdiffer
    obtain ⟨o₁, o₂, hne⟩ := hdiffer
    refine ⟨o₁, o₂, ?_⟩
    rwa [lookup_sessionMergedState hkey, lookup_sessionMergedState hkey]

end OverlaidSession

/-! ## Two reports about a door -/

def lastListedFirst : RangeOrder SourceEntry := ⟨List.reverse, List.reverse_perm⟩

def report (door : String) (updatedAt : ℤ) : RuntimeStateSource :=
  { values := (∅ : StringMap).insert "door" door, updatedAt, expiresAt := none }

/-- A camera has seen the door closed, and a sensor, later, has found it as given. -/
def doorSession (found : String) : OverlaidSession :=
  { currentState := (∅ : StringMap).insert "door" "closed"
    runtimeStateSources := ((∅ : AList fun _ : String ↦ RuntimeStateSource).insert "camera"
      (report "closed" 1)).insert "sensor" (report found 2)
    stateMergePolicies := [], agents := [], resources := [] }

/-- The sources agree that the door is closed. -/
theorem closedDoor_agreed :
    ((doorSession "closed").sessionMergedState asciiLibrary plainMatch asciiFold
        (RangeOrder.asListed _) 3).1.lookup "door" =
      ((doorSession "closed").sessionMergedState asciiLibrary plainMatch asciiFold
        lastListedFirst 3).1.lookup "door" := by
  have hcounted : (doorSession "closed").countedSources 3 =
      [⟨"sensor", report "closed" 2⟩, ⟨"camera", report "closed" 1⟩] := by rfl
  have hclosed : ∀ source ∈ (doorSession "closed").countedSources 3, ∀ key x,
      OverlaidSession.reportFor key source = some x → x = "closed" := by
    intro source hmem key x hx
    have hvalues : source.2.values = (∅ : StringMap).insert "door" "closed" := by
      rw [hcounted, List.mem_pair] at hmem
      rcases hmem with rfl | rfl <;> rfl
    rw [OverlaidSession.reportFor, hvalues] at hx
    by_cases hdoor : key = "door"
    · rw [hdoor, AList.lookup_insert] at hx
      exact (Option.some.inj hx).symm
    · rw [AList.lookup_insert_ne hdoor] at hx
      exact absurd hx (by simp)
  refine (OverlaidSession.sessionMergedState_order asciiLibrary plainMatch asciiFold 3
    (doorSession "closed")).1 ?_ _ _ "door"
  rintro key ⟨-, a, ha, b, hb, x, y, hx, hy, hne⟩
  exact hne ((hclosed a ha key x hx).trans (hclosed b hb key y hy).symm)

/-- **The later report does not win**: the order decides whether the door is open. -/
theorem openDoor_undecided :
    ((doorSession "open").sessionMergedState asciiLibrary plainMatch asciiFold
        (RangeOrder.asListed _) 3).1.lookup "door" = some "closed" ∧
      ((doorSession "open").sessionMergedState asciiLibrary plainMatch asciiFold
        lastListedFirst 3).1.lookup "door" = some "open" := by
  decide +kernel

end Api
end FleetServer
