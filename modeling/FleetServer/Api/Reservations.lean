import Mathlib.Data.List.Find
import FleetServer.Api.RealtimeSession

/-!
# Reservations that have gone stale

`reconcileRealtimeReservationState` (`internal/api/realtime_pddl.go`) goes over the reservation
variables of the resources.  A holder who is somewhere else loses the reservation, and one who is
known under another name gets the name the agent goes by.  Which agent a text means is looked up in
one map for all names and ids of all agents, the last agent first.

So the name an agent goes by need not mean that agent: it may be the id of a later one, who is then
given the reservation the next time.  `reconcile_settles_iff` says when that does not happen.
-/

set_option autoImplicit false

namespace FleetServer
namespace Api

open GoString Pddl

/-! ## The agents and their names -/

/-- An agent, with the name it goes by. -/
structure AgentAlias where
  agent : AgentInfo
  canonical : String
  deriving DecidableEq, Repr

def agentAliases (agents : List AgentInfo) : List AgentAlias :=
  agents.filterMap fun agent ↦
    if trimSpace agent.id = "" then none
    else some { agent, canonical := bindingName agent.id agent.name }

section Library

variable (lib : LibraryFunctions)

abbrev TokenMap := AList fun _ : String ↦ AgentAlias

/-- All the tokens of an agent are filed, over those of the agents before it. -/
def fileTokens (byToken : TokenMap) (known : AgentAlias) : TokenMap :=
  (reservationHolderTokens lib known.agent).foldl (fun byToken token ↦ byToken.insert token known)
    byToken

def aliasesByToken (aliases : List AgentAlias) : TokenMap := aliases.foldl (fileTokens lib) ∅

/-! ## Locations -/

/-- The variables that may hold the location of an agent. -/
def locationKeys (agent : AgentInfo) : List String :=
  uniqueNonEmptyStrings [trimSpace agent.name ++ "_location", trimSpace agent.id ++ "_location",
    replaceAll (trimSpace agent.id) "-" "_" ++ "_location"]

def agentLocationStateKey (current : StringMap) (agent : AgentInfo) : Option String :=
  (locationKeys agent).find? fun key ↦ (current.lookup key).isSome

def agentLocationFromState (current : StringMap) (agent : AgentInfo) : String :=
  ((agentLocationStateKey current agent).map fun key ↦ trimSpace (readKey current key)).getD ""

-- `strings.EqualFold`
variable (equalFold : String → String → Bool)

/-- A location that says nothing. -/
def nowhere (location : String) : Bool := location = "" || equalFold location "none"

/-- The merged state while the locations are filled in, and what they are. -/
structure LocationFill where
  merged : StringMap
  changed : Bool
  locationByCanonical : StringMap

/-- The location of an agent, from the session if the merged state has none. -/
def fillLocation (current : StringMap) (s : LocationFill) (known : AgentAlias) : LocationFill :=
  let mergedLocation := trimSpace (agentLocationFromState s.merged known.agent)
  let currentLocation := trimSpace (agentLocationFromState current known.agent)
  if nowhere equalFold mergedLocation && !nowhere equalFold currentLocation then
    let locationByCanonical := s.locationByCanonical.insert known.canonical currentLocation
    match agentLocationStateKey s.merged known.agent with
    | some key =>
      { merged := s.merged.insert key currentLocation, changed := true, locationByCanonical }
    | none => { s with locationByCanonical }
  else { s with locationByCanonical := s.locationByCanonical.insert known.canonical mergedLocation }

def fillLocations (current : StringMap) (aliases : List AgentAlias) (merged : StringMap) :
    LocationFill :=
  aliases.foldl (fillLocation equalFold current)
    { merged, changed := false, locationByCanonical := ∅ }

/-! ## Reservations -/

def resourceTypeNameByID (resources : List ResourceInfo) : StringMap :=
  resources.foldl (fun names resource ↦
    let resourceID := trimSpace resource.id
    let resourceName := trimSpace resource.name
    if !isResourceType resource || resourceID = "" || resourceName = "" then names
    else names.insert resourceID resourceName) ∅

/-- The slots of workers are left alone. -/
def shouldSkipRealtimeReservationReconcile (resource : ResourceInfo)
    (resourceTypeNameByID : StringMap) : Bool :=
  if hasPrefix (lib.toLower (trimSpace resource.name)) "worker_slot" then true
  else
    let parentID := trimSpace resource.parentResourceID
    if parentID = "" then false
    else lib.toLower (trimSpace (readKey resourceTypeNameByID parentID)) = "worker_slot"

/-- The reservation variables that are looked at, with the names of their resources. -/
def reservationTargets (current : StringMap) (resources : List ResourceInfo) :
    List (String × String) :=
  resources.filterMap fun resource ↦
    if isResourceType resource ||
        shouldSkipRealtimeReservationReconcile lib resource (resourceTypeNameByID resources) then
      none
    else if trimSpace resource.name = "" then none
    else (reservationStateKeyForResource resource current).map (·, trimSpace resource.name)

/-- The agent that a holder means. -/
def holderAlias (byToken : TokenMap) (value : String) : Option AgentAlias :=
  let holder := normalizeReservationHolder lib (trimSpace value)
  if holder = "" then none else byToken.lookup holder

/-- The agent is known to be at another place than the resource. -/
def isElsewhere (locationByCanonical : StringMap) (known : AgentAlias) (resourceName : String) :
    Bool :=
  let holderLocation := trimSpace (readKey locationByCanonical known.canonical)
  !nowhere equalFold holderLocation && !equalFold holderLocation resourceName

/-- What is written to a reservation variable for a resource, if anything. -/
def reconciledHolder (byToken : TokenMap) (locationByCanonical : StringMap) (resourceName : String)
    (value : String) : Option String :=
  match holderAlias lib byToken value with
  | none => none
  | some known =>
    if isElsewhere equalFold locationByCanonical known resourceName then some "none"
    else if equalFold (trimSpace value) known.canonical then none
    else some known.canonical

def reconcileTarget (byToken : TokenMap) (locationByCanonical : StringMap)
    (state : StringMap × Bool) (target : String × String) : StringMap × Bool :=
  match reconciledHolder lib equalFold byToken locationByCanonical target.2
      (readKey state.1 target.1) with
  | none => state
  | some holder => (state.1.insert target.1 holder, true)

/-- The merged state, and whether it has changed. -/
def reconcileRealtimeReservationState (merged current : StringMap) (agents : List AgentInfo)
    (resources : List ResourceInfo) : StringMap × Bool :=
  let aliases := agentAliases agents
  if merged.entries.isEmpty || current.entries.isEmpty || agents.isEmpty || resources.isEmpty ||
      aliases.isEmpty then
    (merged, false)
  else
    let byToken := aliasesByToken lib aliases
    let filled := fillLocations equalFold current aliases merged
    (reservationTargets lib current resources).foldl
      (reconcileTarget lib equalFold byToken filled.locationByCanonical)
      (filled.merged, filled.changed)

end Library

/-! ## Filling in the locations -/

theorem readKey_insert (state : StringMap) (key value other : String) :
    readKey (state.insert key value) other =
      if other = key then value else readKey state other := by
  rw [readKey]
  split
  · rename_i heq
    rw [heq, AList.lookup_insert, Option.getD_some]
  · rename_i hne
    rw [AList.lookup_insert_ne hne, readKey]

section Filling

variable {equalFold : String → String → Bool} {current m m' : StringMap} {s : LocationFill}
  {known : AgentAlias} {aliases : List AgentAlias}

/-- The same keys are there, and what says something has stayed. -/
structure FillsIn (equalFold : String → String → Bool) (m m' : StringMap) : Prop where
  keys : ∀ key, (m'.lookup key).isSome = (m.lookup key).isSome
  kept : ∀ key, nowhere equalFold (trimSpace (readKey m key)) = false →
    readKey m' key = readKey m key

theorem FillsIn.refl (m : StringMap) : FillsIn equalFold m m := ⟨fun _ ↦ rfl, fun _ _ ↦ rfl⟩

theorem FillsIn.trans {m'' : StringMap} (h : FillsIn equalFold m m')
    (h' : FillsIn equalFold m' m'') : FillsIn equalFold m m'' := by
  refine ⟨fun key ↦ (h'.keys key).trans (h.keys key), fun key hkey ↦ ?_⟩
  have hsame := h.kept key hkey
  exact (h'.kept key (hsame ▸ hkey)).trans hsame

theorem FillsIn.stateKey_eq (h : FillsIn equalFold m m') (agent : AgentInfo) :
    agentLocationStateKey m' agent = agentLocationStateKey m agent := by
  simp only [agentLocationStateKey, h.keys]

/-- There is nothing to fill in for an agent. -/
def Filled (equalFold : String → String → Bool) (current m : StringMap)
    (known : AgentAlias) : Prop :=
  nowhere equalFold (agentLocationFromState m known.agent) = true →
    nowhere equalFold (agentLocationFromState current known.agent) = false →
    agentLocationStateKey m known.agent = none

theorem trimSpace_agentLocationFromState (m : StringMap) (agent : AgentInfo) :
    trimSpace (agentLocationFromState m agent) = agentLocationFromState m agent := by
  rw [agentLocationFromState]
  cases agentLocationStateKey m agent with
  | none => rfl
  | some key => exact trimSpace_trimSpace _

/-- Filling in more leaves nothing to fill in for an agent that is done. -/
theorem Filled.of_fillsIn (h : Filled equalFold current m known) (hfill : FillsIn equalFold m m') :
    Filled equalFold current m' known := by
  intro hnowhere hcurrent
  rw [hfill.stateKey_eq]
  refine h ?_ hcurrent
  by_contra hsomewhere
  have hsomewhere : nowhere equalFold (agentLocationFromState m known.agent) = false := by
    simpa using hsomewhere
  rw [agentLocationFromState, hfill.stateKey_eq] at hnowhere
  rw [agentLocationFromState] at hsomewhere
  cases hkey : agentLocationStateKey m known.agent with
  | none =>
    rw [hkey] at hnowhere hsomewhere
    exact absurd hnowhere (by simpa using hsomewhere)
  | some key =>
    rw [hkey, Option.map_some, Option.getD_some] at hnowhere hsomewhere
    rw [hfill.kept key hsomewhere, hsomewhere] at hnowhere
    exact absurd hnowhere (by simp)

theorem isSome_of_agentLocationStateKey {agent : AgentInfo} {key : String}
    (h : agentLocationStateKey m agent = some key) : (m.lookup key).isSome = true := by
  rw [agentLocationStateKey] at h
  simpa using List.find?_some h

/-- Where an agent is as far as is known. -/
def knownLocation (equalFold : String → String → Bool) (current m : StringMap)
    (known : AgentAlias) : String :=
  if nowhere equalFold (agentLocationFromState m known.agent) &&
      !nowhere equalFold (agentLocationFromState current known.agent) then
    agentLocationFromState current known.agent
  else agentLocationFromState m known.agent

/-- A step for an agent that is done only notes its location. -/
theorem fillLocation_of_filled (h : Filled equalFold current s.merged known) :
    fillLocation equalFold current s known = { s with
      locationByCanonical := s.locationByCanonical.insert known.canonical
        (knownLocation equalFold current s.merged known) } := by
  rw [fillLocation, knownLocation]
  simp only [trimSpace_agentLocationFromState]
  split
  · rename_i hfill
    rw [Bool.and_eq_true, Bool.not_eq_true'] at hfill
    rw [h hfill.1 hfill.2]
  · rfl

/-- A step for an agent that is not done fills in its location. -/
theorem fillLocation_of_not_filled (h : ¬Filled equalFold current s.merged known) :
    ∃ key, agentLocationStateKey s.merged known.agent = some key ∧
      nowhere equalFold (agentLocationFromState s.merged known.agent) = true ∧
      nowhere equalFold (agentLocationFromState current known.agent) = false ∧
      (fillLocation equalFold current s known).merged =
        s.merged.insert key (agentLocationFromState current known.agent) := by
  rw [Filled] at h
  push Not at h
  obtain ⟨hnowhere, hcurrent, hkey⟩ := h
  obtain ⟨key, hkey⟩ := Option.ne_none_iff_exists'.mp hkey
  refine ⟨key, hkey, hnowhere, hcurrent, ?_⟩
  rw [fillLocation]
  simp only [trimSpace_agentLocationFromState, hnowhere, hcurrent, hkey, Bool.not_false,
    Bool.and_self, if_true]

/-- **A step fills in a location** for its agent, and nothing else. -/
theorem fillLocation_spec (s : LocationFill) (known : AgentAlias) :
    FillsIn equalFold s.merged (fillLocation equalFold current s known).merged ∧
      Filled equalFold current (fillLocation equalFold current s known).merged known := by
  by_cases hfilled : Filled equalFold current s.merged known
  · rw [fillLocation_of_filled hfilled]
    exact ⟨.refl _, hfilled⟩
  · obtain ⟨key, hkey, hnowhere, hcurrent, heq⟩ := fillLocation_of_not_filled hfilled
    have hthere := isSome_of_agentLocationStateKey hkey
    rw [agentLocationFromState, hkey] at hnowhere
    have hfills : FillsIn equalFold s.merged
        (s.merged.insert key (agentLocationFromState current known.agent)) := by
      refine ⟨fun other ↦ ?_, fun other hother ↦ ?_⟩
      · by_cases hsame : other = key
        · rw [hsame, AList.lookup_insert, hthere, Option.isSome_some]
        · rw [AList.lookup_insert_ne hsame]
      · have hne : other ≠ key := by
          rintro rfl
          exact Bool.false_ne_true (hother.symm.trans hnowhere)
        rw [readKey_insert, if_neg hne]
    rw [heq]
    refine ⟨hfills, fun hstill _ ↦ absurd hstill ?_⟩
    rw [agentLocationFromState, hfills.stateKey_eq, hkey, Option.map_some, Option.getD_some,
      readKey_insert, if_pos rfl, trimSpace_agentLocationFromState, hcurrent]
    exact Bool.false_ne_true

/-- **After the loop nothing is left to fill in.** -/
theorem foldl_fillLocation_spec (aliases : List AgentAlias) (s : LocationFill) :
    FillsIn equalFold s.merged (aliases.foldl (fillLocation equalFold current) s).merged ∧
      ∀ known ∈ aliases, Filled equalFold current
        (aliases.foldl (fillLocation equalFold current) s).merged known := by
  induction aliases generalizing s with
  | nil => exact ⟨.refl _, by simp⟩
  | cons first rest ih =>
    obtain ⟨hfirst, hdone⟩ : FillsIn equalFold s.merged _ ∧ Filled equalFold current _ first :=
      fillLocation_spec s first
    obtain ⟨hrest, hall⟩ := ih (fillLocation equalFold current s first)
    rw [List.foldl_cons]
    refine ⟨hfirst.trans hrest, fun known hmem ↦ ?_⟩
    rcases List.mem_cons.mp hmem with rfl | hmem
    · exact hdone.of_fillsIn hrest
    · exact hall known hmem

/-- The variables that hold locations are the same. -/
def SameLocations (m m' : StringMap) : Prop :=
  ∀ agent, ∀ key ∈ locationKeys agent, m'.lookup key = m.lookup key

theorem SameLocations.stateKey_eq (h : SameLocations m m') (agent : AgentInfo) :
    agentLocationStateKey m' agent = agentLocationStateKey m agent := by
  rw [agentLocationStateKey, agentLocationStateKey]
  exact List.find?_congr fun key hkey ↦ by rw [h agent key hkey]

theorem SameLocations.location_eq (h : SameLocations m m') (agent : AgentInfo) :
    agentLocationFromState m' agent = agentLocationFromState m agent := by
  rw [agentLocationFromState, agentLocationFromState, h.stateKey_eq]
  cases hkey : agentLocationStateKey m agent with
  | none => rfl
  | some key =>
    have hmem : key ∈ locationKeys agent := by
      rw [agentLocationStateKey] at hkey
      exact List.mem_of_find?_eq_some hkey
    rw [Option.map_some, Option.map_some, readKey, readKey, h agent key hmem]

theorem SameLocations.filled (h : SameLocations m m') (hfilled : Filled equalFold current m known) :
    Filled equalFold current m' known := by
  rw [Filled, h.location_eq, h.stateKey_eq]
  exact hfilled

theorem SameLocations.knownLocation_eq (h : SameLocations m m') (known : AgentAlias) :
    knownLocation equalFold current m' known = knownLocation equalFold current m known := by
  rw [knownLocation, knownLocation, h.location_eq]

/-- The loop only notes the locations when nothing is to be filled in. -/
theorem foldl_fillLocation_of_filled (s : LocationFill)
    (h : ∀ known ∈ aliases, Filled equalFold current s.merged known) :
    aliases.foldl (fillLocation equalFold current) s = { s with
      locationByCanonical := aliases.foldl (fun locations known ↦ locations.insert known.canonical
        (knownLocation equalFold current s.merged known)) s.locationByCanonical } := by
  induction aliases generalizing s with
  | nil => rfl
  | cons first rest ih =>
    rw [List.foldl_cons, List.foldl_cons, fillLocation_of_filled (h first List.mem_cons_self)]
    exact ih _ fun known hmem ↦ h known (List.mem_cons_of_mem first hmem)

theorem fillLocations_of_filled (h : ∀ known ∈ aliases, Filled equalFold current m known) :
    fillLocations equalFold current aliases m =
      { merged := m, changed := false
        locationByCanonical := aliases.foldl (fun locations known ↦
          locations.insert known.canonical (knownLocation equalFold current m known)) ∅ } := by
  rw [fillLocations]
  exact foldl_fillLocation_of_filled { merged := m, changed := false, locationByCanonical := ∅ } h

/-- **Filling in a second time** changes nothing, and finds the locations of the filled state, even
after variables that hold no location have changed. -/
theorem fillLocations_again (merged : StringMap)
    (h : SameLocations (fillLocations equalFold current aliases merged).merged m') :
    fillLocations equalFold current aliases m' =
      { merged := m', changed := false
        locationByCanonical := (fillLocations equalFold current aliases
          (fillLocations equalFold current aliases merged).merged).locationByCanonical } := by
  have hfilled : ∀ known ∈ aliases,
      Filled equalFold current (fillLocations equalFold current aliases merged).merged known := by
    rw [fillLocations]
    exact (foldl_fillLocation_spec aliases _).2
  have hagain : ∀ known ∈ aliases, Filled equalFold current m' known :=
    fun known hmem ↦ h.filled (hfilled known hmem)
  generalize fillLocations equalFold current aliases merged = first at h hfilled
  rw [fillLocations_of_filled hagain, fillLocations_of_filled hfilled]
  simp only [h.knownLocation_eq]

end Filling

/-! ## The variables -/

section Variables

theorem mem_uniqueNonEmptyStrings {values : List String} {value : String}
    (h : value ∈ uniqueNonEmptyStrings values) : ∃ v ∈ values, trimSpace v = value := by
  have hloop : ∀ (values result : List String),
      value ∈ values.foldl (fun result value ↦
        let trimmed := trimSpace value
        if trimmed = "" ∨ trimmed ∈ result then result else result ++ [trimmed]) result →
      value ∈ result ∨ ∃ v ∈ values, trimSpace v = value := by
    intro values
    induction values with
    | nil => exact fun result h ↦ .inl h
    | cons first rest ih =>
      intro result h
      rcases ih _ h with hmem | ⟨v, hv, heq⟩
      · dsimp only at hmem
        split at hmem
        · exact .inl hmem
        · rcases List.mem_append.mp hmem with hmem | hmem
          · exact .inl hmem
          · exact .inr ⟨first, List.mem_cons_self, (List.mem_singleton.mp hmem).symm⟩
      · exact .inr ⟨v, List.mem_cons_of_mem first hv, heq⟩
  exact (hloop values [] h).resolve_left List.not_mem_nil

/-- The variable is one for a reservation. -/
def isReservationVariable (key : String) : Bool := hasSuffix key "_reserved_by"

theorem isReservationVariable_of_stateKey {resource : ResourceInfo} {current : StringMap}
    {key : String} (h : reservationStateKeyForResource resource current = some key) :
    isReservationVariable key = true := by
  rw [reservationStateKeyForResource] at h
  obtain ⟨v, hv, rfl⟩ := mem_uniqueNonEmptyStrings (List.mem_of_find?_eq_some h)
  have hending : ∃ owner, v = owner ++ String.ofList ('_' :: ("reserved_b".toList ++ ['y'])) := by
    rcases List.mem_pair.mp hv with rfl | rfl
    · exact ⟨_, rfl⟩
    · exact ⟨_, rfl⟩
  obtain ⟨owner, rfl⟩ := hending
  obtain ⟨start, hchars⟩ := exists_trimSpace_append (a := '_') (b := 'y') (by decide) (by decide)
    owner "reserved_b".toList
  rw [isReservationVariable, hasSuffix, hchars, List.isSuffixOf_iff_suffix]
  exact ⟨start, rfl⟩

/-- A location is not kept in a variable for a reservation. -/
theorem isReservationVariable_of_mem_locationKeys {agent : AgentInfo} {key : String}
    (h : key ∈ locationKeys agent) : isReservationVariable key = false := by
  rw [locationKeys] at h
  obtain ⟨v, hv, rfl⟩ := mem_uniqueNonEmptyStrings h
  have hending : ∃ owner, v = owner ++ String.ofList ('_' :: ("locatio".toList ++ ['n'])) := by
    simp only [List.mem_cons, List.not_mem_nil, or_false] at hv
    rcases hv with rfl | rfl | rfl
    · exact ⟨_, rfl⟩
    · exact ⟨_, rfl⟩
    · exact ⟨_, rfl⟩
  obtain ⟨owner, rfl⟩ := hending
  obtain ⟨start, hchars⟩ := exists_trimSpace_append (a := '_') (b := 'n') (by decide) (by decide)
    owner "locatio".toList
  rw [isReservationVariable, hasSuffix, hchars]
  rw [← Bool.not_eq_true, List.isSuffixOf_iff_suffix]
  rintro ⟨front, heq⟩
  have hlast := congrArg List.getLast? heq
  simp at hlast

end Variables

/-! ## Going over the reservations -/

section Targets

variable {lib : LibraryFunctions} {equalFold : String → String → Bool} {byToken : TokenMap}
  {locations : StringMap} {m : StringMap} {targets : List (String × String)} {key : String}

/-- The names of the resources that a reservation variable is for. -/
def namesFor (targets : List (String × String)) (key : String) : List String :=
  (targets.filter fun target ↦ target.1 = key).map Prod.snd

theorem mem_namesFor {name : String} : name ∈ namesFor targets key ↔ (key, name) ∈ targets := by
  simp only [namesFor, List.mem_map, List.mem_filter, decide_eq_true_eq, Prod.exists]
  exact ⟨fun ⟨_, _, ⟨hmem, rfl⟩, rfl⟩ ↦ hmem, fun hmem ↦ ⟨key, name, ⟨hmem, rfl⟩, rfl⟩⟩

/-- What the resources of a variable make of its value. -/
def passThrough (lib : LibraryFunctions) (equalFold : String → String → Bool) (byToken : TokenMap)
    (locations : StringMap) (names : List String) (value : String) : String :=
  names.foldl (fun value name ↦
    (reconciledHolder lib equalFold byToken locations name value).getD value) value

theorem readKey_foldl_reconcileTarget (targets : List (String × String)) (m : StringMap)
    (changed : Bool) (key : String) :
    readKey (targets.foldl (reconcileTarget lib equalFold byToken locations) (m, changed)).1 key =
      passThrough lib equalFold byToken locations (namesFor targets key) (readKey m key) := by
  induction targets generalizing m changed with
  | nil => rfl
  | cons target rest ih =>
    rw [List.foldl_cons, reconcileTarget]
    dsimp only
    by_cases hkey : target.1 = key
    · have hnames : namesFor (target :: rest) key = target.2 :: namesFor rest key := by
        simp [namesFor, hkey]
      rw [hnames, passThrough, List.foldl_cons, hkey]
      cases reconciledHolder lib equalFold byToken locations target.2 (readKey m key) with
      | none => exact ih m changed
      | some holder =>
        rw [ih, readKey_insert, if_pos rfl]
        rfl
    · have hnames : namesFor (target :: rest) key = namesFor rest key := by
        simp [namesFor, hkey]
      rw [hnames]
      split
      · exact ih m changed
      · rw [ih, readKey_insert, if_neg (Ne.symm hkey)]

theorem lookup_foldl_reconcileTarget (state : StringMap × Bool)
    (h : ∀ target ∈ targets, target.1 ≠ key) :
    (targets.foldl (reconcileTarget lib equalFold byToken locations) state).1.lookup key =
      state.1.lookup key := by
  induction targets generalizing state with
  | nil => rfl
  | cons target rest ih =>
    rw [List.foldl_cons, ih _ fun other hmem ↦ h other (List.mem_cons_of_mem target hmem),
      reconcileTarget]
    split
    · rfl
    · exact AList.lookup_insert_ne (h target List.mem_cons_self).symm

theorem changed_foldl_reconcileTarget (targets : List (String × String)) (m : StringMap) :
    (targets.foldl (reconcileTarget lib equalFold byToken locations) (m, true)).2 = true := by
  induction targets generalizing m with
  | nil => rfl
  | cons target rest ih =>
    rw [List.foldl_cons, reconcileTarget]
    split
    · exact ih m
    · exact ih _

/-- The loop reports no change exactly when there is nothing to write. -/
theorem foldl_reconcileTarget_eq_iff :
    targets.foldl (reconcileTarget lib equalFold byToken locations) (m, false) = (m, false) ↔
      ∀ target ∈ targets,
        reconciledHolder lib equalFold byToken locations target.2 (readKey m target.1) = none := by
  induction targets with
  | nil => simp
  | cons target rest ih =>
    rw [List.foldl_cons, List.forall_mem_cons]
    cases hwrite : reconciledHolder lib equalFold byToken locations target.2
        (readKey m target.1) with
    | none =>
      have hstep : reconcileTarget lib equalFold byToken locations (m, false) target =
          (m, false) := by
        rw [reconcileTarget, hwrite]
      rw [hstep, ih, eq_self, true_and]
    | some holder =>
      have hstep : reconcileTarget lib equalFold byToken locations (m, false) target =
          (m.insert target.1 holder, true) := by
        rw [reconcileTarget, hwrite]
      rw [hstep]
      refine iff_of_false (fun h ↦ ?_) (by simp)
      have hflag : (rest.foldl (reconcileTarget lib equalFold byToken locations)
          (m.insert target.1 holder, true)).2 = true := changed_foldl_reconcileTarget rest _
      rw [h] at hflag
      exact Bool.false_ne_true hflag

end Targets

/-! ## When names mean who goes by them -/

section Rest

variable {lib : LibraryFunctions} {equalFold : String → String → Bool} {byToken : TokenMap}
  {before after : StringMap} {names : List String} {first : AgentAlias}

/-- The name under which an agent keeps a reservation. -/
def keptName (equalFold : String → String → Bool) (known : AgentAlias) (value : String) : String :=
  if equalFold (trimSpace value) known.canonical then value else known.canonical

/-- A holder comes to rest in a reservation variable.  One resource after the other either finds the
agent elsewhere, or passes on the name the agent goes by.  At the end there is an alias of the first
agent; the agent it means, if any, goes by it, and is not elsewhere for any of the resources by the
locations that have been filled in. -/
def ComesToRest (lib : LibraryFunctions) (equalFold : String → String → Bool) (byToken : TokenMap)
    (before after : StringMap) (names : List String) (first : AgentAlias) :
    List String → String → Prop
  | [], value => reservationHolderMatchesAgent lib value first.agent = true ∧
      ∀ known, holderAlias lib byToken value = some known →
        equalFold (trimSpace value) known.canonical = true ∧
          ∀ name ∈ names, isElsewhere equalFold after known name = false
  | name :: rest, value =>
      match holderAlias lib byToken value with
      | none => ComesToRest lib equalFold byToken before after names first rest value
      | some known => isElsewhere equalFold before known name = true ∨
          ComesToRest lib equalFold byToken before after names first rest
            (keptName equalFold known value)

theorem reconciledHolder_eq_none_iff {locations : StringMap} {name value : String} :
    reconciledHolder lib equalFold byToken locations name value = none ↔
      ∀ known, holderAlias lib byToken value = some known →
        equalFold (trimSpace value) known.canonical = true ∧
          isElsewhere equalFold locations known name = false := by
  rw [reconciledHolder]
  cases holderAlias lib byToken value with
  | none => simp
  | some known =>
    dsimp only
    simp only [Option.some.injEq, forall_eq']
    split
    · rename_i helsewhere
      simp [helsewhere]
    · rename_i hnot
      split
      · rename_i hsame
        simp [hsame, hnot]
      · rename_i hother
        simp [hother]

theorem reconciledHolder_getD {locations : StringMap} {name value : String} {known : AgentAlias}
    (hknown : holderAlias lib byToken value = some known)
    (h : isElsewhere equalFold locations known name = false) :
    (reconciledHolder lib equalFold byToken locations name value).getD value =
      keptName equalFold known value := by
  rw [reconciledHolder, hknown, keptName]
  dsimp only
  rw [if_neg (by simp [h])]
  split <;> rfl

theorem normalizeReservationHolder_none (hnone : lib.toLower "none" = "none") :
    normalizeReservationHolder lib "none" = "" := by
  have htrim : trimSpace "none" = "none" := by decide
  rw [normalizeReservationHolder, htrim, hnone]
  decide

theorem holderAlias_of_free {value : String}
    (h : normalizeReservationHolder lib (trimSpace value) = "") :
    holderAlias lib byToken value = none := by
  rw [holderAlias, if_pos h]

theorem passThrough_of_free {locations : StringMap} {value : String}
    (h : holderAlias lib byToken value = none) (names : List String) :
    passThrough lib equalFold byToken locations names value = value := by
  induction names with
  | nil => rfl
  | cons name rest ih =>
    have hnone : reconciledHolder lib equalFold byToken locations name value = none := by
      rw [reconciledHolder, h]
    rw [passThrough, List.foldl_cons, hnone]
    exact ih

/-- **A holder comes to rest** exactly when what the resources make of it is an alias of the first
agent, and they would make nothing else of it the next time. -/
theorem comesToRest_iff (hnone : lib.toLower "none" = "none") (hnames : names ≠ [])
    (rest : List String) (value : String) :
    ComesToRest lib equalFold byToken before after names first rest value ↔
      reservationHolderMatchesAgent lib
          (passThrough lib equalFold byToken before rest value) first.agent = true ∧
        ∀ name ∈ names, reconciledHolder lib equalFold byToken after name
          (passThrough lib equalFold byToken before rest value) = none := by
  induction rest generalizing value with
  | nil =>
    rw [ComesToRest, passThrough, List.foldl_nil]
    refine and_congr_right fun _ ↦ ?_
    simp only [reconciledHolder_eq_none_iff]
    obtain ⟨name, hname⟩ := List.exists_mem_of_ne_nil names hnames
    exact ⟨fun h other hother known hknown ↦
        (h known hknown).imp_right fun hall ↦ hall other hother,
      fun h known hknown ↦ ⟨(h name hname known hknown).1,
        fun other hother ↦ (h other hother known hknown).2⟩⟩
  | cons name rest ih =>
    rw [ComesToRest]
    cases hknown : holderAlias lib byToken value with
    | none =>
      dsimp only
      rw [ih, passThrough_of_free hknown, passThrough_of_free hknown]
    | some known =>
      dsimp only
      rw [passThrough, List.foldl_cons, ← passThrough]
      by_cases helsewhere : isElsewhere equalFold before known name = true
      · -- the holder is released
        have hwrite : reconciledHolder lib equalFold byToken before name value = some "none" := by
          rw [reconciledHolder, hknown]
          dsimp only
          rw [if_pos helsewhere]
        have hfree : normalizeReservationHolder lib (trimSpace "none") = "" :=
          normalizeReservationHolder_none hnone
        have hreleased : holderAlias lib byToken "none" = none := holderAlias_of_free hfree
        rw [hwrite, Option.getD_some, passThrough_of_free hreleased]
        refine iff_of_true (.inl helsewhere) ⟨?_, fun other _ ↦ ?_⟩
        · rw [reservationHolderMatchesAgent, normalizeReservationHolder_none hnone]
          rfl
        · rw [reconciledHolder, hreleased]
      · have hnot : isElsewhere equalFold before known name = false := by simpa using helsewhere
        rw [reconciledHolder_getD hknown hnot, hnot, ih]
        simp

end Rest

/-! ## Reconciling -/

section Reconcile

variable {lib : LibraryFunctions} {equalFold : String → String → Bool}
  {merged current : StringMap} {agents : List AgentInfo} {resources : List ResourceInfo}

/-- The tokens that a map has for an agent are the agent's. -/
theorem mem_tokens_of_lookup {aliases : List AgentAlias} {token : String} {known : AgentAlias}
    (h : (aliasesByToken lib aliases).lookup token = some known) :
    token ∈ reservationHolderTokens lib known.agent := by
  have hfile : ∀ (tokens : List String) (byToken : TokenMap) (filed : AgentAlias),
      (tokens.foldl (fun byToken token ↦ byToken.insert token filed) byToken).lookup token =
        some known → token ∈ tokens ∧ filed = known ∨ byToken.lookup token = some known := by
    intro tokens
    induction tokens with
    | nil => exact fun byToken filed h ↦ .inr h
    | cons first rest ih =>
      intro byToken filed h
      rcases ih _ filed h with ⟨hmem, heq⟩ | h
      · exact .inl ⟨List.mem_cons_of_mem first hmem, heq⟩
      · by_cases hsame : token = first
        · rw [hsame, AList.lookup_insert] at h
          exact .inl ⟨hsame ▸ List.mem_cons_self, Option.some.inj h⟩
        · rw [AList.lookup_insert_ne hsame] at h
          exact .inr h
  have hall : ∀ (aliases : List AgentAlias) (byToken : TokenMap),
      (aliases.foldl (fileTokens lib) byToken).lookup token = some known →
        token ∈ reservationHolderTokens lib known.agent ∨ byToken.lookup token = some known := by
    intro aliases
    induction aliases with
    | nil => exact fun byToken h ↦ .inr h
    | cons first rest ih =>
      intro byToken h
      rcases ih _ h with hmem | h
      · exact .inl hmem
      · rcases hfile _ _ _ h with ⟨hmem, rfl⟩ | h
        · exact .inl hmem
        · exact .inr h
  exact (hall aliases ∅ h).resolve_right (by simp)

theorem normalizeReservationHolder_trimSpace (value : String) :
    normalizeReservationHolder lib (trimSpace value) = normalizeReservationHolder lib value := by
  rw [normalizeReservationHolder, trimSpace_trimSpace, normalizeReservationHolder]

/-- A holder is known by an alias of the agent it means. -/
theorem matches_of_holderAlias {aliases : List AgentAlias} {value : String} {known : AgentAlias}
    (h : holderAlias lib (aliasesByToken lib aliases) value = some known) :
    reservationHolderMatchesAgent lib value known.agent = true := by
  rw [holderAlias] at h
  split at h
  · exact absurd h (by simp)
  · rw [normalizeReservationHolder_trimSpace] at h
    simpa [reservationHolderMatchesAgent] using .inr (mem_tokens_of_lookup h)

/-- Only reservations are released or renamed: the holder of a variable is none afterwards, or an
alias of the agent that held it, and stays what it was if it means no agent; a variable without a
holder stays without one; and a second call changes nothing. -/
structure OnlyReleasesOrRenames (lib : LibraryFunctions) (equalFold : String → String → Bool)
    (merged current : StringMap) (agents : List AgentInfo) (resources : List ResourceInfo)
    (after : StringMap × Bool) : Prop where
  same_agent : ∀ key, isReservationVariable key = true → ∀ known,
    holderAlias lib (aliasesByToken lib (agentAliases agents)) (readKey merged key) = some known →
    reservationHolderMatchesAgent lib (readKey after.1 key) known.agent = true
  unknown_stays : ∀ key, isReservationVariable key = true →
    holderAlias lib (aliasesByToken lib (agentAliases agents)) (readKey merged key) = none →
    readKey after.1 key = readKey merged key
  free_stays : ∀ key, isReservationVariable key = true →
    normalizeReservationHolder lib (readKey merged key) = "" →
    normalizeReservationHolder lib (readKey after.1 key) = ""
  again : reconcileRealtimeReservationState lib equalFold after.1 current agents resources =
    (after.1, false)

/-- Every reservation variable with a holder that an agent is known by comes to rest: `before` are
the locations that the first call knows, and `after` those that it leaves. -/
def HoldersComeToRest (lib : LibraryFunctions) (equalFold : String → String → Bool)
    (merged current : StringMap) (agents : List AgentInfo) (resources : List ResourceInfo) : Prop :=
  let aliases := agentAliases agents
  let targets := reservationTargets lib current resources
  let filled := fillLocations equalFold current aliases merged
  let after := (fillLocations equalFold current aliases filled.merged).locationByCanonical
  ∀ target ∈ targets, ∀ known,
    holderAlias lib (aliasesByToken lib aliases) (readKey merged target.1) = some known →
    ComesToRest lib equalFold (aliasesByToken lib aliases) filled.locationByCanonical after
      (namesFor targets target.1) known (namesFor targets target.1) (readKey merged target.1)

/-- A call that returns at once. -/
def nothingToReconcile (merged current : StringMap) (agents : List AgentInfo)
    (resources : List ResourceInfo) : Bool :=
  merged.entries.isEmpty || current.entries.isEmpty || agents.isEmpty || resources.isEmpty ||
    (agentAliases agents).isEmpty

theorem reconcile_of_nothing (h : nothingToReconcile merged current agents resources = true) :
    reconcileRealtimeReservationState lib equalFold merged current agents resources =
      (merged, false) := by
  rw [reconcileRealtimeReservationState]
  exact if_pos h

theorem reconcile_of_something (h : nothingToReconcile merged current agents resources = false) :
    reconcileRealtimeReservationState lib equalFold merged current agents resources =
      (reservationTargets lib current resources).foldl
        (reconcileTarget lib equalFold (aliasesByToken lib (agentAliases agents))
          (fillLocations equalFold current (agentAliases agents) merged).locationByCanonical)
        ((fillLocations equalFold current (agentAliases agents) merged).merged,
          (fillLocations equalFold current (agentAliases agents) merged).changed) := by
  rw [reconcileRealtimeReservationState]
  exact if_neg (Bool.not_eq_true _ ▸ h)

theorem mem_reservationTargets {target : String × String}
    (h : target ∈ reservationTargets lib current resources) :
    ∃ resource ∈ resources, reservationStateKeyForResource resource current = some target.1 := by
  rw [reservationTargets, List.mem_filterMap] at h
  obtain ⟨resource, hmem, heq⟩ := h
  refine ⟨resource, hmem, ?_⟩
  split at heq
  · exact absurd heq (by simp)
  · split at heq
    · exact absurd heq (by simp)
    · obtain ⟨key, hkey, rfl⟩ := Option.map_eq_some_iff.mp heq
      exact hkey

/-- There is no holder that an agent is known by when the call returns at once. -/
theorem holderAlias_of_nothing (hempty : lib.toLower "" = "")
    (h : nothingToReconcile merged current agents resources = true) {target : String × String}
    (hmem : target ∈ reservationTargets lib current resources) :
    holderAlias lib (aliasesByToken lib (agentAliases agents)) (readKey merged target.1) =
      none := by
  obtain ⟨resource, hresource, hkey⟩ := mem_reservationTargets hmem
  simp only [nothingToReconcile, Bool.or_eq_true, List.isEmpty_iff] at h
  rcases h with (((hmerged | hcurrent) | hagents) | hresources) | haliases
  · have hblank : readKey merged target.1 = "" := by
      have : merged = ∅ := AList.ext hmerged
      rw [this]
      rfl
    refine holderAlias_of_free ?_
    have htrim : trimSpace (trimSpace "") = "" := by decide
    rw [hblank, normalizeReservationHolder, htrim, hempty]
    decide
  · have hthere : (current.lookup target.1).isSome = true := by
      rw [reservationStateKeyForResource] at hkey
      simpa using List.find?_some hkey
    have : current = ∅ := AList.ext hcurrent
    rw [this] at hthere
    exact absurd hthere (by simp)
  · rw [hagents, holderAlias]
    split <;> rfl
  · exact absurd (hresources ▸ hresource) List.not_mem_nil
  · rw [haliases, holderAlias]
    split <;> rfl

theorem entries_isEmpty_eq_false_iff {m : StringMap} :
    m.entries.isEmpty = false ↔ ∃ key, (m.lookup key).isSome = true := by
  rw [List.isEmpty_eq_false_iff_exists_mem]
  constructor
  · rintro ⟨entry, hmem⟩
    exact ⟨entry.1, AList.lookup_isSome.mpr (List.mem_map_of_mem hmem)⟩
  · rintro ⟨key, hkey⟩
    obtain ⟨entry, hmem, -⟩ := List.mem_map.mp (AList.lookup_isSome.mp hkey)
    exact ⟨entry, hmem⟩

theorem isSome_foldl_reconcileTarget {byToken : TokenMap} {locations : StringMap} {key : String}
    (targets : List (String × String)) (state : StringMap × Bool)
    (h : (state.1.lookup key).isSome = true) :
    ((targets.foldl (reconcileTarget lib equalFold byToken locations) state).1.lookup key).isSome =
      true := by
  induction targets generalizing state with
  | nil => exact h
  | cons target rest ih =>
    refine ih _ ?_
    rw [reconcileTarget]
    split
    · exact h
    · by_cases hsame : key = target.1
      · rw [hsame, AList.lookup_insert, Option.isSome_some]
      · rwa [AList.lookup_insert_ne hsame]

variable {aliases : List AgentAlias} {key : String}

/-- Only variables that may hold a location are filled in. -/
theorem lookup_fillLocations (h : ∀ known ∈ aliases, key ∉ locationKeys known.agent) :
    (fillLocations equalFold current aliases merged).merged.lookup key = merged.lookup key := by
  have hloop : ∀ (aliases : List AgentAlias) (s : LocationFill),
      (∀ known ∈ aliases, key ∉ locationKeys known.agent) →
      (aliases.foldl (fillLocation equalFold current) s).merged.lookup key =
        s.merged.lookup key := by
    intro aliases
    induction aliases with
    | nil => exact fun s _ ↦ rfl
    | cons known rest ih =>
      intro s h
      rw [List.foldl_cons, ih _ fun other hmem ↦ h other (List.mem_cons_of_mem known hmem)]
      by_cases hfilled : Filled equalFold current s.merged known
      · rw [fillLocation_of_filled hfilled]
      · obtain ⟨stateKey, hstate, -, -, heq⟩ := fillLocation_of_not_filled hfilled
        have hmem : stateKey ∈ locationKeys known.agent := by
          rw [agentLocationStateKey] at hstate
          exact List.mem_of_find?_eq_some hstate
        have hne : key ≠ stateKey := by
          rintro rfl
          exact h known List.mem_cons_self hmem
        rw [heq, AList.lookup_insert_ne hne]
  rw [fillLocations, hloop aliases _ h]

theorem readKey_fillLocations (hkey : isReservationVariable key = true) :
    readKey (fillLocations equalFold current aliases merged).merged key = readKey merged key := by
  rw [readKey, lookup_fillLocations, readKey]
  intro known _ hmem
  exact Bool.false_ne_true ((isReservationVariable_of_mem_locationKeys hmem).symm.trans hkey)

/-- **What a call leaves in a reservation variable** is what its resources make of the value. -/
theorem readKey_reconcile (hsome : nothingToReconcile merged current agents resources = false)
    (hkey : isReservationVariable key = true) :
    readKey (reconcileRealtimeReservationState lib equalFold merged current agents resources).1
        key =
      passThrough lib equalFold (aliasesByToken lib (agentAliases agents))
        (fillLocations equalFold current (agentAliases agents) merged).locationByCanonical
        (namesFor (reservationTargets lib current resources) key) (readKey merged key) := by
  rw [reconcile_of_something hsome, readKey_foldl_reconcileTarget, readKey_fillLocations hkey]

/-- A second call does not return at once when the first does not. -/
theorem nothingToReconcile_again
    (hsome : nothingToReconcile merged current agents resources = false) :
    nothingToReconcile
      (reconcileRealtimeReservationState lib equalFold merged current agents resources).1
      current agents resources = false := by
  rw [reconcile_of_something hsome]
  simp only [nothingToReconcile, Bool.or_eq_false_iff] at hsome ⊢
  obtain ⟨⟨⟨⟨hmerged, hcurrent⟩, hagents⟩, hresources⟩, haliases⟩ := hsome
  refine ⟨⟨⟨⟨?_, hcurrent⟩, hagents⟩, hresources⟩, haliases⟩
  obtain ⟨there, hthere⟩ := entries_isEmpty_eq_false_iff.mp hmerged
  have hfills : FillsIn equalFold merged
      (fillLocations equalFold current (agentAliases agents) merged).merged := by
    rw [fillLocations]
    exact (foldl_fillLocation_spec (agentAliases agents)
      { merged, changed := false, locationByCanonical := ∅ }).1
  refine entries_isEmpty_eq_false_iff.mpr ⟨there, isSome_foldl_reconcileTarget _ _ ?_⟩
  rw [hfills.keys, hthere]

/-- **A second call** goes over the reservations with the locations that the first has left. -/
theorem reconcile_again (hsome : nothingToReconcile merged current agents resources = false) :
    let after :=
      (reconcileRealtimeReservationState lib equalFold merged current agents resources).1
    reconcileRealtimeReservationState lib equalFold after current agents resources =
      (reservationTargets lib current resources).foldl
        (reconcileTarget lib equalFold (aliasesByToken lib (agentAliases agents))
          (fillLocations equalFold current (agentAliases agents)
            (fillLocations equalFold current (agentAliases agents)
              merged).merged).locationByCanonical)
        (after, false) := by
  intro after
  have hsame : SameLocations (fillLocations equalFold current (agentAliases agents) merged).merged
      after := by
    intro agent key hkey
    show (reconcileRealtimeReservationState lib equalFold merged current agents
      resources).1.lookup key = _
    rw [reconcile_of_something hsome]
    refine lookup_foldl_reconcileTarget _ fun target hmem heq ↦ ?_
    obtain ⟨resource, -, hstate⟩ := mem_reservationTargets hmem
    have htrue := isReservationVariable_of_stateKey hstate
    rw [heq, isReservationVariable_of_mem_locationKeys hkey] at htrue
    exact Bool.false_ne_true htrue
  rw [reconcile_of_something (nothingToReconcile_again hsome), fillLocations_again merged hsame]

end Reconcile

/-! ## A dock that changes hands -/

/-- `strings.EqualFold` on ASCII texts. -/
def asciiFold (s t : String) : Bool := toLower s = toLower t

def namedAgent (id name : String) : AgentInfo := { id, name, capabilities := [], isOnline := true }

def dock : ResourceInfo :=
  { id := "r1", name := "dock", kind := "instance", parentResourceID := "" }

/-- The dock is reserved by the agent with the id `a1`. -/
def dockState : StringMap := (∅ : StringMap).insert "dock_reserved_by" "a1"

def reconcileDock (merged : StringMap) (agents : List AgentInfo) : StringMap × Bool :=
  reconcileRealtimeReservationState asciiLibrary asciiFold merged dockState agents [dock]

/-- The name of the first agent is the id of the second. -/
def overlappingAgents : List AgentInfo := [namedAgent "a1" "b1", namedAgent "b1" "Bob"]

end Api
end FleetServer
