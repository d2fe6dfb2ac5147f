import FleetServer.Executor.StartTask
import FleetServer.Lib.FilledMap
import FleetServer.Lib.RangeOrder
import FleetServer.Pddl.Types

/-!
# Validating the capabilities of an agent

`ValidateCapabilities` (`internal/executor/scheduler.go`) collects the actions of a tree in a map
from action types to servers, and the capabilities of the agent in three maps, and then looks every
action type up.  Of two steps with one action type only the later is left in the map, so the server
of the earlier is never looked up; `valid_sound_iff` says when that matters.
-/

set_option autoImplicit false

namespace FleetServer
namespace Executor

open Db FilledMap GoString

/-- An `AgentCapability`, as far as the validation reads it. -/
structure AgentCapability where
  actionType : String
  actionServer : String
  isAvailable : Bool
  deriving DecidableEq, Repr

structure CapabilityValidationResult where
  valid : Bool
  missingCapabilities : List String := []
  unavailableServers : List String := []
  message : String
  deriving DecidableEq, Repr

/-- What the validation reads of the database. -/
structure CapabilitySources where
  getBehaviorTree : String → Except String (Option BehaviorTree)
  getAgentCapabilities : String → Except String (List AgentCapability)

/-! ## The maps -/

/-- The loop body over the steps: an action with a type is required. -/
def requireAction (required : StringMap) (step : BehaviorTreeStep) : StringMap :=
  match step.action with
  | some action => if action.type ≠ "" then required.insert action.type action.server else required
  | none => required

def requiredCapabilities (steps : List BehaviorTreeStep) : StringMap := steps.foldl requireAction ∅

def normalizeServer (server : String) : String := trimPrefix (trimSpace server) "/"

/-- The capabilities by action type, by server, and by normalized server. -/
structure CapabilityMaps where
  capMap : String → Option AgentCapability := fun _ ↦ none
  serverMap : String → Option AgentCapability := fun _ ↦ none
  serverNormMap : String → Option AgentCapability := fun _ ↦ none

/-- The loop body over the capabilities. -/
def CapabilityMaps.add (maps : CapabilityMaps) (cap : AgentCapability) : CapabilityMaps :=
  let norm := normalizeServer cap.actionServer
  { capMap := Function.update maps.capMap cap.actionType (some cap)
    serverMap := Function.update maps.serverMap cap.actionServer (some cap)
    serverNormMap :=
      if norm ≠ "" then Function.update maps.serverNormMap norm (some cap)
      else maps.serverNormMap }

def buildCapabilityMaps (agentCaps : List AgentCapability) : CapabilityMaps :=
  agentCaps.foldl CapabilityMaps.add {}

/-! ## The check -/

/-- What is wrong with a required capability, and the text it is reported with. -/
inductive CapabilityFault
  | missing (text : String)
  | unavailable (text : String)
  deriving DecidableEq, Repr

def CapabilityMaps.findServer (maps : CapabilityMaps) (actionServer : String) :
    Option AgentCapability :=
  match maps.serverMap actionServer with
  | some cap => some cap
  | none =>
    let normalized := normalizeServer actionServer
    if normalized ≠ "" then maps.serverNormMap normalized else none

/-- The loop body over the required capabilities. -/
def CapabilityMaps.fault (maps : CapabilityMaps) (actionType actionServer : String) :
    Option CapabilityFault :=
  if actionServer ≠ "" then
    match maps.findServer actionServer with
    | some cap => if cap.isAvailable then none else some (.unavailable actionServer)
    -- a server that is named is not replaced by another one of the action type
    | none => some (.missing (actionType ++ " (" ++ actionServer ++ ")"))
  else
    match maps.capMap actionType with
    | some cap => if cap.isAvailable then none else some (.unavailable actionType)
    | none => some (.missing actionType)

/-- The text of a list of texts. -/
def listText (texts : List String) : String := "[" ++ " ".intercalate texts ++ "]"

def capabilityResult (faults : List CapabilityFault) : CapabilityValidationResult :=
  let missingCaps := faults.filterMap fun
    | .missing text => some text
    | .unavailable _ => none
  let unavailableServers := faults.filterMap fun
    | .missing _ => none
    | .unavailable text => some text
  let valid : Bool := missingCaps = [] && unavailableServers = []
  let messages :=
    (if missingCaps ≠ [] then ["missing capabilities: " ++ listText missingCaps] else []) ++
    (if unavailableServers ≠ [] then ["unavailable servers: " ++ listText unavailableServers]
      else [])
  { valid, missingCapabilities := missingCaps, unavailableServers
    message := if valid then "All required capabilities are available"
      else "; ".intercalate messages }

/-- `ValidateCapabilities`.  The loop over the required capabilities is one over a map. -/
def validateCapabilities (codec : Codec) (sources : CapabilitySources)
    (order : RangeOrder (Σ _ : String, String)) (behaviorTreeID agentID : String) :
    Except String CapabilityValidationResult :=
  match sources.getBehaviorTree behaviorTreeID with
  | .error err => .error ("failed to get behavior tree: " ++ err)
  | .ok none => .error ("behavior tree " ++ behaviorTreeID ++ " not found")
  | .ok (some dbGraph) =>
    match parseSteps codec dbGraph with
    | .error err => .error err
    | .ok steps =>
      let required := requiredCapabilities steps
      if required.entries = [] then
        .ok { valid := true, message := "No action capabilities required" }
      else
        match sources.getAgentCapabilities agentID with
        | .error err => .error ("failed to get agent capabilities: " ++ err)
        | .ok agentCaps =>
          let maps := buildCapabilityMaps agentCaps
          .ok (capabilityResult ((order.range required.entries).filterMap fun entry ↦
            maps.fault entry.1 entry.2))

/-! ## What the maps hold -/

section Maps

variable {steps : List BehaviorTreeStep} {agentCaps : List AgentCapability} {action : StepAction}

/-- The actions of the steps, as far as they have a type. -/
def requiredActions (steps : List BehaviorTreeStep) : List StepAction :=
  steps.filterMap fun step ↦ step.action.filter (·.type ≠ "")

/-- The action that is looked up for an action type: the last of that type. -/
def decidingAction (steps : List BehaviorTreeStep) (actionType : String) : Option StepAction :=
  lastWith (fun action ↦ some action.type) (requiredActions steps) actionType

/-- The server of a capability as the third map files it. -/
def normalizedServer (cap : AgentCapability) : Option String :=
  if normalizeServer cap.actionServer ≠ "" then some (normalizeServer cap.actionServer) else none

/-- The capability an action is compared with: the last that has the very server the action names,
or else the last that has it up to white space and a slash; the last of the action type, if the
action names no server. -/
def servingCapability (agentCaps : List AgentCapability) (action : StepAction) :
    Option AgentCapability :=
  if action.server ≠ "" then
    (lastWith (fun cap ↦ some cap.actionServer) agentCaps action.server).or
      (lastWith normalizedServer agentCaps (normalizeServer action.server))
  else lastWith (fun cap ↦ some cap.actionType) agentCaps action.type

def Served (agentCaps : List AgentCapability) (action : StepAction) : Prop :=
  ∃ cap, servingCapability agentCaps action = some cap ∧ cap.isAvailable = true

theorem requiredCapabilities_eq :
    requiredCapabilities steps =
      (requiredActions steps).foldl (fun required action ↦
        required.insert action.type action.server) ∅ := by
  rw [requiredCapabilities, requiredActions, List.foldl_filterMap]
  refine List.foldl_ext _ _ _ fun required step _ ↦ ?_
  rw [requireAction]
  cases step.action with
  | none => rfl
  | some action => by_cases htype : action.type = "" <;> simp [Option.filter, htype]

theorem lookup_requiredCapabilities (actionType : String) :
    (requiredCapabilities steps).lookup actionType =
      (decidingAction steps actionType).map (·.server) := by
  have hfill := look_foldl
    (fun (required : StringMap) (action : StepAction) ↦ required.insert action.type action.server)
    (fun action ↦ some action.type) (fun required k ↦ required.lookup k)
    (fun action ↦ action.server)
    (fun required action k ↦ by
      by_cases hk : k = action.type
      · rw [hk, AList.lookup_insert, if_pos rfl]
      · rw [AList.lookup_insert_ne hk, if_neg fun h ↦ hk (Option.some.inj h).symm])
    (requiredActions steps) ∅ actionType
  rw [requiredCapabilities_eq, hfill, AList.lookup_empty, Option.or_none, decidingAction]

theorem update_apply_key {m : String → Option AgentCapability} {cap : AgentCapability}
    (key k : String) :
    Function.update m key (some cap) k = if some key = some k then some cap else m k := by
  rw [Function.update_apply]
  exact if_congr ⟨fun h ↦ congrArg some h.symm, fun h ↦ (Option.some.inj h).symm⟩ rfl rfl

theorem maps_buildCapabilityMaps (k : String) :
    (buildCapabilityMaps agentCaps).capMap k =
        lastWith (fun cap ↦ some cap.actionType) agentCaps k ∧
      (buildCapabilityMaps agentCaps).serverMap k =
        lastWith (fun cap ↦ some cap.actionServer) agentCaps k ∧
      (buildCapabilityMaps agentCaps).serverNormMap k = lastWith normalizedServer agentCaps k := by
  have hcap := look_foldl CapabilityMaps.add (fun cap ↦ some cap.actionType) CapabilityMaps.capMap
    id (fun _ cap k ↦ update_apply_key cap.actionType k) agentCaps {} k
  have hserver := look_foldl CapabilityMaps.add (fun cap ↦ some cap.actionServer)
    CapabilityMaps.serverMap id (fun _ cap k ↦ update_apply_key cap.actionServer k) agentCaps {} k
  have hnorm := look_foldl CapabilityMaps.add normalizedServer CapabilityMaps.serverNormMap id
    (fun maps cap k ↦ by
      by_cases hblank : normalizeServer cap.actionServer = ""
      · simp [CapabilityMaps.add, normalizedServer, hblank]
      · simp only [CapabilityMaps.add, normalizedServer, ne_eq, hblank, not_false_eq_true, if_true]
        exact update_apply_key _ k)
    agentCaps {} k
  simp only [Option.map_id_fun, id_eq, Option.or_none] at hcap hserver hnorm
  exact ⟨hcap, hserver, hnorm⟩

theorem findServer_buildCapabilityMaps (actionServer : String) :
    (buildCapabilityMaps agentCaps).findServer actionServer =
      (lastWith (fun cap ↦ some cap.actionServer) agentCaps actionServer).or
        (lastWith normalizedServer agentCaps (normalizeServer actionServer)) := by
  rw [CapabilityMaps.findServer, (maps_buildCapabilityMaps actionServer).2.1]
  cases lastWith (fun cap : AgentCapability ↦ some cap.actionServer) agentCaps actionServer with
  | some cap => rfl
  | none =>
    dsimp only
    rw [(maps_buildCapabilityMaps (normalizeServer actionServer)).2.2, Option.none_or]
    split
    · rfl
    · rename_i hblank
      cases hlast : lastWith normalizedServer agentCaps (normalizeServer actionServer) with
      | none => rfl
      | some cap =>
        -- nothing is filed under the empty server
        have hkey := (mem_of_lastWith hlast).2
        rw [normalizedServer, Option.ite_none_right_eq_some] at hkey
        exact absurd (Option.some.inj hkey.2 ▸ hkey.1) hblank

/-- **No fault is found in an action exactly when the capability it is compared with is there and
available.** -/
theorem fault_eq_none_iff :
    (buildCapabilityMaps agentCaps).fault action.type action.server = none ↔
      Served agentCaps action := by
  rw [Served, servingCapability, CapabilityMaps.fault, ← findServer_buildCapabilityMaps,
    ← (maps_buildCapabilityMaps action.type).1]
  split
  · cases (buildCapabilityMaps agentCaps).findServer action.server with
    | none => simp
    | some cap => simp
  · cases (buildCapabilityMaps agentCaps).capMap action.type with
    | none => simp
    | some cap => simp

end Maps

/-! ## When a result that is valid can be relied on -/

section Sound

variable {codec : Codec} {sources : CapabilitySources} {order : RangeOrder (Σ _ : String, String)}
  {behaviorTreeID agentID : String} {steps : List BehaviorTreeStep}
  {agentCaps : List AgentCapability} {action : StepAction}

/-- The agent can run the action: it has the server the action names, up to white space and a
leading slash, or the action type if no server is named, and what it has is available. -/
def Runnable (agentCaps : List AgentCapability) (action : StepAction) : Prop :=
  if action.server ≠ "" then
    ∃ cap ∈ agentCaps, cap.isAvailable = true ∧
      normalizeServer cap.actionServer = normalizeServer action.server
  else ∃ cap ∈ agentCaps, cap.isAvailable = true ∧ cap.actionType = action.type

theorem Served.runnable (h : Served agentCaps action) : Runnable agentCaps action := by
  obtain ⟨cap, hserving, havailable⟩ := h
  rw [servingCapability] at hserving
  rw [Runnable]
  split
  · rename_i hserver
    rw [if_pos hserver, Option.or_eq_some_iff] at hserving
    rcases hserving with hraw | ⟨-, hnorm⟩
    · obtain ⟨hmem, hkey⟩ := mem_of_lastWith hraw
      exact ⟨cap, hmem, havailable, congrArg normalizeServer (Option.some.inj hkey)⟩
    · obtain ⟨hmem, hkey⟩ := mem_of_lastWith hnorm
      rw [normalizedServer, Option.ite_none_right_eq_some] at hkey
      exact ⟨cap, hmem, havailable, Option.some.inj hkey.2⟩
  · rename_i hserver
    rw [if_neg hserver] at hserving
    obtain ⟨hmem, hkey⟩ := mem_of_lastWith hserving
    exact ⟨cap, hmem, havailable, Option.some.inj hkey⟩

/-- The capabilities the database has for the agent. -/
def CapabilitySources.capabilities (sources : CapabilitySources) (agentID : String) :
    List AgentCapability :=
  (sources.getAgentCapabilities agentID).toOption.getD []

theorem valid_capabilityResult {faults : List CapabilityFault} :
    (capabilityResult faults).valid = true ↔ faults = [] := by
  constructor
  · intro h
    cases faults with
    | nil => rfl
    | cons fault rest => cases fault <;> simp [capabilityResult] at h
  · rintro rfl
    rfl

/-- What holds of every required capability holds of the last action of every type. -/
theorem forall_entries_iff {P : String → String → Prop} :
    (∀ entry ∈ (requiredCapabilities steps).entries, P entry.1 entry.2) ↔
      ∀ actionType action, decidingAction steps actionType = some action →
        P actionType action.server := by
  constructor
  · intro h actionType action hdeciding
    refine h ⟨actionType, action.server⟩ (AList.mem_lookup_iff.mp ?_)
    rw [lookup_requiredCapabilities, hdeciding]
    rfl
  · rintro h ⟨actionType, server⟩ hentry
    have hlookup := AList.mem_lookup_iff.mpr hentry
    rw [lookup_requiredCapabilities] at hlookup
    obtain ⟨action, hdeciding, rfl⟩ := Option.map_eq_some_iff.mp hlookup
    exact h actionType action hdeciding

/-- **The result is valid exactly when the last action of every type is served.** -/
theorem valid_iff {dbGraph : BehaviorTree} {result : CapabilityValidationResult}
    (htree : sources.getBehaviorTree behaviorTreeID = .ok (some dbGraph))
    (hsteps : parseSteps codec dbGraph = .ok steps)
    (hresult : validateCapabilities codec sources order behaviorTreeID agentID = .ok result) :
    result.valid = true ↔ ∀ actionType action, decidingAction steps actionType = some action →
      Served (sources.capabilities agentID) action := by
  have hfault : (∀ entry ∈ (requiredCapabilities steps).entries,
      (buildCapabilityMaps (sources.capabilities agentID)).fault entry.1 entry.2 = none) ↔
        ∀ actionType action, decidingAction steps actionType = some action →
          Served (sources.capabilities agentID) action := by
    rw [forall_entries_iff (P := fun actionType server ↦
      (buildCapabilityMaps (sources.capabilities agentID)).fault actionType server = none)]
    refine forall_congr' fun actionType ↦ forall_congr' fun action ↦ imp_congr_right fun h ↦ ?_
    obtain rfl := Option.some.inj (mem_of_lastWith h).2
    exact fault_eq_none_iff
  rw [← hfault]
  simp only [validateCapabilities, htree, hsteps] at hresult
  split at hresult
  · rename_i hnone
    rw [← Except.ok.inj hresult, hnone]
    simp
  · cases hcaps : sources.getAgentCapabilities agentID with
    | error err => simp [hcaps] at hresult
    | ok agentCaps =>
      have hagent : sources.capabilities agentID = agentCaps := by
        rw [CapabilitySources.capabilities, hcaps]
        rfl
      rw [hcaps] at hresult
      rw [← Except.ok.inj hresult, valid_capabilityResult, List.filterMap_eq_nil_iff, hagent]
      simp only [RangeOrder.mem_range]

/-- Every action that a later one of its type with another server or parameters takes the place of
can be run all the same, unless a last action of some type is not served and the result is not valid
for it. -/
def ReplacedRunnable (agentCaps : List AgentCapability) (steps : List BehaviorTreeStep) : Prop :=
  ∀ action ∈ requiredActions steps, decidingAction steps action.type ≠ some action →
    Runnable agentCaps action ∨
      ∃ last ∈ requiredActions steps, decidingAction steps last.type = some last ∧
        ¬Served agentCaps last

end Sound

/-! ## Two arms -/

def liftStep (id server : String) : BehaviorTreeStep :=
  { id, action := some { type := "lift", server } }

/-- Both trees lift something with an arm, the second one first with the left arm. -/
def armSteps : List BehaviorTreeStep := [liftStep "right" "/right_arm"]

def twoArmSteps : List BehaviorTreeStep := liftStep "left" "/left_arm" :: armSteps

def armTree (steps : String) : BehaviorTree := { id := "arms", name := "Arms", steps }

def armCodec : Codec where
  unmarshalSteps text := .ok (if text = "one" then armSteps else twoArmSteps)
  unmarshalPreconditions _ := .ok []
  marshalAction _ := ""
  marshalWait _ := ""
  sha256 := id

/-- The agent has a right arm. -/
def armSources (steps : String) : CapabilitySources where
  getBehaviorTree _ := .ok (some (armTree steps))
  getAgentCapabilities _ := .ok [⟨"lift", "/right_arm", true⟩]

theorem rightArm_valid :
    validateCapabilities armCodec (armSources "one") (.asListed _) "arms" "r1" =
      .ok (capabilityResult []) := by
  decide

end Executor
end FleetServer
