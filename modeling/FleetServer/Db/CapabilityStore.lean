import FleetServer.Db.Models
import Mathlib.Algebra.Ring.Rat
import Mathlib.Logic.Function.Basic
import Mathlib.Order.Basic

/-!
# The capabilities of the agents

`SyncAgentCapabilities` of `internal/db/repository.go` and what else writes the `AgentCapability`
nodes.  A registration replaces the capabilities of an agent.  Those it does not name are not
removed but marked as deleted, and what a user has set of those it does name is read first, in a
transaction of its own, and written again.

So there are two ways for the store to be wrong: the deleted nodes can show up again, with what they
held, and what is set between the two transactions can be undone.  `live_run` is that the first
never happens, and that where nothing comes between the two transactions the store does what a map
of the live capabilities would do that each registration replaces at once.  `metadata_as_read` is
what happens in any case: a registration writes what it has read.
-/

set_option autoImplicit false

namespace FleetServer
namespace Db

open GoString

/-! ## The nodes -/

/-- What an agent says of a capability. -/
structure CapabilityReport where
  capabilityKind : String := ""
  actionType : String
  actionServer : String
  nodeName : String := ""
  isLifecycleNode : Bool := false
  lifecycleState : String := ""
  goalSchema : String := ""
  resultSchema : String := ""
  feedbackSchema : String := ""
  successCriteria : String := ""
  status : String := "idle"
  isAvailable : Bool := true
  lastUsedAtMs : ℤ := 0
  discoveredAtMs : ℤ := 0
  updatedAtMs : ℤ := 0
  deriving DecidableEq, Repr

/-- What a user can set of a capability, and the defaults of it. -/
structure CapabilityMetadata where
  description : String := ""
  category : String := ""
  defaultTimeout : ℚ := 30
  schemaVersion : ℤ := 1
  deriving DecidableEq, Repr

/-- An `AgentCapability` node, or what is read of it. -/
structure CapabilityNode where
  agentID : String
  report : CapabilityReport
  metadata : CapabilityMetadata := {}
  deletedAtMs : Option ℤ := some 0
  deriving DecidableEq, Repr

/-- The nodes, by their ids: a node is only made by a `MERGE` on its id. -/
abbrev CapabilityNodes := String → Option CapabilityNode

/-- `c.deleted_at_ms IS NULL OR c.deleted_at_ms = 0` -/
def CapabilityNode.isLive (node : CapabilityNode) : Bool :=
  node.deletedAtMs = none ∨ node.deletedAtMs = some 0

def normalizeCapabilityKind (kind actionType : String) : String :=
  if toLower (trimSpace kind) = "service" then "service"
  else if toLower (trimSpace kind) = "action" then "action"
  else if contains (toLower actionType) "/srv/" then "service"
  else "action"

/-- A number that is not set is read as its default. -/
def orDefault {α : Type} [Zero α] [DecidableEq α] (value default : α) : α :=
  if value = 0 then default else value

def orUnknown (lifecycleState : String) : String :=
  if trimSpace lifecycleState = "" then "unknown" else lifecycleState

/-- What an agent has said, as it is read. -/
def CapabilityReport.read (report : CapabilityReport) : CapabilityReport :=
  { report with
    lifecycleState := orUnknown report.lifecycleState
    capabilityKind := normalizeCapabilityKind report.capabilityKind report.actionType }

/-- What a user has set, as it is read. -/
def CapabilityMetadata.read (metadata : CapabilityMetadata) : CapabilityMetadata :=
  { metadata with
    defaultTimeout := orDefault metadata.defaultTimeout 30
    schemaVersion := orDefault metadata.schemaVersion 1 }

def capabilityFromNeo4jNode (node : CapabilityNode) : CapabilityNode :=
  { node with report := node.report.read, metadata := node.metadata.read }

/-- `GetAllAgentCapabilities`: the live nodes, as they are read. -/
def liveCapabilities (nodes : CapabilityNodes) : CapabilityNodes := fun id ↦
  ((nodes id).filter (·.isLive)).map capabilityFromNeo4jNode

/-- `GetAgentCapabilities`. -/
def getAgentCapabilities (nodes : CapabilityNodes) (agentID : String) : CapabilityNodes := fun id ↦
  (liveCapabilities nodes id).filter (·.agentID = agentID)

/-! ## What is written -/

/-- The time of a write, on a clock that has been set. -/
abbrev Instant := { ms : ℤ // 0 < ms }

/-- What a registration keeps of what a user has set. -/
def carriedOver : Option CapabilityMetadata → CapabilityMetadata
  | none => {}
  | some existing =>
    { existing with
      defaultTimeout := if 0 < existing.defaultTimeout then existing.defaultTimeout else 30
      schemaVersion := if 0 < existing.schemaVersion then existing.schemaVersion else 1 }

/-- A registration between its two transactions. -/
structure PendingSync where
  agentID : String
  capabilities : List (String × CapabilityReport)
  /-- `existingMetadata`, empty if the capabilities could not be read. -/
  existingMetadata : String → Option CapabilityMetadata

/-- The first transaction of `SyncAgentCapabilities`. -/
def readExisting (nodes : CapabilityNodes) (agentID : String)
    (capabilities : List (String × CapabilityReport)) (readOK : Bool) : PendingSync where
  agentID := agentID
  capabilities := capabilities
  existingMetadata id :=
    if readOK then (getAgentCapabilities nodes agentID id).map (·.metadata) else none

/-- `MERGE (c:AgentCapability {id: $id}) SET …` for each of the capabilities. -/
def mergeAll (write : String × CapabilityReport → CapabilityNode)
    (capabilities : List (String × CapabilityReport)) (nodes : CapabilityNodes) :
    CapabilityNodes :=
  capabilities.foldl
    (fun nodes capability ↦ Function.update nodes capability.1 (some (write capability))) nodes

/-- The node that is written for a capability. -/
def PendingSync.node (pending : PendingSync) (capability : String × CapabilityReport) :
    CapabilityNode :=
  ⟨pending.agentID, capability.2, carriedOver (pending.existingMetadata capability.1), some 0⟩

/-- The second transaction of `SyncAgentCapabilities`. -/
def writeSync (pending : PendingSync) (now : Instant) (nodes : CapabilityNodes) :
    CapabilityNodes :=
  mergeAll pending.node pending.capabilities fun id ↦ (nodes id).map fun node ↦
    if node.agentID = pending.agentID ∧ node.isLive then { node with deletedAtMs := some now.val }
    else node

/-- `CapabilityMetadataUpdate`. -/
structure CapabilityMetadataUpdate where
  description : Option String := none
  category : Option String := none
  defaultTimeout : Option ℚ := none
  schemaVersion : Option ℤ := none
  deriving DecidableEq, Repr

def CapabilityMetadataUpdate.set (update : CapabilityMetadataUpdate)
    (metadata : CapabilityMetadata) : CapabilityMetadata where
  description := update.description.getD metadata.description
  category := update.category.getD metadata.category
  defaultTimeout := update.defaultTimeout.getD metadata.defaultTimeout
  schemaVersion := update.schemaVersion.getD metadata.schemaVersion

/-- What `UpdateCapabilityMetadata` sets of a node. -/
def setMetadata (update : CapabilityMetadataUpdate) (now : Instant) (node : CapabilityNode) :
    CapabilityNode :=
  { node with
    metadata := update.set node.metadata
    report := { node.report with updatedAtMs := now.val } }

/-- `CapabilityStatus` of a request. -/
structure CapabilityStatus where
  status : String
  available : Bool
  lifecycleState : String := ""
  deriving DecidableEq, Repr

/-- What `UpdateAgentCapabilityStatus` sets of a node. -/
def setStatus (agentID actionType : String) (status : CapabilityStatus) (now : Instant)
    (node : CapabilityNode) : CapabilityNode :=
  if node.agentID = agentID ∧ node.report.actionType = actionType then
    { node with
      report :=
        { node.report with
          status := status.status
          isAvailable := status.available
          updatedAtMs := now.val
          lifecycleState :=
            if status.lifecycleState ≠ "" then status.lifecycleState
            else node.report.lifecycleState } }
  else node

/-- Both writes go to every node with the id or of the agent, deleted or not. -/
def updateCapabilityMetadata (id : String) (update : CapabilityMetadataUpdate) (now : Instant)
    (nodes : CapabilityNodes) : CapabilityNodes :=
  Function.update nodes id ((nodes id).map (setMetadata update now))

def updateAgentCapabilityStatus (agentID actionType : String) (status : CapabilityStatus)
    (now : Instant) (nodes : CapabilityNodes) : CapabilityNodes := fun id ↦
  (nodes id).map (setStatus agentID actionType status now)

/-- `DeleteAgent`, of the capabilities. -/
def deleteAgent (agentID : String) (nodes : CapabilityNodes) : CapabilityNodes := fun id ↦
  (nodes id).filter (·.agentID ≠ agentID)

/-! ## A run -/

/-- What can happen to the store.  Each registration is handled by a routine of its own, and one
that is begun and not finished has failed. -/
inductive CapabilityCall where
  | beginSync (routine : ℕ) (agentID : String) (capabilities : List (String × CapabilityReport))
      (readOK : Bool)
  | finishSync (routine : ℕ) (now : Instant)
  | updateMetadata (id : String) (update : CapabilityMetadataUpdate) (now : Instant)
  | updateStatus (agentID actionType : String) (status : CapabilityStatus) (now : Instant)
  | deleteAgent (agentID : String)

structure CapabilityStore where
  nodes : CapabilityNodes := fun _ ↦ none
  syncs : ℕ → Option PendingSync := fun _ ↦ none

namespace CapabilityStore

def step (s : CapabilityStore) : CapabilityCall → CapabilityStore
  | .beginSync routine agentID capabilities readOK =>
    { s with
      syncs := Function.update s.syncs routine
        (some (readExisting s.nodes agentID capabilities readOK)) }
  | .finishSync routine now =>
    match s.syncs routine with
    | none => s
    | some pending =>
      { nodes := writeSync pending now s.nodes, syncs := Function.update s.syncs routine none }
  | .updateMetadata id update now =>
    { s with nodes := updateCapabilityMetadata id update now s.nodes }
  | .updateStatus agentID actionType status now =>
    { s with nodes := updateAgentCapabilityStatus agentID actionType status now s.nodes }
  | .deleteAgent agentID => { s with nodes := Db.deleteAgent agentID s.nodes }

def run (s : CapabilityStore) (calls : List CapabilityCall) : CapabilityStore :=
  calls.foldl step s

end CapabilityStore

/-! ## The live capabilities alone -/

/-- A registration that has been begun. -/
structure SyncRequest where
  agentID : String
  capabilities : List (String × CapabilityReport)
  readOK : Bool

def SyncRequest.ids (request : SyncRequest) : List String := request.capabilities.map Prod.fst

/-- What the store is for: the live capabilities as they are read, and no others. -/
structure LiveStore where
  live : CapabilityNodes := fun _ ↦ none
  requests : ℕ → Option SyncRequest := fun _ ↦ none

namespace LiveStore

/-- What a user has set of a capability of the agent. -/
def metadataOf (live : CapabilityNodes) (agentID id : String) : Option CapabilityMetadata :=
  ((live id).filter (·.agentID = agentID)).map (·.metadata)

/-- The capability that is live once it has been registered. -/
def node (request : SyncRequest) (live : CapabilityNodes)
    (capability : String × CapabilityReport) : CapabilityNode :=
  capabilityFromNeo4jNode ⟨request.agentID, capability.2,
    carriedOver (if request.readOK then metadataOf live request.agentID capability.1 else none),
    some 0⟩

/-- The capabilities of the agent are replaced at once. -/
def register (request : SyncRequest) (live : CapabilityNodes) : CapabilityNodes :=
  mergeAll (node request live) request.capabilities (Db.deleteAgent request.agentID live)

def step (a : LiveStore) : CapabilityCall → LiveStore
  | .beginSync routine agentID capabilities readOK =>
    { a with
      requests := Function.update a.requests routine (some ⟨agentID, capabilities, readOK⟩) }
  | .finishSync routine _ =>
    match a.requests routine with
    | none => a
    | some request =>
      { live := register request a.live, requests := Function.update a.requests routine none }
  | .updateMetadata id update now =>
    { a with
      live := Function.update a.live id
        ((a.live id).map fun node ↦ capabilityFromNeo4jNode (setMetadata update now node)) }
  | .updateStatus agentID actionType status now =>
    { a with
      live := fun id ↦ (a.live id).map fun node ↦
        capabilityFromNeo4jNode (setStatus agentID actionType status now node) }
  | .deleteAgent agentID => { a with live := Db.deleteAgent agentID a.live }

def run (a : LiveStore) (calls : List CapabilityCall) : LiveStore := calls.foldl step a

/-- The call writes what the registration of the routine has read: another registration of the
agent or of a capability of the same id, a change of the metadata, or the removal of the agent. -/
def Disturbs (a : LiveStore) (routine : ℕ) (request : SyncRequest) : CapabilityCall → Prop
  | .finishSync other _ => other ≠ routine ∧ ∃ request', a.requests other = some request' ∧
      (request'.agentID = request.agentID ∨ ∃ id ∈ request'.ids, id ∈ request.ids)
  | .updateMetadata id _ _ => id ∈ request.ids
  | .deleteAgent agentID => agentID = request.agentID
  | _ => False

/-- Nothing comes between the two transactions of a registration that it has to know of. -/
def Undisturbed : LiveStore → List CapabilityCall → Prop
  | _, [] => True
  | a, call :: calls =>
    (∀ routine request, a.requests routine = some request →
      ¬a.Disturbs routine request call) ∧ Undisturbed (a.step call) calls

end LiveStore

/-! ## Reading -/

theorem normalizeCapabilityKind_again (kind actionType : String) :
    normalizeCapabilityKind (normalizeCapabilityKind kind actionType) actionType =
      normalizeCapabilityKind kind actionType := by
  have haction : toLower (trimSpace "action") = "action" := by decide
  have hservice : toLower (trimSpace "service") = "service" := by decide
  have hcases : normalizeCapabilityKind kind actionType = "service" ∨
      normalizeCapabilityKind kind actionType = "action" := by
    rw [normalizeCapabilityKind]
    split_ifs
    · exact .inl rfl
    · exact .inr rfl
    · exact .inl rfl
    · exact .inr rfl
  rcases hcases with h | h
  · rw [h, normalizeCapabilityKind, if_pos hservice]
  · rw [h, normalizeCapabilityKind, if_neg (by rw [haction]; decide), if_pos haction]

theorem orUnknown_orUnknown (lifecycleState : String) :
    orUnknown (orUnknown lifecycleState) = orUnknown lifecycleState := by
  have hunknown : orUnknown "unknown" = "unknown" := by decide
  by_cases hblank : trimSpace lifecycleState = ""
  · rw [show orUnknown lifecycleState = "unknown" from if_pos hblank, hunknown]
  · rw [show orUnknown lifecycleState = lifecycleState from if_neg hblank,
      show orUnknown lifecycleState = lifecycleState from if_neg hblank]

theorem orDefault_orDefault {α : Type} [Zero α] [DecidableEq α] (value : α) {default : α}
    (hdefault : default ≠ 0) : orDefault (orDefault value default) default =
      orDefault value default := by
  by_cases hzero : value = 0
  · rw [show orDefault value default = default from if_pos hzero, orDefault, if_neg hdefault]
  · rw [show orDefault value default = value from if_neg hzero, orDefault, if_neg hzero]

theorem read_set (update : CapabilityMetadataUpdate) (metadata : CapabilityMetadata) :
    (update.set metadata.read).read = (update.set metadata).read := by
  have htimeout := orDefault_orDefault metadata.defaultTimeout (show (30 : ℚ) ≠ 0 by decide)
  have hversion := orDefault_orDefault metadata.schemaVersion (show (1 : ℤ) ≠ 0 by decide)
  obtain ⟨description, category, timeout, version⟩ := update
  simp only [CapabilityMetadata.read, CapabilityMetadataUpdate.set]
  cases timeout with
  | none =>
    cases version with
    | none => simp only [Option.getD_none, htimeout, hversion]
    | some version => simp only [Option.getD_none, Option.getD_some, htimeout]
  | some timeout =>
    cases version with
    | none => simp only [Option.getD_none, Option.getD_some, hversion]
    | some version => rfl

@[simp] theorem agentID_read (node : CapabilityNode) :
    (capabilityFromNeo4jNode node).agentID = node.agentID := by
  rw [capabilityFromNeo4jNode]

@[simp] theorem actionType_read (node : CapabilityNode) :
    (capabilityFromNeo4jNode node).report.actionType = node.report.actionType := by
  rw [capabilityFromNeo4jNode, CapabilityReport.read]

/-- What is set of a node as it is read is what is set of the node. -/
theorem read_setMetadata (update : CapabilityMetadataUpdate) (now : Instant)
    (node : CapabilityNode) :
    capabilityFromNeo4jNode (setMetadata update now (capabilityFromNeo4jNode node)) =
      capabilityFromNeo4jNode (setMetadata update now node) := by
  simp only [capabilityFromNeo4jNode, setMetadata, read_set, CapabilityReport.read,
    normalizeCapabilityKind_again, orUnknown_orUnknown]

theorem read_setStatus (agentID actionType : String) (status : CapabilityStatus) (now : Instant)
    (node : CapabilityNode) :
    capabilityFromNeo4jNode
        (setStatus agentID actionType status now (capabilityFromNeo4jNode node)) =
      capabilityFromNeo4jNode (setStatus agentID actionType status now node) := by
  have hmetadata : node.metadata.read.read = node.metadata.read := read_set {} node.metadata
  rw [setStatus, setStatus, agentID_read, actionType_read]
  by_cases hnode : node.agentID = agentID ∧ node.report.actionType = actionType
  · rw [if_pos hnode, if_pos hnode]
    by_cases hlifecycle : status.lifecycleState = ""
    · simp only [capabilityFromNeo4jNode, hmetadata, CapabilityReport.read,
        normalizeCapabilityKind_again, hlifecycle, ne_eq, not_true_eq_false, if_false,
        orUnknown_orUnknown]
    · simp only [capabilityFromNeo4jNode, hmetadata, CapabilityReport.read,
        normalizeCapabilityKind_again, hlifecycle, ne_eq, not_false_eq_true, if_true]
  · rw [if_neg hnode, if_neg hnode]
    simp only [capabilityFromNeo4jNode, hmetadata, CapabilityReport.read,
      normalizeCapabilityKind_again, orUnknown_orUnknown]

/-! ## What a write does to the live capabilities -/

section Writes

variable {nodes : CapabilityNodes}

theorem isLive_setStatus (agentID actionType : String) (status : CapabilityStatus)
    (now : Instant) (node : CapabilityNode) :
    (setStatus agentID actionType status now node).isLive = node.isLive := by
  by_cases hnode : node.agentID = agentID ∧ node.report.actionType = actionType
  · rw [setStatus, if_pos hnode]
    rfl
  · rw [setStatus, if_neg hnode]

theorem live_updateCapabilityMetadata (id : String) (update : CapabilityMetadataUpdate)
    (now : Instant) :
    liveCapabilities (updateCapabilityMetadata id update now nodes) =
      Function.update (liveCapabilities nodes) id ((liveCapabilities nodes id).map fun node ↦
        capabilityFromNeo4jNode (setMetadata update now node)) := by
  funext other
  by_cases hid : other = id
  · subst hid
    rw [Function.update_self, liveCapabilities, liveCapabilities, updateCapabilityMetadata,
      Function.update_self]
    cases hnode : nodes other with
    | none => rfl
    | some node =>
      have hlive : (setMetadata update now node).isLive = node.isLive := rfl
      rw [Option.map_some, Option.filter_some, Option.filter_some, hlive]
      cases node.isLive
      · rfl
      · exact congrArg some (read_setMetadata update now node).symm
  · rw [Function.update_of_ne hid, liveCapabilities, liveCapabilities, updateCapabilityMetadata,
      Function.update_of_ne hid]

theorem live_updateAgentCapabilityStatus (agentID actionType : String)
    (status : CapabilityStatus) (now : Instant) (id : String) :
    liveCapabilities (updateAgentCapabilityStatus agentID actionType status now nodes) id =
      (liveCapabilities nodes id).map fun node ↦
        capabilityFromNeo4jNode (setStatus agentID actionType status now node) := by
  rw [liveCapabilities, liveCapabilities, updateAgentCapabilityStatus]
  cases hnode : nodes id with
  | none => rfl
  | some node =>
    rw [Option.map_some, Option.filter_some, Option.filter_some, isLive_setStatus]
    cases node.isLive
    · rfl
    · exact congrArg some (read_setStatus agentID actionType status now node).symm

theorem live_deleteAgent (agentID : String) :
    liveCapabilities (deleteAgent agentID nodes) =
      deleteAgent agentID (liveCapabilities nodes) := by
  funext id
  rw [liveCapabilities, deleteAgent, deleteAgent, liveCapabilities]
  cases hnode : nodes id with
  | none => rfl
  | some node =>
    by_cases hagent : node.agentID = agentID <;> cases hlive : node.isLive <;>
      simp [Option.filter_some, hagent, hlive, capabilityFromNeo4jNode]

/-- The nodes that are marked are those of the agent that were live. -/
theorem live_mark (pending : PendingSync) (now : Instant) :
    (liveCapabilities fun id ↦ (nodes id).map fun node ↦
      if node.agentID = pending.agentID ∧ node.isLive then
        { node with deletedAtMs := some now.val }
      else node) =
      deleteAgent pending.agentID (liveCapabilities nodes) := by
  funext id
  rw [liveCapabilities, deleteAgent, liveCapabilities]
  cases hnode : nodes id with
  | none => rfl
  | some node =>
    have hdeleted :
        ({ node with deletedAtMs := some now.val } : CapabilityNode).isLive = false := by
      have hnow := now.property
      simp only [CapabilityNode.isLive, reduceCtorEq, Option.some.injEq, false_or,
        decide_eq_false_iff_not]
      omega
    rw [Option.map_some, Option.filter_some, Option.filter_some]
    by_cases hmarked : node.agentID = pending.agentID ∧ node.isLive = true
    · rw [if_pos hmarked, hdeleted, hmarked.2]
      simp [Option.filter_some, hmarked.1]
    · rw [if_neg hmarked]
      cases hlive : node.isLive with
      | false => rfl
      | true =>
        have hother : node.agentID ≠ pending.agentID := fun hagent ↦ hmarked ⟨hagent, hlive⟩
        simp [Option.filter_some, hother]

theorem live_update (id : String) {node : CapabilityNode} (hlive : node.isLive = true) :
    liveCapabilities (Function.update nodes id (some node)) =
      Function.update (liveCapabilities nodes) id (some (capabilityFromNeo4jNode node)) := by
  funext other
  by_cases hid : other = id
  · subst hid
    rw [Function.update_self, liveCapabilities, Function.update_self, Option.filter_some, hlive]
    rfl
  · rw [Function.update_of_ne hid, liveCapabilities, liveCapabilities, Function.update_of_ne hid]

theorem mergeAll_of_notMem {write : String × CapabilityReport → CapabilityNode} {id : String}
    {capabilities : List (String × CapabilityReport)} (hid : id ∉ capabilities.map Prod.fst) :
    mergeAll write capabilities nodes id = nodes id := by
  induction capabilities generalizing nodes with
  | nil => rfl
  | cons capability capabilities ih =>
    rw [List.map_cons, List.mem_cons, not_or] at hid
    rw [mergeAll, List.foldl_cons, ← mergeAll, ih hid.2, Function.update_of_ne hid.1]

/-- Of the capabilities with one id the last is written. -/
theorem exists_mergeAll {write : String × CapabilityReport → CapabilityNode} {id : String}
    {capabilities : List (String × CapabilityReport)} (hid : id ∈ capabilities.map Prod.fst) :
    ∃ report, (id, report) ∈ capabilities ∧
      mergeAll write capabilities nodes id = some (write (id, report)) := by
  induction capabilities generalizing nodes with
  | nil => cases hid
  | cons capability capabilities ih =>
    rw [mergeAll, List.foldl_cons, ← mergeAll]
    by_cases hlater : id ∈ capabilities.map Prod.fst
    · obtain ⟨report, hmem, heq⟩ := ih hlater
      exact ⟨report, List.mem_cons_of_mem _ hmem, heq⟩
    · rw [List.map_cons, List.mem_cons] at hid
      obtain rfl := hid.resolve_right hlater
      refine ⟨capability.2, List.mem_cons_self, ?_⟩
      rw [mergeAll_of_notMem hlater, Function.update_self]

theorem live_mergeAll {write : String × CapabilityReport → CapabilityNode}
    (hwrite : ∀ capability, (write capability).isLive = true)
    (capabilities : List (String × CapabilityReport)) :
    liveCapabilities (mergeAll write capabilities nodes) =
      mergeAll (fun capability ↦ capabilityFromNeo4jNode (write capability)) capabilities
        (liveCapabilities nodes) := by
  induction capabilities generalizing nodes with
  | nil => rfl
  | cons capability capabilities ih =>
    rw [mergeAll, List.foldl_cons, ← mergeAll, ih, live_update _ (hwrite capability)]
    rfl

theorem mergeAll_congr {write write' : String × CapabilityReport → CapabilityNode}
    {capabilities : List (String × CapabilityReport)}
    (hwrite : ∀ capability ∈ capabilities, write capability = write' capability) :
    mergeAll write capabilities nodes = mergeAll write' capabilities nodes := by
  rw [mergeAll, mergeAll]
  exact List.foldl_ext _ _ _ fun nodes capability hmem ↦ by rw [hwrite capability hmem]

theorem live_writeSync (pending : PendingSync) (now : Instant) :
    liveCapabilities (writeSync pending now nodes) =
      mergeAll (fun capability ↦ capabilityFromNeo4jNode (pending.node capability))
        pending.capabilities (deleteAgent pending.agentID (liveCapabilities nodes)) := by
  rw [writeSync, live_mergeAll fun _ ↦ rfl, live_mark]

end Writes

/-! ## Registrations that nothing comes between -/

namespace LiveStore

variable {s : CapabilityStore} {a : LiveStore} {call : CapabilityCall}

/-- What the registration has read is what is there now. -/
structure UpToDate (live : CapabilityNodes) (request : SyncRequest) (pending : PendingSync) :
    Prop where
  agentID_eq : pending.agentID = request.agentID
  capabilities_eq : pending.capabilities = request.capabilities
  metadata_eq : ∀ id ∈ request.ids, pending.existingMetadata id =
    if request.readOK then metadataOf live request.agentID id else none

/-- The store and the live capabilities after the same calls. -/
structure Follows (s : CapabilityStore) (a : LiveStore) : Prop where
  live_eq : a.live = liveCapabilities s.nodes
  syncs : ∀ routine, (a.requests routine = none ∧ s.syncs routine = none) ∨
    ∃ request pending, a.requests routine = some request ∧ s.syncs routine = some pending ∧
      UpToDate a.live request pending

theorem UpToDate.live_writeSync {nodes : CapabilityNodes} {request : SyncRequest}
    {pending : PendingSync} (h : UpToDate (liveCapabilities nodes) request pending)
    (now : Instant) :
    liveCapabilities (writeSync pending now nodes) =
      register request (liveCapabilities nodes) := by
  rw [Db.live_writeSync, register, h.capabilities_eq, h.agentID_eq]
  refine mergeAll_congr fun capability hmem ↦ ?_
  rw [node, PendingSync.node, h.agentID_eq, h.metadata_eq _ (List.mem_map_of_mem hmem)]

theorem metadataOf_deleteAgent (live : CapabilityNodes) {agentID other id : String}
    (hagent : other ≠ agentID) :
    metadataOf (Db.deleteAgent other live) agentID id = metadataOf live agentID id := by
  rw [metadataOf, metadataOf, Db.deleteAgent]
  cases live id with
  | none => rfl
  | some node =>
    by_cases hnode : node.agentID = agentID
    · have hkept : node.agentID ≠ other := fun heq ↦ hagent (heq.symm.trans hnode)
      simp [Option.filter_some, hkept]
    · by_cases hdeleted : node.agentID = other <;>
        simp [Option.filter_some, hnode, hdeleted, hagent]

/-- A call that does not disturb a registration leaves what a user has set of its capabilities. -/
theorem metadataOf_step (hread : ∀ id node, a.live id = some node →
      node.metadata.read = node.metadata)
    {routine : ℕ} {request : SyncRequest} (hcall : ¬a.Disturbs routine request call)
    (hother : ∀ now, call ≠ .finishSync routine now) {id : String} (hid : id ∈ request.ids) :
    metadataOf (a.step call).live request.agentID id =
      metadataOf a.live request.agentID id := by
  cases call with
  | beginSync => rfl
  | finishSync other now =>
    have hne : other ≠ routine := fun heq ↦ hother now (by rw [heq])
    rw [step]
    cases hrequest : a.requests other with
    | none => rfl
    | some request' =>
      have hagent : request'.agentID ≠ request.agentID := fun heq ↦
        hcall ⟨hne, request', hrequest, .inl heq⟩
      have hnotMem : id ∉ request'.ids := fun hmem ↦
        hcall ⟨hne, request', hrequest, .inr ⟨id, hmem, hid⟩⟩
      rw [← metadataOf_deleteAgent a.live hagent, metadataOf, metadataOf]
      dsimp only
      rw [register, mergeAll_of_notMem hnotMem]
  | updateMetadata other update now =>
    have hne : id ≠ other := fun heq ↦ hcall (heq ▸ hid)
    rw [step, metadataOf, metadataOf]
    dsimp only
    rw [Function.update_of_ne hne]
  | updateStatus agentID actionType status now =>
    rw [step, metadataOf, metadataOf]
    dsimp only
    cases hnode : a.live id with
    | none => rfl
    | some node =>
      have hkeeps : (setStatus agentID actionType status now node).agentID = node.agentID ∧
          (setStatus agentID actionType status now node).metadata = node.metadata := by
        by_cases hset : node.agentID = agentID ∧ node.report.actionType = actionType
        · rw [setStatus, if_pos hset]
          exact ⟨rfl, rfl⟩
        · rw [setStatus, if_neg hset]
          exact ⟨rfl, rfl⟩
      have hmetadata : (capabilityFromNeo4jNode
          (setStatus agentID actionType status now node)).metadata = node.metadata := by
        rw [capabilityFromNeo4jNode, hkeeps.2, hread id node hnode]
      rw [Option.map_some, Option.filter_some, Option.filter_some, agentID_read, hkeeps.1]
      by_cases hagent : node.agentID = request.agentID
      · simp [hagent, hmetadata]
      · simp [hagent]
  | deleteAgent agentID => exact metadataOf_deleteAgent a.live hcall

theorem read_of_live {nodes : CapabilityNodes} {id : String} {node : CapabilityNode}
    (hnode : liveCapabilities nodes id = some node) : node.metadata.read = node.metadata := by
  rw [liveCapabilities] at hnode
  obtain ⟨stored, -, rfl⟩ := Option.map_eq_some_iff.mp hnode
  rw [capabilityFromNeo4jNode]
  exact read_set {} stored.metadata

theorem live_step (h : Follows s a) (call : CapabilityCall) :
    (a.step call).live = liveCapabilities (s.step call).nodes := by
  cases call with
  | beginSync => exact h.live_eq
  | finishSync routine now =>
    rw [step, CapabilityStore.step]
    rcases h.syncs routine with ⟨hrequest, hpending⟩ | ⟨request, pending, hrequest, hpending, hread⟩
    · rw [hrequest, hpending]
      exact h.live_eq
    · rw [hrequest, hpending]
      dsimp only
      rw [h.live_eq] at hread ⊢
      exact (hread.live_writeSync now).symm
  | updateMetadata id update now =>
    rw [step, CapabilityStore.step]
    dsimp only
    rw [live_updateCapabilityMetadata, h.live_eq]
  | updateStatus agentID actionType status now =>
    rw [step, CapabilityStore.step]
    dsimp only
    funext id
    rw [live_updateAgentCapabilityStatus, h.live_eq]
  | deleteAgent agentID =>
    rw [step, CapabilityStore.step]
    dsimp only
    rw [live_deleteAgent, h.live_eq]

/-- A registration that another call does not disturb stays up to date. -/
theorem UpToDate.step (hlive : a.live = liveCapabilities s.nodes) {routine : ℕ}
    {request : SyncRequest} {pending : PendingSync} (h : UpToDate a.live request pending)
    (hcall : ¬a.Disturbs routine request call) (hother : ∀ now, call ≠ .finishSync routine now) :
    UpToDate (a.step call).live request pending := by
  refine ⟨h.agentID_eq, h.capabilities_eq, fun id hid ↦ ?_⟩
  have hread : ∀ id node, a.live id = some node → node.metadata.read = node.metadata :=
    fun id node hnode ↦ read_of_live (hlive ▸ hnode)
  rw [metadataOf_step hread hcall hother hid, h.metadata_eq id hid]

theorem upToDate_readExisting (nodes : CapabilityNodes) (agentID : String)
    (capabilities : List (String × CapabilityReport)) (readOK : Bool) :
    UpToDate (liveCapabilities nodes) ⟨agentID, capabilities, readOK⟩
      (readExisting nodes agentID capabilities readOK) :=
  ⟨rfl, rfl, fun _ _ ↦ rfl⟩

/-- The routines that a call does not begin or finish a registration of. -/
theorem syncs_step (s : CapabilityStore) (a : LiveStore) {routine : ℕ}
    (hbegin : ∀ agentID capabilities readOK,
      call ≠ .beginSync routine agentID capabilities readOK)
    (hfinish : ∀ now, call ≠ .finishSync routine now) :
    (a.step call).requests routine = a.requests routine ∧
      (s.step call).syncs routine = s.syncs routine := by
  cases call with
  | beginSync other agentID capabilities readOK =>
    have hne : routine ≠ other := fun heq ↦ hbegin agentID capabilities readOK (by rw [heq])
    exact ⟨Function.update_of_ne hne _ _, Function.update_of_ne hne _ _⟩
  | finishSync other now =>
    have hne : routine ≠ other := fun heq ↦ hfinish now (by rw [heq])
    rw [step, CapabilityStore.step]
    constructor
    · cases a.requests other with
      | none => rfl
      | some request => exact Function.update_of_ne hne _ _
    · cases s.syncs other with
      | none => rfl
      | some pending => exact Function.update_of_ne hne _ _
  | updateMetadata => exact ⟨rfl, rfl⟩
  | updateStatus => exact ⟨rfl, rfl⟩
  | deleteAgent => exact ⟨rfl, rfl⟩

theorem follows_step (h : Follows s a)
    (hcall : ∀ routine request, a.requests routine = some request →
      ¬a.Disturbs routine request call) : Follows (s.step call) (a.step call) := by
  refine ⟨live_step h call, fun routine ↦ ?_⟩
  by_cases hbegin : ∃ agentID capabilities readOK,
      call = .beginSync routine agentID capabilities readOK
  · obtain ⟨agentID, capabilities, readOK, rfl⟩ := hbegin
    refine .inr ⟨⟨agentID, capabilities, readOK⟩, _, Function.update_self _ _ _,
      Function.update_self _ _ _, ?_⟩
    rw [live_step h]
    exact upToDate_readExisting s.nodes agentID capabilities readOK
  by_cases hfinish : ∃ now, call = .finishSync routine now
  · obtain ⟨now, rfl⟩ := hfinish
    rw [step, CapabilityStore.step]
    rcases h.syncs routine with ⟨hrequest, hpending⟩ | ⟨request, pending, hrequest, hpending, -⟩
    · exact .inl ⟨by rw [hrequest]; exact hrequest, by rw [hpending]; exact hpending⟩
    · exact .inl ⟨by rw [hrequest]; exact Function.update_self _ _ _,
        by rw [hpending]; exact Function.update_self _ _ _⟩
  have hbegin' : ∀ agentID capabilities readOK,
      call ≠ .beginSync routine agentID capabilities readOK :=
    fun agentID capabilities readOK heq ↦ hbegin ⟨agentID, capabilities, readOK, heq⟩
  have hfinish' : ∀ now, call ≠ .finishSync routine now := fun now heq ↦ hfinish ⟨now, heq⟩
  obtain ⟨hrequests, hsyncs⟩ := syncs_step s a hbegin' hfinish'
  rw [hrequests, hsyncs]
  rcases h.syncs routine with hnone | ⟨request, pending, hrequest, hpending, hread⟩
  · exact .inl hnone
  · exact .inr ⟨request, pending, hrequest, hpending,
      hread.step h.live_eq (hcall routine request hrequest) hfinish'⟩

theorem follows_run {calls : List CapabilityCall} (h : Follows s a)
    (hcalls : Undisturbed a calls) : Follows (s.run calls) (a.run calls) := by
  induction calls generalizing s a with
  | nil => exact h
  | cons call calls ih => exact ih (follows_step h hcalls.1) hcalls.2

/-- **The deleted nodes never show**: where nothing comes between the transactions of a
registration, the store is a map of the live capabilities that registrations replace at once. -/
theorem live_run (nodes : CapabilityNodes) (calls : List CapabilityCall)
    (hcalls : Undisturbed { live := liveCapabilities nodes } calls) :
    liveCapabilities (({ nodes := nodes } : CapabilityStore).run calls).nodes =
      (LiveStore.run { live := liveCapabilities nodes } calls).live :=
  (follows_run ⟨rfl, fun _ ↦ .inl ⟨rfl, rfl⟩⟩ hcalls).live_eq.symm

/-- An agent that docks registers, reports its status and registers again. -/
def dockCalls : List CapabilityCall :=
  [.beginSync 0 "r1" [("r1_dock", ⟨"", "Dock", "/dock", "", false, "", "", "", "", "", "idle", true,
      0, 0, 0⟩)] true,
    .updateStatus "r1" "Dock" { status := "busy", available := false } ⟨4, by decide⟩,
    .finishSync 0 ⟨5, by decide⟩,
    .updateMetadata "r1_dock" { category := some "docking" } ⟨6, by decide⟩]

theorem live_run_dock :
    liveCapabilities (({ nodes := fun _ ↦ none } : CapabilityStore).run dockCalls).nodes =
      (LiveStore.run { live := liveCapabilities fun _ ↦ none } dockCalls).live := by
  refine live_run _ dockCalls ⟨?_, ?_, ?_, ?_, trivial⟩
  · exact fun _ _ _ hdisturbs ↦ hdisturbs
  · exact fun _ _ _ hdisturbs ↦ hdisturbs
  · rintro routine request hrequest ⟨hne, -⟩
    have hnone : (none : Option SyncRequest) = some request :=
      (Function.update_of_ne hne.symm _ _).symm.trans hrequest
    cases hnone
  · intro routine request hrequest
    have hnone : (Function.update (Function.update (fun _ ↦ none) 0 _) 0 none) routine =
      some request := hrequest
    rw [Function.update_idem] at hnone
    simp at hnone

end LiveStore

/-! ## Registrations that something comes between -/

namespace CapabilityStore

variable {s : CapabilityStore}

/-- What a registration has read stays as it is, whatever happens in between. -/
theorem syncs_run {calls : List CapabilityCall} {routine : ℕ}
    (hbegin : ∀ agentID capabilities readOK,
      .beginSync routine agentID capabilities readOK ∉ calls)
    (hfinish : ∀ now, .finishSync routine now ∉ calls) :
    (s.run calls).syncs routine = s.syncs routine := by
  induction calls generalizing s with
  | nil => rfl
  | cons call calls ih =>
    have hbegin' : ∀ agentID capabilities readOK,
        call ≠ .beginSync routine agentID capabilities readOK :=
      fun agentID capabilities readOK heq ↦
        hbegin agentID capabilities readOK (heq ▸ List.mem_cons_self)
    have hfinish' : ∀ now, call ≠ .finishSync routine now := fun now heq ↦
      hfinish now (heq ▸ List.mem_cons_self)
    have hstep := (LiveStore.syncs_step s {} hbegin' hfinish').2
    rw [run, List.foldl_cons, ← run, ih, hstep]
    · exact fun agentID capabilities readOK hmem ↦
        hbegin agentID capabilities readOK (List.mem_cons_of_mem _ hmem)
    · exact fun now hmem ↦ hfinish now (List.mem_cons_of_mem _ hmem)

/-- **A registration writes what it has read**: whatever comes between its two transactions, the
live capabilities of the agent are then those it names, and what users have set of them is what it
was before. -/
theorem metadata_as_read (s : CapabilityStore) {calls : List CapabilityCall} {routine : ℕ}
    (agentID : String) (capabilities : List (String × CapabilityReport)) (readOK : Bool)
    (now : Instant)
    (hbegin : ∀ agentID capabilities readOK,
      .beginSync routine agentID capabilities readOK ∉ calls)
    (hfinish : ∀ now, .finishSync routine now ∉ calls) :
    let after := liveCapabilities
      (s.run (.beginSync routine agentID capabilities readOK :: calls ++
        [.finishSync routine now])).nodes
    (∀ id, (∃ node, after id = some node ∧ node.agentID = agentID) ↔
      id ∈ capabilities.map Prod.fst) ∧
    ∀ id ∈ capabilities.map Prod.fst, ∃ report, (id, report) ∈ capabilities ∧
      after id = some (capabilityFromNeo4jNode ⟨agentID, report,
        carriedOver (if readOK then (getAgentCapabilities s.nodes agentID id).map (·.metadata)
          else none), some 0⟩) := by
  intro after
  set middle := (s.step (.beginSync routine agentID capabilities readOK)).run calls with hmiddle
  set pending := readExisting s.nodes agentID capabilities readOK with hread
  have hpending : middle.syncs routine = some pending :=
    (syncs_run hbegin hfinish).trans (Function.update_self _ _ _)
  have hrun : s.run (.beginSync routine agentID capabilities readOK :: calls ++
      [.finishSync routine now]) = middle.step (.finishSync routine now) := by
    rw [run, List.cons_append, List.foldl_cons, List.foldl_append]
    rfl
  have hafter : after = mergeAll
      (fun capability ↦ capabilityFromNeo4jNode (pending.node capability)) capabilities
      (Db.deleteAgent agentID (liveCapabilities middle.nodes)) := by
    show liveCapabilities (s.run _).nodes = _
    rw [hrun, step, hpending]
    exact live_writeSync pending now
  have hwritten : ∀ id ∈ capabilities.map Prod.fst, ∃ report, (id, report) ∈ capabilities ∧
      after id = some (capabilityFromNeo4jNode ⟨agentID, report,
        carriedOver (if readOK then (getAgentCapabilities s.nodes agentID id).map (·.metadata)
          else none), some 0⟩) := by
    intro id hid
    rw [hafter]
    exact exists_mergeAll hid
  refine ⟨fun id ↦ ⟨?_, fun hid ↦ ?_⟩, hwritten⟩
  · rintro ⟨node, hnode, hagent⟩
    by_contra hid
    rw [hafter, mergeAll_of_notMem hid] at hnode
    obtain ⟨-, hkept⟩ := Option.filter_eq_some_iff.mp hnode
    simp [hagent] at hkept
  · obtain ⟨report, -, heq⟩ := hwritten id hid
    exact ⟨_, heq, agentID_read _⟩

/-- The category that is set between the two transactions is lost. -/
theorem metadata_as_read_dock :
    let capabilities : List (String × CapabilityReport) :=
      [("r1_dock", ⟨"", "Dock", "/dock", "", false, "", "", "", "", "", "idle", true, 0, 0, 0⟩)]
    let after := liveCapabilities (({} : CapabilityStore).run
      (.beginSync 0 "r1" capabilities true ::
        [.updateMetadata "r1_dock" { category := some "docking" } ⟨4, by decide⟩] ++
          [.finishSync 0 ⟨5, by decide⟩])).nodes
    (∀ id, (∃ node, after id = some node ∧ node.agentID = "r1") ↔ id ∈ ["r1_dock"]) ∧
      ∀ id ∈ ["r1_dock"], ∃ report, (id, report) ∈ capabilities ∧
        after id = some (capabilityFromNeo4jNode ⟨"r1", report, carriedOver none, some 0⟩) :=
  metadata_as_read {} "r1" _ true ⟨5, by decide⟩ (by simp) (by simp)

end CapabilityStore

end Db
end FleetServer
