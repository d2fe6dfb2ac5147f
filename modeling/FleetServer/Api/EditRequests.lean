import FleetServer.Db.Repository

/-!
# The requests that edit a behavior tree

The handlers of `internal/api/behavior_trees.go`, `templates.go` and `behavior_tree_lock.go` that
read a behavior tree, change a few fields of it and write it back: the two content updates, and the
acquisition, the release and the heartbeat of an edit lock.

A handler is cut at its calls of the repository.  `precheck` is what it does before the first read;
`afterRead` is what it does with the tree it gets; an update that names a session reads once more to
see who holds the lock (`validateLockOwnership`) and goes on from there (`afterValidate`).  In the
end it either responds or has a tree to write.  The source changes the tree it has read in place;
here the tree as it was read is kept beside the changed one.

The body of an update is taken after the steps have been normalized and each part has been
marshalled.  Of a response the tree and the time a lock runs until are left out.
-/

set_option autoImplicit false

namespace FleetServer
namespace Api

open Db

/-! ## Requests and responses -/

structure BehaviorTreeUpdateRequest where
  name : String := ""
  description : String := ""
  entryPoint : String := ""
  preconditions : Option String := none
  steps : Option String := none
  states : Option String := none
  planningStates : Option String := none
  planningTask : Option String := none
  taskDistributorID : Option String := none
  deriving DecidableEq, Repr

structure LockAcquireRequest where
  sessionID : String
  userName : String := ""
  deriving DecidableEq, Repr

/-- A request on the tree.  A body is `none` when it does not decode. -/
inductive Request
  | updateBehaviorTree (sessionID : String) (body : Option BehaviorTreeUpdateRequest)
  | updateTemplate (body : Option BehaviorTreeUpdateRequest)
  | acquireLock (body : Option LockAcquireRequest)
  | releaseLock (sessionID : String)
  | heartbeatLock (sessionID : String)
  deriving DecidableEq, Repr

def Request.isContentUpdate : Request → Bool
  | .updateBehaviorTree .. => true
  | .updateTemplate .. => true
  | _ => false

/-- The content update a request asks for. -/
def Request.body : Request → Option BehaviorTreeUpdateRequest
  | .updateBehaviorTree _ body => body
  | .updateTemplate body => body
  | _ => none

structure Response where
  status : ℕ
  error : String := ""
  message : String := ""
  lockedBy : String := ""
  executingAgents : List String := []
  deriving DecidableEq, Repr

def writeError (status : ℕ) (message : String) : Response := { status := status, error := message }

/-- Where a handler is that has read a tree: about to read the lock, or about to write the tree. -/
inductive Stage
  | validating (read : BehaviorTree)
  | saving (read graph : BehaviorTree)
  deriving DecidableEq, Repr

/-- The tree a handler has read. -/
def Stage.read : Stage → BehaviorTree
  | .validating read => read
  | .saving read _ => read

/-- What a handler does after a read. -/
inductive Next
  | respond (response : Response)
  | proceed (stage : Stage)
  deriving DecidableEq, Repr

/-! ## Content updates -/

/-- The fields a request sets, the next version, and the time. -/
def applyUpdateRequest (codec : Codec) (now : Time) (req : BehaviorTreeUpdateRequest)
    (graph : BehaviorTree) : BehaviorTree :=
  { graph with
    name := if req.name ≠ "" then req.name else graph.name
    description := if req.description ≠ "" then some req.description else graph.description
    preconditions := req.preconditions.getD graph.preconditions
    entryPoint := if req.entryPoint ≠ "" then some req.entryPoint else graph.entryPoint
    steps := req.steps.getD graph.steps
    requiredActionTypes :=
      match req.steps with
      | none => graph.requiredActionTypes
      | some steps =>
        extractActionTypesFromSteps ((codec.unmarshalSteps steps).toOption.getD [])
    states := req.states.getD graph.states
    planningStates := req.planningStates.getD graph.planningStates
    planningTask := req.planningTask.getD graph.planningTask
    taskDistributorID :=
      match req.taskDistributorID with
      | none => graph.taskDistributorID
      | some id => toNullString id
    version := graph.version + 1
    updatedAt := now }

/-- The part of an update handler that decodes the body and applies it. -/
def decodeAndApply (codec : Codec) (now : Time) (body : Option BehaviorTreeUpdateRequest)
    (graph : BehaviorTree) : Next :=
  match body with
  | none => .respond (writeError 400 "Invalid request body")
  | some req => .proceed (.saving graph (applyUpdateRequest codec now req graph))

def updateBehaviorTreeHandler (codec : Codec) (now : Time) (sessionID : String)
    (body : Option BehaviorTreeUpdateRequest) : Option BehaviorTree → Next
  | none => .respond (writeError 404 "Behavior Tree not found")
  | some graph =>
    if sessionID ≠ "" then .proceed (.validating graph) else decodeAndApply codec now body graph

/-- The read of this handler is `GetTemplate`. -/
def updateTemplateHandler (codec : Codec) (now : Time) (templateID : String)
    (body : Option BehaviorTreeUpdateRequest) : Option BehaviorTree → Next
  | none => .respond (writeError 404 ("Template not found: " ++ templateID))
  | some template => decodeAndApply codec now body template

/-! ## Locks -/

/-- Five minutes. -/
def lockDuration : Time := 300 * 1000000000

/-- Whether the session may edit, and who holds the lock when it may not. -/
def validateLockOwnership (now : Time) (sessionID : String) : Option BehaviorTree → Bool × String
  | none => (false, "")
  | some graph =>
    match graph.lockSessionID, graph.lockExpiresAt with
    | some owner, some expiresAt =>
      if expiresAt < now then (true, "")
      else if owner = sessionID then (true, "")
      else (false, nullString graph.lockedBy)
    | _, _ => (true, "")

/-- Is the tree locked by a session other than this one? -/
def lockedByOther (now : Time) (sessionID : String) (graph : BehaviorTree) : Bool :=
  match graph.lockSessionID, graph.lockExpiresAt with
  | some owner, some expiresAt => expiresAt > now ∧ owner ≠ sessionID
  | _, _ => false

/-- `executingAgents` is what the state manager answers for the tree. -/
def acquireLockHandler (now : Time) (executingAgents : List String) (req : LockAcquireRequest) :
    Option BehaviorTree → Next
  | none => .respond (writeError 404 "Behavior Tree not found")
  | some graph =>
    if executingAgents ≠ [] then
      .respond {
        status := 409, error := "executing",
        message := "Behavior Tree is currently being executed by agent(s)",
        executingAgents := executingAgents }
    else if lockedByOther now req.sessionID graph then
      .respond {
        status := 409, error := "locked", message := "Behavior Tree is locked by another user",
        lockedBy := nullString graph.lockedBy }
    else
      .proceed (.saving graph { graph with
        lockedBy := some (if req.userName = "" then "Unknown User" else req.userName)
        lockedAt := some now
        lockExpiresAt := some (now + lockDuration)
        lockSessionID := some req.sessionID })

def releaseLockHandler (sessionID : String) : Option BehaviorTree → Next
  | none => .respond (writeError 404 "Behavior Tree not found")
  | some graph =>
    if graph.lockSessionID ≠ some sessionID then
      .respond (writeError 403 "You do not own this lock")
    else .proceed (.saving graph graph.clearLock)

def heartbeatLockHandler (now : Time) (sessionID : String) : Option BehaviorTree → Next
  | none => .respond (writeError 404 "Behavior Tree not found")
  | some graph =>
    match graph.lockSessionID with
    | none => .respond (writeError 409 "No active lock")
    | some owner =>
      if owner ≠ sessionID then .respond (writeError 403 "You do not own this lock")
      else if graph.lockExpiresAt.any (· < now) then .respond (writeError 409 "Lock has expired")
      else .proceed (.saving graph { graph with lockExpiresAt := some (now + lockDuration) })

/-! ## A handler between its repository calls -/

/-- What a handler refuses before it reads anything. -/
def precheck : Request → Option Response
  | .acquireLock none => some (writeError 400 "Invalid request body")
  | .acquireLock (some req) =>
    if req.sessionID = "" then some (writeError 400 "session_id is required") else none
  | .releaseLock sessionID =>
    if sessionID = "" then some (writeError 400 "X-Session-ID header is required") else none
  | .heartbeatLock sessionID =>
    if sessionID = "" then some (writeError 400 "X-Session-ID header is required") else none
  | _ => none

/-- The first read of a handler. -/
def firstRead (request : Request) (db : Database) (graphID : String) : Option BehaviorTree :=
  match request with
  | .updateTemplate .. => getTemplate db graphID
  | _ => getBehaviorTree db graphID

/-- What a handler does with the tree of its first read. -/
def afterRead (codec : Codec) (now : Time) (executingAgents : List String) (graphID : String)
    (request : Request) (read : Option BehaviorTree) : Next :=
  match request with
  | .updateBehaviorTree sessionID body => updateBehaviorTreeHandler codec now sessionID body read
  | .updateTemplate body => updateTemplateHandler codec now graphID body read
  | .acquireLock none => .respond (writeError 400 "Invalid request body")
  | .acquireLock (some req) => acquireLockHandler now executingAgents req read
  | .releaseLock sessionID => releaseLockHandler sessionID read
  | .heartbeatLock sessionID => heartbeatLockHandler now sessionID read

/-- What `UpdateBehaviorTree` does once it has read the lock.  `graph` is the tree of the first
read, and it is this one that is changed.  No other request has such a read. -/
def afterValidate (codec : Codec) (now : Time) (request : Request) (graph : BehaviorTree)
    (read : Option BehaviorTree) : Option Next :=
  match request with
  | .updateBehaviorTree sessionID body =>
    if !(validateLockOwnership now sessionID read).1 then
      some (.respond {
        status := 409, error := "locked", message := "Behavior Tree is locked by another user",
        lockedBy := (validateLockOwnership now sessionID read).2 })
    else some (decodeAndApply codec now body graph)
  | _ => none

/-- The answer to a write that failed. -/
def saveFailed (request : Request) (err : String) : Response :=
  match request with
  | .acquireLock .. => writeError 500 ("Failed to acquire lock: " ++ err)
  | .releaseLock .. => writeError 500 ("Failed to release lock: " ++ err)
  | .heartbeatLock .. => writeError 500 ("Failed to extend lock: " ++ err)
  | _ => writeError 500 err

/-- The answer to a write that went through. -/
def saved (request : Request) (graph : BehaviorTree) : Response :=
  match request with
  | .acquireLock .. => { status := 200, lockedBy := nullString graph.lockedBy }
  | .releaseLock .. => { status := 200, message := "Lock released" }
  | _ => { status := 200 }

@[simp] theorem status_saved (request : Request) (graph : BehaviorTree) :
    (saved request graph).status = 200 := by
  cases request <;> rfl

@[simp] theorem status_saveFailed (request : Request) (err : String) :
    (saveFailed request err).status = 500 := by
  cases request <;> rfl

/-! ## What a handler may do to the content -/

/-- What of a tree its readers work with, the lock, the version and the timestamps apart.  The entry
point is the one a write resolves it to, and a tree without agent counts as a template, as it does
for every reader. -/
structure Content where
  name : String
  description : String
  agentID : String
  entryPoint : String
  isTemplate : Bool
  templateCategory : String
  steps : String
  preconditions : String
  states : String
  planningStates : String
  planningTask : String
  taskDistributorID : String
  deriving DecidableEq, Repr

def contentOf (codec : Codec) (graph : BehaviorTree) : Content where
  name := graph.name
  description := nullString graph.description
  agentID := nullString graph.agentID
  entryPoint := resolveEntryPoint (nullString graph.entryPoint)
    ((parseBehaviorTreeSteps codec graph).toOption.getD [])
  isTemplate := graph.isTemplate || GoString.trimSpace (nullString graph.agentID) == ""
  templateCategory := nullString graph.templateCategory
  steps := graph.steps
  preconditions := graph.preconditions
  states := graph.states
  planningStates := graph.planningStates
  planningTask := graph.planningTask
  taskDistributorID := nullString graph.taskDistributorID

/-- **What a write stores reads back as the same content.** -/
theorem contentOf_treeOfRow_setRow {codec : Codec} {now : Time} {graph : BehaviorTree}
    {steps : List BehaviorTreeStep} (h : parseBehaviorTreeSteps codec graph = .ok steps)
    (g : ActionGraph) :
    contentOf codec (treeOfRow (setRow codec now graph steps g)) = contentOf codec graph := by
  have hparse : parseBehaviorTreeSteps codec (treeOfRow (setRow codec now graph steps g)) =
      .ok steps := h
  rw [contentOf, contentOf]
  rw [hparse, h]
  simp [treeOfRow, setRow, isTemplateFromProps, Except.toOption]

/-- The tree a request may write, having read `read`: the update applied to it, or the same content
under the same version. -/
inductive Edit (codec : Codec) (request : Request) (read : BehaviorTree) : BehaviorTree → Prop
  | update {now : Time} {req : BehaviorTreeUpdateRequest} (hkind : request.isContentUpdate = true)
      (hbody : request.body = some req) :
      Edit codec request read (applyUpdateRequest codec now req read)
  | lock {graph : BehaviorTree} (hkind : request.isContentUpdate = false)
      (hid : graph.id = read.id) (hversion : graph.version = read.version)
      (hcontent : contentOf codec graph = contentOf codec read) : Edit codec request read graph

/-- Every tree written is the tree read, by its id. -/
theorem Edit.id_eq {codec : Codec} {request : Request} {read graph : BehaviorTree}
    (h : Edit codec request read graph) : graph.id = read.id := by
  cases h with
  | update => rfl
  | lock _ hid => exact hid

/-- A handler that has read `read` refuses, goes on to read the lock, or goes on to write one of the
trees it may write. -/
def Next.Sound (codec : Codec) (request : Request) (read : Option BehaviorTree) : Next → Prop
  | .respond response => response.status ≠ 200
  | .proceed (.validating graph) => read = some graph
  | .proceed (.saving graph edited) => read = some graph ∧ Edit codec request graph edited

variable {codec : Codec} {now : Time} {graph : BehaviorTree} {request : Request}

theorem sound_decodeAndApply (h : request.isContentUpdate = true) :
    (decodeAndApply codec now request.body graph).Sound codec request (some graph) := by
  simp only [decodeAndApply]
  split
  · show (400 : ℕ) ≠ 200
    decide
  · rename_i req hbody
    exact ⟨rfl, .update h hbody⟩

theorem sound_refusal {response : Response} {read : Option BehaviorTree}
    (h : response.status ≠ 200) : (Next.respond response).Sound codec request read := h

theorem sound_acquireLockHandler {executingAgents : List String} {req : LockAcquireRequest}
    {body : Option LockAcquireRequest} {read : Option BehaviorTree} :
    (acquireLockHandler now executingAgents req read).Sound codec (.acquireLock body) read := by
  cases read with
  | none => exact sound_refusal (by decide)
  | some graph =>
    rw [acquireLockHandler]
    split
    · exact sound_refusal (show 409 ≠ 200 by decide)
    split
    · exact sound_refusal (show 409 ≠ 200 by decide)
    · exact ⟨rfl, .lock rfl rfl rfl rfl⟩

theorem sound_releaseLockHandler {sessionID : String} {read : Option BehaviorTree} :
    (releaseLockHandler sessionID read).Sound codec (.releaseLock sessionID) read := by
  cases read with
  | none => exact sound_refusal (by decide)
  | some graph =>
    rw [releaseLockHandler]
    split
    · exact sound_refusal (by decide)
    · exact ⟨rfl, .lock rfl rfl rfl rfl⟩

theorem sound_heartbeatLockHandler {sessionID : String} {read : Option BehaviorTree} :
    (heartbeatLockHandler now sessionID read).Sound codec (.heartbeatLock sessionID) read := by
  cases read with
  | none => exact sound_refusal (by decide)
  | some graph =>
    rw [heartbeatLockHandler]
    split
    · exact sound_refusal (by decide)
    split
    · exact sound_refusal (by decide)
    split
    · exact sound_refusal (by decide)
    · exact ⟨rfl, .lock rfl rfl rfl rfl⟩

/-- **What every handler does with the tree of its first read.** -/
theorem sound_afterRead {executingAgents : List String} {graphID : String}
    {read : Option BehaviorTree} :
    (afterRead codec now executingAgents graphID request read).Sound codec request read := by
  cases request with
  | updateBehaviorTree sessionID body =>
    cases read with
    | none => exact sound_refusal (by decide)
    | some graph =>
      rw [afterRead, updateBehaviorTreeHandler]
      split
      · rfl
      · exact sound_decodeAndApply rfl
  | updateTemplate body =>
    cases read with
    | none => exact sound_refusal (show 404 ≠ 200 by decide)
    | some graph => exact sound_decodeAndApply rfl
  | acquireLock body =>
    cases body with
    | none => exact sound_refusal (by decide)
    | some req => exact sound_acquireLockHandler
  | releaseLock sessionID => exact sound_releaseLockHandler
  | heartbeatLock sessionID => exact sound_heartbeatLockHandler

/-- **What an update does once it has read the lock.** -/
theorem sound_afterValidate {read : Option BehaviorTree} {next : Next}
    (h : afterValidate codec now request graph read = some next) :
    next.Sound codec request (some graph) := by
  simp only [afterValidate] at h
  split at h
  · split at h
    · obtain rfl := Option.some.inj h
      exact sound_refusal (show 409 ≠ 200 by decide)
    · obtain rfl := Option.some.inj h
      exact sound_decodeAndApply rfl
  · exact absurd h (by simp)

theorem status_precheck {response : Response} (h : precheck request = some response) :
    response.status ≠ 200 := by
  simp only [precheck] at h
  split at h
  · obtain rfl := Option.some.inj h
    decide
  · split at h
    · obtain rfl := Option.some.inj h
      decide
    · exact absurd h (by simp)
  · split at h
    · obtain rfl := Option.some.inj h
      decide
    · exact absurd h (by simp)
  · split at h
    · obtain rfl := Option.some.inj h
      decide
    · exact absurd h (by simp)
  · exact absurd h (by simp)

end Api
end FleetServer
