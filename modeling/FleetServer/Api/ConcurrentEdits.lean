import Mathlib.Logic.Function.Basic
import FleetServer.Api.EditRequests
import FleetServer.Lib.Run
import FleetServer.Lib.Versions

/-!
# Concurrent edits of one behavior tree

Any number of edit requests on one tree, interleaved at their calls of the repository, each of which
is atomic and may fail.  Every handler reads the whole row, changes some fields, and writes the
whole row back; nothing is compared at the write.  The lock fields are there "for concurrent editing
prevention" (`internal/db/models.go`), but a request that names no session is not asked for the
lock, a template update never is, and between the check of the lock and the write anything can
happen.

A write is *stale* when the row no longer bears the version its request has read.  Without stale
writes no update is lost: the stored content is that of the last content update written, each update
was made from the content the one before it left, and the version counts the updates that were
answered with success (`concurrentEdits_lose_nothing`).  And the first stale write breaks this.

`seen` and `saves` are kept for the statement and read by no step: the versions and contents the row
has had, and the content updates written, newest first.
-/

set_option autoImplicit false

namespace FleetServer
namespace Api

open Db

/-! ## The system -/

structure Inflight where
  request : Request
  stage : Stage
  deriving DecidableEq, Repr

/-- A content update that was written: the content its request had read, and the one it wrote. -/
structure SavedUpdate where
  request : Request
  base : Content
  result : Content
  deriving DecidableEq, Repr

structure Server where
  db : Database
  inflight : ℕ → Option Inflight
  responses : List (Request × Response)
  seen : List (ℤ × Content)
  saves : List SavedUpdate

/-- A step names the request that takes it, the time, and, when its repository call fails, the
error. -/
inductive Action
  | receive (r : ℕ) (request : Request) (now : Time) (executingAgents : List String)
      (fault : Option String)
  | validate (r : ℕ) (now : Time) (fault : Option String)
  | save (r : ℕ) (now : Time) (fault : Option String)
  deriving DecidableEq, Repr

/-- The version and the content of the tree. -/
def stored (codec : Codec) (graphID : String) (db : Database) : Option (ℤ × Content) :=
  (getBehaviorTree db graphID).map fun graph ↦ (graph.version, contentOf codec graph)

/-- The request is answered. -/
def Server.respond (s : Server) (r : ℕ) (request : Request) (response : Response) : Server :=
  { s with
    inflight := Function.update s.inflight r none
    responses := (request, response) :: s.responses }

/-- The request is answered, or goes on to its next call of the repository. -/
def Server.goOn (s : Server) (r : ℕ) (request : Request) : Next → Server
  | .respond response => s.respond r request response
  | .proceed stage => { s with inflight := Function.update s.inflight r (some ⟨request, stage⟩) }

/-- The tree is written and the request answered. -/
def Server.written (codec : Codec) (graphID : String) (s : Server) (r : ℕ) (request : Request)
    (read graph : BehaviorTree) (db' : Database) : Server :=
  { s.respond r request (saved request graph) with
    db := db'
    seen := (stored codec graphID db').toList ++ s.seen
    saves :=
      if request.isContentUpdate then
        ⟨request, contentOf codec read, contentOf codec graph⟩ :: s.saves
      else s.saves }

def step (codec : Codec) (graphID : String) (s : Server) : Action → Option Server
  | .receive r request now executingAgents fault =>
    if (s.inflight r).isSome then none
    else
      match precheck request with
      | some response => some (s.respond r request response)
      | none =>
        match fault with
        | some err => some (s.respond r request (writeError 500 err))
        | none =>
          some (s.goOn r request
            (afterRead codec now executingAgents graphID request (firstRead request s.db graphID)))
  | .validate r now fault =>
    match s.inflight r with
    | some ⟨request, .validating graph⟩ =>
      match fault with
      | some err => some (s.respond r request (writeError 500 err))
      | none =>
        (afterValidate codec now request graph (getBehaviorTree s.db graphID)).map
          (s.goOn r request)
    | _ => none
  | .save r now fault =>
    match s.inflight r with
    | some ⟨request, .saving read graph⟩ =>
      match fault with
      | some err => some (s.respond r request (saveFailed request err))
      | none =>
        match updateBehaviorTree codec now graph s.db with
        | .error err => some (s.respond r request (saveFailed request err))
        | .ok db' => some (s.written codec graphID r request read graph db')
    | _ => none

/-- No request is under way. -/
def start (codec : Codec) (graphID : String) (db : Database) : Server where
  db := db
  inflight := fun _ ↦ none
  responses := []
  seen := (stored codec graphID db).toList
  saves := []

def IsStart (codec : Codec) (graphID : String) (db : Database) (s : Server) : Prop :=
  s = start codec graphID db

/-! ## What should hold -/

/-- How many content updates have been answered with success. -/
def Server.succeeded (s : Server) : ℕ :=
  s.responses.countP fun answer ↦ answer.1.isContentUpdate && answer.2.status == 200

/-- The content the last of the updates has written. -/
def lastSaved (c₀ : Content) (saves : List SavedUpdate) : Content :=
  (saves.head?.map (·.result)).getD c₀

/-- Each update was made from the content the one before it left. -/
def Linked (codec : Codec) (c₀ : Content) : List SavedUpdate → Prop
  | [] => True
  | u :: us =>
    u.base = lastSaved c₀ us ∧
      (∃ req now graph, u.request.body = some req ∧ contentOf codec graph = u.base ∧
        contentOf codec (applyUpdateRequest codec now req graph) = u.result) ∧
      Linked codec c₀ us

/-- No update is lost: the tree has the content of the update written last and a version that counts
the updates answered with success, each update was made from the one before it, and no two different
contents have had the same version. -/
structure NoUpdateLost (codec : Codec) (graphID : String) (v₀ : ℤ) (c₀ : Content) (s : Server) :
    Prop where
  stored : stored codec graphID s.db = some (v₀ + s.succeeded, lastSaved c₀ s.saves)
  linked : Linked codec c₀ s.saves
  versions : ∀ p ∈ s.seen, ∀ q ∈ s.seen, p.1 = q.1 → p.2 = q.2

/-- The step writes the tree although the row no longer bears the version the request has read. -/
def staleSave (codec : Codec) (graphID : String) (s : Server) : Action → Bool
  | .save r _ none =>
    match s.inflight r with
    | some ⟨_, .saving read graph⟩ =>
      (parseBehaviorTreeSteps codec graph).isOk &&
        (getBehaviorTree s.db graphID).any fun row ↦ row.version ≠ read.version
    | _ => false
  | _ => false

/-! ## The invariant -/

/-- A request under way has read a tree that was seen, and is about to write what it may write. -/
structure Inflight.Sound (codec : Codec) (graphID : String) (seen : List (ℤ × Content))
    (f : Inflight) : Prop where
  read : (f.stage.read.version, contentOf codec f.stage.read) ∈ seen
  id : f.stage.read.id = graphID
  edit : ∀ read graph, f.stage = .saving read graph → Edit codec f.request read graph

structure EditInv (codec : Codec) (graphID : String) (v₀ : ℤ) (c₀ : Content) (s : Server) :
    Prop where
  stored : stored codec graphID s.db = some (v₀ + s.succeeded, lastSaved c₀ s.saves)
  linked : Linked codec c₀ s.saves
  coherent : Versions.Coherent s.seen (v₀ + s.succeeded, lastSaved c₀ s.saves)
  inflight : ∀ r f, s.inflight r = some f → f.Sound codec graphID s.seen

variable {codec : Codec} {graphID : String} {v₀ : ℤ} {c₀ : Content} {s s' : Server} {r : ℕ}
  {request : Request}

theorem EditInv.noUpdateLost (hI : EditInv codec graphID v₀ c₀ s) :
    NoUpdateLost codec graphID v₀ c₀ s :=
  ⟨hI.stored, hI.linked, hI.coherent.agree⟩

/-! ### Reading -/

theorem id_getBehaviorTree {db : Database} {graph : BehaviorTree}
    (h : getBehaviorTree db graphID = some graph) : graph.id = graphID := by
  obtain ⟨row, hrow, rfl⟩ := Option.map_eq_some_iff.mp h
  exact (Table.find?_eq_some_iff.mp hrow).2

theorem getBehaviorTree_of_firstRead {db : Database} {graph : BehaviorTree}
    (h : firstRead request db graphID = some graph) : getBehaviorTree db graphID = some graph := by
  simp only [firstRead] at h
  split at h
  · rw [getTemplate] at h
    split at h
    · exact absurd h (by simp)
    · rename_i hg
      split at h
      · exact absurd h (by simp)
      · rw [hg, Option.some.inj h]
  · exact h

/-- What is read of the tree has been seen. -/
theorem EditInv.mem_seen (hI : EditInv codec graphID v₀ c₀ s) {graph : BehaviorTree}
    (h : getBehaviorTree s.db graphID = some graph) :
    (graph.version, contentOf codec graph) ∈ s.seen := by
  have hnow := hI.stored
  rw [Api.stored, h, Option.map_some] at hnow
  rw [Option.some.inj hnow]
  exact hI.coherent.mem

/-! ### Answering and going on -/

theorem some_of_update_none {f : Inflight} {r' : ℕ}
    (h : Function.update s.inflight r none r' = some f) : s.inflight r' = some f := by
  by_cases hr : r' = r
  · rw [hr, Function.update_self] at h
    exact absurd h (by simp)
  · rwa [Function.update_of_ne hr] at h

theorem succeeded_refuse {response : Response} (h : response.status ≠ 200) :
    (s.respond r request response).succeeded = s.succeeded := by
  simp only [Server.succeeded, Server.respond]
  simp [h]

/-- A request that is refused leaves the tree alone. -/
theorem EditInv.refuse (hI : EditInv codec graphID v₀ c₀ s) {response : Response}
    (h : response.status ≠ 200) : EditInv codec graphID v₀ c₀ (s.respond r request response) where
  stored := by
    rw [succeeded_refuse h]
    exact hI.stored
  linked := hI.linked
  coherent := by
    rw [succeeded_refuse h]
    exact hI.coherent
  inflight := fun r' f hf ↦ hI.inflight r' f (some_of_update_none hf)

/-- So does a request that goes on. -/
theorem EditInv.goOn (hI : EditInv codec graphID v₀ c₀ s) {read : Option BehaviorTree} {next : Next}
    (hread : ∀ graph, read = some graph →
      (graph.version, contentOf codec graph) ∈ s.seen ∧ graph.id = graphID)
    (h : next.Sound codec request read) : EditInv codec graphID v₀ c₀ (s.goOn r request next) := by
  have hproceed {stage : Stage} (hsound : Inflight.Sound codec graphID s.seen ⟨request, stage⟩) :
      EditInv codec graphID v₀ c₀ (s.goOn r request (.proceed stage)) := by
    refine ⟨hI.stored, hI.linked, hI.coherent, fun r' f hf ↦ ?_⟩
    by_cases hr : r' = r
    · have hf : some ⟨request, stage⟩ = some f := by
        rw [← hf, hr]
        exact (Function.update_self r _ s.inflight).symm
      rw [← Option.some.inj hf]
      exact hsound
    · refine hI.inflight r' f ?_
      rw [← hf]
      exact (Function.update_of_ne hr _ s.inflight).symm
  cases next with
  | respond response => exact hI.refuse h
  | proceed stage =>
    cases stage with
    | validating graph =>
      obtain ⟨hseen, hid⟩ := hread graph h
      exact hproceed ⟨hseen, hid, fun _ _ h ↦ by simp at h⟩
    | saving graph edited =>
      obtain ⟨hgraph, hedit⟩ := h
      obtain ⟨hseen, hid⟩ := hread graph hgraph
      refine hproceed ⟨hseen, hid, fun read' graph' h ↦ ?_⟩
      obtain ⟨rfl, rfl⟩ := Stage.saving.inj h
      exact hedit

/-! ### Writing -/

/-- What a write that goes through leaves. -/
theorem stored_updateBehaviorTree {now : Time} {graph : BehaviorTree} {db db' : Database}
    (h : updateBehaviorTree codec now graph db = .ok db')
    (hs : (stored codec graph.id db).isSome) :
    stored codec graph.id db' = some (graph.version, contentOf codec graph) := by
  obtain ⟨steps, hsteps, hfind⟩ := find?_updateBehaviorTree h
  rw [stored, getBehaviorTree] at hs ⊢
  cases hrow : db.graphs.find? graph.id with
  | none =>
    rw [hrow] at hs
    exact absurd hs (by simp)
  | some row =>
    rw [hfind, hrow]
    simp only [Option.map_some]
    rw [contentOf_treeOfRow_setRow hsteps]
    rfl

theorem succeeded_written {read graph : BehaviorTree} {db' : Database} :
    (s.written codec graphID r request read graph db').succeeded =
      s.succeeded + if request.isContentUpdate then 1 else 0 := by
  simp only [Server.succeeded, Server.written, Server.respond]
  rw [List.countP_cons]
  simp

section Write

variable {now : Time} {read graph : BehaviorTree} {db' : Database}

theorem EditInv.stored_written (hI : EditInv codec graphID v₀ c₀ s)
    (hf : s.inflight r = some ⟨request, .saving read graph⟩)
    (h : updateBehaviorTree codec now graph s.db = .ok db') :
    Api.stored codec graphID db' = some (graph.version, contentOf codec graph) := by
  have hsound := hI.inflight r _ hf
  have hid : graph.id = graphID := (hsound.edit read graph rfl).id_eq.trans hsound.id
  subst hid
  refine stored_updateBehaviorTree h ?_
  rw [hI.stored]
  rfl

/-- **A write that is not stale loses no update.** -/
theorem EditInv.written (hI : EditInv codec graphID v₀ c₀ s)
    (hf : s.inflight r = some ⟨request, .saving read graph⟩)
    (h : updateBehaviorTree codec now graph s.db = .ok db')
    (hfresh : read.version = v₀ + s.succeeded) :
    EditInv codec graphID v₀ c₀ (s.written codec graphID r request read graph db') := by
  have hsound := hI.inflight r _ hf
  have hstored := hI.stored_written hf h
  have hbase : contentOf codec read = lastSaved c₀ s.saves :=
    congrArg Prod.snd (hI.coherent.eq_now hsound.read hfresh)
  have hseen : (s.written codec graphID r request read graph db').seen =
      (graph.version, contentOf codec graph) :: s.seen := by
    show (Api.stored codec graphID db').toList ++ s.seen = _
    rw [hstored]
    rfl
  have hinflight : ∀ r' f, (s.written codec graphID r request read graph db').inflight r' = some f →
      f.Sound codec graphID (s.written codec graphID r request read graph db').seen := by
    intro r' f hf'
    have hold := hI.inflight r' f (some_of_update_none hf')
    rw [hseen]
    exact ⟨List.mem_cons_of_mem _ hold.read, hold.id, hold.edit⟩
  have hedit : Edit codec request read graph := hsound.edit read graph rfl
  cases hedit with
  | @update now' req hkind hbody =>
    -- the row gets the next version, and the update is counted
    have hnow : ((applyUpdateRequest codec now' req read).version,
        contentOf codec (applyUpdateRequest codec now' req read)) =
        (v₀ + (s.written codec graphID r request read
            (applyUpdateRequest codec now' req read) db').succeeded,
          lastSaved c₀ (s.written codec graphID r request read
            (applyUpdateRequest codec now' req read) db').saves) := by
      rw [succeeded_written, if_pos hkind]
      refine Prod.ext ?_ ?_
      · show read.version + 1 = v₀ + ((s.succeeded + 1 : ℕ) : ℤ)
        omega
      · show _ = lastSaved c₀ (if request.isContentUpdate then _ else _)
        rw [if_pos hkind]
        rfl
    refine ⟨hstored.trans (congrArg some hnow), ?_, ?_, hinflight⟩
    · show Linked codec c₀ (if request.isContentUpdate then _ else _)
      rw [if_pos hkind]
      exact ⟨hbase, ⟨req, now', read, hbody, rfl, rfl⟩, hI.linked⟩
    · rw [hseen, ← hnow]
      have hversion : (applyUpdateRequest codec now' req read).version =
          (v₀ + (s.succeeded : ℤ)) + 1 := congrArg (· + 1) hfresh
      rw [hversion]
      exact hI.coherent.bump _
  | lock hkind hid hversion hcontent =>
    -- the row keeps its version and its content
    have hnow : (graph.version, contentOf codec graph) =
        (v₀ + (s.succeeded : ℤ), lastSaved c₀ s.saves) := by
      rw [hversion, hcontent, hbase, hfresh]
    have hsaves : (s.written codec graphID r request read graph db').saves = s.saves := by
      show (if request.isContentUpdate then _ else s.saves) = s.saves
      rw [if_neg (by simp [hkind])]
    have hsucceeded : (s.written codec graphID r request read graph db').succeeded =
        s.succeeded := by
      rw [succeeded_written, if_neg (by simp [hkind]), Nat.add_zero]
    refine ⟨?_, ?_, ?_, hinflight⟩
    · rw [hsucceeded, hsaves]
      exact hstored.trans (congrArg some hnow)
    · rw [hsaves]
      exact hI.linked
    · rw [hseen, hsucceeded, hsaves, hnow]
      exact hI.coherent.again

/-- **A stale write does.**  The version it writes is too small for the updates answered. -/
theorem EditInv.stale_written (hI : EditInv codec graphID v₀ c₀ s)
    (hf : s.inflight r = some ⟨request, .saving read graph⟩)
    (h : updateBehaviorTree codec now graph s.db = .ok db')
    (hstale : read.version ≠ v₀ + s.succeeded) :
    ¬ NoUpdateLost codec graphID v₀ c₀ (s.written codec graphID r request read graph db') := by
  intro hsafe
  have hsound := hI.inflight r _ hf
  have hle : read.version ≤ v₀ + s.succeeded := hI.coherent.le _ hsound.read
  have hversion : graph.version =
      v₀ + (s.written codec graphID r request read graph db').succeeded :=
    congrArg Prod.fst (Option.some.inj ((hI.stored_written hf h).symm.trans hsafe.stored))
  rw [succeeded_written] at hversion
  have hedit : Edit codec request read graph := hsound.edit read graph rfl
  cases hedit with
  | update hkind hbody =>
    rw [if_pos hkind] at hversion
    have : read.version + 1 = v₀ + ((s.succeeded + 1 : ℕ) : ℤ) := hversion
    omega
  | lock hkind hid hv hcontent =>
    rw [if_neg (by simp [hkind]), hv] at hversion
    omega

end Write

/-! ### Every step -/

/-- A write that goes through is stale when the version read is not the stored one. -/
theorem EditInv.staleSave_iff (hI : EditInv codec graphID v₀ c₀ s) {now : Time}
    {read graph : BehaviorTree} {db' : Database}
    (hf : s.inflight r = some ⟨request, .saving read graph⟩)
    (h : updateBehaviorTree codec now graph s.db = .ok db') :
    staleSave codec graphID s (.save r now none) = true ↔ read.version ≠ v₀ + s.succeeded := by
  obtain ⟨steps, hsteps, -⟩ := updateBehaviorTree_eq_ok h
  obtain ⟨row, hrow, hnow⟩ := Option.map_eq_some_iff.mp hI.stored
  have hversion : row.version = v₀ + s.succeeded := congrArg Prod.fst hnow
  have hstale : staleSave codec graphID s (.save r now none) =
      decide (row.version ≠ read.version) := by
    simp only [staleSave, hf, hsteps, hrow, Option.any_some]
    rfl
  rw [hstale, decide_eq_true_iff, hversion, ne_comm]

/-- **A step that is not a stale write keeps the invariant; a stale write loses an update.** -/
theorem editInv_step {a : Action} (hI : EditInv codec graphID v₀ c₀ s)
    (hstep : step codec graphID s a = some s') :
    (staleSave codec graphID s a = false → EditInv codec graphID v₀ c₀ s') ∧
      (staleSave codec graphID s a = true → ¬ NoUpdateLost codec graphID v₀ c₀ s') := by
  cases a with
  | receive r request now executingAgents fault =>
    refine ⟨fun _ ↦ ?_, fun h ↦ absurd h (by simp [staleSave])⟩
    simp only [step] at hstep
    split at hstep
    · exact absurd hstep (by simp)
    split at hstep
    · rename_i response hresponse
      obtain rfl := Option.some.inj hstep
      exact hI.refuse (status_precheck hresponse)
    split at hstep
    · obtain rfl := Option.some.inj hstep
      exact hI.refuse (show 500 ≠ 200 by decide)
    · obtain rfl := Option.some.inj hstep
      refine hI.goOn (fun graph hgraph ↦ ?_) sound_afterRead
      have hread := getBehaviorTree_of_firstRead hgraph
      exact ⟨hI.mem_seen hread, id_getBehaviorTree hread⟩
  | validate r now fault =>
    refine ⟨fun _ ↦ ?_, fun h ↦ absurd h (by simp [staleSave])⟩
    simp only [step] at hstep
    split at hstep
    · rename_i request graph hf
      split at hstep
      · obtain rfl := Option.some.inj hstep
        exact hI.refuse (show 500 ≠ 200 by decide)
      · obtain ⟨next, hnext, rfl⟩ := Option.map_eq_some_iff.mp hstep
        refine hI.goOn (fun graph' hgraph ↦ ?_) (sound_afterValidate hnext)
        have hsound := hI.inflight r _ hf
        rw [← Option.some.inj hgraph]
        exact ⟨hsound.read, hsound.id⟩
    · exact absurd hstep (by simp)
  | save r now fault =>
    simp only [step] at hstep
    split at hstep
    · rename_i request read graph hf
      split at hstep
      · rename_i err
        obtain rfl := Option.some.inj hstep
        refine ⟨fun _ ↦ hI.refuse ?_, fun h ↦ absurd h (by simp [staleSave])⟩
        rw [status_saveFailed]
        decide
      split at hstep
      · rename_i err herr
        obtain rfl := Option.some.inj hstep
        refine ⟨fun _ ↦ hI.refuse ?_, fun h ↦ ?_⟩
        · rw [status_saveFailed]
          decide
        · -- steps that do not parse are not written
          rw [updateBehaviorTree] at herr
          split at herr
          · rename_i hsteps
            simp [staleSave, hf, hsteps, Except.isOk, Except.toBool] at h
          · exact absurd herr (by simp)
      · rename_i db' hdb
        obtain rfl := Option.some.inj hstep
        refine ⟨fun h ↦ hI.written hf hdb ?_, fun h ↦ ?_⟩
        · by_contra hne
          rw [(hI.staleSave_iff hf hdb).mpr hne] at h
          exact absurd h (by simp)
        · exact hI.stale_written hf hdb ((hI.staleSave_iff hf hdb).mp h)
    · exact absurd hstep (by simp)

theorem editInv_start {db : Database} {graph : BehaviorTree}
    (h : getBehaviorTree db graphID = some graph) :
    EditInv codec graphID graph.version (contentOf codec graph) (start codec graphID db) := by
  have hstored : stored codec graphID db = some (graph.version, contentOf codec graph) := by
    rw [stored, h, Option.map_some]
  have hnow : (graph.version + ((start codec graphID db).succeeded : ℤ)) = graph.version :=
    Int.add_zero _
  refine ⟨?_, trivial, ?_, fun r f hf ↦ absurd hf (by simp [start])⟩
  · rw [hnow]
    exact hstored
  · rw [hnow]
    show Versions.Coherent (stored codec graphID db).toList _
    rw [hstored]
    exact Versions.Coherent.start _

/-- **In every run without stale writes no update is lost, and the next step loses none exactly when
it is not a stale write.** -/
theorem concurrentEdits_lose_nothing (codec : Codec) (graphID : String) (db : Database)
    (graph : BehaviorTree) (hgraph : getBehaviorTree db graphID = some graph) (s : Server)
    (hs : GuardedRun.Reachable (step codec graphID) (fun s a ↦ staleSave codec graphID s a = false)
      (IsStart codec graphID db) s) :
    NoUpdateLost codec graphID graph.version (contentOf codec graph) s ∧
      ∀ a s', step codec graphID s a = some s' →
        (NoUpdateLost codec graphID graph.version (contentOf codec graph) s' ↔
          staleSave codec graphID s a = false) := by
  have hI : EditInv codec graphID graph.version (contentOf codec graph) s := by
    refine hs.invariant ?_ fun s a s' _ hI hok hstep ↦ (editInv_step hI hstep).1 hok
    rintro s rfl
    exact editInv_start hgraph
  refine ⟨hI.noUpdateLost, fun a s' hstep ↦ ⟨fun hsafe ↦ ?_, fun hok ↦ ?_⟩⟩
  · by_contra hstale
    exact (editInv_step hI hstep).2 (Bool.eq_true_of_not_eq_false hstale) hsafe
  · exact ((editInv_step hI hstep).1 hok).noUpdateLost

/-! ## Two requests at a time -/

/-- A tree at version 3 that one session has locked. -/
def pickRow : ActionGraph where
  id := "pick"
  name := "Pick"
  agentID := "robot1"
  version := 3
  lockedBy := "Kim"
  lockedAtMs := 1000
  lockExpiresAtMs := 301000
  lockSessionID := "session1"

def pickDatabase : Database where
  graphs := ⟨[pickRow], by decide⟩
  nodes := []

/-- The tree has no steps, so nothing is decoded. -/
def plainCodec : Codec where
  unmarshalSteps _ := .error "not asked"
  unmarshalPreconditions _ := .error "not asked"
  marshalAction _ := ""
  marshalWait _ := ""
  sha256 := id

def renamePick : Request := .updateBehaviorTree "" (some { name := "Pick up" })

def describePick : Request := .updateBehaviorTree "" (some { description := "bottles" })

/-- What of the tree the two updates and the heartbeat are about. -/
def pickSummary (s : Server) : Option (ℤ × String × String) :=
  (stored plainCodec "pick" s.db).map fun p ↦ (p.1, p.2.name, p.2.description)

theorem pick_isStart :
    IsStart plainCodec "pick" pickDatabase (start plainCodec "pick" pickDatabase) := rfl

/-- One update after the other: both are there, and the version counts both. -/
theorem sequentialUpdates_lose_nothing :
    ∃ s, GuardedRun.Reachable (step plainCodec "pick")
        (fun s a ↦ staleSave plainCodec "pick" s a = false) (IsStart plainCodec "pick" pickDatabase)
        s ∧
      pickSummary s = some (5, "Pick up", "bottles") ∧
      NoUpdateLost plainCodec "pick" 3 (contentOf plainCodec (treeOfRow pickRow)) s := by
  obtain ⟨s, hs, hsummary⟩ := GuardedRun.exists_reachable_of_run (step plainCodec "pick")
    (fun s a ↦ staleSave plainCodec "pick" s a = false)
    pick_isStart
    [.receive 0 renamePick 5 [] none, .save 0 6 none, .receive 1 describePick 7 [] none,
      .save 1 8 none]
    (P := fun s ↦ pickSummary s = some (5, "Pick up", "bottles")) (by decide)
  exact ⟨s, hs, hsummary, (concurrentEdits_lose_nothing plainCodec "pick" pickDatabase
    (treeOfRow pickRow) (by decide) s hs).1⟩

/-- **Two updates that overlap are both answered with success, and the first is gone; and a
heartbeat that overlaps with an update brings the older content back, with its version.** -/
theorem overlappingRequests_lose_updates :
    (∃ s, GuardedRun.Reachable (step plainCodec "pick") (fun _ _ ↦ True)
        (IsStart plainCodec "pick" pickDatabase) s ∧
      s.succeeded = 2 ∧ pickSummary s = some (4, "Pick", "bottles") ∧
      ¬ NoUpdateLost plainCodec "pick" 3 (contentOf plainCodec (treeOfRow pickRow)) s) ∧
    ∃ s, GuardedRun.Reachable (step plainCodec "pick") (fun _ _ ↦ True)
        (IsStart plainCodec "pick" pickDatabase) s ∧
      s.succeeded = 1 ∧ pickSummary s = some (3, "Pick", "") ∧
      ¬ NoUpdateLost plainCodec "pick" 3 (contentOf plainCodec (treeOfRow pickRow)) s := by
  have hlost {s : Server} {k : ℕ} {v : ℤ} {name description : String} (hk : s.succeeded = k)
      (hsummary : pickSummary s = some (v, name, description)) (hv : v ≠ 3 + k) :
      ¬ NoUpdateLost plainCodec "pick" 3 (contentOf plainCodec (treeOfRow pickRow)) s := by
    intro hsafe
    rw [pickSummary] at hsummary
    rw [hsafe.stored, hk] at hsummary
    exact hv (congrArg Prod.fst (Option.some.inj hsummary)).symm
  refine ⟨?_, ?_⟩
  · obtain ⟨s, hs, hk, hsummary⟩ := GuardedRun.exists_reachable_of_run (step plainCodec "pick")
      (fun _ _ ↦ True) pick_isStart
      [.receive 0 renamePick 5 [] none, .receive 1 describePick 6 [] none, .save 0 7 none,
        .save 1 8 none]
      (P := fun s ↦ s.succeeded = 2 ∧ pickSummary s = some (4, "Pick", "bottles")) (by decide)
    exact ⟨s, hs, hk, hsummary, hlost hk hsummary (by decide)⟩
  · obtain ⟨s, hs, hk, hsummary⟩ := GuardedRun.exists_reachable_of_run (step plainCodec "pick")
      (fun _ _ ↦ True) pick_isStart
      [.receive 0 (.heartbeatLock "session1") 5 [] none, .receive 1 renamePick 6 [] none,
        .save 1 7 none, .save 0 8 none]
      (P := fun s ↦ s.succeeded = 1 ∧ pickSummary s = some (3, "Pick", "")) (by decide)
    exact ⟨s, hs, hk, hsummary, hlost hk hsummary (by decide)⟩

end Api
end FleetServer
