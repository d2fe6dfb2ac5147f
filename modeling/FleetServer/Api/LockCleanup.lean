import Mathlib.Data.List.Forall2
import FleetServer.Db.Repository

/-!
# The cleanup of expired locks

`cleanupExpiredLocks` of `internal/api/behavior_tree_lock.go`, which a ticker calls every minute.
It reads the trees whose lock has expired through a query that fills the id, the name and the lock,
clears the lock, and writes each tree back through the function that writes a whole row.

`rows_cleanupExpiredLocks` and `nodes_cleanupExpiredLocks` say what that amounts to: the row of
every such tree is overwritten with empty values, and the nodes of its steps are deleted.  So the
cleanup touches nothing but locks exactly when there was nothing else to lose
(`cleanupExpiredLocks_onlyLocks_iff`).
-/

set_option autoImplicit false

namespace FleetServer
namespace Api

open Db

/-! ## The cleanup -/

/-- One round of the loop: the lock is checked once more against the loop's own clock, and a write
that fails is skipped. -/
def cleanupOne (codec : Codec) (now : Time) (writeNow : String → Time) (db : Database)
    (graph : BehaviorTree) : Database :=
  match graph.lockExpiresAt with
  | none => db
  | some expiresAt =>
    if expiresAt > now then db
    else
      match updateBehaviorTree codec (writeNow graph.id) graph.clearLock db with
      | .error _ => db
      | .ok db' => db'

/-- `cleanupExpiredLocks`.  The clock is read for the query, before the loop, and once for each
write. -/
def cleanupExpiredLocks (codec : Codec) (queryNow now : Time) (writeNow : String → Time)
    (db : Database) : Database :=
  (getBehaviorTreesWithExpiredLocks queryNow db).foldl (cleanupOne codec now writeNow) db

/-! ## What it should do -/

/-- The lock of the row has expired for both clock readings. -/
def lockExpired (queryNow now : Time) (g : ActionGraph) : Bool :=
  lockExpiredAt (unixMilli queryNow) g && !(ofUnixMilli g.lockExpiresAtMs > now)

/-- When the clock does not run backwards, the check in the loop adds nothing to the query. -/
theorem lockExpired_of_le {queryNow now : Time} (h : queryNow ≤ now) (g : ActionGraph) :
    lockExpired queryNow now g = lockExpiredAt (unixMilli queryNow) g := by
  rw [lockExpired]
  cases hq : lockExpiredAt (unixMilli queryNow) g with
  | false => rfl
  | true =>
    have hexp : g.lockExpiresAtMs < unixMilli queryNow := (of_decide_eq_true hq).2
    have hle : ofUnixMilli g.lockExpiresAtMs ≤ queryNow := by
      rw [lt_unixMilli_iff] at hexp
      exact (Int.mul_le_mul_of_nonneg_right (by omega) (by omega)).trans hexp
    have : ¬ ofUnixMilli g.lockExpiresAtMs > now := not_lt.mpr (hle.trans h)
    simp [this]

/-- The row with the four lock properties empty. -/
def clearLockRow (g : ActionGraph) : ActionGraph :=
  { g with lockedBy := "", lockedAtMs := 0, lockExpiresAtMs := 0, lockSessionID := "" }

/-- Nothing but locks has changed: the rows that are not expired are as they were, the expired ones
have lost their lock and bear the time of the write, and the nodes are as they were. -/
structure OnlyLocksChanged (expired : ActionGraph → Bool) (db db' : Database) : Prop where
  rows : List.Forall₂ (fun g g' ↦
    if expired g then ∃ ms, g' = { clearLockRow g with updatedAtMs := ms } else g' = g)
    db.graphs.rows db'.graphs.rows
  nodes : db'.nodes = db.nodes

/-- A row that holds an id, a name, timestamps and a lock, and nothing else. -/
structure HoldsNothing (g : ActionGraph) : Prop where
  description : g.description = ""
  agentID : g.agentID = ""
  entryPoint : g.entryPoint = ""
  version : g.version = 0
  isTemplate : g.isTemplate = false
  templateCategory : g.templateCategory = ""
  stepsJSON : g.stepsJSON = ""
  preconditionsJSON : g.preconditionsJSON = ""
  requiredActionTypes : g.requiredActionTypes = []
  executionMode : g.executionMode = "agent"
  checksum : g.checksum = ""
  schemaVersion : g.schemaVersion = "1.0.0"
  statesJSON : g.statesJSON = ""
  planningStatesJSON : g.planningStatesJSON = ""
  planningTaskJSON : g.planningTaskJSON = ""
  taskDistributorID : g.taskDistributorID = ""

/-! ## What it does -/

variable {codec : Codec} {queryNow now : Time} {writeNow : String → Time} {db : Database}

/-- What a tree that was read without its steps is written back as. -/
def wipeRow (codec : Codec) (writeNow : String → Time) (graph : BehaviorTree) :
    ActionGraph → ActionGraph :=
  setRow codec (writeNow graph.id) graph.clearLock []

theorem updateBehaviorTree_of_noSteps {graph : BehaviorTree} (h : graph.steps = "") (t : Time) :
    updateBehaviorTree codec t graph db = .ok {
      graphs := db.graphs.modify graph.id (setRow codec t graph []) (id_setRow codec t graph [])
      nodes := db.nodes.filter fun n ↦ n.graphID ≠ graph.id } := by
  rw [updateBehaviorTree, parseBehaviorTreeSteps]
  rw [if_pos h]
  simp [storeBehaviorTreeStructure]

/-- A loop of writes of trees without steps: every row named is wiped and every node of one is
deleted. -/
theorem foldl_cleanupOne {gs : List BehaviorTree} (hsteps : ∀ g ∈ gs, g.steps = "")
    (hexp : ∀ g ∈ gs, ∃ t, g.lockExpiresAt = some t ∧ ¬ t > now) :
    (gs.foldl (cleanupOne codec now writeNow) db).graphs =
        db.graphs.modifyAll BehaviorTree.id (wipeRow codec writeNow)
          (fun g ↦ id_setRow codec (writeNow g.id) g.clearLock []) gs ∧
      (gs.foldl (cleanupOne codec now writeNow) db).nodes =
        db.nodes.filter fun n ↦ ∀ g ∈ gs, n.graphID ≠ g.id := by
  induction gs generalizing db with
  | nil =>
    refine ⟨rfl, ?_⟩
    simp
  | cons g gs ih =>
    obtain ⟨t, ht, hle⟩ := hexp g List.mem_cons_self
    have hone : cleanupOne codec now writeNow db g = {
        graphs := db.graphs.modify g.id (wipeRow codec writeNow g)
          (id_setRow codec (writeNow g.id) g.clearLock [])
        nodes := db.nodes.filter fun n ↦ n.graphID ≠ g.id } := by
      rw [cleanupOne]
      rw [ht]
      dsimp only
      rw [if_neg hle, updateBehaviorTree_of_noSteps (show g.clearLock.steps = "" from
        hsteps g List.mem_cons_self)]
      rfl
    obtain ⟨hgraphs, hnodes⟩ := @ih (cleanupOne codec now writeNow db g)
      (fun g' hg' ↦ hsteps g' (List.mem_cons_of_mem g hg'))
      (fun g' hg' ↦ hexp g' (List.mem_cons_of_mem g hg'))
    rw [List.foldl_cons]
    refine ⟨?_, ?_⟩
    · rw [hgraphs, hone]
      rfl
    · rw [hnodes, hone, List.filter_filter]
      refine List.filter_congr fun n _ ↦ ?_
      rw [Bool.eq_iff_iff, Bool.and_eq_true, decide_eq_true_iff, decide_eq_true_iff,
        decide_eq_true_iff, List.forall_mem_cons, and_comm]

theorem lockExpiresAt_of_lockExpiredAt {g : ActionGraph} {nowMs : ℤ} (h : lockExpiredAt nowMs g) :
    (expiredTreeOfRow g).lockExpiresAt = some (ofUnixMilli g.lockExpiresAtMs) :=
  if_pos (of_decide_eq_true h).1

/-- The rounds of the loop that get past the second check are those of the expired rows. -/
theorem cleanupExpiredLocks_eq_foldl :
    cleanupExpiredLocks codec queryNow now writeNow db =
      ((db.graphs.rows.filter (lockExpired queryNow now)).map expiredTreeOfRow).foldl
        (cleanupOne codec now writeNow) db := by
  rw [cleanupExpiredLocks, getBehaviorTreesWithExpiredLocks]
  generalize db.graphs.rows = gs
  induction gs generalizing db with
  | nil => rfl
  | cons g gs ih =>
    cases hq : lockExpiredAt (unixMilli queryNow) g with
    | false => simpa [hq, lockExpired] using ih
    | true =>
      by_cases hexp : ofUnixMilli g.lockExpiresAtMs > now
      · -- the loop comes to the row and skips it
        have hskip : cleanupOne codec now writeNow db (expiredTreeOfRow g) = db := by
          rw [cleanupOne]
          rw [lockExpiresAt_of_lockExpiredAt hq]
          exact if_pos hexp
        simpa [hq, hexp, lockExpired, hskip] using ih
      · simpa [hq, hexp, lockExpired] using ih

/-- The loop reads of every expired row a tree without steps, and does not skip it. -/
theorem mem_expired {g : BehaviorTree}
    (h : g ∈ (db.graphs.rows.filter (lockExpired queryNow now)).map expiredTreeOfRow) :
    g.steps = "" ∧ ∃ t, g.lockExpiresAt = some t ∧ ¬ t > now := by
  obtain ⟨row, hrow, rfl⟩ := List.mem_map.mp h
  obtain ⟨hq, hexp⟩ := Bool.and_eq_true_iff.mp (List.mem_filter.mp hrow).2
  exact ⟨rfl, _, lockExpiresAt_of_lockExpiredAt hq, by simpa using hexp⟩

/-- **The cleanup overwrites the row of every expired tree with what it read of it.** -/
theorem rows_cleanupExpiredLocks :
    (cleanupExpiredLocks codec queryNow now writeNow db).graphs.rows =
      db.graphs.rows.map fun g ↦
        if lockExpired queryNow now g then wipeRow codec writeNow (expiredTreeOfRow g) g
        else g := by
  rw [cleanupExpiredLocks_eq_foldl, (foldl_cleanupOne (fun g hg ↦ (mem_expired hg).1)
    fun g hg ↦ (mem_expired hg).2).1]
  exact Table.rows_modifyAll_filter fun g ↦ rfl

/-- **The cleanup deletes the nodes of every expired tree.** -/
theorem nodes_cleanupExpiredLocks :
    (cleanupExpiredLocks codec queryNow now writeNow db).nodes =
      db.nodes.filter fun n ↦
        ∀ g ∈ db.graphs.rows, lockExpired queryNow now g → n.graphID ≠ g.id := by
  rw [cleanupExpiredLocks_eq_foldl, (foldl_cleanupOne (fun g hg ↦ (mem_expired hg).1)
    fun g hg ↦ (mem_expired hg).2).2]
  refine List.filter_congr fun n _ ↦ ?_
  rw [decide_eq_decide]
  simp only [List.forall_mem_map, List.mem_filter, and_imp]
  rfl

/-- **A wiped row keeps its id, its name and its creation time.** -/
theorem wipeRow_expiredTreeOfRow (g : ActionGraph) :
    wipeRow codec writeNow (expiredTreeOfRow g) g =
      { id := g.id, name := g.name, createdAtMs := g.createdAtMs,
        updatedAtMs := unixMilli (writeNow g.id) } := by
  rfl

/-- Wiping a row takes the lock alone exactly when the row held nothing else. -/
theorem wipeRow_eq_clearLockRow_iff {g : ActionGraph} :
    (∃ ms, wipeRow codec writeNow (expiredTreeOfRow g) g =
      { clearLockRow g with updatedAtMs := ms }) ↔ HoldsNothing g := by
  rw [wipeRow_expiredTreeOfRow]
  constructor
  · rintro ⟨ms, h⟩
    exact {
      description := (congrArg ActionGraph.description h).symm
      agentID := (congrArg ActionGraph.agentID h).symm
      entryPoint := (congrArg ActionGraph.entryPoint h).symm
      version := (congrArg ActionGraph.version h).symm
      isTemplate := (congrArg ActionGraph.isTemplate h).symm
      templateCategory := (congrArg ActionGraph.templateCategory h).symm
      stepsJSON := (congrArg ActionGraph.stepsJSON h).symm
      preconditionsJSON := (congrArg ActionGraph.preconditionsJSON h).symm
      requiredActionTypes := (congrArg ActionGraph.requiredActionTypes h).symm
      executionMode := (congrArg ActionGraph.executionMode h).symm
      checksum := (congrArg ActionGraph.checksum h).symm
      schemaVersion := (congrArg ActionGraph.schemaVersion h).symm
      statesJSON := (congrArg ActionGraph.statesJSON h).symm
      planningStatesJSON := (congrArg ActionGraph.planningStatesJSON h).symm
      planningTaskJSON := (congrArg ActionGraph.planningTaskJSON h).symm
      taskDistributorID := (congrArg ActionGraph.taskDistributorID h).symm }
  · intro h
    refine ⟨unixMilli (writeNow g.id), ?_⟩
    rw [clearLockRow]
    rw [h.description, h.agentID, h.entryPoint, h.version, h.isTemplate, h.templateCategory,
      h.stepsJSON, h.preconditionsJSON, h.requiredActionTypes, h.executionMode, h.checksum,
      h.schemaVersion, h.statesJSON, h.planningStatesJSON, h.planningTaskJSON, h.taskDistributorID]

/-- **A tree that is read whole loses its lock and nothing else**: so the release of a lock, and its
forced release, do what the cleanup is meant to do. -/
theorem setRow_clearLock_treeOfRow {steps : List BehaviorTreeStep} {g : ActionGraph} {t : Time}
    (h : Settled codec steps g) :
    setRow codec t (treeOfRow g).clearLock steps g =
      { clearLockRow g with updatedAtMs := unixMilli t } := by
  have hclear : setRow codec t (treeOfRow g).clearLock steps g =
      clearLockRow (setRow codec t (treeOfRow g) steps g) := rfl
  rw [hclear, setRow_treeOfRow h]
  rfl

/-- **The cleanup changes nothing but locks exactly when every tree whose lock has expired holds
nothing but its name and has no nodes.** -/
theorem cleanupExpiredLocks_onlyLocks_iff (codec : Codec) (queryNow now : Time)
    (writeNow : String → Time) (db : Database) :
    OnlyLocksChanged (lockExpired queryNow now) db
        (cleanupExpiredLocks codec queryNow now writeNow db) ↔
      ∀ g ∈ db.graphs.rows, lockExpired queryNow now g →
        HoldsNothing g ∧ ∀ n ∈ db.nodes, n.graphID ≠ g.id := by
  have hrows : List.Forall₂ (fun g g' ↦
        if lockExpired queryNow now g then ∃ ms, g' = { clearLockRow g with updatedAtMs := ms }
        else g' = g)
      db.graphs.rows (cleanupExpiredLocks codec queryNow now writeNow db).graphs.rows ↔
      ∀ g ∈ db.graphs.rows, lockExpired queryNow now g → HoldsNothing g := by
    rw [rows_cleanupExpiredLocks, List.forall₂_map_right_iff, List.forall₂_same]
    refine forall₂_congr fun g _ ↦ ?_
    cases hexp : lockExpired queryNow now g with
    | false => simp
    | true => simpa using wipeRow_eq_clearLockRow_iff
  have hnodes : (cleanupExpiredLocks codec queryNow now writeNow db).nodes = db.nodes ↔
      ∀ g ∈ db.graphs.rows, lockExpired queryNow now g → ∀ n ∈ db.nodes, n.graphID ≠ g.id := by
    rw [nodes_cleanupExpiredLocks, List.filter_eq_self]
    simp only [decide_eq_true_iff]
    exact ⟨fun h g hg hexp n hn ↦ h n hn g hg hexp, fun h n hn g hg hexp ↦ h g hg hexp n hn⟩
  constructor
  · intro h g hg hexp
    exact ⟨hrows.mp h.rows g hg hexp, hnodes.mp h.nodes g hg hexp⟩
  · intro h
    exact ⟨hrows.mpr fun g hg hexp ↦ (h g hg hexp).1, hnodes.mpr fun g hg hexp ↦ (h g hg hexp).2⟩

/-! ## A tree that is lost -/

/-- A tree of one step, at version 3, which somebody has left locked. -/
def leftLocked : ActionGraph where
  id := "pick"
  name := "Pick"
  agentID := "robot1"
  entryPoint := "grasp"
  version := 3
  stepsJSON := "[\x7b\"id\":\"grasp\",\"type\":\"terminal\",\"terminal_type\":\"success\"\x7d]"
  lockedBy := "Kim"
  lockedAtMs := 1000
  lockExpiresAtMs := 301000
  lockSessionID := "session1"

/-- The cleanup decodes and encodes nothing. -/
def idleCodec : Codec where
  unmarshalSteps _ := .error "not asked"
  unmarshalPreconditions _ := .error "not asked"
  marshalAction _ := ""
  marshalWait _ := ""
  sha256 := id

def leftLockedDatabase : Database where
  graphs := ⟨[leftLocked], by decide⟩
  nodes := [.terminal "pick" "grasp" 3 "success" "" false]

/-- What the cleanup that runs a minute after the lock has run out makes of it. -/
def leftLockedCleaned : Database :=
  cleanupExpiredLocks idleCodec 361000000000 361000000000
    (fun _ ↦ 361000000000) leftLockedDatabase

/-- **The tree has no version, no steps and no nodes any more.** -/
theorem leftLocked_is_wiped :
    ¬ OnlyLocksChanged (lockExpired 361000000000 361000000000) leftLockedDatabase
        leftLockedCleaned ∧
      leftLockedCleaned.nodes = [] ∧
      leftLockedCleaned.graphs.rows.map (·.stepsJSON) = [""] ∧
      leftLockedCleaned.graphs.rows.map (·.version) = [0] := by
  have hnodes : leftLockedCleaned.nodes = [] := by decide
  refine ⟨fun h ↦ ?_, hnodes, by decide, by decide⟩
  rw [h.nodes] at hnodes
  exact absurd hnodes (by decide)

end Api
end FleetServer
