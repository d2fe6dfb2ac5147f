import Mathlib.Data.Set.Insert
import FleetServer.Api.EditRequests
import FleetServer.Api.LockCleanup
import FleetServer.Lib.Leases

/-!
# Who owns the edit lock

The lock of one behavior tree, for any number of sessions.  The handlers of
`internal/api/behavior_tree_lock.go` read the row of the tree, look at the clock and at the lock
they have read, and write the whole row back; the cleanup does the same with the rows its query
finds.  Nothing is compared at the write.

A lock is a lease that its session has been told of (`told`).  `lock_exclusive` says in which runs
no handler takes it away before it expires: those in which no handler writes over a lock that
another session has acquired since the handler read the row.
-/

set_option autoImplicit false

namespace FleetServer
namespace Api

open Db GuardedRun

/-! ## Locks -/

/-- The lock of a tree as its readers see it: the session, and when it expires. -/
def editLock (graph : BehaviorTree) : Option (String × ℕ) :=
  match graph.lockSessionID, graph.lockExpiresAt with
  | some sessionID, some expiresAt => some (sessionID, expiresAt.toNat)
  | _, _ => none

def lockReading : Leases.Reading String (String × ℕ) := ⟨Prod.fst, Prod.snd⟩

/-- The tree is locked, at the time `now`, by a session that is not among `who`. -/
def LockedOutside (who : Set String) (now : ℕ) (lock : Option (String × ℕ)) : Prop :=
  Leases.HeldOutside lockReading who now (fun _ : Unit ↦ lock) ()

/-! ## Handlers -/

/-- A request of a session, or a round of the cleanup. -/
inductive LockRequest
  | session (request : Request)
  | cleanup
  deriving DecidableEq

/-- The session that asks. -/
def Request.lockSession : Request → String
  | .acquireLock body => (body.map (·.sessionID)).getD ""
  | .releaseLock sessionID => sessionID
  | .heartbeatLock sessionID => sessionID
  | _ => ""

/-- On whose behalf the lock is written.  The cleanup works for nobody. -/
def LockRequest.who : LockRequest → Set String
  | .session request => {request.lockSession}
  | .cleanup => ∅

/-- A handler that has read the tree, and one that is about to write it. -/
inductive LockStage
  | deciding (read : BehaviorTree)
  | saving (read graph : BehaviorTree)
  deriving DecidableEq

structure LockCall where
  request : LockRequest
  stage : LockStage
  deriving DecidableEq

structure LockServer where
  db : Database
  clock : ℕ
  calls : ℕ → Option LockCall := fun _ ↦ none
  /-- Until when a session has been told that it has the lock. -/
  told : String → Option ℕ

inductive LockAction
  | tick (d : ℕ)
  | read (k : ℕ) (request : LockRequest)
  | decide (k : ℕ) (executingAgents : List String)
  | save (k : ℕ) (fault : Option String)
  deriving DecidableEq

/-- What a handler goes on with after its read.  A request that is refused before it reads, or that
finds no tree, changes nothing. -/
def LockRequest.firstRead (db : Database) (now : Time) (graphID : String) :
    LockRequest → Option BehaviorTree
  | .session request =>
    if request.isContentUpdate ∨ (precheck request).isSome then none
    else Api.firstRead request db graphID
  | .cleanup => (getBehaviorTreesWithExpiredLocks now db).find? fun graph ↦ graph.id = graphID

/-- The tree a handler writes, if it does not refuse. -/
def LockRequest.decided (codec : Codec) (now : Time) (executingAgents : List String)
    (graphID : String) (read : BehaviorTree) : LockRequest → Option BehaviorTree
  | .session request =>
    match afterRead codec now executingAgents graphID request (some read) with
    | .proceed (.saving _ graph) => some graph
    | _ => none
  | .cleanup =>
    match read.lockExpiresAt with
    | none => none
    | some expiresAt => if expiresAt > now then none else some read.clearLock

/-- What the sessions have been told when a write has gone through: the answer to an acquisition and
to a heartbeat names the time in milliseconds. -/
def LockRequest.answered (graph : BehaviorTree) (told : String → Option ℕ) :
    LockRequest → String → Option ℕ
  | .session request => Function.update told request.lockSession
      (graph.lockExpiresAt.map fun expiresAt ↦ (ofUnixMilli (unixMilli expiresAt)).toNat)
  | .cleanup => told

namespace LockServer

variable (codec : Codec) (graphID : String) (s : LockServer)

/-- The lock in the row. -/
def lock : Option (String × ℕ) := (getBehaviorTree s.db graphID).bind editLock

def setCall (k : ℕ) (call : Option LockCall) : LockServer :=
  { s with calls := Function.update s.calls k call }

def step : LockAction → Option LockServer
  | .tick d => some { s with clock := s.clock + d }
  | .read k request =>
    if (s.calls k).isSome then none
    else (request.firstRead s.db s.clock graphID).map fun read ↦
      s.setCall k (some ⟨request, .deciding read⟩)
  | .decide k executingAgents =>
    match s.calls k with
    | some ⟨request, .deciding read⟩ => some (s.setCall k
        ((request.decided codec s.clock executingAgents graphID read).map fun graph ↦
          ⟨request, .saving read graph⟩))
    | _ => none
  | .save k fault =>
    match s.calls k with
    | some ⟨request, .saving _ graph⟩ =>
      match fault, updateBehaviorTree codec s.clock graph s.db with
      | none, .ok db => some { s.setCall k none with db, told := request.answered graph s.told }
      | _, _ => some (s.setCall k none)
    | _ => none

/-- No handler is under way, and the session that has the lock knows it. -/
def Initial : Prop := s.calls = (fun _ ↦ none) ∧
  ∀ a, s.told a = (s.lock graphID).bind fun l ↦ if l.1 = a then some l.2 else none

/-! ## What should hold -/

/-- The handler whose write goes through, and what it had read. -/
def saves : LockAction → Option (LockRequest × BehaviorTree)
  | .save k none =>
    match s.calls k with
    | some ⟨request, .saving read graph⟩ =>
      if (parseBehaviorTreeSteps codec graph).isOk then some (request, read) else none
    | _ => none
  | _ => none

/-- At most one session has been told that it has the lock, and it has not expired. -/
def Exclusive : Prop :=
  ∀ a b u v, s.told a = some u → s.told b = some v → s.clock < u → s.clock < v → a = b

/-- The step writes the lock although another session has been told that it has it. -/
def Intrudes (act : LockAction) : Prop :=
  ∃ request read, s.saves codec act = some (request, read) ∧
    ∃ a u, a ∉ request.who ∧ s.told a = some u ∧ s.clock < u

/-- The step writes over a lock of another session that was not there when the handler read the
row. -/
def Overwrites (act : LockAction) : Prop :=
  ∃ request read, s.saves codec act = some (request, read) ∧
    s.lock graphID ≠ editLock read ∧ LockedOutside request.who s.clock (s.lock graphID)

end LockServer

variable {codec : Codec} {graphID : String} {s s' : LockServer} {act : LockAction}
  {request : LockRequest} {read graph : BehaviorTree} {who : Set String} {now now' k : ℕ}

/-! ## Reading a lock -/

theorem lockedOutside_iff : LockedOutside who now (editLock graph) ↔ ∃ a expiresAt,
    graph.lockSessionID = some a ∧ graph.lockExpiresAt = some expiresAt ∧ a ∉ who ∧
      (now : ℤ) < expiresAt := by
  rw [editLock]
  constructor
  · rintro ⟨l, hl, hout, hlive⟩
    dsimp only at hl
    split at hl
    · rename_i a expiresAt ha he
      obtain rfl := Option.some.inj hl
      have hlive : now < expiresAt.toNat := hlive
      exact ⟨a, expiresAt, ha, he, hout, by omega⟩
    · exact absurd hl (by simp)
  · rintro ⟨a, expiresAt, ha, he, hout, hlive⟩
    rw [ha, he]
    exact ⟨(a, expiresAt.toNat), rfl, hout, show now < expiresAt.toNat by omega⟩

/-- A lock that has expired stays so. -/
theorem lockedOutside_anti {lock : Option (String × ℕ)} (hle : now ≤ now')
    (h : LockedOutside who now' lock) : LockedOutside who now lock := by
  obtain ⟨l, hl, hout, hlive⟩ := h
  exact ⟨l, hl, hout, by omega⟩

/-! ## What a handler decides -/

/-- The request names a session, and is one for the lock. -/
def LockRequest.Admitted : LockRequest → Prop
  | .session request => request.isContentUpdate = false ∧ precheck request = none
  | .cleanup => True

/-- The tree has a lock of the session that asks, or none. -/
inductive LockRequest.Writes (request : LockRequest) (graph : BehaviorTree) : Prop
  | lock {a : String} {expiresAt : Time} (hwho : request.who = {a}) (hne : a ≠ "")
      (ha : graph.lockSessionID = some a) (he : graph.lockExpiresAt = some expiresAt)
      (hpos : 0 < unixMilli expiresAt)
  | unlock (ha : graph.lockSessionID = none) (he : graph.lockExpiresAt = none)

/-- A handler that goes on has read a tree that nobody else has locked. -/
structure Decided (graphID : String) (now : ℕ) (request : LockRequest)
    (read graph : BehaviorTree) : Prop where
  id : graph.id = graphID
  free : ¬LockedOutside request.who now (editLock read)
  writes : request.Writes graph

theorem unixMilli_lockDuration (now : ℕ) : 0 < unixMilli ((now : ℤ) + lockDuration) := by
  rw [unixMilli, lockDuration]
  omega

theorem decided_acquire {executingAgents : List String} {req : LockAcquireRequest}
    (hne : req.sessionID ≠ "") (hid : read.id = graphID)
    (h : (LockRequest.session (.acquireLock (some req))).decided codec now executingAgents graphID
      read = some graph) :
    Decided graphID now (.session (.acquireLock (some req))) read graph := by
  rw [LockRequest.decided, afterRead, acquireLockHandler] at h
  split at h
  · rename_i hnext
    split at hnext
    · exact absurd hnext (by simp)
    split at hnext
    · exact absurd hnext (by simp)
    · rename_i hfree
      obtain ⟨-, rfl⟩ := Stage.saving.inj (Next.proceed.inj hnext)
      obtain rfl := Option.some.inj h
      refine ⟨hid, fun hlocked ↦ ?_, .lock rfl hne rfl rfl (unixMilli_lockDuration now)⟩
      obtain ⟨a, expiresAt, ha, he, hout, hlive⟩ := lockedOutside_iff.mp hlocked
      refine hfree ?_
      rw [lockedByOther, ha, he]
      exact decide_eq_true ⟨hlive, hout⟩
  · exact absurd h (by simp)

theorem decided_release {executingAgents : List String} {sessionID : String}
    (hid : read.id = graphID)
    (h : (LockRequest.session (.releaseLock sessionID)).decided codec now executingAgents graphID
      read = some graph) :
    Decided graphID now (.session (.releaseLock sessionID)) read graph := by
  rw [LockRequest.decided, afterRead, releaseLockHandler] at h
  split at h
  · rename_i hnext
    split at hnext
    · exact absurd hnext (by simp)
    · rename_i hown
      obtain ⟨-, rfl⟩ := Stage.saving.inj (Next.proceed.inj hnext)
      obtain rfl := Option.some.inj h
      refine ⟨hid, fun hlocked ↦ ?_, .unlock rfl rfl⟩
      obtain ⟨a, expiresAt, ha, -, hout, -⟩ := lockedOutside_iff.mp hlocked
      rw [ha, not_not] at hown
      exact hout (Option.some.inj hown)
  · exact absurd h (by simp)

theorem decided_heartbeat {executingAgents : List String} {sessionID : String}
    (hne : sessionID ≠ "") (hid : read.id = graphID)
    (h : (LockRequest.session (.heartbeatLock sessionID)).decided codec now executingAgents graphID
      read = some graph) :
    Decided graphID now (.session (.heartbeatLock sessionID)) read graph := by
  rw [LockRequest.decided, afterRead, heartbeatLockHandler] at h
  split at h
  · rename_i hnext
    split at hnext
    · exact absurd hnext (by simp)
    rename_i owner howner
    split at hnext
    · exact absurd hnext (by simp)
    rename_i hown
    split at hnext
    · exact absurd hnext (by simp)
    · obtain rfl : owner = sessionID := not_not.mp hown
      obtain ⟨-, rfl⟩ := Stage.saving.inj (Next.proceed.inj hnext)
      obtain rfl := Option.some.inj h
      refine ⟨hid, fun hlocked ↦ ?_, .lock rfl hne howner rfl (unixMilli_lockDuration now)⟩
      obtain ⟨a, expiresAt, ha, -, hout, -⟩ := lockedOutside_iff.mp hlocked
      exact hout (Option.some.inj (ha.symm.trans howner))
  · exact absurd h (by simp)

theorem decided_cleanup {executingAgents : List String} (hid : read.id = graphID)
    (h : LockRequest.cleanup.decided codec now executingAgents graphID read = some graph) :
    Decided graphID now .cleanup read graph := by
  rw [LockRequest.decided] at h
  split at h
  · exact absurd h (by simp)
  rename_i expiresAt he
  split at h
  · exact absurd h (by simp)
  · rename_i hexpired
    obtain rfl := Option.some.inj h
    refine ⟨hid, fun hlocked ↦ ?_, .unlock rfl rfl⟩
    obtain ⟨a, expiresAt', -, he', -, hlive⟩ := lockedOutside_iff.mp hlocked
    obtain rfl := Option.some.inj (he.symm.trans he')
    exact hexpired hlive

/-- **A handler writes only a tree that nobody else had locked when it was read.** -/
theorem decided_sound {executingAgents : List String} (hadmitted : request.Admitted)
    (hid : read.id = graphID)
    (h : request.decided codec now executingAgents graphID read = some graph) :
    Decided graphID now request read graph := by
  cases request with
  | cleanup => exact decided_cleanup hid h
  | session request =>
    obtain ⟨hkind, hpre⟩ := hadmitted
    cases request with
    | updateBehaviorTree | updateTemplate => exact absurd hkind (by simp [Request.isContentUpdate])
    | acquireLock body =>
      cases body with
      | none => exact absurd hpre (by simp [precheck])
      | some req => exact decided_acquire (by simpa [precheck] using hpre) hid h
    | releaseLock sessionID => exact decided_release hid h
    | heartbeatLock sessionID => exact decided_heartbeat (by simpa [precheck] using hpre) hid h

/-! ## What a write leaves -/

/-- The lock that a write leaves in the row. -/
theorem lock_updateBehaviorTree {db db' : Database} {t : Time}
    (h : updateBehaviorTree codec t graph db = .ok db') (hid : graph.id = graphID)
    (hrow : (getBehaviorTree db graphID).isSome = true) :
    ∃ row, getBehaviorTree db' graphID = some row ∧
      row.lockSessionID = toNullString (nullString graph.lockSessionID) ∧
      row.lockExpiresAt = toNullTime ((graph.lockExpiresAt.map unixMilli).getD 0) := by
  subst hid
  obtain ⟨steps, -, hfind⟩ := find?_updateBehaviorTree h
  rw [getBehaviorTree, Option.isSome_map] at hrow
  obtain ⟨row, hrow⟩ := Option.isSome_iff_exists.mp hrow
  rw [hrow, Option.map_some] at hfind
  exact ⟨_, by rw [getBehaviorTree, hfind, Option.map_some], rfl, rfl⟩

/-- The row and the sessions agree about a lock that has not expired. -/
structure LockServer.Agree (graphID : String) (s : LockServer) : Prop where
  held : ∀ a u, s.told a = some u → s.clock < u → s.lock graphID = some (a, u)
  told : ∀ a u, s.lock graphID = some (a, u) → s.clock < u → s.told a = some u

/-- **A write over a lock that nobody else has leaves the row and the sessions in agreement.** -/
theorem agree_written {db : Database} {t : Time} (hi : s.Agree graphID)
    (hrow : (getBehaviorTree s.db graphID).isSome = true)
    (hwrite : updateBehaviorTree codec t graph s.db = .ok db)
    (hid : graph.id = graphID) (hwrites : request.Writes graph)
    (hfree : ¬LockedOutside request.who s.clock (s.lock graphID)) :
    LockServer.Agree graphID
      { s.setCall k none with db, told := request.answered graph s.told } := by
  obtain ⟨row, hread, hsession, hexpires⟩ := lock_updateBehaviorTree hwrite hid hrow
  -- nobody else has been told of a lock that has not expired
  have hothers : ∀ a u, a ∉ request.who → s.told a = some u → ¬s.clock < u :=
    fun a u hout ha hlive ↦
    hfree ⟨(a, u), hi.held a u ha hlive, hout, hlive⟩
  have hlock : LockServer.lock graphID
      { s.setCall k none with db, told := request.answered graph s.told } = editLock row := by
    rw [LockServer.lock, hread, Option.bind_some]
  cases hwrites with
  | @lock b expiresAt hwho hne hb he hpos =>
    obtain ⟨req, rfl, rfl⟩ : ∃ req, request = .session req ∧ req.lockSession = b := by
      cases request with
      | cleanup => exact absurd hwho.symm (Set.singleton_ne_empty b)
      | session req => exact ⟨req, rfl, Set.singleton_injective hwho⟩
    have hrow' : editLock row =
        some (req.lockSession, (ofUnixMilli (unixMilli expiresAt)).toNat) := by
      rw [hb, nullString, Option.getD_some, toNullString, if_neg hne] at hsession
      rw [he, Option.map_some, Option.getD_some, toNullTime, if_pos hpos] at hexpires
      rw [editLock, hsession, hexpires]
    refine ⟨fun a u ha hlive ↦ ?_, fun a u ha hlive ↦ ?_⟩
    · rw [hlock, hrow']
      dsimp only [LockRequest.answered] at ha
      by_cases hself : a = req.lockSession
      · rw [hself, Function.update_self, he, Option.map_some] at ha
        rw [hself, Option.some.inj ha]
      · rw [Function.update_of_ne hself] at ha
        exact absurd hlive (hothers a u hself ha)
    · rw [hlock, hrow'] at ha
      obtain ⟨rfl, rfl⟩ := Prod.mk.inj (Option.some.inj ha)
      dsimp only [LockRequest.answered]
      rw [Function.update_self, he, Option.map_some]
  | unlock hnone he =>
    have hrow' : editLock row = none := by
      rw [hnone, nullString, Option.getD_none, toNullString, if_pos rfl] at hsession
      rw [editLock, hsession]
    refine ⟨fun a u ha hlive ↦ ?_, fun a u ha hlive ↦ ?_⟩
    · have hout : a ∉ request.who ∧ s.told a = some u := by
        cases request with
        | cleanup => exact ⟨Set.notMem_empty a, ha⟩
        | session req =>
          dsimp only [LockRequest.answered] at ha
          by_cases hself : a = req.lockSession
          · rw [hself, Function.update_self, he] at ha
            exact absurd ha (by simp)
          · rw [Function.update_of_ne hself] at ha
            exact ⟨hself, ha⟩
      exact absurd hlive (hothers a u hout.1 hout.2)
    · rw [hlock, hrow'] at ha
      exact absurd ha (by simp)

/-! ## Runs -/

/-- What holds of a handler under way. -/
inductive LockCall.Sound (graphID : String) (now : ℕ) : LockCall → Prop
  | deciding {request : LockRequest} {read : BehaviorTree} (hadmitted : request.Admitted)
      (hid : read.id = graphID) : LockCall.Sound graphID now ⟨request, .deciding read⟩
  | saving {request : LockRequest} {read graph : BehaviorTree}
      (h : Decided graphID now request read graph) :
      LockCall.Sound graphID now ⟨request, .saving read graph⟩

theorem LockCall.Sound.mono {call : LockCall} (h : call.Sound graphID now) (hle : now ≤ now') :
    call.Sound graphID now' := by
  cases h with
  | deciding hadmitted hid => exact .deciding hadmitted hid
  | saving h =>
    exact .saving { h with free := fun hlocked ↦ h.free (lockedOutside_anti hle hlocked) }

structure LockServer.Inv (graphID : String) (s : LockServer) : Prop where
  agree : s.Agree graphID
  calls : ∀ k call, s.calls k = some call →
    call.Sound graphID s.clock ∧ (getBehaviorTree s.db graphID).isSome = true

theorem LockServer.Inv.setCall (hi : s.Inv graphID) {call : Option LockCall}
    (hcall : ∀ c ∈ call, c.Sound graphID s.clock ∧ (getBehaviorTree s.db graphID).isSome = true) :
    (s.setCall k call).Inv graphID := by
  refine ⟨⟨hi.agree.held, hi.agree.told⟩, fun k' c hc ↦ ?_⟩
  dsimp only [LockServer.setCall] at hc
  by_cases hk : k' = k
  · rw [hk, Function.update_self] at hc
    exact hcall c hc
  · rw [Function.update_of_ne hk] at hc
    exact hi.calls k' c hc

/-- The tree that a handler reads is stored. -/
theorem firstRead_eq_some {db : Database} {t : Time}
    (h : request.firstRead db t graphID = some read) :
    request.Admitted ∧ read.id = graphID ∧ (getBehaviorTree db graphID).isSome = true := by
  cases request with
  | cleanup =>
    have hid : read.id = graphID := by simpa using List.find?_some h
    obtain ⟨row, hrow, rfl⟩ := List.mem_map.mp (List.mem_of_find?_eq_some h)
    have hfind : db.graphs.find? graphID = some row :=
      Table.find?_eq_some_iff.mpr ⟨(List.mem_filter.mp hrow).1, hid⟩
    exact ⟨trivial, hid, by rw [getBehaviorTree, hfind]; rfl⟩
  | session request =>
    rw [LockRequest.firstRead] at h
    split at h
    · exact absurd h (by simp)
    · rename_i hpre
      obtain ⟨hkind, hpre⟩ := not_or.mp hpre
      have hread : getBehaviorTree db graphID = some read := by
        cases request with
        | updateTemplate => exact absurd rfl hkind
        | _ => exact h
      obtain ⟨row, hrow, rfl⟩ := Option.map_eq_some_iff.mp hread
      exact ⟨⟨by simpa using hkind, by simpa using hpre⟩, (Table.find?_eq_some_iff.mp hrow).2,
        by rw [hread]; rfl⟩

theorem saves_eq_some (h : s.saves codec act = some (request, read)) :
    ∃ k graph, act = .save k none ∧ s.calls k = some ⟨request, .saving read graph⟩ := by
  cases act with
  | save k fault =>
    cases fault with
    | some err => exact absurd h (by simp [LockServer.saves])
    | none =>
      rw [LockServer.saves] at h
      split at h
      · rename_i request' read' graph hcall
        obtain ⟨-, heq⟩ := Option.ite_none_right_eq_some.mp h
        obtain ⟨rfl, rfl⟩ := Prod.mk.inj (Option.some.inj heq)
        exact ⟨k, graph, rfl, hcall⟩
      · exact absurd h (by simp)
  | _ => exact absurd h (by simp [LockServer.saves])

theorem decided_of_saves (hi : s.Inv graphID)
    (hcall : s.calls k = some ⟨request, .saving read graph⟩) :
    Decided graphID s.clock request read graph := by
  cases (hi.calls k _ hcall).1 with
  | saving h => exact h

/-- A handler that writes over the lock it has read does not take it from anybody. -/
theorem not_lockedOutside_of_not_overwrites (hi : s.Inv graphID)
    (hcall : s.calls k = some ⟨request, .saving read graph⟩)
    (hsave : s.saves codec act = some (request, read))
    (hok : ¬s.Overwrites codec graphID act) :
    ¬LockedOutside request.who s.clock (s.lock graphID) := by
  intro hlocked
  refine hok ⟨request, read, hsave, fun hsame ↦ ?_, hlocked⟩
  exact (decided_of_saves hi hcall).free (hsame ▸ hlocked)

/-- **A write takes a lock from a session exactly when it goes over a lock that was not there when
the handler read the row.** -/
theorem intrudes_iff (hi : s.Inv graphID) :
    s.Intrudes codec act ↔ s.Overwrites codec graphID act := by
  constructor
  · rintro ⟨request, read, hsave, a, u, hout, ha, hlive⟩
    obtain ⟨k, graph, -, hcall⟩ := saves_eq_some hsave
    have hlocked : LockedOutside request.who s.clock (s.lock graphID) :=
      ⟨(a, u), hi.agree.held a u ha hlive, hout, hlive⟩
    refine ⟨request, read, hsave, fun hsame ↦ ?_, hlocked⟩
    exact (decided_of_saves hi hcall).free (hsame ▸ hlocked)
  · rintro ⟨request, read, hsave, -, ⟨a, u⟩, hl, hout, hlive⟩
    exact ⟨request, read, hsave, a, u, hout, hi.agree.told a u hl hlive, hlive⟩

theorem inv_tick (hi : s.Inv graphID) (d : ℕ) :
    LockServer.Inv graphID { s with clock := s.clock + d } := by
  have hle : s.clock ≤ s.clock + d := by omega
  refine ⟨⟨fun a u ha hlive ↦ hi.agree.held a u ha (hle.trans_lt hlive),
    fun a u ha hlive ↦ hi.agree.told a u ha (hle.trans_lt hlive)⟩, fun k call hcall ↦ ?_⟩
  obtain ⟨hsound, hrow⟩ := hi.calls k call hcall
  exact ⟨hsound.mono hle, hrow⟩

theorem inv_save {fault : Option String} (hi : s.Inv graphID)
    (hok : ¬s.Overwrites codec graphID (.save k fault))
    (hs : s.step codec graphID (.save k fault) = some s') : s'.Inv graphID := by
  rw [LockServer.step] at hs
  split at hs
  · rename_i request read graph hcall
    have hended : (s.setCall k none).Inv graphID := hi.setCall (by simp)
    split at hs
    · rename_i db hwrite
      obtain rfl := Option.some.inj hs
      have hdecided := decided_of_saves hi hcall
      have hrow := (hi.calls k _ hcall).2
      have hsave : s.saves codec (.save k none) = some (request, read) := by
        obtain ⟨steps, hsteps, -⟩ := updateBehaviorTree_eq_ok hwrite
        rw [LockServer.saves, hcall]
        dsimp only
        rw [hsteps]
        exact if_pos rfl
      have hfree := not_lockedOutside_of_not_overwrites hi hcall hsave hok
      obtain ⟨row, hread, -⟩ := lock_updateBehaviorTree hwrite hdecided.id hrow
      refine ⟨agree_written hi.agree hrow hwrite hdecided.id hdecided.writes hfree,
        fun k' call hcall' ↦ ⟨(hended.calls k' call hcall').1, ?_⟩⟩
      dsimp only
      rw [hread]
      rfl
    · obtain rfl := Option.some.inj hs
      exact hended
  · exact absurd hs (by simp)

theorem inv_step (hi : s.Inv graphID) (hok : ¬s.Overwrites codec graphID act)
    (hs : s.step codec graphID act = some s') : s'.Inv graphID := by
  cases act with
  | tick d =>
    obtain rfl := Option.some.inj hs
    exact inv_tick hi d
  | read k request =>
    rw [LockServer.step] at hs
    split at hs
    · exact absurd hs (by simp)
    · obtain ⟨read, hread, rfl⟩ := Option.map_eq_some_iff.mp hs
      obtain ⟨hadmitted, hid, hrow⟩ := firstRead_eq_some hread
      refine hi.setCall fun c hc ↦ ?_
      obtain rfl := Option.some.inj hc
      exact ⟨.deciding hadmitted hid, hrow⟩
  | decide k executingAgents =>
    rw [LockServer.step] at hs
    split at hs
    · rename_i request read hcall
      obtain rfl := Option.some.inj hs
      obtain ⟨hsound, hrow⟩ := hi.calls k _ hcall
      cases hsound with
      | deciding hadmitted hid =>
        refine hi.setCall fun c hc ↦ ?_
        obtain ⟨graph, hgraph, rfl⟩ := Option.map_eq_some_iff.mp hc
        exact ⟨.saving (decided_sound hadmitted hid hgraph), hrow⟩
    · exact absurd hs (by simp)
  | save k fault => exact inv_save hi hok hs

theorem inv_init (h : s.Initial graphID) : s.Inv graphID := by
  obtain ⟨hcalls, htold⟩ := h
  refine ⟨⟨fun a u ha _ ↦ ?_, fun a u ha _ ↦ ?_⟩, fun k call hcall ↦ ?_⟩
  · rw [htold] at ha
    obtain ⟨⟨b, v⟩, hl, hself⟩ := Option.bind_eq_some_iff.mp ha
    obtain ⟨rfl, hv⟩ := Option.ite_none_right_eq_some.mp hself
    obtain rfl := Option.some.inj hv
    exact hl
  · rw [htold, ha, Option.bind_some, if_pos rfl]
  · rw [hcalls] at hcall
    exact absurd hcall (by simp)

/-- **At most one session owns the lock, and nobody else takes it away before it expires or its
owner releases it**, in the runs in which no handler writes over a lock of another session that was
not there when it read the row; the first such write takes the lock from its owner. -/
theorem lock_exclusive (codec : Codec) (graphID : String) {s : LockServer}
    (hr : Reachable (LockServer.step codec graphID) (fun s act ↦ ¬s.Overwrites codec graphID act)
      (LockServer.Initial graphID) s) :
    s.Exclusive ∧ ∀ act, s.Intrudes codec act ↔ s.Overwrites codec graphID act := by
  have hi : s.Inv graphID := hr.invariant (fun _ ↦ inv_init) fun _ _ _ _ hi hok hs ↦
    inv_step hi hok hs
  refine ⟨fun a b u v ha hb hu hv ↦ ?_, fun act ↦ intrudes_iff hi⟩
  have hheld := (hi.agree.held a u ha hu).symm.trans (hi.agree.held b v hb hv)
  exact (Prod.mk.inj (Option.some.inj hheld)).1

/-! ## Two sessions -/

instance (a : String) (request : LockRequest) : Decidable (a ∈ request.who) :=
  match request with
  | .session request => inferInstanceAs (Decidable (a = request.lockSession))
  | .cleanup => inferInstanceAs (Decidable False)

instance : Decidable (s.Overwrites codec graphID act) :=
  decidable_of_iff ((s.saves codec act).any fun p ↦ s.lock graphID ≠ editLock p.2 &&
    (s.lock graphID).any fun l ↦ l.1 ∉ p.1.who && s.clock < l.2) (by
    simp [LockServer.Overwrites, LockedOutside, Leases.HeldOutside, lockReading,
      Option.any_eq_true])

/-- A tree that nobody has locked. -/
def unlockedServer : LockServer where
  db := { graphs := ⟨[{ id := "pick", name := "Pick" }], by decide⟩, nodes := [] }
  clock := 0
  told := fun _ ↦ none

theorem initial_unlockedServer : unlockedServer.Initial "pick" :=
  ⟨rfl, fun _ ↦ rfl⟩

def acquireFor (sessionID : String) : LockRequest := .session (.acquireLock (some { sessionID }))

/-- The one session reads the row when the other has got the lock, and is refused. -/
theorem ann_owns : ∃ s : LockServer, (s.told "ann" = some 300000000000 ∧ s.told "bob" = none) ∧
    s.Exclusive ∧ ∀ act, s.Intrudes idleCodec act ↔ s.Overwrites idleCodec "pick" act := by
  obtain ⟨s, hr, htold⟩ := exists_reachable_of_run (LockServer.step idleCodec "pick")
    (fun s act ↦ ¬s.Overwrites idleCodec "pick" act) initial_unlockedServer
    [.read 0 (acquireFor "ann"), .decide 0 [], .save 0 none, .tick 1, .read 1 (acquireFor "bob"),
      .decide 1 []]
    (P := fun s ↦ s.told "ann" = some 300000000000 ∧ s.told "bob" = none) (by decide)
  exact ⟨s, htold, lock_exclusive idleCodec "pick" hr⟩

/-- **Two sessions that read the row before either has written it both get the lock.** -/
theorem two_owners : ∃ s, Reachable (LockServer.step idleCodec "pick") (fun _ _ ↦ True)
    (LockServer.Initial "pick") s ∧ ¬s.Exclusive := by
  obtain ⟨s, hr, hann, hbob, hclock⟩ := exists_reachable_of_run (LockServer.step idleCodec "pick")
    (fun _ _ ↦ True) initial_unlockedServer
    [.read 0 (acquireFor "ann"), .read 1 (acquireFor "bob"), .decide 0 [], .decide 1 [],
      .save 0 none, .save 1 none]
    (P := fun s ↦ s.told "ann" = some 300000000000 ∧ s.told "bob" = some 300000000000 ∧
      s.clock = 0) (by decide)
  refine ⟨s, hr, fun hone ↦ ?_⟩
  exact absurd (hone "ann" "bob" _ _ hann hbob (by omega) (by omega)) (by decide)

end Api
end FleetServer
