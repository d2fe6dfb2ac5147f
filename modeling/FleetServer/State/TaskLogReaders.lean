import FleetServer.State.TaskLog

/-!
# Reading the log of all tasks

`GetAgentLogs` and `GetRecentLogs` of `internal/state/task_log.go` go through the ring buffer
itself, from the slot that was written last backwards.  They follow the same history as
`GetTaskLogs`, but not the index of the tasks: what is cleared for a task is still found here, and
an entry is gone only once it is written over (`agentLogs_recentLogs_run`).
-/

set_option autoImplicit false

namespace FleetServer
namespace State

open RingBuffer

namespace TaskLogManager

/-- The loop of both readers, from the entry before the `n`-th down to the `start`-th. -/
def scanLogs (logs : List TaskLogEntry) (maxLogs start limit : ℕ) (keep : TaskLogEntry → Bool) :
    ℕ → List TaskLogEntry → List TaskLogEntry
  | 0, result => result
  | i + 1, result =>
    if start ≤ i ∧ result.length < limit then
      scanLogs logs maxLogs start limit keep i (result ++ (logs[i % maxLogs]?.filter keep).toList)
    else result

/-- A limit that is not positive is 100. -/
def readerLimit (limit : ℤ) : ℕ := if limit ≤ 0 then 100 else limit.toNat

variable (m : TaskLogManager)

def getAgentLogs (agentID : String) (limit : ℤ) : List TaskLogEntry :=
  scanLogs m.logs m.maxLogs (m.logIndex - m.maxLogs) (readerLimit limit)
    (fun entry ↦ entry.agentID = agentID) m.logIndex []

def getRecentLogs (limit : ℤ) : List TaskLogEntry :=
  scanLogs m.logs m.maxLogs (m.logIndex - m.maxLogs) (readerLimit limit)
    (fun entry ↦ entry.message ≠ "") m.logIndex []

end TaskLogManager

/-- A scan finds the entries from `start` on, the newest first, as many as it may. -/
theorem scanLogs_eq {logs added : List TaskLogEntry} {size start limit : ℕ}
    (h : Holds size logs added) (hstart : added.length ≤ start + size) (keep : TaskLogEntry → Bool)
    {n : ℕ} (hn : n ≤ added.length) {result : List TaskLogEntry} (hresult : result.length ≤ limit) :
    TaskLogManager.scanLogs logs size start limit keep n result =
      (result ++ ((added.drop (added.length - n)).take (n - start)).filter keep).take limit := by
  induction n generalizing result with
  | zero =>
    rw [TaskLogManager.scanLogs, Nat.zero_sub, List.take_zero, List.filter_nil, List.append_nil,
      List.take_of_length_le hresult]
  | succ n ih =>
    rw [TaskLogManager.scanLogs]
    split_ifs with hgo
    · obtain ⟨entry, hentry⟩ := exists_mem_numbered (show n < added.length by omega)
      have hslot : logs[n % size]? = some entry :=
        h.found _ hentry (show added.length ≤ n + size by omega)
      have hcount : n + 1 - start = (n - start) + 1 := by omega
      have hroom : (result ++ ((some entry).filter keep).toList).length ≤ limit := by
        have hone : ((some entry).filter keep).toList.length ≤ 1 := by
          cases hkeep : keep entry <;> simp [Option.filter, hkeep]
        rw [List.length_append]
        omega
      rw [hslot, ih (by omega) hroom, drop_of_mem_numbered hentry, hcount, List.take_succ_cons,
        List.append_assoc]
      refine congrArg (fun entries ↦ (result ++ entries).take limit) ?_
      cases hkeep : keep entry <;> simp [Option.filter, hkeep]
    · rcases not_and_or.mp hgo with hold | hfull
      · rw [show n + 1 - start = 0 by omega, List.take_zero, List.filter_nil, List.append_nil,
          List.take_of_length_le hresult]
      · rw [List.take_append_of_le_length (by omega), List.take_of_length_le (by omega)]

/-- **The readers of all tasks find what was logged last**: of the last 10000 entries those of the
agent, or those with a message, the newest first.  Clearing the logs of a task takes none away. -/
theorem agentLogs_recentLogs_run (calls : List TaskLogCall) (agentID : String) (limit : ℤ) :
    let m := calls.foldl TaskLogManager.call newTaskLogManager
    let h : TaskLogHistory := calls.foldl TaskLogHistory.call {}
    m.getAgentLogs agentID limit =
        ((h.added.take 10000).filter (·.agentID = agentID)).take
          (TaskLogManager.readerLimit limit) ∧
      m.getRecentLogs limit =
        ((h.added.take 10000).filter (·.message ≠ "")).take (TaskLogManager.readerLimit limit) := by
  intro m h
  have hF : Follows m h := Follows.calls calls follows_new
  have hlogs : m.maxLogs = 10000 := (sizes_calls calls newTaskLogManager).1
  have hscan : ∀ keep : TaskLogEntry → Bool,
      TaskLogManager.scanLogs m.logs m.maxLogs (m.logIndex - m.maxLogs)
          (TaskLogManager.readerLimit limit) keep m.logIndex [] =
        ((h.added.take 10000).filter keep).take (TaskLogManager.readerLimit limit) := by
    intro keep
    have hcount := hF.count
    rw [hcount, scanLogs_eq hF.holds (by omega) keep le_rfl (Nat.zero_le _), Nat.sub_self,
      List.drop_zero, List.nil_append]
    by_cases hfull : 10000 ≤ h.added.length
    · rw [hlogs, show h.added.length - (h.added.length - 10000) = 10000 by omega]
    · rw [hlogs, show h.added.length - (h.added.length - 10000) = h.added.length by omega,
        List.take_length, List.take_of_length_le (show h.added.length ≤ 10000 by omega)]
  exact ⟨hscan _, hscan _⟩

end State
end FleetServer
