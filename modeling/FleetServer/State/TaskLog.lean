import FleetServer.Lib.RingBuffer
import FleetServer.Pddl.Types

/-!
# The log of the tasks

`TaskLogManager` of `internal/state/task_log.go` keeps the last `maxLogs` entries in a ring buffer
that grows up to this size, and for each task the slots of its entries, at most `maxPerTask`.

`TaskLogHistory` is what it is for: all entries ever added, and how many there were when the logs of
a task were cleared last.  After any calls of `AddLog` and `ClearTaskLogs`, `GetTaskLogs` reads off
the manager what it should read off the history (`getTaskLogs_run`).  An entry without a task is
logged for no task.
-/

set_option autoImplicit false

namespace FleetServer
namespace State

/-! ## Entries -/

/-- The zero time, in nanoseconds since 1970. -/
def zeroTime : ℤ := -62135596800 * 1000000000

structure TaskLogEntry where
  agentID : String := ""
  taskID : String := ""
  stepID : String := ""
  commandID : String := ""
  level : ℤ := 0
  levelStr : String := ""
  message : String := ""
  component : String := ""
  timestampMs : ℤ := 0
  timestamp : ℤ := zeroTime
  metadata : StringMap := ∅

def levelToString (level : ℤ) : String :=
  if level = 0 then "DEBUG"
  else if level = 1 then "INFO"
  else if level = 2 then "WARN"
  else if level = 3 then "ERROR"
  else "UNKNOWN"

/-- The entry as it is logged.  The clock is read twice. -/
def TaskLogEntry.logged (now now' : ℤ) (entry : TaskLogEntry) : TaskLogEntry :=
  let entry := if entry.timestamp = zeroTime then
    { entry with timestamp := entry.timestampMs * 1000000 } else entry
  let entry := if entry.timestampMs = 0 then
    { entry with timestampMs := now / 1000000, timestamp := now' } else entry
  { entry with levelStr := levelToString entry.level }

@[simp] theorem TaskLogEntry.taskID_logged (now now' : ℤ) (entry : TaskLogEntry) :
    (entry.logged now now').taskID = entry.taskID := by
  rw [logged]
  dsimp only
  split_ifs <;> rfl

/-! ## The manager -/

structure TaskLogManager where
  logs : List TaskLogEntry
  logIndex : ℕ := 0
  logCount : ℕ := 0
  taskLogs : String → Option (List ℕ) := fun _ ↦ none
  maxLogs : ℕ
  maxPerTask : ℕ

def newTaskLogManager : TaskLogManager :=
  { logs := List.replicate 1000 {}, maxLogs := 10000, maxPerTask := 500 }

/-- What `removeFromTaskIndex` leaves of the index. -/
def removeFromTaskIndex (taskLogs : String → Option (List ℕ)) (taskID : String) (idx : ℕ) :
    String → Option (List ℕ) :=
  let indices := ((taskLogs taskID).getD []).erase idx
  Function.update taskLogs taskID (if indices = [] then none else some indices)

namespace TaskLogManager

variable (m : TaskLogManager)

/-- The index without the entry that is written over. -/
def dropOverwritten (idx : ℕ) : String → Option (List ℕ) :=
  if m.maxLogs ≤ m.logIndex then
    let oldEntry := m.logs.getD idx {}
    if oldEntry.taskID ≠ "" then removeFromTaskIndex m.taskLogs oldEntry.taskID idx else m.taskLogs
  else m.taskLogs

/-- The slots of a task, without the oldest if they are too many. -/
def trim (indices : List ℕ) : List ℕ :=
  if m.maxPerTask < indices.length then indices.tail else indices

def addLog (now now' : ℤ) (entry : TaskLogEntry) : TaskLogManager :=
  let entry := entry.logged now now'
  let idx := m.logIndex % m.maxLogs
  let taskLogs := m.dropOverwritten idx
  { m with
    logs := RingBuffer.put m.logs idx entry
    taskLogs :=
      if entry.taskID ≠ "" then
        Function.update taskLogs entry.taskID
          (some (m.trim ((taskLogs entry.taskID).getD [] ++ [idx])))
      else taskLogs
    logIndex := m.logIndex + 1
    logCount := m.logCount + 1 }

def clearTaskLogs (taskID : String) : TaskLogManager :=
  { m with taskLogs := Function.update m.taskLogs taskID none }

/-- The loop of `GetTaskLogs` over the slots that are left, with the result so far. -/
def collectLogs (logs : List TaskLogEntry) (limit : ℤ) :
    List ℕ → List TaskLogEntry → List TaskLogEntry
  | [], result => result
  | idx :: rest, result =>
    let result := result ++ logs[idx]?.toList
    if 0 < limit ∧ limit ≤ result.length then result else collectLogs logs limit rest result

def getTaskLogs (taskID : String) (limit : ℤ) : List TaskLogEntry :=
  match m.taskLogs taskID with
  | none => []
  | some indices => collectLogs m.logs limit indices.reverse []

end TaskLogManager

inductive TaskLogCall
  | addLog (now now' : ℤ) (entry : TaskLogEntry)
  | clearTaskLogs (taskID : String)

def TaskLogManager.call (m : TaskLogManager) : TaskLogCall → TaskLogManager
  | .addLog now now' entry => m.addLog now now' entry
  | .clearTaskLogs taskID => m.clearTaskLogs taskID

/-! ## The history -/

/-- The entries added so far, the newest first, and how many there were when the logs of a task were
cleared last. -/
structure TaskLogHistory where
  added : List TaskLogEntry := []
  clearedAt : String → ℕ := fun _ ↦ 0

namespace TaskLogHistory

variable (h : TaskLogHistory)

def call : TaskLogCall → TaskLogHistory
  | .addLog now now' entry => { h with added := entry.logged now now' :: h.added }
  | .clearTaskLogs taskID =>
    { h with clearedAt := Function.update h.clearedAt taskID h.added.length }

/-- The entries of a task that are still kept: added since the logs of the task were cleared, among
the last `maxLogs` of all, and at most `maxPerTask` of them. -/
def taskLogs (maxLogs maxPerTask : ℕ) (taskID : String) : List TaskLogEntry :=
  (((h.added.take (h.added.length - h.clearedAt taskID)).take maxLogs).filter fun entry ↦
    entry.taskID = taskID).take maxPerTask

end TaskLogHistory

/-- A limit that is not positive is none. -/
def cutTo (limit : ℤ) (entries : List TaskLogEntry) : List TaskLogEntry :=
  if 0 < limit then entries.take limit.toNat else entries

/-! ## Reading the slots -/

open RingBuffer

theorem collectLogs_eq {logs entries : List TaskLogEntry} {limit : ℤ} {indices : List ℕ}
    (hfound : List.Forall₂ (fun idx entry ↦ logs[idx]? = some entry) indices entries) :
    ∀ {result : List TaskLogEntry}, (0 < limit → result.length < limit) →
      TaskLogManager.collectLogs logs limit indices result = cutTo limit (result ++ entries) := by
  induction hfound with
  | nil =>
    intro result hlimit
    rw [TaskLogManager.collectLogs, cutTo, List.append_nil]
    split
    · rename_i hpos
      have := hlimit hpos
      rw [List.take_of_length_le (by omega)]
    · rfl
  | @cons idx entry indices entries hidx _ ih =>
    intro result hlimit
    rw [TaskLogManager.collectLogs, hidx]
    split
    · rename_i hfull
      have hroom := hlimit hfull.1
      have hlength : (result ++ [entry]).length = limit.toNat := by
        have hle := hfull.2
        rw [Option.toList_some, List.length_append, List.length_singleton] at hle
        rw [List.length_append, List.length_singleton]
        omega
      rw [cutTo, if_pos hfull.1, List.append_cons, ← hlength, List.take_left]
      rfl
    · rename_i hroom
      have hnext : 0 < limit → ((result ++ [entry]).length : ℤ) < limit := fun hpos ↦ by
        by_contra hge
        exact hroom ⟨hpos, not_lt.mp hge⟩
      rw [Option.toList_some, ih hnext, ← List.append_cons]

/-! ## The manager follows the history -/

/-- What the index keeps for a task. -/
def TaskLogHistory.kept (h : TaskLogHistory) (m : TaskLogManager) (taskID : String) :
    List (ℕ × TaskLogEntry) :=
  keptAt m.maxLogs m.maxPerTask (h.clearedAt taskID) TaskLogEntry.taskID h.added taskID

structure Follows (m : TaskLogManager) (h : TaskLogHistory) : Prop where
  sizes : 0 < m.maxLogs
  count : m.logIndex = h.added.length
  cleared : ∀ taskID, h.clearedAt taskID ≤ h.added.length
  holds : Holds m.maxLogs m.logs h.added
  index : ∀ taskID, taskID ≠ "" →
    (m.taskLogs taskID).getD [] = slotsAt m.maxLogs (h.kept m taskID)
  unnamed : m.taskLogs "" = none

variable {m : TaskLogManager} {h : TaskLogHistory}

/-- The index without the entry that is written over lists what stays. -/
theorem Follows.dropOverwritten (hF : Follows m h) {taskID : String} (htask : taskID ≠ "") :
    (m.dropOverwritten (m.logIndex % m.maxLogs) taskID).getD [] =
      slotsAt m.maxLogs
        ((h.kept m taskID).filter fun e ↦ h.added.length + 1 - m.maxLogs ≤ e.1) := by
  rw [TaskLogManager.dropOverwritten, hF.count]
  split
  · rename_i hfull
    obtain ⟨old, hold, hslot⟩ := hF.holds.overwritten hF.sizes hfull
    have hread : m.logs.getD (h.added.length % m.maxLogs) {} = old := by
      rw [List.getD_eq_getElem?_getD, hslot, Option.getD_some]
    rw [hread]
    dsimp only
    by_cases hsame : old.taskID = taskID
    · rw [if_pos (hsame ▸ htask), removeFromTaskIndex, hsame, Function.update_self,
        hF.index taskID htask, TaskLogHistory.kept, erase_slotsAt hF.sizes hfull]
      split
      · rename_i hnil
        rw [hnil]
        rfl
      · rfl
    · have hstay : (h.kept m taskID).filter (fun e ↦ h.added.length + 1 - m.maxLogs ≤ e.1) =
          h.kept m taskID := by
        rw [List.filter_eq_self]
        intro e he
        obtain ⟨hmem, -, hlast, hkey⟩ := mem_keptAt he
        have hne : e.1 ≠ h.added.length - m.maxLogs := fun heq ↦ by
          have hold' : (e.1, old) ∈ numbered h.added := heq ▸ hold
          rw [← eq_of_mem_numbered hmem hold'] at hsame
          exact hsame hkey
        rw [decide_eq_true_eq]
        omega
      rw [hstay, ← hF.index taskID htask]
      split
      · rw [removeFromTaskIndex, Function.update_of_ne (Ne.symm hsame)]
      · rfl
  · rename_i hroom
    have hstay : (h.kept m taskID).filter (fun e ↦ h.added.length + 1 - m.maxLogs ≤ e.1) =
        h.kept m taskID := by
      rw [List.filter_eq_self]
      intro e _
      rw [decide_eq_true_eq]
      omega
    rw [hstay, hF.index taskID htask]

/-- Beyond the size for a task there is the oldest slot only. -/
theorem trim_slotsAt (kept : List (ℕ × TaskLogEntry)) (hlength : kept.length ≤ m.maxPerTask + 1) :
    m.trim (slotsAt m.maxLogs kept) = slotsAt m.maxLogs (kept.take m.maxPerTask) := by
  have hslots : (slotsAt m.maxLogs kept).length = kept.length := by
    rw [slotsAt, List.length_reverse, List.length_map]
  rw [TaskLogManager.trim, hslots]
  split
  · have hdrop : m.maxPerTask = kept.length - 1 := by omega
    rw [slotsAt, slotsAt, List.tail_reverse, List.dropLast_eq_take, List.length_map, List.map_take,
      hdrop]
  · rw [List.take_of_length_le (by omega)]

theorem Follows.addLog (hF : Follows m h) (now now' : ℤ) (entry : TaskLogEntry) :
    Follows (m.addLog now now' entry) (h.call (.addLog now now' entry)) := by
  have hcons : ∀ taskID, (h.call (.addLog now now' entry)).kept (m.addLog now now' entry) taskID =
      (let rest := (h.kept m taskID).filter fun e ↦ h.added.length + 1 - m.maxLogs ≤ e.1
      if entry.taskID = taskID then (h.added.length, entry.logged now now') :: rest
      else rest).take m.maxPerTask := fun taskID ↦ by
    rw [← TaskLogEntry.taskID_logged now now' entry]
    exact keptAt_cons hF.sizes (hF.cleared taskID) _
  have hrest : ∀ taskID, ((h.kept m taskID).filter fun e ↦
      h.added.length + 1 - m.maxLogs ≤ e.1).length ≤ m.maxPerTask := fun taskID ↦
    (List.length_filter_le _ _).trans length_keptAt_le
  refine
    { sizes := hF.sizes
      count := by simp [TaskLogManager.addLog, TaskLogHistory.call, hF.count]
      cleared := fun taskID ↦ (hF.cleared taskID).trans (Nat.le_succ _)
      holds := by
        have hput := hF.holds.put hF.sizes (entry.logged now now')
        rw [← hF.count] at hput
        exact hput
      index := fun taskID htask ↦ ?_
      unnamed := ?_ }
  · rw [hcons, TaskLogManager.addLog]
    dsimp only
    rw [TaskLogEntry.taskID_logged]
    by_cases hsame : entry.taskID = taskID
    · subst hsame
      have hlength := hrest entry.taskID
      rw [if_pos htask, if_pos rfl, Function.update_self, Option.getD_some,
        hF.dropOverwritten htask, ← trim_slotsAt _ (by rw [List.length_cons]; omega), slotsAt,
        slotsAt, List.map_cons, List.reverse_cons, hF.count]
    · rw [if_neg hsame, List.take_of_length_le (hrest taskID), ← hF.dropOverwritten htask]
      split
      · rw [Function.update_of_ne (Ne.symm hsame)]
      · rfl
  · have hnone : m.dropOverwritten (m.logIndex % m.maxLogs) "" = none := by
      rw [TaskLogManager.dropOverwritten]
      split
      · dsimp only
        split
        · rename_i hnamed
          rw [removeFromTaskIndex, Function.update_of_ne (Ne.symm hnamed)]
          exact hF.unnamed
        · exact hF.unnamed
      · exact hF.unnamed
    rw [TaskLogManager.addLog]
    dsimp only
    split
    · rename_i hnamed
      rw [Function.update_of_ne (Ne.symm hnamed)]
      exact hnone
    · exact hnone

theorem Follows.clearTaskLogs (hF : Follows m h) (taskID : String) :
    Follows (m.clearTaskLogs taskID) (h.call (.clearTaskLogs taskID)) := by
  refine
    { sizes := hF.sizes
      count := hF.count
      cleared := fun taskID' ↦ ?_
      holds := hF.holds
      index := fun taskID' htask ↦ ?_
      unnamed := ?_ }
  · rw [TaskLogHistory.call]
    dsimp only
    by_cases hsame : taskID' = taskID
    · rw [hsame, Function.update_self]
    · rw [Function.update_of_ne hsame]
      exact hF.cleared taskID'
  · rw [TaskLogManager.clearTaskLogs]
    dsimp only
    by_cases hsame : taskID' = taskID
    · have hnil : (h.call (.clearTaskLogs taskID)).kept (m.clearTaskLogs taskID) taskID = [] := by
        refine List.eq_nil_iff_forall_not_mem.mpr fun e he ↦ ?_
        obtain ⟨hmem, hsince, -, -⟩ := mem_keptAt he
        have hlt := lt_of_mem_numbered hmem
        rw [TaskLogHistory.call] at hsince hlt
        dsimp only at hsince hlt
        rw [Function.update_self] at hsince
        omega
      have hkept := congrArg (slotsAt m.maxLogs) hnil
      rw [hsame, Function.update_self]
      exact hkept.symm
    · have hkept : (h.call (.clearTaskLogs taskID)).kept (m.clearTaskLogs taskID) taskID' =
          h.kept m taskID' := by
        rw [TaskLogHistory.kept, TaskLogHistory.call]
        dsimp only
        rw [Function.update_of_ne hsame]
        rfl
      have hslots := hF.index taskID' htask
      rw [← hkept] at hslots
      rw [Function.update_of_ne hsame]
      exact hslots
  · rw [TaskLogManager.clearTaskLogs]
    dsimp only
    by_cases hsame : "" = taskID
    · rw [← hsame, Function.update_self]
    · rw [Function.update_of_ne hsame]
      exact hF.unnamed

theorem Follows.call (hF : Follows m h) (c : TaskLogCall) : Follows (m.call c) (h.call c) := by
  cases c with
  | addLog now now' entry => exact hF.addLog now now' entry
  | clearTaskLogs taskID => exact hF.clearTaskLogs taskID

theorem Follows.calls (calls : List TaskLogCall) :
    ∀ {m : TaskLogManager} {h : TaskLogHistory}, Follows m h →
      Follows (calls.foldl TaskLogManager.call m) (calls.foldl TaskLogHistory.call h) := by
  induction calls with
  | nil => exact id
  | cons c calls ih => exact fun hF ↦ ih (hF.call c)

theorem follows_new : Follows newTaskLogManager {} :=
  { sizes := by decide
    count := rfl
    cleared := fun _ ↦ le_rfl
    holds := holds_nil _
    index := fun _ _ ↦ rfl
    unnamed := rfl }

/-- The sizes stay what they are. -/
theorem sizes_calls (calls : List TaskLogCall) (m : TaskLogManager) :
    (calls.foldl TaskLogManager.call m).maxLogs = m.maxLogs ∧
      (calls.foldl TaskLogManager.call m).maxPerTask = m.maxPerTask := by
  induction calls generalizing m with
  | nil => exact ⟨rfl, rfl⟩
  | cons c calls ih =>
    rw [List.foldl_cons]
    cases c with
    | addLog now now' entry => exact ih (m.addLog now now' entry)
    | clearTaskLogs taskID => exact ih (m.clearTaskLogs taskID)

/-- The slots of a task hold what is kept for it. -/
theorem Follows.getTaskLogs (hF : Follows m h) {taskID : String} (htask : taskID ≠ "")
    (limit : ℤ) :
    m.getTaskLogs taskID limit = cutTo limit (h.taskLogs m.maxLogs m.maxPerTask taskID) := by
  have hfound : List.Forall₂ (fun idx entry ↦ m.logs[idx]? = some entry)
      ((m.taskLogs taskID).getD []).reverse ((h.kept m taskID).map Prod.snd) := by
    rw [hF.index taskID htask, slotsAt, List.reverse_reverse, List.forall₂_map_left_iff,
      List.forall₂_map_right_iff, List.forall₂_same]
    intro e he
    obtain ⟨hmem, -, hlast, -⟩ := mem_keptAt he
    exact hF.holds.found e hmem hlast
  rw [TaskLogHistory.kept, map_keptAt] at hfound
  have hcollected : TaskLogManager.collectLogs m.logs limit
      ((m.taskLogs taskID).getD []).reverse [] = cutTo limit ([] ++ _) :=
    collectLogs_eq hfound fun hpos ↦ hpos
  rw [List.nil_append] at hcollected
  rw [TaskLogManager.getTaskLogs, TaskLogHistory.taskLogs, ← hcollected]
  cases m.taskLogs taskID with
  | none => rfl
  | some indices => rfl

/-- **`GetTaskLogs` reads off the manager** what is kept of the entries of a task, after any calls.
No entry belongs to the task without a name, and a limit that is not positive cuts nothing. -/
theorem getTaskLogs_run (calls : List TaskLogCall) (taskID : String) (limit : ℤ) :
    (calls.foldl TaskLogManager.call newTaskLogManager).getTaskLogs taskID limit =
      if taskID = "" then []
      else cutTo limit ((calls.foldl TaskLogHistory.call {}).taskLogs 10000 500 taskID) := by
  have hF := Follows.calls calls follows_new
  obtain ⟨hlogs, hper⟩ := sizes_calls calls newTaskLogManager
  split
  · rename_i hunnamed
    rw [hunnamed, TaskLogManager.getTaskLogs, hF.unnamed]
  · rename_i htask
    rw [hF.getTaskLogs htask, hlogs, hper]
    rfl

/-- An entry of a task, and one of no task. -/
def oneOfEach : List TaskLogCall :=
  [.addLog 0 0 { taskID := "t", message := "moving" }, .addLog 0 0 { message := "idle" }]

/-- A limit of 0 is no limit, and what is logged without a task is not found again. -/
theorem getTaskLogs_limit_zero :
    (oneOfEach.foldl TaskLogManager.call newTaskLogManager).getTaskLogs "t" 0 ≠
        ((oneOfEach.foldl TaskLogHistory.call {}).taskLogs 10000 500 "t").take 0 ∧
      (oneOfEach.foldl TaskLogManager.call newTaskLogManager).getTaskLogs "" 1 ≠
        ((oneOfEach.foldl TaskLogHistory.call {}).taskLogs 10000 500 "").take 1 := by
  refine ⟨fun heq ↦ ?_, fun heq ↦ ?_⟩
  · have hlength := congrArg List.length heq
    revert hlength
    decide +kernel
  · have hlength := congrArg List.length heq
    revert hlength
    decide +kernel

end State
end FleetServer
