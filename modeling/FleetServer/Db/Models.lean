import Mathlib.Data.Int.Notation
import Mathlib.Data.List.Dedup
import FleetServer.Lib.GoString

/-!
# The database models

The records of `internal/db/models.go` that a behavior tree is made of, and what the repository
computes of a list of steps before it writes a tree.  A `datatypes.JSON` field is the text it holds,
empty for none.  Of a step the transitions and the planning fields are left out, and the parameters,
the timeout and the result schema of an action are kept as JSON.
-/

set_option autoImplicit false

namespace FleetServer
namespace Db

open GoString

/-! ## Time -/

/-- A `time.Time`, in nanoseconds since the epoch. -/
abbrev Time := ℤ

/-- `t.UnixMilli()`. -/
def unixMilli (t : Time) : ℤ := t / 1000000

/-- `time.UnixMilli(ms)`. -/
def ofUnixMilli (ms : ℤ) : Time := ms * 1000000

/-- The zero `time.Time`. -/
def zeroTime : Time := -62135596800000000000

@[simp] theorem unixMilli_ofUnixMilli (ms : ℤ) : unixMilli (ofUnixMilli ms) = ms := by
  rw [unixMilli, ofUnixMilli]
  omega

/-- A millisecond lies before `t.UnixMilli()` when the one after it has begun at `t`. -/
theorem lt_unixMilli_iff {ms : ℤ} {t : Time} : ms < unixMilli t ↔ ofUnixMilli (ms + 1) ≤ t :=
  Int.lt_iff_add_one_le.trans (Int.le_ediv_iff_mul_le (by decide))

/-! ## Steps -/

structure StartCondition where
  id : String := ""
  operator : String := ""
  quantifier : String := ""
  targetType : String := ""
  agentID : String := ""
  state : String := ""
  stateOperator : String := ""
  allowedStates : List String := []
  requireOnline : Bool := false
  message : String := ""
  deriving DecidableEq, Repr

structure StepAction where
  type : String
  server : String
  capabilityKind : String := ""
  params : String := ""
  timeoutSec : String := ""
  resultSchema : String := ""
  deriving DecidableEq, Repr

structure WaitFor where
  type : String
  message : String := ""
  timeoutSec : String := ""
  deriving DecidableEq, Repr

structure BehaviorTreeStep where
  id : String
  name : String := ""
  jobName : String := ""
  type : String := ""
  terminalType : String := ""
  alert : Bool := false
  message : String := ""
  preStates : List String := []
  duringStates : List String := []
  successStates : List String := []
  failureStates : List String := []
  startConditions : List StartCondition := []
  action : Option StepAction := none
  waitFor : Option WaitFor := none
  deriving DecidableEq, Repr

/-- A condition on the start of a tree. -/
structure Precondition where
  type : String
  condition : String
  message : String
  deriving DecidableEq, Repr

/-- What the server takes from the JSON library and the hash library. -/
structure Codec where
  unmarshalSteps : String → Except String (List BehaviorTreeStep)
  unmarshalPreconditions : String → Except String (List Precondition)
  marshalAction : StepAction → String
  marshalWait : WaitFor → String
  sha256 : String → String

/-- The distinct action types of the steps.  The source collects them in a map and so in no
particular order; here they come in the order of their last use. -/
def extractActionTypesFromSteps (steps : List BehaviorTreeStep) : List String :=
  (steps.filterMap fun step ↦ step.action.bind fun action ↦
    if action.type ≠ "" then some action.type else none).dedup

def isSelfOnlyCondition (cond : StartCondition) : Bool :=
  if cond.quantifier ≠ "" ∧ toLower cond.quantifier ≠ "self" then false
  else if cond.targetType ≠ "" ∧ toLower cond.targetType ≠ "self" then false
  else if cond.agentID ≠ "" then false
  else true

def executionModeFromSteps (steps : List BehaviorTreeStep) : String :=
  if steps.any fun step ↦ step.startConditions.any fun cond ↦ !isSelfOnlyCondition cond then
    "server"
  else "agent"

/-! ## Behavior trees -/

/-- A behavior tree as the server holds it in memory.  A nullable text is `none` when it is not
`Valid`. -/
structure BehaviorTree where
  id : String
  name : String
  description : Option String := none
  agentID : Option String := none
  entryPoint : Option String := none
  preconditions : String := ""
  steps : String := ""
  version : ℤ := 0
  isTemplate : Bool := false
  templateCategory : Option String := none
  createdAt : Time := zeroTime
  updatedAt : Time := zeroTime
  requiredActionTypes : List String := []
  states : String := ""
  planningStates : String := ""
  planningTask : String := ""
  taskDistributorID : Option String := none
  lockedBy : Option String := none
  lockedAt : Option Time := none
  lockExpiresAt : Option Time := none
  lockSessionID : Option String := none
  deriving DecidableEq, Repr

/-- `ns.String` of a nullable text. -/
def nullString (ns : Option String) : String := ns.getD ""

def toNullString (val : String) : Option String := if val = "" then none else some val

@[simp] theorem nullString_toNullString (val : String) : nullString (toNullString val) = val := by
  rw [nullString, toNullString]
  split
  · rename_i h
    simp [h]
  · simp

/-- The tree without its lock, as every path that gives a lock up leaves it. -/
def BehaviorTree.clearLock (graph : BehaviorTree) : BehaviorTree :=
  { graph with lockedBy := none, lockedAt := none, lockExpiresAt := none, lockSessionID := none }

/-- What `UpdateBehaviorTree` resolves an entry point to: the one given, or else the first step. -/
def resolveEntryPoint (entryPoint : String) (steps : List BehaviorTreeStep) : String :=
  if entryPoint = "" then (steps.head?.map (·.id)).getD "" else entryPoint

@[simp] theorem resolveEntryPoint_resolveEntryPoint (entryPoint : String)
    (steps : List BehaviorTreeStep) :
    resolveEntryPoint (resolveEntryPoint entryPoint steps) steps =
      resolveEntryPoint entryPoint steps := by
  unfold resolveEntryPoint
  by_cases h : entryPoint = ""
  · rw [if_pos h]
    split <;> rfl
  · rw [if_neg h, if_neg h]

end Db
end FleetServer
