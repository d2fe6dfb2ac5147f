import FleetServer.Graph.SchemaConverter

/-!
# From the canonical graph back to a stored tree

`ToDBModel` of `internal/graph/converter.go`, and what is left of a graph that `FromDBModel` made of
a tree when it is made of what `ToDBModel` makes of it.

A vertex comes back as it was (`stepToVertex_vertexToStep`).  The edges of a step come back up to
the one for a failure: `rebuiltEdges` says what comes back.  So a graph comes back when each of its
steps does (`edges_rebuild_iff`), and `Step.Survives` says of the step alone when it does.
-/

set_option autoImplicit false

namespace FleetServer
namespace Schema

open FleetServer.Graph Db GoString

/-! ## The conversion -/

/-- The outcome and the state of a condition, and whether there is one of the two. -/
def decodeOutcomeCondition (codec : Codec) (raw : String) : String × String × Bool :=
  let raw := trimSpace raw
  if raw = "" ∨ !hasPrefix raw "\x7b" then ("", "", false)
  else match codec.unmarshalStrings raw with
    | none => ("", "", false)
    | some payload =>
      let outcome := trimSpace ((payload.lookup "outcome").getD "")
      let state := trimSpace ((payload.lookup "state").getD "")
      (outcome, state, outcome ≠ "" || state ≠ "")

/-- The value under `on_failure` for an edge.  The numbers of the configuration are written as they
are, and read as `float64` when the step is read again. -/
def failureValue (e : Edge) : TransitionValue :=
  match e.config with
  | some cfg =>
    if 0 < cfg.retry ∨ 0 < cfg.backoffMs then
      .object
        { retry := some cfg.retry, fallback := some e.toID
          backoffMs := if 0 < cfg.backoffMs then some (cfg.backoffMs : ℚ) else none }
    else .string e.toID
  | none => .string e.toID

/-- The condition in the configuration, if there is one. -/
def Edge.condition (e : Edge) : String := (e.config.map (·.condition)).getD ""

/-- One round of the loop over the edges of a vertex. -/
def addEdge (codec : Codec) (transition : StepTransition) (e : Edge) : StepTransition :=
  match e.type with
  | .onSuccess => { transition with onSuccess := .string e.toID }
  | .onFailure => { transition with onFailure := failureValue e }
  | .onTimeout => { transition with onTimeout := e.toID }
  | .onConfirm => { transition with onConfirm := e.toID }
  | .onCancel => { transition with onCancel := e.toID }
  | .conditional =>
    let decoded := decodeOutcomeCondition codec e.condition
    { transition with
      onOutcomes := transition.onOutcomes ++
        [{ outcome := decoded.1, next := e.toID, state := decoded.2.1 }] }

def buildTransitionFromEdges (codec : Codec) (vertexID : String) (cg : CanonicalGraph) :
    Option StepTransition :=
  let edges := cg.getOutgoingEdges vertexID
  if edges = [] then none else some (edges.foldl (addEdge codec) {})

/-- A terminal step has no transition. -/
def vertexToStep (codec : Codec) (cg : CanonicalGraph) (v : Vertex) : Step :=
  match v.type, v.terminal, v.step with
  | .terminal, some terminal, _ =>
    { id := v.id, name := v.name, type := "terminal", terminalType := terminal.terminalType
      alert := terminal.alert, message := terminal.message }
  | _, _, some data =>
    { id := v.id, name := v.name, jobName := data.jobName
      preStates := data.states.pre, duringStates := data.states.during
      successStates := data.states.success, failureStates := data.states.failure
      endStates := data.endStates
      action := data.action.map fun action ↦
        { type := action.type, server := action.server, params := action.params
          timeoutSec := action.timeoutSec }
      waitFor := data.wait.map fun wait ↦
        { type := wait.type, message := wait.message, timeoutSec := wait.timeoutSec }
      resourceAcquire := data.resourceAcquire, resourceRelease := data.resourceRelease
      planningPreconditions := data.planningPreconditions
      planningEffects := data.planningEffects, planningDuring := data.planningDuring
      transition := buildTransitionFromEdges codec v.id cg }
  | _, _, none => { id := v.id, name := v.name }

/-- The steps of a graph, as they are stored. -/
def dbSteps (codec : Codec) (cg : CanonicalGraph) : List Step :=
  cg.vertices.map (vertexToStep codec cg)

def toDBModel (codec : Codec) (now : Time) (cg : CanonicalGraph) : BehaviorTree where
  id := cg.behaviorTree.id
  name := cg.behaviorTree.name
  version := cg.behaviorTree.version
  steps := codec.marshalSteps (dbSteps codec cg)
  createdAt := cg.behaviorTree.createdAt
  updatedAt := now
  description := toNullString cg.behaviorTree.description
  agentID := toNullString cg.behaviorTree.agentID
  entryPoint := toNullString cg.entryPoint

/-! ## What is kept of a value -/

/-- The step that a value under `on_success` names. -/
def TransitionValue.successNext : TransitionValue → Option String
  | .string next => some next
  | .object fields => fields.next
  | _ => none

/-- The step that a value under `on_failure` names. -/
def TransitionValue.failureNext : TransitionValue → Option String
  | .string next => some next
  | .object fields => fields.fallback.or fields.next
  | _ => none

def TransitionFields.retries (fields : TransitionFields) : ℤ :=
  (fields.retry.map truncate).getD 0

def TransitionFields.backoff (fields : TransitionFields) : ℤ :=
  (fields.backoffMs.map truncate).getD 0

/-- An object names no step, or it names a fallback, and says how to retry before it is taken. -/
def TransitionValue.Kept : TransitionValue → Prop
  | .object fields =>
    fields.fallback = none ∧ fields.next = none ∨
      fields.fallback ≠ none ∧ 0 ≤ fields.backoff ∧ (0 < fields.retries ∨ 0 < fields.backoff)
  | _ => True

/-- The value under `on_failure` that stands for another one after both conversions. -/
def TransitionValue.rebuiltFailure : TransitionValue → TransitionValue
  | .string next => .string next
  | .object fields =>
    match fields.fallback.or fields.next with
    | none => .null
    | some next =>
      if 0 < fields.retries ∨ 0 < fields.backoff then
        .object
          { retry := some fields.retries, fallback := some next
            backoffMs := if 0 < fields.backoff then some (fields.backoff : ℚ) else none }
      else .string next
  | _ => .null

/-- An outcome after both conversions. -/
def OutcomeTransition.trimmed (transition : OutcomeTransition) : OutcomeTransition :=
  { transition with
    outcome := trimSpace transition.outcome, state := trimSpace transition.state }

/-- The transition of a step after both conversions. -/
def StepTransition.rebuilt (t : StepTransition) : StepTransition where
  onSuccess :=
    if t.hasSuccessOutcome then .null else (t.onSuccess.successNext.map .string).getD .null
  onFailure := if t.hasFailureLikeOutcome then .null else t.onFailure.rebuiltFailure
  onConfirm := t.onConfirm
  onCancel := t.onCancel
  onTimeout := t.onTimeout
  onOutcomes := t.outcomes.map (·.trimmed)

/-- A transition that names no step. -/
structure StepTransition.Idle (t : StepTransition) : Prop where
  outcomes : t.outcomes = []
  onSuccess : t.onSuccess.successNext = none
  onFailure : t.onFailure.failureNext = none
  onTimeout : t.onTimeout = ""
  onConfirm : t.onConfirm = ""
  onCancel : t.onCancel = ""

/-- A terminal step names no other step, and what another step says about a failure is kept, unless
one of its outcomes takes the place of it. -/
def Step.Survives (step : Step) : Prop :=
  ∀ t, step.transition = some t →
    if step.type = "terminal" then t.Idle
    else t.hasFailureLikeOutcome = true ∨ t.onFailure.Kept

/-- What the conditions of the edges were encoded from is decoded again. -/
def ReadsConditions (codec : Codec) (edges : List Edge) : Prop :=
  ∀ e ∈ edges, ∀ payload, e.condition = String.ofList (JsonText.object payload) →
    codec.unmarshalStrings e.condition = some payload

/-! ## Numbers -/

theorem truncate_range (v : ℚ) : -2 ^ 63 ≤ truncate v ∧ truncate v < 2 ^ 63 := by
  rw [truncate]
  split
  · assumption
  · norm_num

theorem truncate_intCast {n : ℤ} (hn : -2 ^ 63 ≤ n ∧ n < 2 ^ 63) : truncate (n : ℚ) = n := by
  have hint : (n : ℚ).num.tdiv (n : ℚ).den = n := by simp
  rw [truncate, hint]
  exact if_pos hn

theorem range_getD (v : Option ℚ) :
    -2 ^ 63 ≤ (v.map truncate).getD 0 ∧ (v.map truncate).getD 0 < 2 ^ 63 := by
  cases v with
  | none => norm_num
  | some v => exact truncate_range v

/-! ## Conditions -/

variable {codec : Codec} {bt : BehaviorTree} {steps : List Step} {step : Step} {t : StepTransition}
  {stepID : String}

/-- The outcome and the state of a condition are the ones it was made of. -/
theorem decode_encodeOutcomeCondition {outcome state : String}
    (hread : ∀ payload, encodeOutcomeCondition outcome state =
        String.ofList (JsonText.object payload) →
      codec.unmarshalStrings (encodeOutcomeCondition outcome state) = some payload) :
    (decodeOutcomeCondition codec (encodeOutcomeCondition outcome state)).1 = trimSpace outcome ∧
      (decodeOutcomeCondition codec (encodeOutcomeCondition outcome state)).2.1 =
        trimSpace state := by
  by_cases hempty : trimSpace outcome = "" ∧ trimSpace state = ""
  · obtain ⟨houtcome, hstate⟩ := hempty
    have hcondition : encodeOutcomeCondition outcome state = "" := by
      simp [encodeOutcomeCondition, houtcome, hstate]
    rw [hcondition, houtcome, hstate]
    exact ⟨rfl, rfl⟩
  · obtain ⟨payload, hne, hcondition, houtcome, hstate⟩ : ∃ payload, payload ≠ [] ∧
        encodeOutcomeCondition outcome state = String.ofList (JsonText.object payload) ∧
        (payload.lookup "outcome").getD "" = trimSpace outcome ∧
        (payload.lookup "state").getD "" = trimSpace state := by
      by_cases houtcome : trimSpace outcome = ""
      · have hstate : trimSpace state ≠ "" := fun h ↦ hempty ⟨houtcome, h⟩
        exact ⟨[("state", trimSpace state)], by simp,
          by simp [encodeOutcomeCondition, houtcome, hstate], by simp [houtcome], by simp⟩
      · by_cases hstate : trimSpace state = ""
        · exact ⟨[("outcome", trimSpace outcome)], by simp,
            by simp [encodeOutcomeCondition, houtcome, hstate], by simp, by simp [hstate]⟩
        · exact ⟨[("outcome", trimSpace outcome), ("state", trimSpace state)], by simp,
            by simp [encodeOutcomeCondition, houtcome, hstate], rfl, rfl⟩
    have hdecode := hread payload hcondition
    obtain ⟨middle, hends⟩ := JsonText.object_ends payload
    have htrim : trimSpace (String.ofList (JsonText.object payload)) =
        String.ofList (JsonText.object payload) := by
      rw [hends]
      exact trimSpace_of_ends (by decide) (by decide) middle
    have hprefix : hasPrefix (String.ofList (JsonText.object payload)) "\x7b" = true := by
      simp [hends, hasPrefix]
    have hfull : String.ofList (JsonText.object payload) ≠ "" := by
      intro h
      have hnil := congrArg String.toList h
      rw [hends, String.toList_ofList] at hnil
      exact absurd hnil (by simp)
    rw [hcondition] at hdecode ⊢
    rw [decodeOutcomeCondition, htrim, if_neg (by simp [hfull, hprefix]), hdecode]
    dsimp only
    rw [houtcome, hstate, trimSpace_trimSpace, trimSpace_trimSpace]
    exact ⟨rfl, rfl⟩

/-! ## Transitions -/

@[simp] theorem isSuccess_trimmed (transition : OutcomeTransition) :
    transition.trimmed.isSuccess = transition.isSuccess := by
  rw [OutcomeTransition.isSuccess, OutcomeTransition.trimmed, trimSpace_trimSpace]
  rfl

@[simp] theorem outcomeEdge_trimmed (transition : OutcomeTransition) :
    outcomeEdge stepID transition.trimmed = outcomeEdge stepID transition := by
  rw [outcomeEdge, OutcomeTransition.trimmed, encodeOutcomeCondition, trimSpace_trimSpace,
    trimSpace_trimSpace]
  rfl

/-- Of the two guards of an edge the second decides: without outcomes there is none that leads
somewhere. -/
theorem edges_eq : t.edges stepID =
    t.outcomes.map (outcomeEdge stepID) ++
      (if t.hasSuccessOutcome then [] else successEdges stepID t.onSuccess) ++
      (if t.hasFailureLikeOutcome then [] else failureEdges stepID t.onFailure) ++
      namedEdge stepID .onTimeout t.onTimeout ++ namedEdge stepID .onConfirm t.onConfirm ++
      namedEdge stepID .onCancel t.onCancel := by
  have hguard : ∀ p : OutcomeTransition → Bool,
      (!t.hasOutcomes || !t.outcomes.any p) = !t.outcomes.any p := by
    intro p
    by_cases hnone : t.onOutcomes = []
    · simp [StepTransition.outcomes, hnone]
    · simp [StepTransition.hasOutcomes, hnone]
  have hswap : ∀ (b : Bool) (edges : List Edge), (if !b then edges else []) =
      if b then [] else edges := by
    intro b edges
    cases b <;> rfl
  rw [StepTransition.edges, StepTransition.hasSuccessOutcome, StepTransition.hasFailureLikeOutcome,
    hguard, hguard, hswap, hswap]

theorem condition_outcomeEdge (transition : OutcomeTransition) :
    (outcomeEdge stepID transition).condition =
      encodeOutcomeCondition transition.outcome transition.state := by
  simp only [Edge.condition, outcomeEdge, Option.map_some, Option.getD_some]

theorem foldl_outcomeEdges {outcomes : List OutcomeTransition}
    (hread : ReadsConditions codec (outcomes.map (outcomeEdge stepID))) :
    (outcomes.map (outcomeEdge stepID)).foldl (addEdge codec) t =
      { t with onOutcomes := t.onOutcomes ++ outcomes.map (·.trimmed) } := by
  induction outcomes generalizing t with
  | nil => simp
  | cons first rest ih =>
    rw [List.map_cons] at hread
    have hfirst := hread (outcomeEdge stepID first) List.mem_cons_self
    rw [condition_outcomeEdge] at hfirst
    obtain ⟨houtcome, hstate⟩ := decode_encodeOutcomeCondition hfirst
    have hfirst : addEdge codec t (outcomeEdge stepID first) =
        { t with onOutcomes := t.onOutcomes ++ [first.trimmed] } := by
      rw [addEdge, condition_outcomeEdge]
      dsimp only [outcomeEdge]
      rw [houtcome, hstate, OutcomeTransition.trimmed]
    rw [List.map_cons, List.foldl_cons, hfirst,
      ih fun e he ↦ hread e (List.mem_cons_of_mem _ he)]
    simp

theorem foldl_successEdges {value : TransitionValue} (hnull : t.onSuccess = .null) :
    (successEdges stepID value).foldl (addEdge codec) t =
      { t with onSuccess := (value.successNext.map .string).getD .null } := by
  cases value with
  | object fields =>
    cases hnext : fields.next with
    | none => simp [successEdges, TransitionValue.successNext, hnext, ← hnull]
    | some next => simp [successEdges, TransitionValue.successNext, hnext, addEdge]
  | _ => simp [successEdges, TransitionValue.successNext, addEdge, ← hnull]

theorem foldl_failureEdges {value : TransitionValue} (hnull : t.onFailure = .null) :
    (failureEdges stepID value).foldl (addEdge codec) t =
      { t with onFailure := value.rebuiltFailure } := by
  cases value with
  | object fields =>
    rw [failureEdges, TransitionValue.rebuiltFailure]
    cases hfallback : fields.fallback with
    | some fallback => rfl
    | none =>
      cases hnext : fields.next with
      | none => exact congrArg (fun value ↦ { t with onFailure := value }) hnull
      | some next => rfl
  | _ => simp [failureEdges, TransitionValue.rebuiltFailure, addEdge, failureValue, ← hnull]

theorem foldl_namedEdge {type : EdgeType} {next : String} :
    (namedEdge stepID type next).foldl (addEdge codec) t =
      if next ≠ "" then addEdge codec t { fromID := stepID, toID := next, type } else t := by
  rw [namedEdge]
  split <;> rfl

/-- **What is built of the edges of a transition.** -/
theorem foldl_edges (hread : ReadsConditions codec (t.edges stepID)) :
    (t.edges stepID).foldl (addEdge codec) {} = t.rebuilt := by
  have houtcomes : ReadsConditions codec (t.outcomes.map (outcomeEdge stepID)) := fun e he ↦
    hread e (by simp [StepTransition.edges, he])
  have hsuccess : ∀ t' : StepTransition, t'.onSuccess = .null →
      (if t.hasSuccessOutcome then [] else successEdges stepID t.onSuccess).foldl
          (addEdge codec) t' = { t' with onSuccess := t.rebuilt.onSuccess } := by
    intro t' hnull
    rw [StepTransition.rebuilt]
    split
    · rw [List.foldl_nil, ← hnull]
    · exact foldl_successEdges hnull
  have hfailure : ∀ t' : StepTransition, t'.onFailure = .null →
      (if t.hasFailureLikeOutcome then [] else failureEdges stepID t.onFailure).foldl
          (addEdge codec) t' = { t' with onFailure := t.rebuilt.onFailure } := by
    intro t' hnull
    rw [StepTransition.rebuilt]
    split
    · rw [List.foldl_nil, ← hnull]
    · exact foldl_failureEdges hnull
  rw [edges_eq]
  simp only [List.foldl_append]
  rw [foldl_outcomeEdges houtcomes, hsuccess _ rfl, hfailure _ rfl, foldl_namedEdge,
    foldl_namedEdge, foldl_namedEdge]
  simp only [addEdge]
  rw [StepTransition.rebuilt]
  split <;> split <;> split <;> simp_all

theorem successEdges_rebuilt (value : TransitionValue) :
    successEdges stepID ((value.successNext.map .string).getD .null) =
      successEdges stepID value := by
  cases value with
  | object fields => cases hnext : fields.next <;>
      simp [successEdges, TransitionValue.successNext, hnext]
  | _ => rfl

/-- The edge for a failure comes back when what it says is kept, and only then. -/
theorem failureEdges_rebuilt_iff {value : TransitionValue}
    (hnamed : ∀ e ∈ failureEdges stepID value, e.toID ≠ "") :
    failureEdges stepID value.rebuiltFailure = failureEdges stepID value ↔ value.Kept := by
  cases value with
  | object fields =>
    have hretries : truncate (fields.retries : ℚ) = fields.retries :=
      truncate_intCast (range_getD _)
    have hbackoff : truncate (fields.backoff : ℚ) = fields.backoff :=
      truncate_intCast (range_getD _)
    rw [TransitionValue.rebuiltFailure, TransitionValue.Kept]
    cases hfallback : fields.fallback with
    | none =>
      cases hnext : fields.next with
      | none => simp [failureEdges, hfallback, hnext]
      | some next =>
        -- without a fallback the edge has none in its configuration, and gets one
        have hnext' : next ≠ "" := hnamed
          { fromID := stepID, toID := next, type := .onFailure
            config := some { retry := fields.retries, backoffMs := fields.backoff } }
          (by simp [failureEdges, hfallback, hnext, TransitionFields.retries,
            TransitionFields.backoff])
        simp only [Option.none_or, reduceCtorEq, and_false, ne_eq, not_true_eq_false, false_and,
          or_self, iff_false]
        split <;> simp [failureEdges, hfallback, hnext, hnext']
    | some fallback =>
      simp only [Option.some_or, reduceCtorEq, false_and, ne_eq, not_false_eq_true, true_and,
        false_or]
      split
      · rename_i hretried
        have hkept : (if 0 < fields.backoff then fields.backoff else 0) = fields.backoff ↔
            0 ≤ fields.backoff := by
          split <;> omega
        rw [and_iff_left hretried, ← hkept]
        have hwritten : ((if 0 < fields.backoff then some (fields.backoff : ℚ) else none).map
            truncate).getD 0 = if 0 < fields.backoff then fields.backoff else 0 := by
          split
          · exact hbackoff
          · rfl
        simp only [failureEdges, hfallback, hwritten, Option.map_some, Option.getD_some, hretries]
        simp [TransitionFields.retries, TransitionFields.backoff]
      · rename_i hplain
        simp only [hplain, and_false, iff_false]
        simp [failureEdges, hfallback]
  | _ => simp [TransitionValue.rebuiltFailure, TransitionValue.Kept, failureEdges]

/-- **When the edges of a transition come back.** -/
theorem edges_rebuilt_iff (hnames : ∀ e ∈ t.edges stepID, e.toID ≠ "") :
    t.rebuilt.edges stepID = t.edges stepID ↔
      t.hasFailureLikeOutcome = true ∨ t.onFailure.Kept := by
  have hnamed : t.rebuilt.outcomes = t.outcomes.map (·.trimmed) := by
    rw [StepTransition.rebuilt, StepTransition.outcomes]
    refine List.filter_eq_self.mpr fun transition hmem ↦ ?_
    obtain ⟨original, horiginal, rfl⟩ := List.mem_map.mp hmem
    exact (List.mem_filter.mp horiginal).2
  have hoccurs : ∀ p : OutcomeTransition → Bool, (∀ transition, p transition.trimmed =
      p transition) → t.rebuilt.outcomes.any p = t.outcomes.any p := by
    intro p hp
    rw [hnamed, List.any_map]
    exact congrArg _ (funext hp)
  have hsuccess : t.rebuilt.hasSuccessOutcome = t.hasSuccessOutcome :=
    hoccurs _ isSuccess_trimmed
  have hfailure : t.rebuilt.hasFailureLikeOutcome = t.hasFailureLikeOutcome :=
    hoccurs _ fun transition ↦ congrArg _ (isSuccess_trimmed transition)
  have houtcomes : t.rebuilt.outcomes.map (outcomeEdge stepID) =
      t.outcomes.map (outcomeEdge stepID) := by
    rw [hnamed, List.map_map]
    exact List.map_congr_left fun transition _ ↦ outcomeEdge_trimmed transition
  have hsame : (if t.hasSuccessOutcome then [] else successEdges stepID t.rebuilt.onSuccess) =
      if t.hasSuccessOutcome then [] else successEdges stepID t.onSuccess := by
    rw [StepTransition.rebuilt]
    split
    · rfl
    · exact successEdges_rebuilt _
  rw [edges_eq, edges_eq (t := t), hsuccess, hfailure, houtcomes, hsame]
  simp only [List.append_left_inj, List.append_right_inj, StepTransition.rebuilt]
  split
  · rename_i hoccurs
    exact iff_of_true rfl (.inl hoccurs)
  · rename_i hnone
    rw [edges_eq, if_neg hnone] at hnames
    rw [failureEdges_rebuilt_iff fun e he ↦ hnames e (by simp [he]), or_iff_right hnone]

theorem edges_eq_nil_iff : t.edges stepID = [] ↔ t.Idle := by
  have hsuccess : successEdges stepID t.onSuccess = [] ↔ t.onSuccess.successNext = none := by
    cases t.onSuccess <;> simp [successEdges, TransitionValue.successNext]
  have hfailure : failureEdges stepID t.onFailure = [] ↔ t.onFailure.failureNext = none := by
    cases t.onFailure with
    | object fields =>
      cases hfallback : fields.fallback <;> cases hnext : fields.next <;>
        simp [failureEdges, TransitionValue.failureNext, hfallback, hnext]
    | _ => simp [failureEdges, TransitionValue.failureNext]
  have hnamed : ∀ {type : EdgeType} {next : String},
      namedEdge stepID type next = [] ↔ next = "" := by
    intro type next
    rw [namedEdge]
    split <;> simp_all
  rw [edges_eq]
  simp only [List.append_eq_nil_iff, List.map_eq_nil_iff, hnamed]
  constructor
  · rintro ⟨⟨⟨⟨⟨houtcomes, hs⟩, hf⟩, htimeout⟩, hconfirm⟩, hcancel⟩
    have hnone : ∀ p : OutcomeTransition → Bool, ¬t.outcomes.any p = true := by simp [houtcomes]
    rw [StepTransition.hasSuccessOutcome, if_neg (hnone _)] at hs
    rw [StepTransition.hasFailureLikeOutcome, if_neg (hnone _)] at hf
    exact ⟨houtcomes, hsuccess.mp hs, hfailure.mp hf, htimeout, hconfirm, hcancel⟩
  · intro h
    refine ⟨⟨⟨⟨⟨h.outcomes, ?_⟩, ?_⟩, h.onTimeout⟩, h.onConfirm⟩, h.onCancel⟩
    · rw [hsuccess.mpr h.onSuccess, ite_self]
    · rw [hfailure.mpr h.onFailure, ite_self]

/-! ## Graphs -/

variable {cg : CanonicalGraph}

/-- **A vertex comes back as it was.** -/
theorem stepToVertex_vertexToStep (step : Step) :
    stepToVertex (vertexToStep codec cg (stepToVertex step)) = stepToVertex step := by
  by_cases hterminal : step.type = "terminal"
  · simp [stepToVertex, vertexToStep, hterminal]
  · cases hwait : step.waitFor with
    | some wait => simp [stepToVertex, vertexToStep, hterminal, hwait]
    | none =>
      cases haction : step.action <;>
        simp [stepToVertex, vertexToStep, hterminal, hwait, haction]

@[simp] theorem id_vertexToStep (v : Vertex) : (vertexToStep codec cg v).id = v.id := by
  rw [vertexToStep]
  split <;> rfl

/-- The edges from a step are its own when the steps can be told apart. -/
theorem filter_edges (hdistinct : (steps.map (·.id)).Nodup) (hstep : step ∈ steps) :
    (steps.flatMap extractEdges).filter (·.fromID = step.id) = extractEdges step := by
  have hall : ∀ other : Step, ∀ e ∈ extractEdges other,
      decide (e.fromID = step.id) = decide (other.id = step.id) := by
    intro other e he
    rw [fromID_extractEdges he]
  induction steps with
  | nil => exact absurd hstep List.not_mem_nil
  | cons first rest ih =>
    rw [List.map_cons, List.nodup_cons] at hdistinct
    rw [List.flatMap_cons, List.filter_append]
    rcases List.mem_cons.mp hstep with rfl | hrest
    · have hself : (extractEdges step).filter (·.fromID = step.id) = extractEdges step :=
        List.filter_eq_self.mpr fun e he ↦ by simp [fromID_extractEdges he]
      have hothers : (rest.flatMap extractEdges).filter (·.fromID = step.id) = [] := by
        refine List.filter_eq_nil_iff.mpr fun e he ↦ ?_
        obtain ⟨other, hother, he⟩ := List.mem_flatMap.mp he
        rw [hall other e he, decide_eq_true_eq]
        exact fun hsame ↦ hdistinct.1 (hsame ▸ List.mem_map_of_mem hother)
      rw [hself, hothers, List.append_nil]
    · have hfirst : (extractEdges first).filter (·.fromID = step.id) = [] := by
        refine List.filter_eq_nil_iff.mpr fun e he ↦ ?_
        rw [hall first e he, decide_eq_true_eq]
        exact fun hsame ↦ hdistinct.1 (hsame ▸ List.mem_map_of_mem hrest)
      rw [hfirst, List.nil_append, ih hdistinct.2 hrest]

/-- The edges of a step after both conversions. -/
theorem extractEdges_vertexToStep (hown : cg.getOutgoingEdges step.id = extractEdges step)
    (hread : ReadsConditions codec (extractEdges step)) :
    extractEdges (vertexToStep codec cg (stepToVertex step)) =
      if step.type = "terminal" then []
      else (step.transition.map fun t ↦ t.rebuilt.edges step.id).getD [] := by
  split
  · rename_i hterminal
    simp [stepToVertex, vertexToStep, hterminal, extractEdges]
  · rename_i hterminal
    have htransition : (vertexToStep codec cg (stepToVertex step)).transition =
        buildTransitionFromEdges codec step.id cg := by
      rw [stepToVertex, if_neg hterminal]
      rfl
    rw [extractEdges, htransition, id_vertexToStep, id_stepToVertex, buildTransitionFromEdges, hown]
    cases htransition : step.transition with
    | none => simp [extractEdges, htransition]
    | some t =>
      have hedges : extractEdges step = t.edges step.id := by rw [extractEdges, htransition]
      rw [hedges] at hread ⊢
      rw [Option.map_some, Option.getD_some, ← foldl_edges hread]
      by_cases hnil : t.edges step.id = []
      · rw [hnil]
        rfl
      · rw [if_neg hnil]

theorem survives_iff (hown : cg.getOutgoingEdges step.id = extractEdges step)
    (hread : ReadsConditions codec (extractEdges step))
    (hnames : ∀ e ∈ extractEdges step, e.toID ≠ "") :
    extractEdges (vertexToStep codec cg (stepToVertex step)) = extractEdges step ↔
      step.Survives := by
  rw [extractEdges_vertexToStep hown hread, Step.Survives]
  cases htransition : step.transition with
  | none => simp [extractEdges, htransition]
  | some t =>
    have hedges : extractEdges step = t.edges step.id := by rw [extractEdges, htransition]
    rw [hedges] at hnames ⊢
    simp only [Option.map_some, Option.getD_some, Option.some.injEq, forall_eq']
    split
    · rw [eq_comm, edges_eq_nil_iff]
    · exact edges_rebuilt_iff hnames

section

variable (hvertices : cg.vertices = steps.map stepToVertex)

include hvertices

theorem vertices_dbSteps : (dbSteps codec cg).map stepToVertex = cg.vertices := by
  rw [dbSteps, hvertices, List.map_map, List.map_map]
  exact List.map_congr_left fun step _ ↦ stepToVertex_vertexToStep step

theorem ids_dbSteps : (dbSteps codec cg).map (·.id) = steps.map (·.id) := by
  rw [dbSteps, hvertices, List.map_map, List.map_map]
  exact List.map_congr_left fun step _ ↦ by simp

/-- **The edges of a graph come back when every step of it survives.** -/
theorem edges_dbSteps_iff (hedges : cg.edges = steps.flatMap extractEdges)
    (hsteps : ClosedSteps steps) (hread : ReadsConditions codec cg.edges) :
    (dbSteps codec cg).flatMap extractEdges = cg.edges ↔ ∀ step ∈ steps, step.Survives := by
  have hsurvives : ∀ step ∈ steps, (extractEdges (vertexToStep codec cg (stepToVertex step)) =
      extractEdges step ↔ step.Survives) := by
    intro step hstep
    have hmem : ∀ e ∈ extractEdges step, e ∈ cg.edges := fun e he ↦ by
      rw [hedges]
      exact List.mem_flatMap.mpr ⟨step, hstep, he⟩
    refine survives_iff ?_ (fun e he ↦ hread e (hmem e he)) fun e he hempty ↦ ?_
    · rw [CanonicalGraph.getOutgoingEdges, hedges]
      exact filter_edges hsteps.distinct hstep
    · exact hsteps.named (hempty ▸ hsteps.closed step hstep e he)
  have hback : (dbSteps codec cg).flatMap extractEdges = steps.flatMap fun step ↦
      extractEdges (vertexToStep codec cg (stepToVertex step)) := by
    rw [dbSteps, hvertices, List.map_map, List.flatMap_map]
    rfl
  constructor
  · intro hsame step hstep
    have hdistinct : ((dbSteps codec cg).map (·.id)).Nodup := by
      rw [ids_dbSteps hvertices]
      exact hsteps.distinct
    have hthere : vertexToStep codec cg (stepToVertex step) ∈ dbSteps codec cg := by
      rw [dbSteps, hvertices]
      exact List.mem_map_of_mem (List.mem_map_of_mem hstep)
    have hown := filter_edges hdistinct hthere
    rw [hsame, hedges, id_vertexToStep, id_stepToVertex,
      filter_edges hsteps.distinct hstep] at hown
    exact (hsurvives step hstep).mp hown.symm
  · intro hall
    rw [hback, hedges]
    exact List.flatMap_congr fun step hstep ↦ (hsurvives step hstep).mpr (hall step hstep)

end

end Schema
end FleetServer
