import FleetServer.Executor.Scheduler
import FleetServer.State.GraphCache

/-!
# Starting a task from the cache or from the database

The middle of `StartTask` (`internal/executor/scheduler.go`): the steps, the preconditions and the
entry point of the tree are taken from the graph cache when it has the tree, and decoded from the
database row otherwise; the row is then converted and cached.  What comes out is a request that the
scheduler queues.  The row has been read before, and the tree deployed to the agent, which caches it
as well; a lookup misses when that entry is invalidated in between, because the agent reconnects or
the tree is saved.

A canonical graph has no preconditions, so a task started from the cache has none.
`startTask_hit_eq_miss_iff` says that this, and one corner of how an entry point that names no step
is replaced, is all the difference.
-/

set_option autoImplicit false

namespace FleetServer
namespace Executor

open Db FleetServer.Graph State

/-! ## Loading a tree -/

structure LoadedGraph where
  version : ℤ
  steps : List BehaviorTreeStep
  preconditions : List State.Precondition
  entryPoint : String
  deriving DecidableEq, Repr

/-- One step of `canonicalToDBSteps`. -/
def stepOfVertex (v : Vertex) : BehaviorTreeStep :=
  match v.type with
  | .terminal =>
    match v.terminal with
    | none => { id := v.id, name := v.name, type := "terminal" }
    | some terminal =>
      { id := v.id, name := v.name, type := "terminal", terminalType := terminal.terminalType
        alert := terminal.alert, message := terminal.message }
  | .step =>
    match v.step with
    | none => { id := v.id, name := v.name }
    | some data =>
      { id := v.id, name := v.name
        preStates := data.states.pre, duringStates := data.states.during
        successStates := data.states.success, failureStates := data.states.failure
        action := data.action.map fun action ↦
          { type := action.type, server := action.server, params := action.params
            timeoutSec := action.timeoutSec }
        waitFor := data.wait.map fun wait ↦
          { type := wait.type, message := wait.message, timeoutSec := wait.timeoutSec } }

def canonicalToDBSteps (g : CanonicalGraph) : List BehaviorTreeStep := g.vertices.map stepOfVertex

/-- For now canonical graphs do not have preconditions. -/
def canonicalToPreconditions (_ : CanonicalGraph) : List State.Precondition := []

def loadFromCache (cached : CachedGraph) : LoadedGraph where
  version := cached.version
  steps := canonicalToDBSteps cached.graph
  preconditions := canonicalToPreconditions cached.graph
  entryPoint := cached.graph.entryPoint

def parseSteps (codec : Codec) (dbGraph : BehaviorTree) : Except String (List BehaviorTreeStep) :=
  if dbGraph.steps = "" then .error "failed to parse steps: unexpected end of JSON input"
  else (codec.unmarshalSteps dbGraph.steps).mapError fun err ↦ "failed to parse steps: " ++ err

def parsePreconditions (codec : Codec) (dbGraph : BehaviorTree) :
    Except String (List State.Precondition) :=
  if dbGraph.preconditions = "" then .ok []
  else
    match codec.unmarshalPreconditions dbGraph.preconditions with
    | .error err => .error ("failed to parse preconditions: " ++ err)
    | .ok dbPrecons => .ok (dbPrecons.map fun p ↦
        { type := p.type, condition := p.condition, message := p.message })

/-- The branch of a miss: the row is decoded, and its canonical form cached. -/
def loadFromDatabase (codec : Codec) (agentID : String) (dbGraph : BehaviorTree)
    (cache : GraphCache) : Except String LoadedGraph × GraphCache :=
  match parseSteps codec dbGraph with
  | .error err => (.error err, cache)
  | .ok steps =>
    match parsePreconditions codec dbGraph with
    | .error err => (.error err, cache)
    | .ok preconditions =>
      let loaded : LoadedGraph :=
        { version := dbGraph.version, steps := steps, preconditions := preconditions
          entryPoint := nullString dbGraph.entryPoint }
      match fromDBModel codec dbGraph with
      | .error _ => (.ok loaded, cache)
      | .ok canonicalGraph =>
        (.ok
          (if loaded.entryPoint = "" ∧ canonicalGraph.entryPoint ≠ "" then
            { loaded with entryPoint := canonicalGraph.entryPoint }
          else loaded),
          cache.set agentID dbGraph.id canonicalGraph)

/-! ## The request -/

/-- The map from the ids of the steps to their indices.  Of two steps with one id the later is
found. -/
def stepIndex : List String → String → Option ℕ
  | [], _ => none
  | stepID :: rest, id =>
    match stepIndex rest id with
    | some i => some (i + 1)
    | none => if stepID = id then some 0 else none

/-- The step the task starts with: the one the entry point names, or else the first. -/
def entryIndex (ids : List String) (entryPoint : String) : ℕ :=
  if entryPoint ≠ "" then (stepIndex ids entryPoint).getD 0 else 0

/-- For now no zones are read off a step. -/
def extractRequiredZones (_ : BehaviorTreeStep) : List String := []

/-- What `StartTask` queues, and the index of the step the task starts with. -/
structure TaskStart where
  request : SchedulerState.StartRequest
  currentStep : ℕ
  deriving DecidableEq, Repr

def taskStart (agentID taskID graphID : String) (loaded : LoadedGraph) : Except String TaskStart :=
  match loaded.steps with
  | [] => .error "behavior tree has no steps"
  | first :: rest =>
    let index := entryIndex ((first :: rest).map (·.id)) loaded.entryPoint
    let entry := (first :: rest)[index]?.getD first
    .ok
      { request :=
          { taskID := taskID, behaviorTreeID := graphID, agentID := agentID
            entryStepID := entry.id, reservedZones := extractRequiredZones entry
            preconditions := loaded.preconditions }
        currentStep := index }

/-- `StartTask` from the lookup on. -/
def startTask (codec : Codec) (agentID taskID : String) (dbGraph : BehaviorTree)
    (cache : GraphCache) : Except String TaskStart × GraphCache :=
  match cache.get agentID dbGraph.id with
  | some cached => (taskStart agentID taskID dbGraph.id (loadFromCache cached), cache)
  | none =>
    match loadFromDatabase codec agentID dbGraph cache with
    | (.error err, cache') => (.error err, cache')
    | (.ok loaded, cache') => (taskStart agentID taskID dbGraph.id loaded, cache')

/-! ## Hit and miss -/

/-- The canonical graph of the tree, as a `StartTask` that missed or a deployment has cached it. -/
inductive CachedAs (codec : Codec) (agentID : String) (dbGraph : BehaviorTree) :
    CanonicalGraph → Prop
  | started {g : CanonicalGraph} (h : fromDBModel codec dbGraph = .ok g) :
      CachedAs codec agentID dbGraph g
  | deployed {g : CanonicalGraph} (h : fromDBModel codec dbGraph = .ok g) :
      CachedAs codec agentID dbGraph (deployedGraph agentID g)

/-- What the dispatch of the task will be told: nothing, or why it has to wait. -/
def verdict (m : Manager) (now : ℕ) (r : SchedulerState.StartRequest) : Option String :=
  (m.tryStartExecution now r.agentID r.taskID r.entryStepID r.behaviorTreeID r.reservedZones
    r.preconditions).2

/-- Two calls of `StartTask` come to the same: neither starts a task, or both start one with the
same entry step and the same preconditions, which every state of the manager judges alike. -/
inductive SameStart : Except String TaskStart → Except String TaskStart → Prop
  | refused {err err' : String} : SameStart (.error err) (.error err')
  | started {t t' : TaskStart} (entryStep : t.request.entryStepID = t'.request.entryStepID)
      (index : t.currentStep = t'.currentStep)
      (preconditions : t.request.preconditions = t'.request.preconditions)
      (verdict : ∀ m now, verdict m now t.request = verdict m now t'.request) :
      SameStart (.ok t) (.ok t')

/-- The steps of a tree, none when they do not decode. -/
def treeSteps (codec : Codec) (dbGraph : BehaviorTree) : List BehaviorTreeStep :=
  (parseSteps codec dbGraph).toOption.getD []

/-- The entry point names a step, or the step taken in its place can be told by its id. -/
def EntryFound (entryPoint : String) : List String → Prop
  | [] => True
  | first :: rest =>
    entryPoint = "" ∨ entryPoint ∈ first :: rest ∨ first = "" ∨ first ∉ rest

theorem stepIndex_eq_none_iff {ids : List String} {id : String} :
    stepIndex ids id = none ↔ id ∉ ids := by
  induction ids with
  | nil => simp [stepIndex]
  | cons stepID rest ih =>
    rw [stepIndex, List.mem_cons, not_or]
    cases hrest : stepIndex rest id with
    | some i =>
      have hmem : ¬ id ∉ rest := fun h ↦ by simp [ih.mpr h] at hrest
      simp [hmem]
    | none => simp [ih.mp hrest, eq_comm]

/-- A head that is not repeated is found in its place. -/
theorem stepIndex_head_iff {first : String} {rest : List String} :
    (stepIndex (first :: rest) first).getD 0 = 0 ↔ first ∉ rest := by
  rw [stepIndex, ← stepIndex_eq_none_iff]
  cases stepIndex rest first with
  | some i => simp
  | none => simp

/-! ### What the request depends on -/

variable {codec : Codec} {agentID taskID graphID : String} {dbGraph : BehaviorTree}
  {cache : GraphCache}

/-- The request for a task, from the ids of the steps. -/
def startOf (agentID taskID graphID first : String) (rest : List String) (entryPoint : String)
    (preconditions : List State.Precondition) : TaskStart where
  request :=
    { taskID := taskID, behaviorTreeID := graphID, agentID := agentID
      entryStepID := (first :: rest)[entryIndex (first :: rest) entryPoint]?.getD first
      reservedZones := [], preconditions := preconditions }
  currentStep := entryIndex (first :: rest) entryPoint

/-- **Of the steps only the ids matter.** -/
theorem taskStart_eq_ok {loaded : LoadedGraph} {first : String} {rest : List String}
    (h : loaded.steps.map (·.id) = first :: rest) :
    taskStart agentID taskID graphID loaded =
      .ok (startOf agentID taskID graphID first rest loaded.entryPoint loaded.preconditions) := by
  rw [taskStart]
  cases hsteps : loaded.steps with
  | nil =>
    rw [hsteps] at h
    exact absurd h (by simp)
  | cons step steps =>
    rw [hsteps, List.map_cons] at h
    obtain ⟨rfl, rfl⟩ := List.cons.inj h
    dsimp only
    rw [List.map_cons, startOf, ← List.map_cons, List.getElem?_map, Option.getD_map]
    rfl

theorem taskStart_eq_error {loaded : LoadedGraph} (h : loaded.steps = []) :
    taskStart agentID taskID graphID loaded = .error "behavior tree has no steps" := by
  rw [taskStart]
  rw [h]

theorem sameStart_iff {first : String} {rest : List String} {entryPoint entryPoint' : String}
    {preconditions preconditions' : List State.Precondition} :
    SameStart (.ok (startOf agentID taskID graphID first rest entryPoint preconditions))
        (.ok (startOf agentID taskID graphID first rest entryPoint' preconditions')) ↔
      entryIndex (first :: rest) entryPoint = entryIndex (first :: rest) entryPoint' ∧
        preconditions = preconditions' := by
  constructor
  · intro h
    cases h with
    | started _ hindex hpreconditions _ => exact ⟨hindex, hpreconditions⟩
  · rintro ⟨hindex, rfl⟩
    have heq : startOf agentID taskID graphID first rest entryPoint preconditions =
        startOf agentID taskID graphID first rest entryPoint' preconditions := by
      simp only [startOf]
      rw [hindex]
    rw [heq]
    exact .started rfl rfl rfl fun _ _ ↦ rfl

/-! ### The entry point -/

/-- The entry point of the canonical graph finds the step that the entry point of the row does,
exactly when that one names a step or its replacement can be told by its id. -/
theorem entryIndex_canonical_iff {first entryPoint : String} {rest : List String}
    (canonical : String)
    (h : canonical =
      if entryPoint ≠ "" ∧ entryPoint ∈ first :: rest then entryPoint else first) :
    entryIndex (first :: rest)
        (if entryPoint = "" ∧ canonical ≠ "" then canonical else entryPoint) =
      entryIndex (first :: rest) canonical ↔ EntryFound entryPoint (first :: rest) := by
  by_cases he : entryPoint = ""
  · -- a row without entry point takes over that of the canonical graph
    have hfound : EntryFound entryPoint (first :: rest) := .inl he
    refine iff_of_true ?_ hfound
    split
    · rfl
    · rename_i hnot
      have hempty : canonical = "" := by
        by_contra hne
        exact hnot ⟨he, hne⟩
      rw [hempty, he]
  · rw [if_neg fun hand ↦ he hand.1]
    by_cases hmem : entryPoint ∈ first :: rest
    · have hfound : EntryFound entryPoint (first :: rest) := .inr (.inl hmem)
      rw [h, if_pos ⟨he, hmem⟩]
      exact iff_of_true rfl hfound
    · -- the row's entry point finds nothing; the graph's is the id of the first step
      have hzero : entryIndex (first :: rest) entryPoint = 0 := by
        rw [entryIndex, if_pos he, stepIndex_eq_none_iff.mpr hmem]
        rfl
      rw [h, if_neg fun hand ↦ hmem hand.2, hzero, entryIndex]
      rw [EntryFound]
      by_cases hfirst : first = ""
      · simp [hfirst]
      · rw [if_pos hfirst, eq_comm, stepIndex_head_iff]
        simp [he, hmem, hfirst]

/-! ### The theorem -/

theorem ids_canonicalToDBSteps (g : CanonicalGraph) :
    (canonicalToDBSteps g).map (·.id) = g.vertices.map (·.id) := by
  rw [canonicalToDBSteps]
  rw [List.map_map]
  refine List.map_congr_left fun v _ ↦ ?_
  rw [Function.comp_apply]
  rw [stepOfVertex]
  split
  · split <;> rfl
  · split <;> rfl

/-- What a cached graph has kept of its tree. -/
theorem CachedAs.eq_graphOf {g : CanonicalGraph} (h : CachedAs codec agentID dbGraph g) :
    g.vertices.map (·.id) = (treeSteps codec dbGraph).map (·.id) ∧
      g.entryPoint = (graphOf dbGraph (treeSteps codec dbGraph)).entryPoint := by
  have hconverted {g : CanonicalGraph} (h : fromDBModel codec dbGraph = .ok g) :
      g = graphOf dbGraph (treeSteps codec dbGraph) := by
    rw [treeSteps, parseSteps]
    obtain ⟨hnil, rfl⟩ | ⟨steps, hne, hsteps, rfl⟩ := fromDBModel_eq_ok h
    · rw [if_pos hnil]
      rfl
    · rw [if_neg hne, hsteps]
      rfl
  cases h with
  | started h =>
    rw [hconverted h]
    exact ⟨ids_graphOf _, rfl⟩
  | deployed h =>
    rw [ids_deployedGraph, entryPoint_deployedGraph, hconverted h]
    exact ⟨ids_graphOf _, rfl⟩

/-- A tree that has steps has been decoded, and converts. -/
theorem parseSteps_of_cons {first : BehaviorTreeStep} {rest : List BehaviorTreeStep}
    (h : treeSteps codec dbGraph = first :: rest) :
    parseSteps codec dbGraph = .ok (first :: rest) ∧
      fromDBModel codec dbGraph = .ok (graphOf dbGraph (first :: rest)) := by
  rw [treeSteps] at h
  cases hsteps : parseSteps codec dbGraph with
  | error err =>
    rw [hsteps] at h
    exact absurd h (by simp [Except.toOption])
  | ok steps =>
    rw [hsteps] at h
    obtain rfl : steps = first :: rest := h
    refine ⟨rfl, ?_⟩
    rw [parseSteps] at hsteps
    rw [fromDBModel]
    split at hsteps
    · exact absurd hsteps (by simp)
    · rename_i hne
      rw [if_neg hne]
      cases hun : codec.unmarshalSteps dbGraph.steps with
      | error err =>
        rw [hun] at hsteps
        exact absurd hsteps (by simp [Except.mapError])
      | ok steps =>
        rw [hun] at hsteps
        obtain rfl : steps = first :: rest := Except.ok.inj hsteps
        rfl

/-- A hit starts a task without preconditions. -/
theorem startTask_hit {cached : CachedGraph} (hhit : cache.get agentID dbGraph.id = some cached)
    (hcached : CachedAs codec agentID dbGraph cached.graph) {first : BehaviorTreeStep}
    {rest : List BehaviorTreeStep} (hsteps : treeSteps codec dbGraph = first :: rest) :
    (startTask codec agentID taskID dbGraph cache).1 =
      .ok (startOf agentID taskID dbGraph.id first.id (rest.map (·.id))
        (graphOf dbGraph (first :: rest)).entryPoint []) := by
  obtain ⟨hids, hentry⟩ := hcached.eq_graphOf
  rw [hsteps] at hids hentry
  have hmap : (loadFromCache cached).steps.map (·.id) = first.id :: rest.map (·.id) :=
    (ids_canonicalToDBSteps cached.graph).trans hids
  rw [startTask, hhit]
  dsimp only
  rw [taskStart_eq_ok hmap]
  rw [loadFromCache, canonicalToPreconditions]
  rw [hentry]

theorem startTask_hit_of_noSteps {cached : CachedGraph}
    (hhit : cache.get agentID dbGraph.id = some cached)
    (hcached : CachedAs codec agentID dbGraph cached.graph)
    (hsteps : treeSteps codec dbGraph = []) :
    (startTask codec agentID taskID dbGraph cache).1 = .error "behavior tree has no steps" := by
  have hids := hcached.eq_graphOf.1
  rw [hsteps, List.map_nil, List.map_eq_nil_iff] at hids
  have hnil : (loadFromCache cached).steps = [] := by
    rw [loadFromCache, canonicalToDBSteps]
    rw [hids]
    rfl
  rw [startTask, hhit]
  exact taskStart_eq_error hnil

/-- A miss starts a task with the preconditions of the row, if they decode, and caches the tree. -/
theorem startTask_miss (hmiss : cache.get agentID dbGraph.id = none) {first : BehaviorTreeStep}
    {rest : List BehaviorTreeStep} (hsteps : treeSteps codec dbGraph = first :: rest)
    {preconditions : List State.Precondition}
    (hpreconditions : parsePreconditions codec dbGraph = .ok preconditions) :
    startTask codec agentID taskID dbGraph cache =
      (.ok (startOf agentID taskID dbGraph.id first.id (rest.map (·.id))
        (if nullString dbGraph.entryPoint = "" ∧
            (graphOf dbGraph (first :: rest)).entryPoint ≠ "" then
          (graphOf dbGraph (first :: rest)).entryPoint
        else nullString dbGraph.entryPoint) preconditions),
        cache.set agentID dbGraph.id (graphOf dbGraph (first :: rest))) := by
  obtain ⟨hparse, hconvert⟩ := parseSteps_of_cons hsteps
  rw [startTask, hmiss]
  dsimp only
  rw [loadFromDatabase, hparse]
  dsimp only
  rw [hpreconditions]
  dsimp only
  rw [hconvert]
  dsimp only
  split
  · rw [taskStart_eq_ok rfl]
  · rw [taskStart_eq_ok rfl]

theorem steps_loadFromDatabase {loaded : LoadedGraph} {cache' : GraphCache}
    (h : loadFromDatabase codec agentID dbGraph cache = (.ok loaded, cache')) :
    loaded.steps = treeSteps codec dbGraph := by
  rw [treeSteps]
  rw [loadFromDatabase] at h
  cases hparse : parseSteps codec dbGraph with
  | error err =>
    rw [hparse] at h
    exact absurd (congrArg Prod.fst h) (by simp)
  | ok steps =>
    rw [hparse] at h
    dsimp only at h
    split at h
    · exact absurd (congrArg Prod.fst h) (by simp)
    · split at h
      · rw [← Except.ok.inj (congrArg Prod.fst h)]
        rfl
      · rw [← Except.ok.inj (congrArg Prod.fst h)]
        split <;> rfl

theorem startTask_miss_of_noSteps (taskID : String) (hmiss : cache.get agentID dbGraph.id = none)
    (hsteps : treeSteps codec dbGraph = []) :
    ∃ err, (startTask codec agentID taskID dbGraph cache).1 = .error err := by
  rw [startTask, hmiss]
  dsimp only
  split
  · exact ⟨_, rfl⟩
  · rename_i loaded cache' hload
    exact ⟨_, taskStart_eq_error ((steps_loadFromDatabase hload).trans hsteps)⟩

theorem startTask_miss_of_error (taskID : String) (hmiss : cache.get agentID dbGraph.id = none)
    {err : String}
    (hpreconditions : parsePreconditions codec dbGraph = .error err) :
    ∃ err, (startTask codec agentID taskID dbGraph cache).1 = .error err := by
  rw [startTask, hmiss]
  dsimp only
  rw [loadFromDatabase]
  cases parseSteps codec dbGraph with
  | error err => exact ⟨err, rfl⟩
  | ok steps =>
    dsimp only
    rw [hpreconditions]
    exact ⟨err, rfl⟩

/-- **A miss makes the next lookup hit**, with the tree as `StartTask` caches it. -/
theorem startTask_caches (hmiss : cache.get agentID dbGraph.id = none)
    {first : BehaviorTreeStep} {rest : List BehaviorTreeStep}
    (hsteps : treeSteps codec dbGraph = first :: rest) {preconditions : List State.Precondition}
    (hpreconditions : parsePreconditions codec dbGraph = .ok preconditions) :
    ∃ cached, (startTask codec agentID taskID dbGraph cache).2.get agentID dbGraph.id =
        some cached ∧ CachedAs codec agentID dbGraph cached.graph := by
  rw [startTask_miss hmiss hsteps hpreconditions]
  exact ⟨_, GraphCache.get_set, .started (parseSteps_of_cons hsteps).2⟩

/-- So does a deployment, with the tree as a deployment caches it. -/
theorem setDeployed_caches (h : agentID ≠ "") {g : CanonicalGraph}
    (hg : fromDBModel codec dbGraph = .ok g) :
    ∃ cached, (cache.setDeployed agentID dbGraph.id (deployedGraph agentID g)).get agentID
        dbGraph.id = some cached ∧ CachedAs codec agentID dbGraph cached.graph :=
  ⟨_, GraphCache.get_setDeployed h, .deployed hg⟩

/-- **A task is started alike from the cache and from the database exactly when the tree has no
steps, or has no preconditions and an entry point that is found.** -/
theorem startTask_hit_eq_miss_iff (codec : Codec) (agentID taskID : String) (dbGraph : BehaviorTree)
    (cold warm : GraphCache) (cached : CachedGraph) (hmiss : cold.get agentID dbGraph.id = none)
    (hhit : warm.get agentID dbGraph.id = some cached)
    (hcached : CachedAs codec agentID dbGraph cached.graph) :
    SameStart (startTask codec agentID taskID dbGraph cold).1
        (startTask codec agentID taskID dbGraph warm).1 ↔
      treeSteps codec dbGraph = [] ∨
        parsePreconditions codec dbGraph = .ok [] ∧
          EntryFound (nullString dbGraph.entryPoint) ((treeSteps codec dbGraph).map (·.id)) := by
  cases hsteps : treeSteps codec dbGraph with
  | nil =>
    obtain ⟨err, herr⟩ := startTask_miss_of_noSteps taskID hmiss hsteps
    rw [herr, startTask_hit_of_noSteps hhit hcached hsteps]
    exact iff_of_true .refused (.inl rfl)
  | cons first rest =>
    rw [startTask_hit hhit hcached hsteps]
    cases hpreconditions : parsePreconditions codec dbGraph with
    | error err =>
      obtain ⟨err', herr⟩ := startTask_miss_of_error taskID hmiss hpreconditions
      rw [herr]
      refine iff_of_false (fun h ↦ by cases h) ?_
      simp
    | ok preconditions =>
      have hentry := entryIndex_canonical_iff (graphOf dbGraph (first :: rest)).entryPoint
        (entryPoint_graphOf first rest)
      rw [startTask_miss hmiss hsteps hpreconditions]
      dsimp only
      rw [sameStart_iff, hentry]
      simp [and_comm]

/-! ## A zone that is no longer waited for -/

/-- A tree of one step. -/
def dockTree : BehaviorTree where
  id := "dock"
  name := "Dock"
  agentID := some "robot1"
  entryPoint := some "approach"
  version := 2
  steps := "[\x7b\"id\":\"approach\"\x7d]"

/-- The tree, with the precondition that the zone is free. -/
def guardedDockTree : BehaviorTree :=
  { dockTree with
    preconditions :=
      "[\x7b\"type\":\"zone_free\",\"condition\":\"bay\",\"message\":\"bay is taken\"\x7d]" }

def dockCodec : Codec where
  unmarshalSteps text :=
    if text = dockTree.steps then .ok [{ id := "approach" }] else .error "unexpected text"
  unmarshalPreconditions text :=
    if text = guardedDockTree.preconditions then .ok [⟨"zone_free", "bay", "bay is taken"⟩]
    else .error "unexpected text"
  marshalAction _ := ""
  marshalWait _ := ""
  sha256 := id

/-- What the task is started with when the cache is empty. -/
def coldStart (tree : BehaviorTree) : Except String TaskStart × GraphCache :=
  startTask dockCodec "robot1" "task" tree {}

/-- What it is started with the next time. -/
def warmStart (tree : BehaviorTree) : Except String TaskStart × GraphCache :=
  startTask dockCodec "robot1" "task" tree (coldStart tree).2

/-- Without preconditions the second start is as the first. -/
theorem dockTree_starts_alike : SameStart (coldStart dockTree).1 (warmStart dockTree).1 := by
  obtain ⟨cached, hhit, hcached⟩ :=
    @startTask_caches dockCodec "robot1" "task" dockTree {} rfl _ _ rfl _ rfl
  exact (startTask_hit_eq_miss_iff dockCodec "robot1" "task" dockTree {} (coldStart dockTree).2
    cached rfl hhit hcached).mpr (.inr ⟨rfl, .inr (.inl (by decide))⟩)

/-- The zone is reserved by the other robot. -/
def bayTaken : Manager where
  robots agentID := if agentID = "robot1" then some { id := "robot1" } else none
  zones zoneID :=
    if zoneID = "bay" then some ⟨"bay", "robot2", 0, 100⟩ else none

/-- **The first start has to wait for the zone, the second does not.** -/
theorem guardedDockTree_starts_unguarded :
    ¬ SameStart (coldStart guardedDockTree).1 (warmStart guardedDockTree).1 ∧
      ∃ t t', (coldStart guardedDockTree).1 = .ok t ∧ (warmStart guardedDockTree).1 = .ok t' ∧
        verdict bayTaken 50 t.request = some "bay is taken" ∧
        verdict bayTaken 50 t'.request = none := by
  have hcold : (coldStart guardedDockTree).1 = .ok (startOf "robot1" "task" "dock" "approach" []
      "approach" [⟨"zone_free", "bay", "bay is taken"⟩]) := by rfl
  have hwarm : (warmStart guardedDockTree).1 =
      .ok (startOf "robot1" "task" "dock" "approach" [] "approach" []) := by rfl
  refine ⟨?_, _, _, hcold, hwarm, by decide, by decide⟩
  rw [hcold, hwarm, sameStart_iff]
  rintro ⟨-, hpreconditions⟩
  exact absurd hpreconditions (by decide)

end Executor
end FleetServer
