import FleetServer.Db.Repository
import FleetServer.Graph.RoundTrip

/-!
# Trees as files

`ExportBehaviorTree` and `ImportBehaviorTree` of `internal/api/behavior_trees.go`: a tree leaves one
server as a file with its canonical graph, and another server makes a tree of the file.

The file of a graph that validates is accepted (`import_exported`), and `reexported` says what the
other server exports in turn.  `comesBack_iff` puts that together with when the edges come back.
-/

set_option autoImplicit false

namespace FleetServer
namespace Api

open Db Schema

/-- What the handlers take from the JSON library: besides the conversions, the file. -/
structure FileCodec extends Schema.Codec where
  encodeGraph : CanonicalGraph → String
  decodeGraph : String → Except String CanonicalGraph

/-! ## The handlers -/

structure ExportedFile where
  filename : String
  canonicalGraph : CanonicalGraph

/-- The file, or the status and the text of an error. -/
def exportBehaviorTree (codec : FileCodec) (db : Database) (graphID : String) :
    Except (ℕ × String) ExportedFile :=
  if graphID = "" then .error (400, "Graph ID is required")
  else match getBehaviorTree db graphID with
    | none => .error (404, "Behavior tree not found")
    | some dbGraph =>
      match fromDBModel codec.toCodec dbGraph with
      | .error err => .error (500, "Failed to convert graph: " ++ err)
      | .ok canonicalGraph =>
        .ok
          { filename := graphID ++ "_v" ++ toString dbGraph.version ++ ".json"
            canonicalGraph :=
              { canonicalGraph with checksum := computeChecksum codec.toCodec canonicalGraph } }

structure ImportReply where
  id : String
  name : String
  version : ℤ
  message : String
  checksum : String

/-- The reply and the store, or the status and the text of an error. -/
def importBehaviorTree (codec : FileCodec) (rows : Db.Codec) (now : Time) (body : String)
    (db : Database) : Except (ℕ × String) (ImportReply × Database) :=
  match codec.decodeGraph body with
  | .error err => .error (400, "Invalid JSON: " ++ err)
  | .ok canonicalGraph =>
    match canonicalGraph.validate with
    | .error err => .error (400, "Invalid graph structure: " ++ err)
    | .ok () =>
      if canonicalGraph.checksum ≠ "" ∧
          canonicalGraph.checksum ≠ computeChecksum codec.toCodec canonicalGraph then
        .error (400, "Checksum mismatch: graph may have been modified")
      else if (getBehaviorTree db canonicalGraph.behaviorTree.id).isSome then
        .error (409, "Behavior tree '" ++ canonicalGraph.behaviorTree.id ++
          "' already exists. Use update endpoint or delete first.")
      else
        let dbModel := toDBModel codec.toCodec now canonicalGraph
        let dbModel := { dbModel with createdAt := now, updatedAt := now }
        match createBehaviorTree rows dbModel db with
        | .error err => .error (500, "Failed to save graph: " ++ err)
        | .ok db =>
          .ok
            ({ id := dbModel.id, name := dbModel.name, version := dbModel.version
               message := "Behavior tree imported successfully"
               checksum := canonicalGraph.checksum }, db)

/-! ## What the two servers export -/

/-- A graph without what the clock of a server puts into it: the times, and the checksum, which is
taken of them too. -/
def untimed (g : CanonicalGraph) : CanonicalGraph :=
  { g with
    behaviorTree := { g.behaviorTree with createdAt := zeroTime, updatedAt := zeroTime }
    checksum := "" }

/-- What the JSON library writes of a graph and of the steps that are made of it, it reads again. -/
structure RoundTrips (codec : FileCodec) (rows : Db.Codec) (g : CanonicalGraph) : Prop where
  file : codec.decodeGraph (codec.encodeGraph g) = .ok g
  written : codec.marshalSteps (dbSteps codec.toCodec g) ≠ ""
  steps : codec.unmarshalSteps (codec.marshalSteps (dbSteps codec.toCodec g)) =
    .ok (dbSteps codec.toCodec g)
  rows : ∃ steps, rows.unmarshalSteps (codec.marshalSteps (dbSteps codec.toCodec g)) = .ok steps
  conditions : ReadsConditions codec.toCodec g.edges

/-- The server that imports the file exports the same graph. -/
def ComesBack (codec : FileCodec) (rows : Db.Codec) (now : Time) (target : Database)
    (g : CanonicalGraph) : Prop :=
  ∃ reply target' file, importBehaviorTree codec rows now (codec.encodeGraph g) target =
      .ok (reply, target') ∧
    exportBehaviorTree codec target' g.behaviorTree.id = .ok file ∧
    untimed file.canonicalGraph = untimed g

/-- The tree is not tied to a task distributor, and its steps survive the conversions. -/
structure Portable (codec : Schema.Codec) (bt : BehaviorTree) : Prop where
  taskDistributorID : nullString bt.taskDistributorID = ""
  steps : ∀ steps, storedSteps codec bt = .ok steps → ∀ step ∈ steps, step.Survives

variable {codec : FileCodec} {rows : Db.Codec} {now : Time} {db target : Database}
  {graphID : String} {file : ExportedFile} {g : CanonicalGraph} {bt : BehaviorTree}

/-- What is in a file. -/
theorem exportBehaviorTree_eq_ok (h : exportBehaviorTree codec db graphID = .ok file) :
    ∃ bt steps, getBehaviorTree db graphID = some bt ∧
      storedSteps codec.toCodec bt = .ok steps ∧
      file.canonicalGraph = { graphOf bt steps with
        checksum := computeChecksum codec.toCodec (graphOf bt steps) } := by
  rw [exportBehaviorTree] at h
  split at h
  · exact absurd h (by simp)
  split at h
  · exact absurd h (by simp)
  rename_i bt hbt
  split at h
  · exact absurd h (by simp)
  rename_i converted hconvert
  obtain rfl := Except.ok.inj h
  rw [fromDBModel] at hconvert
  split at hconvert
  · exact absurd hconvert (by simp)
  rename_i steps hsteps
  obtain rfl := Except.ok.inj hconvert
  exact ⟨bt, steps, hbt, hsteps, rfl⟩

/-- A tree that was made of a graph. -/
structure MadeOf (codec : Schema.Codec) (g : CanonicalGraph) (bt : BehaviorTree) : Prop where
  id : bt.id = g.behaviorTree.id
  name : bt.name = g.behaviorTree.name
  version : bt.version = g.behaviorTree.version
  description : nullString bt.description = g.behaviorTree.description
  agentID : nullString bt.agentID = g.behaviorTree.agentID
  entryPoint : nullString bt.entryPoint = g.entryPoint
  steps : bt.steps = codec.marshalSteps (dbSteps codec g)
  taskDistributorID : nullString bt.taskDistributorID = ""

/-- **A file that is valid and untouched is accepted where its id is free.** -/
theorem import_exported (hvalid : g.validate = .ok ())
    (hchecksum : g.checksum = computeChecksum codec.toCodec g)
    (hfree : getBehaviorTree target g.behaviorTree.id = none)
    (hround : RoundTrips codec rows g) :
    ∃ reply target' bt, importBehaviorTree codec rows now (codec.encodeGraph g) target =
        .ok (reply, target') ∧
      getBehaviorTree target' g.behaviorTree.id = some bt ∧ MadeOf codec.toCodec g bt := by
  obtain ⟨olds, holds⟩ := hround.rows
  let dbModel : BehaviorTree :=
    { toDBModel codec.toCodec now g with createdAt := now, updatedAt := now }
  have hparse : parseBehaviorTreeSteps rows dbModel = .ok olds := by
    have hsteps : dbModel.steps = codec.marshalSteps (dbSteps codec.toCodec g) := rfl
    rw [parseBehaviorTreeSteps, hsteps, if_neg hround.written, holds]
    rfl
  have hcreate : ∃ target', createBehaviorTree rows dbModel target = .ok target' := by
    rw [createBehaviorTree, hparse]
    exact ⟨_, rfl⟩
  obtain ⟨target', hcreate⟩ := hcreate
  obtain ⟨_, hparse', hfind⟩ := find?_createBehaviorTree hcreate
  obtain rfl := Except.ok.inj (hparse.symm.trans hparse')
  have hentry : g.entryPoint ≠ "" := fun h ↦
    (validate_iff.mp hvalid).named (h ▸ (validate_iff.mp hvalid).entryPoint)
  have hget : getBehaviorTree target' g.behaviorTree.id =
      some (treeOfRow (newRow rows dbModel olds)) := congrArg (Option.map treeOfRow) hfind
  have himport : ∃ reply, importBehaviorTree codec rows now (codec.encodeGraph g) target =
      .ok (reply, target') := by
    rw [importBehaviorTree, hround.file]
    dsimp only
    rw [hvalid]
    dsimp only
    rw [if_neg fun h ↦ h.2 hchecksum, if_neg (by simp [hfree])]
    split
    · rename_i err herror
      exact absurd (herror.symm.trans hcreate) (by simp)
    · rename_i stored hstored
      rw [Except.ok.inj (hstored.symm.trans hcreate)]
      exact ⟨_, rfl⟩
  obtain ⟨reply, himport⟩ := himport
  refine ⟨reply, target', _, himport, hget, rfl, rfl, rfl, ?_, ?_, ?_, rfl, rfl⟩
  · simp [treeOfRow, newRow, dbModel, toDBModel]
  · simp [treeOfRow, newRow, dbModel, toDBModel]
  · simp [treeOfRow, newRow, dbModel, toDBModel, resolveEntryPoint, hentry]

/-- **What is exported of a tree that was made of a graph.** -/
theorem reexported {steps : List Step} (hvertices : g.vertices = steps.map stepToVertex)
    (hvalid : g.Valid) (hversion : g.schemaVersion = "1.0.0") (hround : RoundTrips codec rows g)
    (hget : getBehaviorTree db g.behaviorTree.id = some bt) (hmade : MadeOf codec.toCodec g bt) :
    ∃ file, exportBehaviorTree codec db g.behaviorTree.id = .ok file ∧
      untimed file.canonicalGraph =
        { untimed g with
          behaviorTree := { (untimed g).behaviorTree with taskDistributorID := "" }
          edges := (dbSteps codec.toCodec g).flatMap extractEdges } := by
  have hstored : storedSteps codec.toCodec bt = .ok (dbSteps codec.toCodec g) := by
    rw [storedSteps, hmade.steps, if_neg hround.written, hround.steps]
  have hids : (dbSteps codec.toCodec g).map (·.id) = g.ids := by
    rw [ids_dbSteps hvertices, CanonicalGraph.ids, hvertices, List.map_map]
    exact List.map_congr_left fun step _ ↦ (id_stepToVertex step).symm
  have hentry : entryPointOf g.entryPoint (dbSteps codec.toCodec g) = g.entryPoint := by
    have hempty : g.entryPoint ≠ "" := fun h ↦ hvalid.named (h ▸ hvalid.entryPoint)
    rw [entryPointOf, if_pos hempty, hids, if_neg fun h ↦ h.2 hvalid.entryPoint]
  have hgraph : untimed (graphOf bt (dbSteps codec.toCodec g)) =
      { untimed g with
        behaviorTree := { (untimed g).behaviorTree with taskDistributorID := "" }
        edges := (dbSteps codec.toCodec g).flatMap extractEdges } := by
    rw [graphOf, untimed, untimed, hmade.id, hmade.name, hmade.version, hmade.description,
      hmade.agentID, hmade.taskDistributorID, hmade.entryPoint, hentry,
      vertices_dbSteps hvertices, hversion]
  have hexport : ∃ file, exportBehaviorTree codec db g.behaviorTree.id = .ok file ∧
      untimed file.canonicalGraph = untimed (graphOf bt (dbSteps codec.toCodec g)) := by
    rw [exportBehaviorTree, if_neg hvalid.id, hget]
    dsimp only
    rw [fromDBModel, hstored]
    exact ⟨_, rfl, rfl⟩
  obtain ⟨file, hfile, hsame⟩ := hexport
  exact ⟨file, hfile, hsame.trans hgraph⟩

/-- **What both servers export of one tree.** -/
theorem import_then_export (hexport : exportBehaviorTree codec db graphID = .ok file)
    (hvalid : file.canonicalGraph.validate = .ok ())
    (hfree : getBehaviorTree target file.canonicalGraph.behaviorTree.id = none)
    (hround : RoundTrips codec rows file.canonicalGraph) :
    ∃ reply target' file', importBehaviorTree codec rows now
        (codec.encodeGraph file.canonicalGraph) target = .ok (reply, target') ∧
      exportBehaviorTree codec target' file.canonicalGraph.behaviorTree.id = .ok file' ∧
      untimed file'.canonicalGraph =
        { untimed file.canonicalGraph with
          behaviorTree :=
            { (untimed file.canonicalGraph).behaviorTree with taskDistributorID := "" }
          edges := (dbSteps codec.toCodec file.canonicalGraph).flatMap extractEdges } := by
  obtain ⟨bt, steps, -, -, hfile⟩ := exportBehaviorTree_eq_ok hexport
  have hchecksum : file.canonicalGraph.checksum =
      computeChecksum codec.toCodec file.canonicalGraph := by
    rw [hfile]
    rfl
  obtain ⟨reply, target', imported, himport, hget, hmade⟩ :=
    import_exported hvalid hchecksum hfree hround
  obtain ⟨file', hexport', hsame⟩ :=
    reexported (by rw [hfile]; rfl) (validate_iff.mp hvalid) (by rw [hfile]; rfl) hround hget hmade
  exact ⟨reply, target', file', himport, hexport', hsame⟩

/-- **The file of a tree is accepted, and what comes back is the same graph when the tree is
portable**, and only then. -/
theorem comesBack_iff (hexport : exportBehaviorTree codec db graphID = .ok file)
    (hvalid : file.canonicalGraph.validate = .ok ())
    (hfree : getBehaviorTree target file.canonicalGraph.behaviorTree.id = none)
    (hround : RoundTrips codec rows file.canonicalGraph) :
    (∃ reply target', importBehaviorTree codec rows now
        (codec.encodeGraph file.canonicalGraph) target = .ok (reply, target')) ∧
      (ComesBack codec rows now target file.canonicalGraph ↔
        ∃ bt, getBehaviorTree db graphID = some bt ∧ Portable codec.toCodec bt) := by
  obtain ⟨bt, steps, hbt, hsteps, hfile⟩ := exportBehaviorTree_eq_ok hexport
  obtain ⟨reply, target', file', himport, hexport', hsame⟩ : ∃ reply target' file',
      importBehaviorTree codec rows now (codec.encodeGraph file.canonicalGraph) target =
        .ok (reply, target') ∧ _ := import_then_export hexport hvalid hfree hround
  have hback : ComesBack codec rows now target file.canonicalGraph ↔
      untimed file'.canonicalGraph = untimed file.canonicalGraph := by
    constructor
    · rintro ⟨_, _, _, himport₂, hexport₂, hsame₂⟩
      obtain ⟨-, rfl⟩ := Prod.mk.inj (Except.ok.inj (himport.symm.trans himport₂))
      rw [Except.ok.inj (hexport'.symm.trans hexport₂)]
      exact hsame₂
    · intro hsame
      exact ⟨reply, target', file', himport, hexport', hsame⟩
  have hclosed : ClosedSteps steps := by
    have hgraph := validate_iff.mp hvalid
    rw [hfile] at hgraph
    exact (valid_graphOf_iff.mp ⟨hgraph.schemaVersion, hgraph.id, hgraph.named, hgraph.distinct,
      hgraph.entryPoint, hgraph.edges⟩).2
  have hvertices : file.canonicalGraph.vertices = steps.map stepToVertex := by
    rw [hfile]
    rfl
  have hmade : file.canonicalGraph.edges = steps.flatMap extractEdges := by
    rw [hfile]
    rfl
  have hedges := edges_dbSteps_iff hvertices hmade hclosed hround.conditions
  have hdistributor : file.canonicalGraph.behaviorTree.taskDistributorID =
      nullString bt.taskDistributorID := by
    rw [hfile]
    rfl
  refine ⟨⟨reply, target', himport⟩, hback.trans ?_⟩
  rw [hsame]
  constructor
  · intro hequal
    refine ⟨bt, hbt, ?_, fun steps' hsteps' ↦ ?_⟩
    · rw [← hdistributor]
      exact (congrArg (·.behaviorTree.taskDistributorID) hequal).symm
    · obtain rfl := Except.ok.inj (hsteps.symm.trans hsteps')
      exact hedges.mp (congrArg (·.edges) hequal)
  · rintro ⟨bt', hbt', hportable⟩
    obtain rfl := Option.some.inj (hbt.symm.trans hbt')
    rw [hedges.mpr (hportable.steps steps hsteps), ← hportable.taskDistributorID, ← hdistributor]
    rfl

/-! ## A tree that comes back, and one that does not -/

/-- A step that waits, with what follows on a success and on a failure, and the end. -/
def parkSteps : List Step :=
  [{ id := "park", waitFor := some { type := "timer", timeoutSec := "5" }
     transition := some
      { onFailure := .object { retry := some 2, fallback := some "done" }
        onOutcomes := [{ outcome := "succeeded", next := "done" }] } },
    { id := "done", type := "terminal", terminalType := "success" }]

def parkStepsText : String :=
  "[\x7b\"id\":\"park\",\"wait_for\":\x7b\"type\":\"timer\",\"timeout_sec\":5\x7d," ++
  "\"transition\":\x7b\"on_failure\":\x7b\"fallback\":\"done\",\"retry\":2\x7d," ++
  "\"on_outcomes\":[\x7b\"outcome\":\"succeeded\",\"next\":\"done\"\x7d]\x7d\x7d," ++
  "\x7b\"id\":\"done\",\"type\":\"terminal\",\"terminal_type\":\"success\"\x7d]"

/-- The text that the checksum is taken of, with the member for the task distributor. -/
def parkGraphText (distributor : String) : String :=
  "\x7b\"schema_version\":\"1.0.0\",\"behavior_tree\":\x7b\"id\":\"park_tree\"," ++
  "\"name\":\"Park\",\"version\":1," ++ distributor ++
  "\"created_at\":\"2024-05-01T08:00:00Z\",\"updated_at\":\"2024-05-01T08:00:00Z\"\x7d," ++
  "\"vertices\":[\x7b\"id\":\"park\",\"type\":\"step\",\"step\":\x7b\"step_type\":\"wait\"," ++
  "\"wait\":\x7b\"type\":\"timer\",\"timeout_sec\":5\x7d,\"states\":\x7b\x7d\x7d\x7d," ++
  "\x7b\"id\":\"done\",\"type\":\"terminal\"," ++
  "\"terminal\":\x7b\"terminal_type\":\"success\"\x7d\x7d],\"edges\":[\x7b\"from\":\"park\"," ++
  "\"to\":\"done\",\"type\":\"conditional\"," ++
  "\"config\":\x7b\"condition\":\"\x7b\\\"outcome\\\":\\\"succeeded\\\"\x7d\"\x7d\x7d," ++
  "\x7b\"from\":\"park\",\"to\":\"done\",\"type\":\"on_failure\",\"config\":\x7b\"retry\":2," ++
  "\"fallback\":\"done\"\x7d\x7d],\"entry_point\":\"park\"\x7d"

/-- The text of the file. -/
def parkFileText (distributor hash : String) : String :=
  "\x7b\n  \"schema_version\": \"1.0.0\",\n  \"behavior_tree\": \x7b\n" ++
  "    \"id\": \"park_tree\",\n    \"name\": \"Park\",\n    \"version\": 1,\n" ++ distributor ++
  "    \"created_at\": \"2024-05-01T08:00:00Z\",\n" ++
  "    \"updated_at\": \"2024-05-01T08:00:00Z\"\n  \x7d,\n  \"vertices\": [\n    \x7b\n" ++
  "      \"id\": \"park\",\n      \"type\": \"step\",\n      \"step\": \x7b\n" ++
  "        \"step_type\": \"wait\",\n        \"wait\": \x7b\n          \"type\": \"timer\",\n" ++
  "          \"timeout_sec\": 5\n        \x7d,\n        \"states\": \x7b\x7d\n      \x7d\n" ++
  "    \x7d,\n    \x7b\n      \"id\": \"done\",\n      \"type\": \"terminal\",\n" ++
  "      \"terminal\": \x7b\n        \"terminal_type\": \"success\"\n      \x7d\n    \x7d\n" ++
  "  ],\n  \"edges\": [\n    \x7b\n      \"from\": \"park\",\n      \"to\": \"done\",\n" ++
  "      \"type\": \"conditional\",\n      \"config\": \x7b\n" ++
  "        \"condition\": \"\x7b\\\"outcome\\\":\\\"succeeded\\\"\x7d\"\n      \x7d\n" ++
  "    \x7d,\n    \x7b\n      \"from\": \"park\",\n      \"to\": \"done\",\n" ++
  "      \"type\": \"on_failure\",\n      \"config\": \x7b\n        \"retry\": 2,\n" ++
  "        \"fallback\": \"done\"\n      \x7d\n    \x7d\n  ],\n  \"entry_point\": \"park\",\n" ++
  "  \"checksum\": \"sha256:" ++ hash ++ "\"\n\x7d\n"

def parkRow (distributor stepsText : String) : ActionGraph where
  id := "park_tree"
  name := "Park"
  entryPoint := "park"
  version := 1
  stepsJSON := stepsText
  taskDistributorID := distributor
  createdAtMs := 1714550400000
  updatedAtMs := 1714550400000

def parkServer (distributor stepsText : String) : Database where
  graphs := { rows := [parkRow distributor stepsText], nodup := List.nodup_singleton _ }
  nodes := []

def freshServer : Database where
  graphs := { rows := [], nodup := List.nodup_nil }
  nodes := []

def parkFile (distributor hash stepsText : String) : ExportedFile where
  filename := "park_tree_v1.json"
  canonicalGraph :=
    { graphOf (treeOfRow (parkRow distributor stepsText)) parkSteps with
      checksum := "sha256:" ++ hash }

/-- Knows the texts of the tree, and no others. -/
def parkCodec (distributor hash stepsText graphText fileText : String) : FileCodec where
  unmarshalSteps text := if text = stepsText then .ok parkSteps else .error "unexpected text"
  marshalSteps steps := if steps = parkSteps then stepsText else ""
  unmarshalStrings text :=
    if text = String.ofList (JsonText.object [("outcome", "succeeded")]) then
      some [("outcome", "succeeded")]
    else none
  marshalGraph _ := graphText
  sha256 text := if text = graphText then hash else ""
  encodeGraph _ := fileText
  decodeGraph text :=
    if text = fileText then .ok (parkFile distributor hash stepsText).canonicalGraph
    else .error "unexpected text"

/-- The store reads the same steps of the text. -/
def parkRows (stepsText : String) : Db.Codec where
  unmarshalSteps text :=
    if text = stepsText then
      .ok
        [{ id := "park", waitFor := some { type := "timer", timeoutSec := "5" } },
          { id := "done", type := "terminal", terminalType := "success" }]
    else .error "unexpected text"
  unmarshalPreconditions _ := .ok []
  marshalAction _ := ""
  marshalWait _ := "\x7b\"type\":\"timer\",\"timeout_sec\":5\x7d"
  sha256 _ := ""

section

variable {distributor hash stepsText graphText fileText : String}

theorem storedSteps_park (hne : stepsText ≠ "") :
    storedSteps (parkCodec distributor hash stepsText graphText fileText).toCodec
      (treeOfRow (parkRow distributor stepsText)) = .ok parkSteps := by
  have htext : (treeOfRow (parkRow distributor stepsText)).steps = stepsText := rfl
  rw [storedSteps, htext, if_neg hne]
  exact if_pos rfl

theorem getBehaviorTree_park : getBehaviorTree (parkServer distributor stepsText) "park_tree" =
    some (treeOfRow (parkRow distributor stepsText)) := by
  rfl

theorem getBehaviorTree_freshServer (graphID : String) : getBehaviorTree freshServer graphID =
    none := by
  rfl

theorem export_park (hne : stepsText ≠ "") :
    exportBehaviorTree (parkCodec distributor hash stepsText graphText fileText)
      (parkServer distributor stepsText) "park_tree" =
        .ok (parkFile distributor hash stepsText) := by
  have hchecksum : ∀ g,
      computeChecksum (parkCodec distributor hash stepsText graphText fileText).toCodec g =
        "sha256:" ++ hash := fun _ ↦ congrArg ("sha256:" ++ ·) (if_pos rfl)
  rw [exportBehaviorTree, if_neg (by decide), getBehaviorTree_park]
  dsimp only
  rw [fromDBModel, storedSteps_park hne]
  dsimp only
  rw [hchecksum]
  rfl

theorem valid_park : (parkFile distributor hash stepsText).canonicalGraph.validate = .ok () := by
  rfl

theorem roundTrips_park (hne : stepsText ≠ "") :
    RoundTrips (parkCodec distributor hash stepsText graphText fileText) (parkRows stepsText)
      (parkFile distributor hash stepsText).canonicalGraph := by
  have hcondition : encodeOutcomeCondition "succeeded" "" =
      String.ofList (JsonText.object [("outcome", "succeeded")]) := by decide
  have hsteps : dbSteps (parkCodec distributor hash stepsText graphText fileText).toCodec
      (parkFile distributor hash stepsText).canonicalGraph = parkSteps := by
    rfl
  have hmarshal : (parkCodec distributor hash stepsText graphText fileText).marshalSteps parkSteps =
      stepsText := by simp [parkCodec]
  refine ⟨if_pos rfl, ?_, ?_, ?_, ?_⟩
  · rw [hsteps, hmarshal]
    exact hne
  · rw [hsteps, hmarshal]
    exact if_pos rfl
  · rw [hsteps, hmarshal, parkRows]
    exact ⟨_, if_pos rfl⟩
  · intro e he payload hpayload
    have hedges : (parkFile distributor hash stepsText).canonicalGraph.edges =
        [outcomeEdge "park" { outcome := "succeeded", next := "done" },
          { fromID := "park", toID := "done", type := .onFailure
            config := some { retry := 2, fallback := "done" } }] := by
      rfl
    rw [hedges, List.mem_cons, List.mem_singleton] at he
    rcases he with rfl | rfl
    · rw [condition_outcomeEdge, hcondition] at hpayload ⊢
      have hchars : JsonText.object payload ++ [] =
          JsonText.object [("outcome", "succeeded")] ++ [] :=
        congrArg (· ++ []) (String.ofList_injective hpayload.symm)
      obtain ⟨rfl, -⟩ := JsonText.object_append_inj hchars
      simp [parkCodec]
    · obtain ⟨middle, hobject⟩ := JsonText.object_ends payload
      have hempty := congrArg String.toList hpayload
      rw [hobject, String.toList_ofList] at hempty
      exact absurd hempty (by simp [Edge.condition])

theorem portable_park (hne : stepsText ≠ "") :
    Portable (parkCodec "" hash stepsText graphText fileText).toCodec
      (treeOfRow (parkRow "" stepsText)) := by
  refine ⟨rfl, fun steps hsteps ↦ ?_⟩
  rw [storedSteps_park hne] at hsteps
  obtain rfl := Except.ok.inj hsteps
  intro step hstep t ht
  rw [parkSteps, List.mem_cons, List.mem_singleton] at hstep
  rcases hstep with rfl | rfl
  · obtain rfl := Option.some.inj ht
    rw [if_neg (by simp)]
    exact .inr (.inr ⟨by simp, by simp [TransitionFields.backoff],
      .inl (by rw [TransitionFields.retries]; decide)⟩)
  · exact absurd ht (by simp)

end

theorem parkStepsText_ne : parkStepsText ≠ "" := fun h ↦
  absurd (String.append_eq_empty_iff.mp h).2 (by simp)

def untiedHash : String := "73e69df06a7fb0be26ea7e0c100382bf1cff4a8b713b55d9c3dc97680b267029"

def untiedCodec : FileCodec :=
  parkCodec "" untiedHash parkStepsText (parkGraphText "") (parkFileText "" untiedHash)

/-- **The file of a tree with a retry and an outcome is accepted, and comes back.** -/
theorem park_comesBack : ComesBack untiedCodec (parkRows parkStepsText)
    (ofUnixMilli 1718000000000) freshServer
    (parkFile "" untiedHash parkStepsText).canonicalGraph := by
  have hexport : exportBehaviorTree untiedCodec (parkServer "" parkStepsText) "park_tree" =
      .ok (parkFile "" untiedHash parkStepsText) := export_park parkStepsText_ne
  have hround : RoundTrips untiedCodec (parkRows parkStepsText)
      (parkFile "" untiedHash parkStepsText).canonicalGraph := roundTrips_park parkStepsText_ne
  refine (comesBack_iff hexport valid_park (getBehaviorTree_freshServer _) hround).2.mpr
    ⟨_, getBehaviorTree_park, portable_park parkStepsText_ne⟩

def tiedHash : String := "99f5ecf6291a5060382fb8c2be22b2c415d3735cea92674aa2213e9a2d15a583"

def tiedCodec : FileCodec :=
  parkCodec "warehouse" tiedHash parkStepsText
    (parkGraphText "\"task_distributor_id\":\"warehouse\",")
    (parkFileText "    \"task_distributor_id\": \"warehouse\",\n" tiedHash)

/-- **A tree that is tied to a task distributor is not when it has been imported.** -/
theorem taskDistributor_lost : ¬∀ (codec : FileCodec) (rows : Db.Codec) (now : Time)
    (db target : Database) (graphID : String) (file : ExportedFile),
    exportBehaviorTree codec db graphID = .ok file →
    file.canonicalGraph.validate = .ok () →
    getBehaviorTree target file.canonicalGraph.behaviorTree.id = none →
    RoundTrips codec rows file.canonicalGraph →
    ComesBack codec rows now target file.canonicalGraph := by
  intro hall
  have hexport : exportBehaviorTree tiedCodec (parkServer "warehouse" parkStepsText) "park_tree" =
      .ok (parkFile "warehouse" tiedHash parkStepsText) := export_park parkStepsText_ne
  have hround : RoundTrips tiedCodec (parkRows parkStepsText)
      (parkFile "warehouse" tiedHash parkStepsText).canonicalGraph :=
    roundTrips_park parkStepsText_ne
  obtain ⟨_, target', file, himport, hfile, hback⟩ := hall _ _ (ofUnixMilli 1718000000000) _ _ _ _
    hexport valid_park (getBehaviorTree_freshServer _) hround
  obtain ⟨_, target₂, file₂, himport₂, hfile₂, hsame⟩ :=
    import_then_export hexport valid_park (getBehaviorTree_freshServer _) hround
  obtain ⟨-, rfl⟩ := Prod.mk.inj (Except.ok.inj (himport.symm.trans himport₂))
  obtain rfl := Except.ok.inj (hfile.symm.trans hfile₂)
  have hlost := congrArg (·.behaviorTree.taskDistributorID) (hback.symm.trans hsame)
  exact absurd hlost (by decide)

end Api
end FleetServer
