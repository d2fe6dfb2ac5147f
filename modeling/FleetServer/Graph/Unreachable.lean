import FleetServer.Graph.Schema
import FleetServer.Lib.Marking

/-!
# Vertices that nothing leads to

`FindUnreachableVertices` of `internal/graph/schema.go`, which marks what the edges lead to from the
entry point and lists the vertices without a mark.  Nothing is asked of the graph: edges may lead
nowhere or in circles, ids may be there twice, and the entry point may be no vertex.
-/

set_option autoImplicit false

namespace FleetServer
namespace Schema

variable {g : CanonicalGraph}

/-- `FindUnreachableVertices`.  The search is as deep as there are vertices, ends of edges and the
entry point, at most. -/
def CanonicalGraph.findUnreachableVertices (g : CanonicalGraph) : List String :=
  g.ids.filter fun id ↦
    !Marking.mark g.successors (g.vertices.length + g.edges.length + 1) (fun _ ↦ false)
      g.entryPoint id

/-- The places the search can come to. -/
def CanonicalGraph.places (g : CanonicalGraph) : Finset String := insert g.entryPoint g.nodes

theorem successors_mem_places : ∀ x ∈ g.places, ∀ y ∈ g.successors x, y ∈ g.places := by
  intro x _ y hy
  obtain ⟨e, he, -, rfl⟩ := (arrow_successors x y).mp hy
  exact Finset.mem_insert_of_mem
    (List.mem_toFinset.mpr (List.mem_append_right _ (List.mem_map_of_mem he)))

theorem card_places_le (g : CanonicalGraph) :
    g.places.card ≤ g.vertices.length + g.edges.length + 1 := by
  have hinsert := Finset.card_insert_le g.entryPoint g.nodes
  have hnodes := card_nodes_le g
  rw [CanonicalGraph.places]
  omega

/-- **The vertices listed are those that no walk from the entry point comes to**, in the order of
the graph and as often as they are there. -/
theorem findUnreachableVertices_eq (g : CanonicalGraph) :
    ∃ unreachable : String → Bool, g.findUnreachableVertices = g.ids.filter unreachable ∧
      ∀ id, unreachable id = true ↔ ∀ edges, ¬g.IsWalk g.entryPoint edges id := by
  refine ⟨_, rfl, fun id ↦ ?_⟩
  have hmark := Marking.mark_iff successors_mem_places (Finset.mem_insert_self g.entryPoint g.nodes)
    (card_places_le g) id
  have hlinked : (fun a b ↦ b ∈ g.successors a) = g.Linked := by
    funext source target
    exact propext (arrow_successors source target)
  rw [hlinked, ← exists_isWalk_iff] at hmark
  rw [Bool.not_eq_true', ← not_exists, ← hmark, Bool.not_eq_true]

/-- An edge that leads back and a vertex that only leads out. -/
example : CanonicalGraph.findUnreachableVertices
    { behaviorTree := ⟨"tree", "Tree", 1, "", "", "", 0, 0⟩
      vertices := [{ id := "dock", type := .step }, { id := "stray", type := .step }]
      edges := [⟨"dock", "dock", .onSuccess, none⟩, ⟨"stray", "dock", .onFailure, none⟩]
      entryPoint := "dock" } = ["stray"] := by
  decide +kernel

end Schema
end FleetServer
