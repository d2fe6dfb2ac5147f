import Mathlib.Logic.Function.Basic
import FleetServer.Graph.Converter

/-!
# The graph cache

`internal/state/graph_cache.go`: the canonical graphs kept in memory, templates by their id and
deployed graphs by agent and id.  The statistics, the checksums and the reverse index, which serves
the invalidation of a graph for all agents, are left out.
-/

set_option autoImplicit false

namespace FleetServer
namespace State

open FleetServer.Graph

structure CachedGraph where
  graph : CanonicalGraph
  graphID : String
  agentID : String
  version : ℤ
  deriving DecidableEq, Repr

structure GraphCache where
  templates : String → Option CachedGraph := fun _ ↦ none
  deployed : String → Option CachedGraph := fun _ ↦ none

namespace GraphCache

def deployedKey (agentID graphID : String) : String := agentID ++ ":" ++ graphID

variable (c : GraphCache)

def setTemplate (graphID : String) (g : CanonicalGraph) : GraphCache :=
  { c with
    templates := Function.update c.templates graphID
      (some { graph := g, graphID := graphID, agentID := "", version := g.behaviorTree.version }) }

def getTemplate (graphID : String) : Option CachedGraph := c.templates graphID

def setDeployed (agentID graphID : String) (g : CanonicalGraph) : GraphCache :=
  { c with
    deployed := Function.update c.deployed (deployedKey agentID graphID)
      (some
        { graph := g, graphID := graphID, agentID := agentID
          version := g.behaviorTree.version }) }

def getDeployed (agentID graphID : String) : Option CachedGraph :=
  c.deployed (deployedKey agentID graphID)

/-- The deployed graph of the agent, or else the template. -/
def get (agentID graphID : String) : Option CachedGraph :=
  if agentID ≠ "" then (c.getDeployed agentID graphID).or (c.getTemplate graphID)
  else c.getTemplate graphID

def set (agentID graphID : String) (g : CanonicalGraph) : GraphCache :=
  if agentID ≠ "" then c.setDeployed agentID graphID g else c.setTemplate graphID g

variable {c} {agentID graphID : String} {g : CanonicalGraph}

/-- **What is cached is found again.** -/
theorem get_set : (c.set agentID graphID g).get agentID graphID =
    some
      { graph := g, graphID := graphID, agentID := agentID
        version := g.behaviorTree.version } := by
  rw [set, get]
  by_cases h : agentID = ""
  · rw [if_neg (not_not.mpr h), if_neg (not_not.mpr h), h]
    exact Function.update_self ..
  · rw [if_pos h, if_pos h, getDeployed, setDeployed]
    dsimp only
    rw [Function.update_self]
    rfl

theorem get_setDeployed (h : agentID ≠ "") :
    (c.setDeployed agentID graphID g).get agentID graphID =
      some
        { graph := g, graphID := graphID, agentID := agentID
          version := g.behaviorTree.version } := by
  have hset : c.set agentID graphID g = c.setDeployed agentID graphID g := if_pos h
  rw [← hset]
  exact get_set

end GraphCache
end State
end FleetServer
