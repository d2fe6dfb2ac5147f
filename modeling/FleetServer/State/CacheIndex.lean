import FleetServer.Lib.GoString
import FleetServer.Lib.InvertedIndex
import FleetServer.Lib.RangeOrder
import FleetServer.Lib.Run
import FleetServer.State.GraphCache

/-!
# The reverse index of the graph cache

The whole of `internal/state/graph_cache.go`: beside the cached graphs it keeps when each was used
last and, for every graph, the agents it is deployed to (`graphToAgents`).

A deployed graph is stored under the key `agentID:graphID`.  The operations find it again by that
key, by what the key starts or ends with, or by what stands before its first colon, and the index is
written with the ids they were called with.  So the cache and its index stay together, and an
invalidation removes nothing but what it names, as long as no two pairs of ids are confused on the
way; `KeepsApart` says for each operation what that takes, and `cache_consistent` that it is exactly
what it takes.
-/

set_option autoImplicit false

namespace FleetServer
namespace State

open FleetServer.Graph
open GoString InvertedIndex

/-- The cache with its reverse index.  `keys` are the keys of the map of the deployed graphs. -/
structure IndexedCache extends GraphCache where
  keys : List String := []
  keys_iff : ∀ key, key ∈ keys ↔ (deployed key).isSome = true := by simp
  templatesUsedAt : String → ℕ := fun _ ↦ 0
  deployedUsedAt : String → ℕ := fun _ ↦ 0
  graphToAgents : Index String String := fun _ ↦ none

namespace IndexedCache

open GraphCache

variable (c : IndexedCache) (now : ℕ)

/-! ## Parts of the operations -/

/-- Delete the deployed graphs under some keys. -/
def deleteWhere (p : String → Bool) : IndexedCache :=
  { c with
    deployed := fun key ↦ if p key then none else c.deployed key
    keys := c.keys.filter (!p ·)
    keys_iff := fun key ↦ by
      rw [List.mem_filter, c.keys_iff]
      cases p key <;> simp }

/-- Take an agent out of the index of a graph. -/
def unlist (agentID graphID : String) : IndexedCache :=
  { c with graphToAgents := c.graphToAgents.remove agentID graphID }

/-- The body of the loops over keys to delete: they differ in the agent and the graph that are
taken out of the index. -/
def dropEntry (pair : String → CachedGraph → String × String) (c : IndexedCache) (key : String) :
    IndexedCache :=
  match c.deployed key with
  | none => c
  | some cached => (c.deleteWhere (· = key)).unlist (pair key cached).1 (pair key cached).2

/-- The second part of a key that is split in two at its first colon. -/
def afterColon (key : String) : String :=
  String.ofList (key.toList.dropWhile (· ≠ ':')).tail

/-! ## The operations -/

def setTemplate (graphID : String) (g : CanonicalGraph) : IndexedCache :=
  { c with
    templates := (c.toGraphCache.setTemplate graphID g).templates
    templatesUsedAt := Function.update c.templatesUsedAt graphID now }

/-- `GetTemplate`: what it finds has been used. -/
def touchTemplate (graphID : String) : IndexedCache :=
  { c with templatesUsedAt := Function.update c.templatesUsedAt graphID now }

def invalidateTemplate (graphID : String) : IndexedCache :=
  { c with templates := Function.update c.templates graphID none }

def setDeployed (agentID graphID : String) (g : CanonicalGraph) : IndexedCache :=
  { c with
    deployed := (c.toGraphCache.setDeployed agentID graphID g).deployed
    keys := c.keys.insert (deployedKey agentID graphID)
    keys_iff := fun key ↦ by
      rw [List.mem_insert_iff, c.keys_iff]
      dsimp only [GraphCache.setDeployed]
      by_cases hkey : key = deployedKey agentID graphID
      · simp [hkey]
      · simp [hkey]
    deployedUsedAt := Function.update c.deployedUsedAt (deployedKey agentID graphID) now
    graphToAgents := c.graphToAgents.add agentID graphID }

/-- `GetDeployed`: what it finds has been used. -/
def touchDeployed (agentID graphID : String) : IndexedCache :=
  { c with
    deployedUsedAt := Function.update c.deployedUsedAt (deployedKey agentID graphID) now }

/-- `Get`. -/
def touch (agentID graphID : String) : IndexedCache :=
  if agentID ≠ "" ∧ (c.getDeployed agentID graphID).isSome then c.touchDeployed now agentID graphID
  else c.touchTemplate now graphID

def invalidateDeployed (agentID graphID : String) : IndexedCache :=
  (c.deleteWhere (· = deployedKey agentID graphID)).unlist agentID graphID

def invalidateAgentDeployments (order : RangeOrder String) (agentID : String) : IndexedCache :=
  if trimSpace agentID = "" then c
  else
    ((order.range c.keys).filter (hasPrefix · (trimSpace agentID ++ ":"))).foldl
      (dropEntry fun key _ ↦ (trimSpace agentID, afterColon key)) c

/-- `InvalidateAllDeployments`: first the agents of the index, then whatever ends in the id. -/
def invalidateAllDeployments (order : RangeOrder String) (graphID : String) : IndexedCache :=
  let c := (order.range (c.graphToAgents.keysAt graphID)).foldl
    (fun c agentID ↦ c.deleteWhere (· = deployedKey agentID graphID)) c
  let c := { c with graphToAgents := Function.update c.graphToAgents graphID none }
  (c.deleteWhere (hasSuffix · (":" ++ graphID))).invalidateTemplate graphID

def invalidateAgentCache (order : RangeOrder String) (agentID : String) : IndexedCache :=
  ((order.range c.keys).filter fun key ↦
      hasPrefix key (agentID ++ ":") && key ≠ agentID ++ ":").foldl
    (dropEntry fun _ cached ↦ (agentID, cached.graphID)) c

def clear : IndexedCache := {}

def evictTemplates (maxAge : ℤ) : IndexedCache :=
  { c with
    templates := fun id ↦
      if (c.templatesUsedAt id : ℤ) < now - maxAge then none else c.templates id }

/-- `EvictStale`: first the templates, then the deployed graphs. -/
def evictStale (order : RangeOrder String) (maxAge : ℤ) : IndexedCache :=
  ((order.range c.keys).filter fun key ↦ (c.deployedUsedAt key : ℤ) < now - maxAge).foldl
    (dropEntry fun _ cached ↦ (cached.agentID, cached.graphID)) (c.evictTemplates now maxAge)

inductive Op where
  | setTemplate (graphID : String) (g : CanonicalGraph)
  | getTemplate (graphID : String)
  | invalidateTemplate (graphID : String)
  | setDeployed (agentID graphID : String) (g : CanonicalGraph)
  | getDeployed (agentID graphID : String)
  | get (agentID graphID : String)
  | invalidateDeployed (agentID graphID : String)
  | invalidateAgentDeployments (order : RangeOrder String) (agentID : String)
  | invalidateAllDeployments (order : RangeOrder String) (graphID : String)
  | invalidateAgentCache (order : RangeOrder String) (agentID : String)
  | evictStale (order : RangeOrder String) (maxAge : ℤ)
  | clear

/-- The operation behind `Set`. -/
def Op.set (agentID graphID : String) (g : CanonicalGraph) : Op :=
  if agentID ≠ "" then .setDeployed agentID graphID g else .setTemplate graphID g

def apply : Op → IndexedCache
  | .setTemplate graphID g => c.setTemplate now graphID g
  | .getTemplate graphID => c.touchTemplate now graphID
  | .invalidateTemplate graphID => c.invalidateTemplate graphID
  | .setDeployed agentID graphID g => c.setDeployed now agentID graphID g
  | .getDeployed agentID graphID => c.touchDeployed now agentID graphID
  | .get agentID graphID => c.touch now agentID graphID
  | .invalidateDeployed agentID graphID => c.invalidateDeployed agentID graphID
  | .invalidateAgentDeployments order agentID => c.invalidateAgentDeployments order agentID
  | .invalidateAllDeployments order graphID => c.invalidateAllDeployments order graphID
  | .invalidateAgentCache order agentID => c.invalidateAgentCache order agentID
  | .evictStale order maxAge => c.evictStale now order maxAge
  | .clear => clear

/-- An operation at some time. -/
def step (c : IndexedCache) (call : Op × ℕ) : Option IndexedCache := some (c.apply call.2 call.1)

/-- `NewGraphCache`. -/
def Initial (c : IndexedCache) : Prop := c = {}

/-! ## What the cache and its index owe each other -/

/-- An entry for the agent and the graph is deployed. -/
def DeployedFor (agentID graphID : String) : Prop :=
  ∃ cached, c.deployed (deployedKey agentID graphID) = some cached ∧ cached.agentID = agentID ∧
    cached.graphID = graphID

/-- An agent is listed for a graph exactly when an entry for the two is deployed. -/
def IndexExact : Prop :=
  ∀ agentID graphID, agentID ∈ c.graphToAgents.keysAt graphID ↔ c.DeployedFor agentID graphID

/-- Every entry is stored under the key of its ids. -/
def Keyed : Prop :=
  ∀ key cached, c.deployed key = some cached → key = deployedKey cached.agentID cached.graphID

/-- The entries an invalidation names: those of an agent, of a graph or of both, or those that have
not been used for too long. -/
def Names (key : String) (cached : CachedGraph) : Op → Prop
  | .invalidateDeployed agentID graphID => cached.agentID = agentID ∧ cached.graphID = graphID
  | .invalidateAgentDeployments _ agentID => cached.agentID = agentID
  | .invalidateAgentCache _ agentID => cached.agentID = agentID
  | .invalidateAllDeployments _ graphID => cached.graphID = graphID
  | .evictStale _ maxAge => (c.deployedUsedAt key : ℤ) < now - maxAge
  | .clear => True
  | _ => False

/-- The operation deletes no deployed entry that it does not name. -/
def RemovesOnlyNamed (op : Op) : Prop :=
  ∀ key cached, c.deployed key = some cached → (c.apply now op).deployed key = none →
    c.Names now key cached op

/-- No other pair of ids is confused with those an operation is called with. -/
def KeepsApart : Op → Prop
  | .setDeployed agentID graphID _ | .invalidateDeployed agentID graphID =>
    -- the key is not that of another agent or graph
    ∀ cached, c.deployed (deployedKey agentID graphID) = some cached →
      cached.agentID = agentID ∧ cached.graphID = graphID
  | .invalidateAgentDeployments _ agentID =>
    -- no key of another agent starts like those of the trimmed id, and the id has no colon
    trimSpace agentID ≠ "" → ∀ key cached, c.deployed key = some cached →
      hasPrefix key (trimSpace agentID ++ ":") = true →
        cached.agentID = agentID ∧ ':' ∉ (trimSpace agentID).toList
  | .invalidateAgentCache _ agentID =>
    -- no key of another agent starts like those of the agent
    ∀ key cached, c.deployed key = some cached → hasPrefix key (agentID ++ ":") = true →
      key ≠ agentID ++ ":" → cached.agentID = agentID
  | .invalidateAllDeployments _ graphID =>
    -- no key of another graph ends like those of the graph
    ∀ key cached, c.deployed key = some cached → hasSuffix key (":" ++ graphID) = true →
      cached.graphID = graphID
  | _ => True

variable {c now}

/-! ## Deleting entries -/

section Delete

variable {c' : IndexedCache} {p : String → Bool} {listed : String → String → Prop}

/-- After some entries and some places of the index have been deleted, the index is exact exactly
when these are places of the same entries. -/
theorem IndexExact.delete_iff (hexact : c.IndexExact)
    (hdeployed : ∀ key, c'.deployed key = if p key then none else c.deployed key)
    (hindex : ∀ agentID graphID, agentID ∈ c'.graphToAgents.keysAt graphID ↔
      agentID ∈ c.graphToAgents.keysAt graphID ∧ ¬listed agentID graphID) :
    c'.IndexExact ↔ ∀ agentID graphID, c.DeployedFor agentID graphID →
      (listed agentID graphID ↔ p (deployedKey agentID graphID) = true) := by
  refine forall₂_congr fun agentID graphID ↦ ?_
  rw [hindex, hexact agentID graphID]
  have hkept : c'.DeployedFor agentID graphID ↔
      c.DeployedFor agentID graphID ∧ ¬p (deployedKey agentID graphID) = true := by
    rw [DeployedFor, DeployedFor, hdeployed]
    split
    · rename_i hp
      simp [hp]
    · rename_i hp
      simp [hp]
  rw [hkept]
  tauto

/-- What an operation that deletes has to satisfy, entry by entry. -/
theorem delete_consistent_iff (hkeyed : c.Keyed) (hexact : c.IndexExact) {op : Op}
    (hdeployed : ∀ key, (c.apply now op).deployed key = if p key then none else c.deployed key)
    (hindex : ∀ agentID graphID, agentID ∈ (c.apply now op).graphToAgents.keysAt graphID ↔
      agentID ∈ c.graphToAgents.keysAt graphID ∧ ¬listed agentID graphID) :
    c.RemovesOnlyNamed now op ∧ (c.apply now op).IndexExact ↔
      ∀ key cached, c.deployed key = some cached →
        (p key = true → c.Names now key cached op) ∧
          (listed cached.agentID cached.graphID ↔ p key = true) := by
  rw [hexact.delete_iff hdeployed hindex]
  constructor
  · rintro ⟨hnamed, hlisted⟩ key cached hcached
    obtain rfl := hkeyed key cached hcached
    refine ⟨fun hp ↦ hnamed _ cached hcached (by rw [hdeployed, if_pos hp]), ?_⟩
    exact hlisted _ _ ⟨cached, hcached, rfl, rfl⟩
  · refine fun h ↦ ⟨fun key cached hcached hnone ↦ (h key cached hcached).1 ?_, ?_⟩
    · rw [hdeployed, hcached] at hnone
      simpa using hnone
    · rintro _ _ ⟨cached, hcached, rfl, rfl⟩
      exact (h _ cached hcached).2

variable {pair : String → CachedGraph → String × String}

theorem dropEntry_spec (c : IndexedCache) (key : String) :
    (∀ key', (dropEntry pair c key).deployed key' =
        if key' = key then none else c.deployed key') ∧
      ∀ agentID graphID, agentID ∈ (dropEntry pair c key).graphToAgents.keysAt graphID ↔
        agentID ∈ c.graphToAgents.keysAt graphID ∧
          ¬∃ cached, c.deployed key = some cached ∧ pair key cached = (agentID, graphID) := by
  rw [dropEntry]
  cases hcached : c.deployed key with
  | none =>
    refine ⟨fun key' ↦ ?_, by simp⟩
    by_cases hkey : key' = key
    · simp [hkey, hcached]
    · simp [hkey]
  | some cached =>
    refine ⟨fun key' ↦ by simp [deleteWhere, unlist], fun agentID graphID ↦ ?_⟩
    refine Index.mem_keysAt_remove.trans ?_
    simp [deleteWhere, Prod.ext_iff, eq_comm]

/-- What a loop over keys deletes. -/
theorem foldl_dropEntry_spec (keys : List String) (c : IndexedCache) :
    (∀ key, (keys.foldl (dropEntry pair) c).deployed key =
        if key ∈ keys then none else c.deployed key) ∧
      ∀ agentID graphID,
        agentID ∈ (keys.foldl (dropEntry pair) c).graphToAgents.keysAt graphID ↔
          agentID ∈ c.graphToAgents.keysAt graphID ∧
            ¬∃ key ∈ keys, ∃ cached, c.deployed key = some cached ∧
              pair key cached = (agentID, graphID) := by
  induction keys generalizing c with
  | nil => simp
  | cons key rest ih =>
    rw [List.foldl_cons]
    obtain ⟨hdeployed, hindex⟩ := ih (dropEntry pair c key)
    obtain ⟨hfirst, hunlisted⟩ := @dropEntry_spec pair c key
    refine ⟨fun key' ↦ ?_, fun agentID graphID ↦ ?_⟩
    · rw [hdeployed key', hfirst key']
      by_cases hkey : key' = key
      · simp [hkey]
      · simp [hkey]
    · rw [hindex, hunlisted]
      simp only [hfirst, List.exists_mem_cons_iff, not_or, and_assoc]
      refine and_congr_right fun _ ↦ and_congr_right fun hgone ↦ not_congr ?_
      refine exists_congr fun key' ↦ and_congr_right fun _ ↦ ?_
      by_cases hkey : key' = key
      · subst hkey
        simpa using hgone
      · simp [hkey]

end Delete

/-! ## Keys -/

section Keys

variable {agentID graphID : String}

theorem toList_deployedKey :
    (deployedKey agentID graphID).toList = agentID.toList ++ ':' :: graphID.toList := by
  simp [deployedKey]

theorem toList_colon (id : String) : (id ++ ":").toList = id.toList ++ [':'] := by simp

theorem hasSuffix_deployedKey (agentID graphID : String) :
    hasSuffix (deployedKey agentID graphID) (":" ++ graphID) = true := by
  rw [hasSuffix, List.isSuffixOf_iff_suffix, toList_deployedKey]
  exact ⟨agentID.toList, by simp⟩

/-- A key of an agent that starts like those of its trimmed id: the id has nothing to trim. -/
theorem trimSpace_eq_of_hasPrefix (hblank : trimSpace agentID ≠ "")
    (h : hasPrefix (deployedKey agentID graphID) (trimSpace agentID ++ ":") = true) :
    trimSpace agentID = agentID := by
  obtain ⟨before, after, hchars, hbefore, hafter, hhead⟩ := exists_spaces_trimSpace agentID
  rw [hasPrefix, List.isPrefixOf_iff_prefix, toList_deployedKey, toList_colon, hchars] at h
  obtain ⟨first, rest, hfirst⟩ : ∃ first rest, (trimSpace agentID).toList = first :: rest :=
    List.exists_cons_of_ne_nil fun hnil ↦ hblank (String.toList_eq_nil_iff.mp hnil)
  have hnil : before = [] := by
    cases before with
    | nil => rfl
    | cons c before =>
      -- the key would start with white space, the prefix does not
      rw [hfirst] at h hhead
      have hc : first = c := (List.cons_prefix_cons.mp h).1
      have hspace := hbefore c List.mem_cons_self
      rw [← hc, hhead first rfl] at hspace
      exact absurd hspace (by decide)
  subst hnil
  have hnil : after = [] := by
    cases after with
    | nil => rfl
    | cons c after =>
      -- the colon would stand where the key has white space
      rw [List.nil_append, List.append_assoc, List.prefix_append_right_inj] at h
      have hc : ':' = c := (List.cons_prefix_cons.mp h).1
      have hspace := hafter c List.mem_cons_self
      rw [← hc] at hspace
      exact absurd hspace (by decide)
  subst hnil
  rw [List.nil_append, List.append_nil] at hchars
  exact String.toList_injective hchars.symm

/-- What stands behind the first colon. -/
theorem afterColon_eq {key : String} {start rest : List Char}
    (h : key.toList = start ++ ':' :: rest) (hstart : ':' ∉ start) : (afterColon key).toList = rest := by
  rw [afterColon, h, List.dropWhile_append_of_pos fun c hc ↦ ?_, String.toList_ofList]
  · simp
  · exact decide_eq_true fun heq ↦ hstart (heq ▸ hc)

theorem afterColon_deployedKey (h : ':' ∉ agentID.toList) :
    afterColon (deployedKey agentID graphID) = graphID :=
  String.toList_injective (afterColon_eq toList_deployedKey h)

/-- When the id of the agent has a colon, there is more behind the first one than the id of the
graph. -/
theorem length_lt_afterColon (h : ':' ∈ agentID.toList) :
    graphID.toList.length < (afterColon (deployedKey agentID graphID)).toList.length := by
  obtain ⟨start, rest, hsplit, hstart⟩ := List.eq_append_cons_of_mem h
  have hkey : (deployedKey agentID graphID).toList =
      start ++ ':' :: (rest ++ ':' :: graphID.toList) := by
    rw [toList_deployedKey, hsplit, List.append_assoc, List.cons_append]
  rw [afterColon_eq hkey hstart, List.length_append, List.length_cons]
  omega

end Keys

/-! ## The operations -/

section Operations

variable {agentID graphID : String} {order : RangeOrder String}

/-- An operation that leaves the deployed graphs and the index alone. -/
theorem consistent_of_same {op : Op} (hexact : c.IndexExact)
    (hdeployed : (c.apply now op).deployed = c.deployed)
    (hindex : (c.apply now op).graphToAgents = c.graphToAgents) :
    c.RemovesOnlyNamed now op ∧ (c.apply now op).IndexExact := by
  refine ⟨fun key cached hcached hnone ↦ ?_, fun agentID graphID ↦ ?_⟩
  · rw [hdeployed, hcached] at hnone
    exact absurd hnone (by simp)
  · rw [hindex, DeployedFor, hdeployed]
    exact hexact agentID graphID

theorem deployed_setDeployed (agentID graphID : String) (g : CanonicalGraph) :
    (c.setDeployed now agentID graphID g).deployed =
      Function.update c.deployed (deployedKey agentID graphID)
        (some
          { graph := g, graphID := graphID, agentID := agentID
            version := g.behaviorTree.version }) := rfl

theorem Keyed.setDeployed (hkeyed : c.Keyed) (agentID graphID : String) (g : CanonicalGraph) :
    (c.setDeployed now agentID graphID g).Keyed := by
  intro key cached hcached
  rw [deployed_setDeployed] at hcached
  by_cases hkey : key = deployedKey agentID graphID
  · subst hkey
    rw [Function.update_self] at hcached
    obtain rfl := Option.some.inj hcached
    rfl
  · rw [Function.update_of_ne hkey] at hcached
    exact hkeyed key cached hcached

/-- Which pairs have an entry once one has been written. -/
theorem deployedFor_setDeployed {agentID' graphID' : String} {g : CanonicalGraph} :
    (c.setDeployed now agentID graphID g).DeployedFor agentID' graphID' ↔
      if deployedKey agentID' graphID' = deployedKey agentID graphID then
        agentID = agentID' ∧ graphID = graphID'
      else c.DeployedFor agentID' graphID' := by
  rw [DeployedFor, deployed_setDeployed]
  split
  · rename_i hkey
    rw [hkey, Function.update_self]
    simp
  · rename_i hkey
    rw [Function.update_of_ne hkey]
    rfl

theorem keepsApart_setDeployed (hkeyed : c.Keyed) (hexact : c.IndexExact) (g : CanonicalGraph) :
    c.KeepsApart (.setDeployed agentID graphID g) ↔
      c.RemovesOnlyNamed now (.setDeployed agentID graphID g) ∧
        (c.apply now (.setDeployed agentID graphID g)).IndexExact := by
  have hindex : ∀ agentID' graphID', agentID' ∈
      (c.setDeployed now agentID graphID g).graphToAgents.keysAt graphID' ↔
        c.DeployedFor agentID' graphID' ∨ agentID' = agentID ∧ graphID' = graphID :=
    fun agentID' graphID' ↦ Index.mem_keysAt_add.trans (or_congr_left (hexact agentID' graphID'))
  constructor
  · intro hapart
    refine ⟨fun key cached hcached hnone ↦ ?_, fun agentID' graphID' ↦ ?_⟩
    · rw [apply, deployed_setDeployed] at hnone
      by_cases hkey : key = deployedKey agentID graphID
      · subst hkey
        exact absurd hnone (by simp)
      · rw [Function.update_of_ne hkey, hcached] at hnone
        exact absurd hnone (by simp)
    · rw [apply, hindex, deployedFor_setDeployed]
      split
      · rename_i hkey
        constructor
        · rintro (⟨cached, hcached, rfl, rfl⟩ | ⟨rfl, rfl⟩)
          · obtain ⟨hagent, hgraph⟩ := hapart cached (hkey ▸ hcached)
            exact ⟨hagent.symm, hgraph.symm⟩
          · exact ⟨rfl, rfl⟩
        · rintro ⟨rfl, rfl⟩
          exact Or.inr ⟨rfl, rfl⟩
      · rename_i hkey
        refine or_iff_left ?_
        rintro ⟨rfl, rfl⟩
        exact hkey rfl
  · rintro ⟨-, hafter⟩ cached hcached
    -- the pair whose entry is overwritten is still listed
    have hkey := hkeyed _ cached hcached
    have hlisted := (hindex cached.agentID cached.graphID).mpr
      (Or.inl ⟨cached, hkey ▸ hcached, rfl, rfl⟩)
    have hdeployed := (hafter cached.agentID cached.graphID).mp hlisted
    rw [apply, deployedFor_setDeployed, if_pos hkey.symm] at hdeployed
    exact ⟨hdeployed.1.symm, hdeployed.2.symm⟩

theorem keepsApart_invalidateDeployed (hkeyed : c.Keyed) (hexact : c.IndexExact) :
    c.KeepsApart (.invalidateDeployed agentID graphID) ↔
      c.RemovesOnlyNamed now (.invalidateDeployed agentID graphID) ∧
        (c.apply now (.invalidateDeployed agentID graphID)).IndexExact := by
  rw [delete_consistent_iff hkeyed hexact (fun _ ↦ rfl) fun _ _ ↦ Index.mem_keysAt_remove]
  constructor
  · intro hapart key cached hcached
    have hids : key = deployedKey agentID graphID →
        cached.agentID = agentID ∧ cached.graphID = graphID :=
      fun hkey ↦ hapart cached (hkey ▸ hcached)
    refine ⟨fun hp ↦ hids (of_decide_eq_true hp), ?_⟩
    rw [decide_eq_true_eq]
    refine ⟨?_, hids⟩
    rintro ⟨rfl, rfl⟩
    exact hkeyed key cached hcached
  · intro h cached hcached
    exact (h _ cached hcached).1 (decide_eq_true rfl)

/-- The keys a loop deletes are those of the map that pass its test. -/
theorem mem_keysToDelete {p : String → Bool} {key : String} {cached : CachedGraph}
    (hcached : c.deployed key = some cached) :
    key ∈ (order.range c.keys).filter p ↔ p key = true := by
  rw [List.mem_filter, order.mem_range, c.keys_iff, hcached]
  simp

/-- A loop that takes every entry out of the index under the ids it is stored for. -/
theorem loop_consistent_iff {op : Op} (order : RangeOrder String) {p : String → Bool}
    {pair : String → CachedGraph → String × String} (c₀ : IndexedCache) (hkeyed : c.Keyed)
    (hexact : c.IndexExact) (hdeployed : c₀.deployed = c.deployed)
    (hindex : c₀.graphToAgents = c.graphToAgents)
    (hop : c.apply now op = ((order.range c.keys).filter p).foldl (dropEntry pair) c₀) :
    c.RemovesOnlyNamed now op ∧ (c.apply now op).IndexExact ↔
      ∀ key cached, c.deployed key = some cached →
        (p key = true → c.Names now key cached op) ∧
          ((∃ key' cached', c.deployed key' = some cached' ∧ p key' = true ∧
            pair key' cached' = (cached.agentID, cached.graphID)) ↔ p key = true) := by
  obtain ⟨hkept, hunlisted⟩ := @foldl_dropEntry_spec pair ((order.range c.keys).filter p) c₀
  rw [delete_consistent_iff hkeyed hexact
    (p := fun key ↦ key ∈ (order.range c.keys).filter p)
    (fun key ↦ by rw [hop, hkept, hdeployed]; simp only [decide_eq_true_eq])
    (fun agentID graphID ↦ by rw [hop, hunlisted, hindex])]
  refine forall₃_congr fun key cached hcached ↦ ?_
  rw [decide_eq_true_eq, mem_keysToDelete hcached]
  refine and_congr_right fun _ ↦ iff_congr ?_ Iff.rfl
  constructor
  · rintro ⟨key', hkey', cached', hcached', hpair⟩
    rw [hdeployed] at hcached'
    exact ⟨key', cached', hcached', (mem_keysToDelete hcached').mp hkey', hpair⟩
  · rintro ⟨key', cached', hcached', hp, hpair⟩
    exact ⟨key', (mem_keysToDelete hcached').mpr hp, cached', hdeployed ▸ hcached', hpair⟩

/-- Two entries with the same ids are one entry. -/
theorem Keyed.same_key {key key' : String} {cached cached' : CachedGraph} (hkeyed : c.Keyed)
    (hcached : c.deployed key = some cached) (hcached' : c.deployed key' = some cached')
    (hagent : cached'.agentID = cached.agentID) (hgraph : cached'.graphID = cached.graphID) :
    key' = key := by
  rw [hkeyed key cached hcached, hkeyed key' cached' hcached', hagent, hgraph]

theorem keepsApart_invalidateAgentCache (hkeyed : c.Keyed) (hexact : c.IndexExact) :
    c.KeepsApart (.invalidateAgentCache order agentID) ↔
      c.RemovesOnlyNamed now (.invalidateAgentCache order agentID) ∧
        (c.apply now (.invalidateAgentCache order agentID)).IndexExact := by
  rw [loop_consistent_iff order c hkeyed hexact rfl rfl rfl]
  constructor
  · intro hapart
    have howner : ∀ {key cached}, c.deployed key = some cached →
        (hasPrefix key (agentID ++ ":") && key ≠ agentID ++ ":") = true →
          cached.agentID = agentID := fun hcached hp ↦ by
      simp only [ne_eq, decide_not, Bool.and_eq_true, Bool.not_eq_true', decide_eq_false_iff_not]
        at hp
      exact hapart _ _ hcached hp.1 hp.2
    refine fun key cached hcached ↦ ⟨howner hcached, ?_, fun hp ↦
      ⟨key, cached, hcached, hp, by rw [howner hcached hp]⟩⟩
    rintro ⟨key', cached', hcached', hp, hpair⟩
    obtain ⟨hagent, hgraph⟩ := Prod.mk.inj hpair
    rwa [hkeyed.same_key hcached hcached' ((howner hcached' hp).trans hagent) hgraph] at hp
  · intro h key cached hcached hstarts hne
    exact (h key cached hcached).1 (by simp [hstarts, hne])

theorem keepsApart_evictStale (hkeyed : c.Keyed) (hexact : c.IndexExact) (maxAge : ℤ) :
    c.RemovesOnlyNamed now (.evictStale order maxAge) ∧
      (c.apply now (.evictStale order maxAge)).IndexExact := by
  rw [loop_consistent_iff order (c.evictTemplates now maxAge) hkeyed hexact rfl rfl rfl]
  refine fun key cached hcached ↦ ⟨fun hp ↦ by simpa [Names] using hp, ?_, fun hp ↦
    ⟨key, cached, hcached, hp, rfl⟩⟩
  rintro ⟨key', cached', hcached', hp, hpair⟩
  obtain ⟨hagent, hgraph⟩ := Prod.mk.inj hpair
  rwa [hkeyed.same_key hcached hcached' hagent hgraph] at hp

/-- An entry of an agent whose key starts like those of the trimmed id of the agent. -/
theorem deployedKey_of_hasPrefix {key : String} {cached : CachedGraph} (hkeyed : c.Keyed)
    (hblank : trimSpace agentID ≠ "") (hcached : c.deployed key = some cached)
    (hp : hasPrefix key (trimSpace agentID ++ ":") = true) (hagent : cached.agentID = agentID) :
    trimSpace agentID = agentID ∧ key = deployedKey agentID cached.graphID := by
  have hkey : key = deployedKey agentID cached.graphID := by
    rw [← hagent]
    exact hkeyed key cached hcached
  rw [hkey] at hp
  exact ⟨trimSpace_eq_of_hasPrefix hblank hp, hkey⟩

/-- When every entry that is deleted is taken out of the index, as an entry of the agent, the id of
the agent has no colon: the graphs named in the index would get shorter and shorter. -/
theorem colon_not_mem_of_listed (hkeyed : c.Keyed) (hblank : trimSpace agentID ≠ "")
    (h : ∀ key cached, c.deployed key = some cached →
      hasPrefix key (trimSpace agentID ++ ":") = true → cached.agentID = agentID ∧
        ∃ key' cached', c.deployed key' = some cached' ∧
          hasPrefix key' (trimSpace agentID ++ ":") = true ∧ afterColon key' = cached.graphID)
    {key : String} {cached : CachedGraph} (hcached : c.deployed key = some cached)
    (hp : hasPrefix key (trimSpace agentID ++ ":") = true) :
    ':' ∉ (trimSpace agentID).toList := by
  intro hcolon
  have hdescent : ∀ (n : ℕ) (key : String) (cached : CachedGraph),
      cached.graphID.toList.length = n → c.deployed key = some cached →
        hasPrefix key (trimSpace agentID ++ ":") = true → False := by
    intro n
    induction n using Nat.strong_induction_on with
    | _ n ih =>
      intro key cached hlength hcached hp
      obtain ⟨key', cached', hcached', hp', hgraph⟩ := (h key cached hcached hp).2
      obtain ⟨htrim, hkey'⟩ :=
        deployedKey_of_hasPrefix hkeyed hblank hcached' hp' (h key' cached' hcached' hp').1
      rw [htrim] at hcolon
      have hshorter := @length_lt_afterColon agentID cached'.graphID hcolon
      rw [← hkey', hgraph, hlength] at hshorter
      exact ih _ hshorter key' cached' rfl hcached' hp'
  exact hdescent _ key cached rfl hcached hp

theorem keepsApart_invalidateAgentDeployments (hkeyed : c.Keyed) (hexact : c.IndexExact) :
    c.KeepsApart (.invalidateAgentDeployments order agentID) ↔
      c.RemovesOnlyNamed now (.invalidateAgentDeployments order agentID) ∧
        (c.apply now (.invalidateAgentDeployments order agentID)).IndexExact := by
  by_cases hblank : trimSpace agentID = ""
  · have hsame : c.apply now (.invalidateAgentDeployments order agentID) = c := if_pos hblank
    have hconsistent : c.RemovesOnlyNamed now (.invalidateAgentDeployments order agentID) ∧
        (c.apply now (.invalidateAgentDeployments order agentID)).IndexExact :=
      consistent_of_same hexact (by rw [hsame]) (by rw [hsame])
    exact iff_of_true (fun hne ↦ absurd hblank hne) hconsistent
  · have hloop : c.apply now (.invalidateAgentDeployments order agentID) =
        ((order.range c.keys).filter (hasPrefix · (trimSpace agentID ++ ":"))).foldl
          (dropEntry fun key _ ↦ (trimSpace agentID, afterColon key)) c := if_neg hblank
    rw [loop_consistent_iff order c hkeyed hexact rfl rfl hloop]
    constructor
    · intro hapart
      -- every key that is deleted is one of the agent, and splits into its ids
      have hids : ∀ key cached, c.deployed key = some cached →
          hasPrefix key (trimSpace agentID ++ ":") = true → cached.agentID = agentID ∧
            trimSpace agentID = agentID ∧ afterColon key = cached.graphID := by
        intro key cached hcached hp
        obtain ⟨hagent, hcolon⟩ := hapart hblank key cached hcached hp
        obtain ⟨htrim, hkey⟩ := deployedKey_of_hasPrefix hkeyed hblank hcached hp hagent
        rw [htrim] at hcolon
        refine ⟨hagent, htrim, ?_⟩
        rw [hkey, afterColon_deployedKey hcolon]
      intro key cached hcached
      refine ⟨fun hp ↦ (hids key cached hcached hp).1, ?_, fun hp ↦ ?_⟩
      · rintro ⟨key', cached', hcached', hp, hpair⟩
        obtain ⟨hagent', htrim, hgraph'⟩ := hids key' cached' hcached' hp
        obtain ⟨hagent, hgraph⟩ := Prod.mk.inj hpair
        have hkey : key' = key := hkeyed.same_key hcached hcached'
          (by rw [hagent', ← htrim, hagent]) (by rw [← hgraph', hgraph])
        subst hkey
        exact hp
      · obtain ⟨hagent, htrim, hgraph⟩ := hids key cached hcached hp
        exact ⟨key, cached, hcached, hp, Prod.ext (htrim.trans hagent.symm) hgraph⟩
    · intro h _ key cached hcached hp
      refine ⟨(h key cached hcached).1 hp, colon_not_mem_of_listed hkeyed hblank
        (fun key cached hcached hp ↦ ?_) hcached hp⟩
      obtain ⟨hnamed, hlisted⟩ := h key cached hcached
      obtain ⟨key', cached', hcached', hp', hpair⟩ := hlisted.mpr hp
      exact ⟨hnamed hp, key', cached', hcached', hp', (Prod.mk.inj hpair).2⟩

/-- Deleting the keys of a graph, agent by agent, leaves the keys that do not end like those. -/
theorem foldl_deleteWhere_deployedKey (graphID : String) (agents : List String)
    (c : IndexedCache) :
    (∀ key, hasSuffix key (":" ++ graphID) = false →
      (agents.foldl (fun c agentID ↦ c.deleteWhere (· = deployedKey agentID graphID)) c).deployed
        key = c.deployed key) ∧
    (agents.foldl (fun c agentID ↦ c.deleteWhere (· = deployedKey agentID graphID))
      c).graphToAgents = c.graphToAgents := by
  induction agents generalizing c with
  | nil => exact ⟨fun _ _ ↦ rfl, rfl⟩
  | cons agentID rest ih =>
    obtain ⟨hdeployed, hindex⟩ := ih (c.deleteWhere (· = deployedKey agentID graphID))
    refine ⟨fun key hkey ↦ (hdeployed key hkey).trans (if_neg ?_), hindex⟩
    rw [decide_eq_true_eq]
    rintro rfl
    rw [hasSuffix_deployedKey] at hkey
    exact absurd hkey (by decide)

theorem keepsApart_invalidateAllDeployments (hkeyed : c.Keyed) (hexact : c.IndexExact) :
    c.KeepsApart (.invalidateAllDeployments order graphID) ↔
      c.RemovesOnlyNamed now (.invalidateAllDeployments order graphID) ∧
        (c.apply now (.invalidateAllDeployments order graphID)).IndexExact := by
  obtain ⟨hdeployed, hindex⟩ :=
    foldl_deleteWhere_deployedKey graphID (order.range (c.graphToAgents.keysAt graphID)) c
  rw [@delete_consistent_iff c now (fun key ↦ hasSuffix key (":" ++ graphID))
    (fun _ graphID' ↦ graphID' = graphID) hkeyed hexact _ (fun key ↦ ?_) fun agentID graphID' ↦ ?_]
  · constructor
    · intro hapart key cached hcached
      refine ⟨hapart key cached hcached, fun hgraph ↦ ?_, hapart key cached hcached⟩
      rw [hkeyed key cached hcached, hgraph]
      exact hasSuffix_deployedKey _ _
    · exact fun h key cached hcached ↦ (h key cached hcached).1
  · show (if hasSuffix key (":" ++ graphID) = true then none else _) = _
    split
    · rfl
    · rename_i hkey
      exact hdeployed key (by simpa using hkey)
  · show agentID ∈ Index.keysAt (Function.update _ graphID none) graphID' ↔ _
    rw [hindex, Index.keysAt]
    by_cases hgraph : graphID' = graphID
    · simp [hgraph]
    · rw [Function.update_of_ne hgraph]
      simp [hgraph, Index.keysAt]

/-- An operation on a cache that is together with its index: it keeps them together and deletes
nothing it does not name exactly when no ids are confused. -/
theorem keepsApart_iff (hkeyed : c.Keyed) (hexact : c.IndexExact) (now : ℕ) (op : Op) :
    c.KeepsApart op ↔ c.RemovesOnlyNamed now op ∧ (c.apply now op).IndexExact := by
  cases op with
  | setDeployed agentID graphID g => exact keepsApart_setDeployed hkeyed hexact g
  | invalidateDeployed agentID graphID => exact keepsApart_invalidateDeployed hkeyed hexact
  | invalidateAgentDeployments order agentID =>
    exact keepsApart_invalidateAgentDeployments hkeyed hexact
  | invalidateAllDeployments order graphID =>
    exact keepsApart_invalidateAllDeployments hkeyed hexact
  | invalidateAgentCache order agentID => exact keepsApart_invalidateAgentCache hkeyed hexact
  | evictStale order maxAge =>
    exact iff_of_true trivial (keepsApart_evictStale hkeyed hexact maxAge)
  | clear =>
    refine iff_of_true trivial ⟨fun _ _ _ _ ↦ trivial, fun agentID graphID ↦ ?_⟩
    simp [apply, clear, DeployedFor, Index.keysAt]
  | get agentID graphID =>
    refine iff_of_true trivial (consistent_of_same hexact ?_ ?_)
    · rw [apply, touch]
      split <;> rfl
    · rw [apply, touch]
      split <;> rfl
  | setTemplate graphID g => exact iff_of_true trivial (consistent_of_same hexact rfl rfl)
  | getTemplate graphID => exact iff_of_true trivial (consistent_of_same hexact rfl rfl)
  | invalidateTemplate graphID => exact iff_of_true trivial (consistent_of_same hexact rfl rfl)
  | getDeployed agentID graphID => exact iff_of_true trivial (consistent_of_same hexact rfl rfl)

end Operations

/-! ## Runs -/

/-- Every entry was there before. -/
def NoneNew (c c' : IndexedCache) : Prop :=
  ∀ key cached, c'.deployed key = some cached → c.deployed key = some cached

theorem noneNew_deleteWhere (c : IndexedCache) (p : String → Bool) :
    NoneNew c (c.deleteWhere p) := by
  intro key cached hcached
  simp only [deleteWhere, Option.ite_none_left_eq_some] at hcached
  exact hcached.2

theorem noneNew_foldl {f : IndexedCache → String → IndexedCache}
    (h : ∀ c key, NoneNew c (f c key)) (keys : List String) (c : IndexedCache) :
    NoneNew c (keys.foldl f c) := by
  induction keys generalizing c with
  | nil => exact fun _ _ hcached ↦ hcached
  | cons key rest ih =>
    exact fun key' cached hcached ↦ h c key key' cached (ih (f c key) key' cached hcached)

theorem noneNew_dropEntry (pair : String → CachedGraph → String × String) (c : IndexedCache)
    (key : String) : NoneNew c (dropEntry pair c key) := by
  rw [dropEntry]
  split
  · exact fun _ _ hcached ↦ hcached
  · exact noneNew_deleteWhere c _

/-- Only `SetDeployed` writes entries. -/
theorem noneNew_apply {op : Op} (hop : ∀ agentID graphID g, op ≠ .setDeployed agentID graphID g) :
    NoneNew c (c.apply now op) := by
  have hloop : ∀ {pair} (keys : List String) (c : IndexedCache),
      NoneNew c (keys.foldl (dropEntry pair) c) := fun {pair} ↦
    noneNew_foldl (noneNew_dropEntry pair)
  cases op with
  | setDeployed agentID graphID g => exact absurd rfl (hop agentID graphID g)
  | invalidateDeployed agentID graphID => exact noneNew_deleteWhere c _
  | invalidateAgentDeployments order agentID =>
    rw [apply, invalidateAgentDeployments]
    split
    · exact fun _ _ hcached ↦ hcached
    · exact hloop _ c
  | invalidateAllDeployments order graphID =>
    intro key cached hcached
    rw [apply, invalidateAllDeployments] at hcached
    dsimp only [invalidateTemplate] at hcached
    have hscan := noneNew_deleteWhere _ _ key cached hcached
    exact noneNew_foldl (fun c agentID ↦ noneNew_deleteWhere c _) _ c key cached hscan
  | invalidateAgentCache order agentID => exact hloop _ c
  | evictStale order maxAge =>
    intro key cached hcached
    rw [apply, evictStale] at hcached
    have hkept := hloop _ _ key cached hcached
    exact hkept
  | clear => exact fun _ _ hcached ↦ absurd hcached (by simp [apply, clear])
  | get agentID graphID =>
    rw [apply, touch]
    split <;> exact fun _ _ hcached ↦ hcached
  | setTemplate graphID g => exact fun _ _ hcached ↦ hcached
  | getTemplate graphID => exact fun _ _ hcached ↦ hcached
  | invalidateTemplate graphID => exact fun _ _ hcached ↦ hcached
  | getDeployed agentID graphID => exact fun _ _ hcached ↦ hcached

/-- Every operation keeps the entries under the keys of their ids. -/
theorem Keyed.apply (hkeyed : c.Keyed) (op : Op) : (c.apply now op).Keyed := by
  by_cases hop : ∀ agentID graphID g, op ≠ .setDeployed agentID graphID g
  · exact fun key cached hcached ↦ hkeyed key cached (noneNew_apply hop key cached hcached)
  · simp only [ne_eq, not_forall, not_not] at hop
    obtain ⟨agentID, graphID, g, rfl⟩ := hop
    exact hkeyed.setDeployed agentID graphID g

/-- **In every run whose operations confuse no ids the cache and its index stay together**, and
there an operation keeps them together and deletes no entry it does not name exactly when it
confuses no ids either. -/
theorem cache_consistent
    (h : GuardedRun.Reachable step (fun c call ↦ c.KeepsApart call.1) Initial c) :
    c.IndexExact ∧ ∀ (op : Op) (now : ℕ),
      c.KeepsApart op ↔ c.RemovesOnlyNamed now op ∧ (c.apply now op).IndexExact := by
  have hinvariant : c.Keyed ∧ c.IndexExact := by
    refine GuardedRun.Reachable.invariant (I := fun c ↦ c.Keyed ∧ c.IndexExact) (fun s hs ↦ ?_)
      (fun s call s' _ hs hok hstep ↦ ?_) h
    · obtain rfl : s = {} := hs
      exact ⟨fun _ _ hcached ↦ absurd hcached (by simp), fun agentID graphID ↦ by
        simp [DeployedFor, Index.keysAt]⟩
    · obtain rfl := Option.some.inj hstep
      exact ⟨hs.1.apply call.1, ((keepsApart_iff hs.1 hs.2 call.2 call.1).mp hok).2⟩
  exact ⟨hinvariant.2, fun op now ↦ keepsApart_iff hinvariant.1 hinvariant.2 now op⟩

theorem newCache {ok : IndexedCache → Op × ℕ → Prop} :
    GuardedRun.Reachable step ok Initial {} := .start rfl

/-- A graph for the cache. -/
def emptyGraph : CanonicalGraph :=
  { behaviorTree :=
      { id := "g", name := "", version := 1, description := "", agentID := ""
        taskDistributorID := "", createdAt := 0, updatedAt := 0 }
    vertices := [], entryPoint := "" }

/-- Two agents have a graph of their own. -/
def twoAgents : IndexedCache :=
  (({} : IndexedCache).setDeployed 1 "r1" "g" emptyGraph).setDeployed 2 "r2" "g:2" emptyGraph

/-- Removing what the first has leaves what the second has, and the index says so. -/
theorem twoAgents_consistent :
    GuardedRun.Reachable step (fun c call ↦ c.KeepsApart call.1) Initial twoAgents ∧
      twoAgents.RemovesOnlyNamed 3 (.invalidateAgentCache (.asListed _) "r1") ∧
        (twoAgents.apply 3 (.invalidateAgentCache (.asListed _) "r1")).IndexExact := by
  have hreach : GuardedRun.Reachable step (fun c call ↦ c.KeepsApart call.1) Initial twoAgents := by
    refine (newCache.next (a := (Op.setDeployed "r1" "g" emptyGraph, 1)) (fun cached hcached ↦ ?_)
      rfl).next (a := (Op.setDeployed "r2" "g:2" emptyGraph, 2)) (fun cached hcached ↦ ?_) rfl
    · exact absurd hcached (by simp)
    · rw [apply, deployed_setDeployed, Function.update_of_ne (by decide)] at hcached
      exact absurd hcached (by simp)
  refine ⟨hreach, ((cache_consistent hreach).2 (.invalidateAgentCache (.asListed _) "r1") 3).mp ?_⟩
  intro key cached hcached hstarts _
  have hkey : key = deployedKey "r1" "g" ∨ key = deployedKey "r2" "g:2" := by
    by_contra hne
    rw [not_or] at hne
    rw [twoAgents, deployed_setDeployed, Function.update_of_ne hne.2, deployed_setDeployed,
      Function.update_of_ne hne.1] at hcached
    exact absurd hcached (by simp)
  rcases hkey with rfl | rfl
  · obtain rfl := Option.some.inj hcached
    rfl
  · exact absurd hstarts (by decide)

/-- **The pairs `("a:b", "c")` and `("a", "b:c")` have one key**: once both are deployed the first
agent is still listed although its entry is gone, and removing what agent `a` has would have taken
that entry away as well. -/
theorem sameKey_inconsistent :
    (∃ c, GuardedRun.Reachable step (fun _ _ ↦ True) Initial c ∧ ¬c.IndexExact) ∧
      ∃ c, GuardedRun.Reachable step (fun _ _ ↦ True) Initial c ∧
        ¬c.RemovesOnlyNamed 2 (.invalidateAgentCache (.asListed _) "a") := by
  let first : IndexedCache := ({} : IndexedCache).setDeployed 1 "a:b" "c" emptyGraph
  have hfirst : GuardedRun.Reachable step (fun _ _ ↦ True) Initial first :=
    newCache.next (a := (Op.setDeployed "a:b" "c" emptyGraph, 1)) trivial rfl
  refine ⟨⟨first.setDeployed 2 "a" "b:c" emptyGraph, hfirst.next
    (a := (Op.setDeployed "a" "b:c" emptyGraph, 2)) trivial rfl, fun hexact ↦ ?_⟩, first, hfirst,
    fun hnamed ↦ ?_⟩
  · obtain ⟨cached, hcached, hagent, -⟩ := (hexact "a:b" "c").mp (by decide)
    obtain rfl := Option.some.inj hcached
    exact absurd hagent (by decide)
  · have hagent : "a:b" = "a" := hnamed (deployedKey "a:b" "c") _ rfl (by decide)
    exact absurd hagent (by decide)

/-! ## Ids without a colon -/

/-- The ids an operation is called with have no colon, and none that is trimmed has white space
around it. -/
def PlainIDs : Op → Prop
  | .setDeployed agentID graphID _ | .invalidateDeployed agentID graphID =>
    ':' ∉ agentID.toList ∧ ':' ∉ graphID.toList
  | .invalidateAgentDeployments _ agentID => trimSpace agentID = agentID ∧ ':' ∉ agentID.toList
  | .invalidateAgentCache _ agentID => ':' ∉ agentID.toList
  | .invalidateAllDeployments _ graphID => ':' ∉ graphID.toList
  | _ => True

/-- The entries have ids without a colon. -/
def Plain (c : IndexedCache) : Prop :=
  ∀ key cached, c.deployed key = some cached →
    ':' ∉ cached.agentID.toList ∧ ':' ∉ cached.graphID.toList

/-- What stands before and behind the first colon is all there is to know of a text. -/
theorem split_unique {start start' rest rest' : List Char} (hstart : ':' ∉ start)
    (hstart' : ':' ∉ start') (h : start ++ ':' :: rest = start' ++ ':' :: rest') :
    start = start' ∧ rest = rest' := by
  have hrest : rest = rest' := by
    have hkey : (String.ofList (start ++ ':' :: rest)).toList = start ++ ':' :: rest :=
      String.toList_ofList
    rw [← afterColon_eq hkey hstart, ← afterColon_eq (hkey.trans h) hstart']
  subst hrest
  exact ⟨List.append_cancel_right h, rfl⟩

/-- **Ids without a colon are not confused.** -/
theorem keepsApart_of_plain (hkeyed : c.Keyed) (hplain : c.Plain) {op : Op} (hop : PlainIDs op) :
    c.KeepsApart op := by
  have hpair : ∀ {agentID graphID : String} {cached : CachedGraph},
      ':' ∉ agentID.toList ∧ ':' ∉ graphID.toList →
      c.deployed (deployedKey agentID graphID) = some cached →
        cached.agentID = agentID ∧ cached.graphID = graphID := by
    intro agentID graphID cached hids hcached
    have hkey := congrArg String.toList (hkeyed _ cached hcached)
    rw [toList_deployedKey, toList_deployedKey] at hkey
    obtain ⟨hagent, hgraph⟩ := split_unique hids.1 (hplain _ cached hcached).1 hkey
    exact ⟨String.toList_injective hagent.symm, String.toList_injective hgraph.symm⟩
  have howner : ∀ {agentID key : String} {cached : CachedGraph}, ':' ∉ agentID.toList →
      c.deployed key = some cached → hasPrefix key (agentID ++ ":") = true →
        cached.agentID = agentID := by
    intro agentID key cached hagent hcached hstarts
    rw [hkeyed key cached hcached, hasPrefix, List.isPrefixOf_iff_prefix, toList_deployedKey,
      toList_colon] at hstarts
    obtain ⟨rest, hrest⟩ := hstarts
    rw [List.append_assoc, List.singleton_append] at hrest
    exact (String.toList_injective (split_unique hagent (hplain key cached hcached).1 hrest).1).symm
  cases op with
  | setDeployed agentID graphID g => exact fun cached ↦ hpair hop
  | invalidateDeployed agentID graphID => exact fun cached ↦ hpair hop
  | invalidateAgentDeployments order agentID =>
    intro _ key cached hcached hstarts
    rw [hop.1] at hstarts ⊢
    exact ⟨howner hop.2 hcached hstarts, hop.2⟩
  | invalidateAgentCache order agentID =>
    exact fun key cached hcached hstarts _ ↦ howner hop hcached hstarts
  | invalidateAllDeployments order graphID =>
    intro key cached hcached hsuffix
    rw [hkeyed key cached hcached, hasSuffix, List.isSuffixOf_iff_suffix, toList_deployedKey]
      at hsuffix
    obtain ⟨start, hstart⟩ := hsuffix
    rw [String.toList_append] at hstart
    obtain ⟨hagent, hgraph⟩ := hplain key cached hcached
    have hcount := congrArg (List.count ':') hstart
    have hcolon : ':' ∉ start := by
      rw [← List.count_eq_zero] at hagent hgraph ⊢
      rw [List.count_append, List.count_append, List.count_append, List.count_cons_self, hagent,
        hgraph, List.count_eq_zero.mpr hop] at hcount
      have hone : List.count ':' ":".toList = 1 := by decide
      omega
    have hsplit := split_unique hcolon (hplain key cached hcached).1 hstart
    exact (String.toList_injective hsplit.2).symm
  | _ => trivial

/-- Entries are only written with the ids of an operation. -/
theorem Plain.apply (hplain : c.Plain) {op : Op} (hop : PlainIDs op) : (c.apply now op).Plain := by
  by_cases hset : ∀ agentID graphID g, op ≠ .setDeployed agentID graphID g
  · exact fun key cached hcached ↦ hplain key cached (noneNew_apply hset key cached hcached)
  · simp only [ne_eq, not_forall, not_not] at hset
    obtain ⟨agentID, graphID, g, rfl⟩ := hset
    intro key cached hcached
    rw [IndexedCache.apply, deployed_setDeployed] at hcached
    by_cases hkey : key = deployedKey agentID graphID
    · subst hkey
      rw [Function.update_self] at hcached
      obtain rfl := Option.some.inj hcached
      exact hop
    · rw [Function.update_of_ne hkey] at hcached
      exact hplain key cached hcached

/-- **Runs whose ids have no colon confuse no ids.** -/
theorem reachable_of_plain
    (h : GuardedRun.Reachable step (fun _ call ↦ PlainIDs call.1) Initial c) :
    GuardedRun.Reachable step (fun c call ↦ c.KeepsApart call.1) Initial c := by
  have hall : c.Keyed ∧ c.Plain ∧
      GuardedRun.Reachable step (fun c call ↦ c.KeepsApart call.1) Initial c := by
    refine GuardedRun.Reachable.invariant (I := fun c ↦ c.Keyed ∧ c.Plain ∧
      GuardedRun.Reachable step (fun c call ↦ c.KeepsApart call.1) Initial c) (fun s hs ↦ ?_)
      (fun s call s' _ hs hok hstep ↦ ?_) h
    · obtain rfl : s = {} := hs
      exact ⟨fun _ _ hcached ↦ absurd hcached (by simp),
        fun _ _ hcached ↦ absurd hcached (by simp), newCache⟩
    · obtain ⟨hkeyed, hplain, hreach⟩ := hs
      refine ⟨?_, ?_, hreach.next (keepsApart_of_plain hkeyed hplain hok) hstep⟩
      · obtain rfl := Option.some.inj hstep
        exact hkeyed.apply call.1
      · obtain rfl := Option.some.inj hstep
        exact hplain.apply hok
  exact hall.2.2

end IndexedCache
end State
end FleetServer
