import Mathlib.Data.Int.ConditionallyCompleteOrder
import FleetServer.Api.RealtimeSession
import FleetServer.Lib.RunningBest

/-!
# Which source of the state has priority

A state variable has two sources: what the planner has written, and what the robots report.  Which
of them wins is decided by a list of policies, each a pattern and a priority
(`internal/api/realtime_pddl.go`).  The policy that counts is to be the most specific one that
matches, and of several the first.

`stateMergePriorityForKey` packs both into one number: a hundred for each byte that the pattern
spells out, less the place in the list, and starts from `-1`.  So a pattern that spells out nothing,
such as `*`, counts at the head of the list only, and a hundred places weigh as much as a byte
(`stateMergePriorityForKey_iff`).
-/

set_option autoImplicit false

namespace FleetServer
namespace Api

open GoString Pddl

/-! ## The policies -/

structure TaskDistributorStateMergePolicy where
  pattern : String
  priority : String
  deriving DecidableEq, Repr

def defaultStateMergePolicies : List TaskDistributorStateMergePolicy :=
  [⟨"{{agent.name}}_status", "live"⟩,
    ⟨"{{agent.name}}_mode", "live"⟩,
    ⟨"{{agent.name}}_location", "live"⟩,
    ⟨"{{agent.name}}_battery_*", "live"⟩,
    ⟨"{{agent.name}}_*msg*", "planner"⟩,
    ⟨"{{resource.name}}_status", "live"⟩,
    ⟨"{{resource.name}}_location", "live"⟩,
    ⟨"{{resource.name}}_reserved_by", "planner"⟩,
    ⟨"{{resource.name}}_*msg*", "planner"⟩]

section Policies

variable (lib : LibraryFunctions)

/-- The policies with a pattern and a known priority. -/
def cloneStateMergePolicies (values : List TaskDistributorStateMergePolicy) :
    List TaskDistributorStateMergePolicy :=
  values.filterMap fun value ↦
    let pattern := trimSpace value.pattern
    let priority := lib.toLower (trimSpace value.priority)
    if pattern = "" ∨ priority ≠ "live" ∧ priority ≠ "planner" then none
    else some { pattern, priority }

/-- A policy takes the place of an earlier one with its pattern, if there is one. -/
def mergePolicy (merged : List TaskDistributorStateMergePolicy × AList fun _ : String ↦ ℕ)
    (value : TaskDistributorStateMergePolicy) :
    List TaskDistributorStateMergePolicy × AList fun _ : String ↦ ℕ :=
  match merged.2.lookup value.pattern with
  | some idx => (merged.1.set idx value, merged.2)
  | none => (merged.1 ++ [value], merged.2.insert value.pattern merged.1.length)

/-- The defaults, with the policies of the user. -/
def normalizeStateMergePolicies (values : List TaskDistributorStateMergePolicy) :
    List TaskDistributorStateMergePolicy :=
  let base := cloneStateMergePolicies lib defaultStateMergePolicies
  let indexByPattern : AList fun _ : String ↦ ℕ :=
    base.zipIdx.foldl (fun indices (item, idx) ↦ indices.insert item.pattern idx) ∅
  ((cloneStateMergePolicies lib values).foldl mergePolicy (base, indexByPattern)).1

end Policies

/-! ## Patterns -/

def agentTokens : List String := ["{{agent.name}}", "{{agent.id}}", "{{agent}}"]

def resourceTokens : List String := ["{{resource.name}}", "{{resource.id}}", "{{resource}}"]

/-- All of the words are replaced, one after the other. -/
def replaceWords (words : List String) (new text : String) : String :=
  words.foldl (fun text word ↦ replaceAll text word new) text

/-- How many bytes a pattern spells out. -/
def stateMergePatternSpecificity (pattern : String) : ℕ :=
  let normalized := trimSpace pattern
  if normalized = "" then 0
  else byteLength (replaceWords (agentTokens ++ resourceTokens ++ ["*"]) "" normalized)

/-- What an id and a name may be spelled like. -/
def collectStateMergeTokens (owners : List (String × String)) : List String :=
  uniqueNonEmptyStrings <| owners.flatMap fun (id, name) ↦
    let id := trimSpace id
    let name := trimSpace name
    [name, id, replaceAll name "-" "_", replaceAll id "-" "_"]

def collectStateMergeAgentTokens (agents : List AgentInfo) : List String :=
  collectStateMergeTokens (agents.map fun agent ↦ (agent.id, agent.name))

def collectStateMergeResourceTokens (resources : List ResourceInfo) : List String :=
  collectStateMergeTokens (resources.map fun resource ↦ (resource.id, resource.name))

/-- The variants of a pattern that speaks of an owner, one for each of its tokens. -/
def expandWords (pattern : String) (words tokens variants : List String) : List String :=
  if words.any (contains pattern) then
    variants.flatMap fun variant ↦ tokens.map fun token ↦ replaceWords words token variant
  else variants

def expandStateMergePattern (pattern : String) (agents : List AgentInfo)
    (resources : List ResourceInfo) : List String :=
  if trimSpace pattern = "" then []
  else
    uniqueNonEmptyStrings <|
      expandWords pattern resourceTokens (collectStateMergeResourceTokens resources) <|
        expandWords pattern agentTokens (collectStateMergeAgentTokens agents) [trimSpace pattern]

section Priority

-- `path.Match`, which gives `none` for a malformed pattern
variable (pathMatch : String → String → Option Bool)

def stateMergePatternMatches (key pattern : String) (agents : List AgentInfo)
    (resources : List ResourceInfo) : Bool :=
  let pattern := trimSpace pattern
  if pattern = "" then false
  else (expandStateMergePattern pattern agents resources).any fun candidate ↦
    pathMatch candidate key = some true

def stateMergePriorityForKey (key : String) (policies : List TaskDistributorStateMergePolicy)
    (agents : List AgentInfo) (resources : List ResourceInfo) : String :=
  let key := trimSpace key
  if key = "" then "live"
  else
    (policies.zipIdx.foldl (fun (best : String × ℤ) (policy, index) ↦
      if !stateMergePatternMatches pathMatch key policy.pattern agents resources then best
      else
        let score : ℤ := stateMergePatternSpecificity policy.pattern * 100 - index
        if best.2 < score then (policy.priority, score) else best) ("live", -1)).1

end Priority

/-! ## The policy that counts -/

section MostSpecific

variable {pathMatch : String → String → Option Bool} {key : String}
  {policies : List TaskDistributorStateMergePolicy} {agents : List AgentInfo}
  {resources : List ResourceInfo}

/-- The policies that match, with their places in the list. -/
def matchingPolicies (pathMatch : String → String → Option Bool) (key : String)
    (policies : List TaskDistributorStateMergePolicy) (agents : List AgentInfo)
    (resources : List ResourceInfo) : List (TaskDistributorStateMergePolicy × ℕ) :=
  policies.zipIdx.filter fun policy ↦
    stateMergePatternMatches pathMatch (trimSpace key) policy.1.pattern agents resources

def specificity (policy : TaskDistributorStateMergePolicy × ℕ) : ℕ :=
  stateMergePatternSpecificity policy.1.pattern

/-- The policy that counts: the most specific that matches, and of several the first. -/
def mostSpecific (pathMatch : String → String → Option Bool) (key : String)
    (policies : List TaskDistributorStateMergePolicy) (agents : List AgentInfo)
    (resources : List ResourceInfo) : Option (TaskDistributorStateMergePolicy × ℕ) :=
  (matchingPolicies pathMatch key policies agents resources).argmax specificity

/-- The place of a policy is no further back than a hundred times its specificity. -/
def InReach (policy : TaskDistributorStateMergePolicy × ℕ) : Prop :=
  policy.2 ≤ specificity policy * 100

/-- A policy is more specific by more than a hundredth of the places it is further back, or by as
much and further to the front. -/
def Outweighs (q r : TaskDistributorStateMergePolicy × ℕ) : Prop :=
  specificity r * 100 + q.2 < specificity q * 100 + r.2 ∨
    specificity r * 100 + q.2 = specificity q * 100 + r.2 ∧ q.2 < r.2

/-- What the policy that counts needs in order to win.  Only `live` is taken without a policy in
reach; and each policy in reach of another priority is outweighed by one of the same priority. -/
structure Prevails (key : String) (matching : List (TaskDistributorStateMergePolicy × ℕ))
    (winner : TaskDistributorStateMergePolicy × ℕ) : Prop where
  reaches : winner.1.priority = "live" ∨
    trimSpace key ≠ "" ∧ ∃ q ∈ matching, q.1.priority = winner.1.priority ∧ InReach q
  outweighs : trimSpace key ≠ "" → ∀ r ∈ matching, r.1.priority ≠ winner.1.priority →
    InReach r → ∃ q ∈ matching, q.1.priority = winner.1.priority ∧ Outweighs q r

def score (policy : TaskDistributorStateMergePolicy × ℕ) : ℤ := specificity policy * 100 - policy.2

theorem inReach_iff (policy : TaskDistributorStateMergePolicy × ℕ) :
    InReach policy ↔ -1 < score policy := by
  rw [InReach, score]
  omega

theorem outweighs_iff (q r : TaskDistributorStateMergePolicy × ℕ) :
    Outweighs q r ↔ score r < score q ∨ score r = score q ∧ q.2 < r.2 := by
  rw [Outweighs, score, score]
  omega

theorem matchingPolicies_pairwise :
    (matchingPolicies pathMatch key policies agents resources).Pairwise fun q r ↦ q.2 < r.2 := by
  refine List.Pairwise.filter _ (List.pairwise_iff_getElem.mpr fun i j hi hj hlt ↦ ?_)
  simpa using hlt

/-- The policies at one place are one policy. -/
theorem eq_of_place_eq {q r : TaskDistributorStateMergePolicy × ℕ}
    (hq : q ∈ matchingPolicies pathMatch key policies agents resources)
    (hr : r ∈ matchingPolicies pathMatch key policies agents resources) (h : q.2 = r.2) :
    q = r := by
  have hq := List.mem_zipIdx_iff_getElem?.mp (List.mem_filter.mp hq).1
  have hr := List.mem_zipIdx_iff_getElem?.mp (List.mem_filter.mp hr).1
  rw [h, hr] at hq
  exact Prod.ext (Option.some.inj hq.symm) h

/-- The loop of `stateMergePriorityForKey` ends with the policy of the highest score. -/
theorem stateMergePriorityForKey_eq (hkey : trimSpace key ≠ "") :
    stateMergePriorityForKey pathMatch key policies agents resources =
      ((matchingPolicies pathMatch key policies agents resources).argmax score).elim "live"
        fun best ↦ if -1 < score best then best.1.priority else "live" := by
  rw [stateMergePriorityForKey]
  dsimp only
  rw [if_neg hkey]
  have hloop : ∀ (l : List (TaskDistributorStateMergePolicy × ℕ)) (start : String × ℤ),
      l.foldl (fun best policy ↦
        if !stateMergePatternMatches pathMatch (trimSpace key) policy.1.pattern agents resources
        then best
        else if best.2 < score policy then (policy.1.priority, score policy) else best) start =
      (l.filter fun policy ↦ stateMergePatternMatches pathMatch (trimSpace key) policy.1.pattern
        agents resources).foldl (fun best policy ↦
          if best.2 < score policy then (policy.1.priority, score policy) else best) start := by
    intro l start
    rw [List.foldl_filter]
    refine congrArg (fun step ↦ List.foldl step start l) (funext fun best ↦ funext fun policy ↦ ?_)
    cases stateMergePatternMatches pathMatch (trimSpace key) policy.1.pattern agents resources <;>
      rfl
  refine (congrArg Prod.fst (hloop _ _)).trans ?_
  rw [← matchingPolicies, RunningBest.foldl_eq score fun policy ↦ policy.1.priority]
  cases (matchingPolicies pathMatch key policies agents resources).argmax score with
  | none => rfl
  | some best =>
    rw [Option.elim_some]
    dsimp only
    split <;> rfl

/-- The priority of the policy that counts is taken exactly when that policy prevails. -/
theorem priority_eq_iff {winner : TaskDistributorStateMergePolicy × ℕ}
    (hwinner : winner ∈ matchingPolicies pathMatch key policies agents resources) :
    stateMergePriorityForKey pathMatch key policies agents resources = winner.1.priority ↔
      Prevails key (matchingPolicies pathMatch key policies agents resources) winner := by
  by_cases hkey : trimSpace key = ""
  · have hlive : stateMergePriorityForKey pathMatch key policies agents resources = "live" := by
      rw [stateMergePriorityForKey]
      dsimp only
      rw [if_pos hkey]
    rw [hlive, eq_comm]
    exact ⟨fun h ↦ ⟨.inl h, fun hne ↦ absurd hkey hne⟩,
      fun h ↦ h.reaches.resolve_right fun hne ↦ hne.1 hkey⟩
  · rw [stateMergePriorityForKey_eq hkey]
    cases hbest : (matchingPolicies pathMatch key policies agents resources).argmax score with
    | none =>
      rw [List.argmax_eq_none] at hbest
      exact absurd (hbest ▸ hwinner) List.not_mem_nil
    | some best =>
      obtain ⟨hmem, hmax⟩ :=
        (RunningBest.mem_argmax_iff matchingPolicies_pairwise).mp (Option.mem_def.mpr hbest)
      rw [Option.elim_some]
      split
      · rename_i hreach
        constructor
        · refine fun heq ↦ ⟨.inr ⟨hkey, best, hmem, heq, (inReach_iff _).mpr hreach⟩, ?_⟩
          intro _ r hr hother _
          refine ⟨best, hmem, heq, (outweighs_iff _ _).mpr ?_⟩
          have hne : best.2 ≠ r.2 := fun h ↦ hother (eq_of_place_eq hmem hr h ▸ heq)
          obtain ⟨hle, htie⟩ := hmax r hr
          rcases hle.lt_or_eq with hlt | htied
          · exact .inl hlt
          · exact .inr ⟨htied, lt_of_le_of_ne (htie htied) hne⟩
        · intro h
          by_contra hother
          -- whatever outweighed the best policy would be better
          obtain ⟨q, hq, -, houtweighs⟩ :=
            h.outweighs hkey best hmem hother ((inReach_iff _).mpr hreach)
          obtain ⟨hle, htie⟩ := hmax q hq
          rcases (outweighs_iff _ _).mp houtweighs with hlt | ⟨htied, hplace⟩
          · exact absurd hle (not_le.mpr hlt)
          · exact absurd (htie htied.symm) (not_le.mpr hplace)
      · rename_i hreach
        have hnone : ∀ q ∈ matchingPolicies pathMatch key policies agents resources,
            ¬InReach q := by
          intro q hq hin
          have := (inReach_iff q).mp hin
          have := (hmax q hq).1
          omega
        constructor
        · exact fun heq ↦ ⟨.inl heq.symm, fun _ r hr _ hin ↦ absurd hin (hnone r hr)⟩
        · intro h
          rcases h.reaches with hlive | ⟨-, q, hq, -, hin⟩
          · exact hlive.symm
          · exact absurd hin (hnone q hq)

variable (lib : LibraryFunctions) (values : List TaskDistributorStateMergePolicy)

/-- **The most specific policy that matches is followed** exactly when it prevails over the
others. -/
theorem stateMergePriorityForKey_iff :
    (matchingPolicies pathMatch key (normalizeStateMergePolicies lib values) agents resources ≠
        [] →
      ∃ winner ∈ mostSpecific pathMatch key (normalizeStateMergePolicies lib values) agents
          resources,
        stateMergePriorityForKey pathMatch key (normalizeStateMergePolicies lib values) agents
          resources = winner.1.priority) ↔
      ∀ winner ∈ mostSpecific pathMatch key (normalizeStateMergePolicies lib values) agents
          resources,
        Prevails key
          (matchingPolicies pathMatch key (normalizeStateMergePolicies lib values) agents
            resources) winner := by
  generalize normalizeStateMergePolicies lib values = policies
  constructor
  · intro h winner hwinner
    have hmem := List.argmax_mem hwinner
    obtain ⟨other, hother, heq⟩ := h (List.ne_nil_of_mem hmem)
    obtain rfl := Option.mem_unique hother hwinner
    exact (priority_eq_iff hmem).mp heq
  · intro h hne
    have hsome : mostSpecific pathMatch key policies agents resources ≠ none :=
      List.argmax_eq_none.not.mpr hne
    obtain ⟨winner, hwinner⟩ := Option.ne_none_iff_exists'.mp hsome
    exact ⟨winner, hwinner, (priority_eq_iff (List.argmax_mem hwinner)).mpr (h winner hwinner)⟩

/-- **A list of a hundred policies is decided by how specific they are**, as long as the policy that
counts spells something out. -/
theorem priority_of_short {winner : TaskDistributorStateMergePolicy × ℕ}
    (hkey : trimSpace key ≠ "") (hshort : policies.length ≤ 100)
    (hwinner : winner ∈ mostSpecific pathMatch key policies agents resources)
    (hspelled : specificity winner ≠ 0) :
    stateMergePriorityForKey pathMatch key policies agents resources = winner.1.priority := by
  obtain ⟨hmem, hmax⟩ := (RunningBest.mem_argmax_iff matchingPolicies_pairwise).mp hwinner
  have hplace : winner.2 < policies.length :=
    List.snd_lt_of_mem_zipIdx (List.mem_filter.mp hmem).1
  refine (priority_eq_iff hmem).mpr ⟨.inr ⟨hkey, winner, hmem, rfl, ?_⟩, ?_⟩
  · rw [InReach]
    omega
  · intro _ r hr hother _
    refine ⟨winner, hmem, rfl, ?_⟩
    have hne : winner.2 ≠ r.2 := fun h ↦ hother (eq_of_place_eq hmem hr h ▸ rfl)
    obtain ⟨hle, htie⟩ := hmax r hr
    rw [Outweighs]
    rcases hle.lt_or_eq with hlt | htied
    · omega
    · have := htie htied
      omega

end MostSpecific

/-! ## A policy for everything else -/

/-- `path.Match` on texts without a slash, for patterns without a special character and for `*`. -/
def plainMatch (pattern name : String) : Option Bool :=
  some (pattern = "*" || pattern = name)

/-- Everything is left to the planner. -/
def plannerFirst : List TaskDistributorStateMergePolicy := [⟨"*", "planner"⟩]

/-- **The policy is not followed**: it is the only one that matches, and stands behind the
defaults. -/
theorem plannerFirst_ignored :
    mostSpecific plainMatch "door_open" (normalizeStateMergePolicies asciiLibrary plannerFirst) []
        [] = some (⟨"*", "planner"⟩, 9) ∧
      stateMergePriorityForKey plainMatch "door_open"
        (normalizeStateMergePolicies asciiLibrary plannerFirst) [] [] = "live" := by
  have hpolicies : normalizeStateMergePolicies asciiLibrary plannerFirst =
      defaultStateMergePolicies ++ plannerFirst := by
    decide +kernel
  have hmatching : matchingPolicies plainMatch "door_open"
      (defaultStateMergePolicies ++ plannerFirst) [] [] = [(⟨"*", "planner"⟩, 9)] := by
    decide +kernel
  rw [mostSpecific, stateMergePriorityForKey_eq (by decide), hpolicies, hmatching]
  exact ⟨rfl, by decide⟩

end Api
end FleetServer
