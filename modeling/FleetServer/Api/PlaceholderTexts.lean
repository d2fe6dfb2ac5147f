import FleetServer.Lib.Placeholders
import FleetServer.Api.GoalActivation

/-!
# The placeholders of goals and of tasks

The placeholders in a goal are replaced by `applyResourcePlaceholders` and `applyAgentPlaceholders`
(`internal/api/pddl.go`), those in the conditions and effects of a task by
`substituteResourcePlaceholders` and `substituteAgentPlaceholders` (`internal/pddl/grounding.go`).
A goal is reached by a task only if both write the same text.

As long as no value is read again as a placeholder (`Placeholders.ReadOnce`), every call is the
filling of the reading of its text by a table, and the tables can be compared.  They differ at the
name of the agent: a task trims it and takes the id for a blank one, a goal does neither.
-/

set_option autoImplicit false

namespace FleetServer
namespace Api

open GoString Pddl
open Placeholders (ReadOnce Values readParts filled readOnce_of_plain)

/-! ## The tables -/

def goalResourceValues (resource : ResourceInfo) : Values :=
  [("\x7b\x7bresource.id\x7d\x7d", resource.id), ("\x7b\x7bresource.name\x7d\x7d", resource.name),
    ("\x7b\x7bresource.kind\x7d\x7d", resource.kind),
    ("\x7b\x7bresource.parent_id\x7d\x7d", resource.parentResourceID),
    ("\x7b\x7bresource.parent_resource_id\x7d\x7d", resource.parentResourceID)]

def taskResourceValues (primary : GroundedResource) : Values :=
  [("\x7b\x7bresource\x7d\x7d", primary.resource.name),
    ("\x7b\x7bresource.id\x7d\x7d", primary.resource.id),
    ("\x7b\x7bresource.name\x7d\x7d", primary.resource.name),
    ("\x7b\x7bresource.kind\x7d\x7d", primary.resource.kind),
    ("\x7b\x7bresource.type_id\x7d\x7d", primary.typeID),
    ("\x7b\x7bresource.type_name\x7d\x7d", primary.typeName)]

def goalAgentValues (agent : AgentInfo) : Values :=
  [("\x7b\x7bagent.id\x7d\x7d", agent.id), ("\x7b\x7bagent.name\x7d\x7d", agent.name)]

def taskAgentValues (agent : AgentInfo) : Values :=
  [("\x7b\x7bagent\x7d\x7d", agent.shownName), ("\x7b\x7bagent.id\x7d\x7d", agent.id),
    ("\x7b\x7bagent.name\x7d\x7d", agent.shownName)]

/-- The placeholders that both sides know. -/
def sharedNames : List String :=
  ["\x7b\x7bresource.id\x7d\x7d", "\x7b\x7bresource.name\x7d\x7d",
    "\x7b\x7bresource.kind\x7d\x7d", "\x7b\x7bagent.id\x7d\x7d", "\x7b\x7bagent.name\x7d\x7d"]

/-- The placeholders that only one side knows. -/
def ownNames : List String :=
  ["\x7b\x7bresource\x7d\x7d", "\x7b\x7bresource.parent_id\x7d\x7d",
    "\x7b\x7bresource.parent_resource_id\x7d\x7d", "\x7b\x7bresource.type_id\x7d\x7d",
    "\x7b\x7bresource.type_name\x7d\x7d", "\x7b\x7bagent\x7d\x7d"]

theorem empty_not_mem_names : "" ∉ sharedNames ++ ownNames := by
  simp [sharedNames, ownNames]

def reading (text : String) : List Placeholders.Part :=
  readParts (sharedNames ++ ownNames) 0 text.toList

/-! ## A call fills the reading of its text -/

section Calls

variable {order : SubstitutionOrder} {text : String} {agent : AgentInfo}

theorem text_reading (text : String) : Placeholders.text (reading text) = text.toList :=
  Placeholders.text_readParts empty_not_mem_names text.toList

theorem substitute_eq {table : Values} (hkeys : (table.map Prod.fst).Nodup)
    (hne : "" ∉ table.map Prod.fst) (h : ReadOnce table (reading text)) :
    substitute order table text = String.ofList (filled table (reading text)) := by
  have hrun := Placeholders.foldl_replaceAll hkeys hne h ((order text).perm table)
  rwa [text_reading, String.ofList_toList] at hrun

theorem applyResourcePlaceholders_eq {resource : ResourceInfo}
    (h : ReadOnce (goalResourceValues resource) (reading text)) :
    applyResourcePlaceholders order text resource =
      String.ofList (filled (goalResourceValues resource) (reading text)) :=
  substitute_eq (by simp) (by simp) h

theorem applyAgentPlaceholders_eq (h : ReadOnce (goalAgentValues agent) (reading text)) :
    applyAgentPlaceholders order text agent =
      String.ofList (filled (goalAgentValues agent) (reading text)) :=
  substitute_eq (by simp) (by simp) h

theorem substitute_empty (order : SubstitutionOrder) (table : Values) :
    substitute order table "" = "" := by
  rw [substitute]
  induction (order "").range table with
  | nil => rfl
  | cons entry rest ih => exact ih

theorem substituteResourcePlaceholders_eq {primary : GroundedResource}
    (h : ReadOnce (taskResourceValues primary) (reading text)) :
    substituteResourcePlaceholders order text (some primary) =
      String.ofList (filled (taskResourceValues primary) (reading text)) := by
  have hcall : substituteResourcePlaceholders order text (some primary) =
      substitute order (taskResourceValues primary) text := by
    by_cases hempty : text = ""
    · rw [hempty, substitute_empty]
      rfl
    · exact if_neg hempty
  rw [hcall]
  exact substitute_eq (by simp [taskResourceValues]) (by simp [taskResourceValues]) h

theorem substituteAgentPlaceholders_eq
    (h : ReadOnce (taskAgentValues agent) (reading text)) :
    substituteAgentPlaceholders order text agent =
      String.ofList (filled (taskAgentValues agent) (reading text)) := by
  have hcall : substituteAgentPlaceholders order text agent =
      substitute order (taskAgentValues agent) text := by
    by_cases hempty : text = ""
    · rw [hempty, substitute_empty]
      rfl
    · exact if_neg hempty
  rw [hcall]
  exact substitute_eq (by simp [taskAgentValues]) (by simp [taskAgentValues]) h

end Calls

/-! ## Goals and tasks get the same texts -/

/-- The text has none of the placeholders that only one side knows. -/
def KnownToBoth (text : String) : Prop :=
  ∀ name ∈ ownNames, contains text name = false

instance (text : String) : Decidable (KnownToBoth text) :=
  inferInstanceAs (Decidable (∀ name ∈ _, _))

/-- Whatever the orders in which placeholders are replaced, a goal gets the text that a task gets:
of the resource, of the agent, and of one after the other. -/
def SameTexts (text : String) (agent : AgentInfo) (resource : GroundedResource) : Prop :=
  ∀ goalOrder taskOrder goalOrder' taskOrder' : SubstitutionOrder,
    applyResourcePlaceholders goalOrder text resource.resource =
      substituteResourcePlaceholders taskOrder text (some resource) ∧
    applyAgentPlaceholders goalOrder text agent =
      substituteAgentPlaceholders taskOrder text agent ∧
    applyAgentPlaceholders goalOrder' (applyResourcePlaceholders goalOrder text resource.resource)
        agent =
      substituteAgentPlaceholders taskOrder'
        (substituteResourcePlaceholders taskOrder text (some resource)) agent

/-- The text with the resource filled in. -/
def resourceFilled (text : String) (resource : ResourceInfo) : String :=
  String.ofList (filled (goalResourceValues resource) (reading text))

/-- Neither side reads a value again as a placeholder of the agent. -/
structure AgentReadOnce (text : String) (agent : AgentInfo) : Prop where
  goal : ReadOnce (goalAgentValues agent) (reading text)
  task : ReadOnce (taskAgentValues agent) (reading text)
  short : contains text "\x7b\x7bagent\x7d\x7d" = false

/-- Neither side reads a value again as a placeholder. -/
structure ValuesReadOnce (text : String) (agent : AgentInfo) (resource : GroundedResource) :
    Prop where
  goal : ReadOnce (goalResourceValues resource.resource) (reading text)
  task : ReadOnce (taskResourceValues resource) (reading text)
  alone : AgentReadOnce text agent
  after : AgentReadOnce (resourceFilled text resource.resource) agent

section Same

variable {text : String} {agent : AgentInfo} {resource : GroundedResource}

theorem mem_reading_iff {word : String} (hword : word ≠ "")
    (h : Placeholders.OnlyAsPart word (reading text)) :
    .key word ∈ reading text ↔ contains text word = true :=
  (h.contains_iff_mem empty_not_mem_names hword).symm

theorem resourceTexts_eq (goalOrder taskOrder : SubstitutionOrder) (hknown : KnownToBoth text)
    (hgoal : ReadOnce (goalResourceValues resource.resource) (reading text))
    (htask : ReadOnce (taskResourceValues resource) (reading text)) :
    applyResourcePlaceholders goalOrder text resource.resource =
      substituteResourcePlaceholders taskOrder text (some resource) := by
  rw [applyResourcePlaceholders_eq hgoal, substituteResourcePlaceholders_eq htask]
  refine congrArg String.ofList (List.flatMap_congr fun part hpart ↦ ?_)
  cases part with
  | lit c => rfl
  | key name =>
    have hshared : name ∉ ownNames := fun hown ↦
      Placeholders.not_mem_readParts empty_not_mem_names (hknown name hown) hpart
    have hname := (List.mem_append.mp
      (Placeholders.mem_names_of_mem_readParts 0 hpart)).resolve_right hshared
    simp only [sharedNames, List.mem_cons, List.not_mem_nil, or_false] at hname
    rcases hname with rfl | rfl | rfl | rfl | rfl <;> rfl

theorem agentTexts_eq_iff (goalOrder taskOrder : SubstitutionOrder)
    (h : AgentReadOnce text agent) :
    applyAgentPlaceholders goalOrder text agent =
        substituteAgentPlaceholders taskOrder text agent ↔
      (contains text "\x7b\x7bagent.name\x7d\x7d" = true → agent.name = agent.shownName) := by
  rw [applyAgentPlaceholders_eq h.goal, substituteAgentPlaceholders_eq h.task,
    String.ofList_inj]
  have hother (name : String) (hmem : .key name ∈ reading text)
      (hne : name ≠ "\x7b\x7bagent.name\x7d\x7d") :
      ((goalAgentValues agent).lookup name).getD name =
        ((taskAgentValues agent).lookup name).getD name := by
    have hshort : name ≠ "\x7b\x7bagent\x7d\x7d" := fun heq ↦
      Placeholders.not_mem_readParts empty_not_mem_names h.short (heq ▸ hmem)
    have hname := Placeholders.mem_names_of_mem_readParts 0 hmem
    simp only [sharedNames, ownNames, List.mem_append, List.mem_cons, List.not_mem_nil, or_false,
      hne, hshort] at hname
    rcases hname with (rfl | rfl | rfl | rfl) | rfl | rfl | rfl | rfl | rfl <;> rfl
  have hfound : .key "\x7b\x7bagent.name\x7d\x7d" ∈ reading text ↔
      contains text "\x7b\x7bagent.name\x7d\x7d" = true := by
    have hentry : ("\x7b\x7bagent.name\x7d\x7d", agent.name) ∈ goalAgentValues agent := by
      simp [goalAgentValues]
    exact mem_reading_iff (by simp) (h.goal.onlyAsPart_start hentry)
  have hgoal : ((goalAgentValues agent).lookup "\x7b\x7bagent.name\x7d\x7d").getD
      "\x7b\x7bagent.name\x7d\x7d" = agent.name := by
    simp [goalAgentValues, List.lookup_cons]
  have htask : ((taskAgentValues agent).lookup "\x7b\x7bagent.name\x7d\x7d").getD
      "\x7b\x7bagent.name\x7d\x7d" = agent.shownName := by
    simp [taskAgentValues, List.lookup_cons]
  rw [Placeholders.filled_eq_iff hother, hfound, hgoal, htask]

/-- **A goal and a task get the same texts exactly when the agent goes by its name** wherever the
name is asked for, provided that no value is read again as a placeholder. -/
theorem sameTexts_iff (hknown : KnownToBoth text) (h : ValuesReadOnce text agent resource) :
    SameTexts text agent resource ↔
      ((contains text "\x7b\x7bagent.name\x7d\x7d" = true ∨
        contains (resourceFilled text resource.resource) "\x7b\x7bagent.name\x7d\x7d" = true) →
        agent.name = agent.shownName) := by
  have hresource (goalOrder taskOrder : SubstitutionOrder) :=
    resourceTexts_eq goalOrder taskOrder hknown h.goal h.task
  have hfilled (order : SubstitutionOrder) : applyResourcePlaceholders order text
      resource.resource = resourceFilled text resource.resource :=
    applyResourcePlaceholders_eq h.goal
  rw [or_imp]
  constructor
  · intro hsame
    let order : SubstitutionOrder := fun _ ↦ RangeOrder.asListed _
    obtain ⟨-, halone, hafter⟩ := hsame order order order order
    rw [← hresource order order, hfilled] at hafter
    exact ⟨(agentTexts_eq_iff order order h.alone).mp halone,
      (agentTexts_eq_iff order order h.after).mp hafter⟩
  · rintro ⟨halone, hafter⟩ goalOrder taskOrder goalOrder' taskOrder'
    refine ⟨hresource goalOrder taskOrder, (agentTexts_eq_iff _ _ h.alone).mpr halone, ?_⟩
    rw [← hresource goalOrder taskOrder, hfilled]
    exact (agentTexts_eq_iff _ _ h.after).mpr hafter

/-- The names are marked, and none begins another. -/
theorem plain_names : ∀ word ∈ sharedNames ++ ownNames, ∀ name ∈ sharedNames ++ ownNames,
    (Placeholders.Part.key name).Plain '\x7b' word := by
  decide +kernel

/-- Values without an opening brace are not read again in a text that has none outside its
placeholders. -/
theorem readOnce_of_plain {table : Values} {text : String}
    (hnames : ∀ entry ∈ table, entry.1 ∈ sharedNames ++ ownNames)
    (hvalues : ∀ entry ∈ table, '\x7b' ∉ entry.2.toList)
    (htext : .lit '\x7b' ∉ reading text) : ReadOnce table (reading text) := by
  refine Placeholders.readOnce_of_plain '\x7b'
    (fun entry hentry ↦ (plain_names _ (hnames entry hentry) _ (hnames entry hentry)).1) hvalues
    fun entry hentry part hpart ↦ ?_
  cases part with
  | lit c => exact fun hmark ↦ htext (hmark ▸ hpart)
  | key name =>
    exact plain_names _ (hnames entry hentry) name
      (Placeholders.mem_names_of_mem_readParts 0 hpart)

/-- Without an opening brace outside the placeholders no value is read again. -/
theorem valuesReadOnce_of_plain
    (hresource : ∀ entry ∈ goalResourceValues resource.resource ++ taskResourceValues resource,
      '\x7b' ∉ entry.2.toList)
    (hagent : ∀ entry ∈ goalAgentValues agent ++ taskAgentValues agent, '\x7b' ∉ entry.2.toList)
    (htexts : ∀ t ∈ [text, resourceFilled text resource.resource],
      .lit '\x7b' ∉ reading t ∧ contains t "\x7b\x7bagent\x7d\x7d" = false) :
    ValuesReadOnce text agent resource := by
  have halone (t : String) (ht : t ∈ [text, resourceFilled text resource.resource]) :
      AgentReadOnce t agent :=
    { goal := readOnce_of_plain (by simp [goalAgentValues, sharedNames])
        (fun entry hentry ↦ hagent entry (List.mem_append_left _ hentry)) (htexts t ht).1
      task := readOnce_of_plain (by simp [taskAgentValues, sharedNames, ownNames])
        (fun entry hentry ↦ hagent entry (List.mem_append_right _ hentry)) (htexts t ht).1
      short := (htexts t ht).2 }
  have htext := (htexts text List.mem_cons_self).1
  exact
    { goal := readOnce_of_plain (by simp [goalResourceValues, sharedNames, ownNames])
        (fun entry hentry ↦ hresource entry (List.mem_append_left _ hentry)) htext
      task := readOnce_of_plain (by simp [taskResourceValues, sharedNames, ownNames])
        (fun entry hentry ↦ hresource entry (List.mem_append_right _ hentry)) htext
      alone := halone text List.mem_cons_self
      after := halone _ (List.mem_cons_of_mem _ List.mem_cons_self) }

/-- A station asked for by its name, for an agent with a plain name. -/
theorem stationByAgent_sameTexts :
    SameTexts "\x7b\x7bresource.name\x7d\x7d_\x7b\x7bagent.name\x7d\x7d"
      { noAgent with id := "r1", name := "Bob" }
      { token := "dock", resource := { noResource with id := "d1", name := "Dock" } } :=
  (sameTexts_iff (by decide +kernel) (valuesReadOnce_of_plain (by decide +kernel)
    (by decide +kernel) (by decide +kernel))).mpr fun _ ↦ by decide +kernel

/-- A padded name stays padded in a goal and is trimmed in a task. -/
theorem paddedName_differs :
    KnownToBoth "\x7b\x7bagent.name\x7d\x7d" ∧
      ¬SameTexts "\x7b\x7bagent.name\x7d\x7d" { noAgent with id := "r1", name := " Bob " }
        { token := "dock", resource := noResource } := by
  refine ⟨by decide +kernel, fun h ↦ ?_⟩
  have hagent := (h (fun _ ↦ .asListed _) (fun _ ↦ .asListed _) (fun _ ↦ .asListed _)
    fun _ ↦ .asListed _).2.1
  revert hagent
  decide +kernel

end Same

end Api
end FleetServer
