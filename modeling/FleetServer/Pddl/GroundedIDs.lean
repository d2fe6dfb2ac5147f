import FleetServer.Pddl.Bindings

/-!
# The ids of grounded tasks

`Solve` keeps the tasks it has used, and the plan executor the status of each task, under the id of
the task.  The id of a grounded task is made of three parts: the id of the template, the id of its
primary resource, and the id of its agent (`Label`).  What the other tokens are bound to leaves no
trace in it, and joined by `::` different parts may read alike.

`groundTasks_nodup_iff` says exactly when the ids are distinct: in no task do two choices of
instances bind the least token alike (`PrimaryDetermines`), and no two different labels read alike
(`ReadApart`).  The second holds by itself when no id has a colon in it
(`groundTasks_nodup_iff_of_colonFree`).
-/

set_option autoImplicit false

namespace FleetServer
namespace Pddl

open Choices Fallible GoString

/-- What the id of a grounded task is made of. -/
structure Label where
  taskID : String
  resourceID : Option String
  agentID : Option String
  deriving DecidableEq, Repr

/-- What a part that may be missing adds to an id. -/
def idSuffix : Option String → String
  | some id => "::" ++ id
  | none => ""

def Label.read (label : Label) : String :=
  label.taskID ++ idSuffix label.resourceID ++ idSuffix label.agentID

/-- The ids of the agents a task with its resources bound is bound to: `none` if it does not speak
of the agent. -/
def agentIDsOf (agents : List AgentInfo) (task : PlanTask) : List (Option String) :=
  if usesGenericAgentPlaceholderTask task then
    (agents.filter (agentCanRunTask · task)).map fun agent ↦ some agent.id
  else [none]

section Labels

variable (order : SubstitutionOrder) (catalog : ResourceCatalog) (agents : List AgentInfo)

/-- The ids of the agents a task is bound to under a choice.  They do not depend on what the tokens
are bound to that are not the primary one. -/
def agentIDsFor (task : PlanTask) (c : List String) : List (Option String) :=
  agentIDsOf agents (bindResources order task ∅ (primaryFor catalog task c))

/-- The id of the primary resource of a task under a choice. -/
def primaryID (task : PlanTask) (c : List String) : Option String :=
  (primaryFor catalog task c).map fun primary ↦ primary.resource.id

def labelFor (task : PlanTask) (c : List String) (agentID : Option String) : Label :=
  { taskID := task.taskID, resourceID := primaryID catalog task c, agentID }

/-- The label of one of the groundings of the tasks. -/
def IsLabel (tasks : List PlanTask) (label : Label) : Prop :=
  ∃ task ∈ tasks, ∃ c, IsTokenChoice catalog task c ∧
    ∃ agentID ∈ agentIDsFor order catalog agents task c, label = labelFor catalog task c agentID

/-- Different labels do not read alike. -/
def ReadApart (tasks : List PlanTask) : Prop :=
  ∀ label label', IsLabel order catalog agents tasks label →
    IsLabel order catalog agents tasks label' → label.read = label'.read → label = label'

/-- Two choices that bind the least token of the task to the same resource are the same choice. -/
def PrimaryDetermines (task : PlanTask) : Prop :=
  ∀ c c', IsTokenChoice catalog task c → IsTokenChoice catalog task c' →
    primaryID catalog task c = primaryID catalog task c' → c = c'

/-- The labels of the groundings of a task, in their order. -/
def labelsOf (task : PlanTask) : List Label :=
  (tokenChoices catalog task).flatMap fun c ↦
    (agentIDsFor order catalog agents task c).map (labelFor catalog task c)

end Labels

variable {order : SubstitutionOrder} {catalog : ResourceCatalog} {agents : List AgentInfo}
  {resources : List ResourceInfo}

theorem mem_flatMap_labelsOf {tasks : List PlanTask} {label : Label} :
    label ∈ tasks.flatMap (labelsOf order catalog agents) ↔
      IsLabel order catalog agents tasks label := by
  simp only [List.mem_flatMap, labelsOf, mem_tokenChoices, List.mem_map, IsLabel, eq_comm]

/-! ## The ids read the labels -/

theorem agentTasks_spec {task : PlanTask} {bound : List PlanTask}
    (h : agentTasks order agents task = .ok bound) :
    agentIDsOf agents task ≠ [] ∧
      bound.map PlanTask.taskID =
        (agentIDsOf agents task).map fun agentID ↦ task.taskID ++ idSuffix agentID := by
  simp only [agentTasks] at h
  rw [agentIDsOf]
  split at h
  · rename_i hnot
    rw [if_neg (by simpa using hnot), ← Except.ok.inj h]
    simp [idSuffix]
  · rename_i huses
    rw [if_pos (by simpa using huses)]
    split at h
    · exact absurd h (by simp)
    · split at h
      · exact absurd h (by simp)
      · rename_i hsome
        rw [← Except.ok.inj h, List.map_map, List.map_map]
        refine ⟨fun hnil ↦ hsome (List.map_eq_nil_iff.mp hnil), List.map_congr_left fun _ _ ↦ ?_⟩
        simp [idSuffix, instantiateAgentTask, String.append_assoc]

theorem taskID_bindResources (task : PlanTask) (bindings : Bindings)
    (primary : Option GroundedResource) :
    (bindResources order task bindings primary).taskID =
      task.taskID ++ idSuffix (primary.map fun primary ↦ primary.resource.id) := by
  cases primary with
  | none => simp [bindResources, idSuffix]
  | some primary => simp [bindResources, idSuffix, String.append_assoc]

theorem texts_bindResources (task : PlanTask) (bindings : Bindings)
    (primary : Option GroundedResource) :
    (bindResources order task bindings primary).texts =
      (task.mapTexts (substituteResourcePlaceholders order · primary)).texts := rfl

theorem agentCanRunTask_bindResources (agent : AgentInfo) (task : PlanTask) (bindings : Bindings)
    (primary : Option GroundedResource) :
    agentCanRunTask agent (bindResources order task bindings primary) =
      agentCanRunTask agent task := rfl

theorem agentIDsOf_of_isLeaf {task grounded : PlanTask} {c : List String}
    (h : IsLeaf order catalog task c grounded) :
    agentIDsOf agents grounded = agentIDsFor order catalog agents task c := by
  obtain ⟨bindings, rfl⟩ := h
  have huses : usesGenericAgentPlaceholderTask
      (bindResources order task bindings (primaryFor catalog task c)) =
        usesGenericAgentPlaceholderTask
          (bindResources order task ∅ (primaryFor catalog task c)) := by
    rw [usesGenericAgentPlaceholderTask, usesGenericAgentPlaceholderTask, texts_bindResources,
      texts_bindResources]
  rw [agentIDsFor, agentIDsOf, agentIDsOf, huses]
  simp only [agentCanRunTask_bindResources]

/-- The groundings of a choice have the ids that its labels read. -/
theorem taskID_of_isLeaf {task grounded : PlanTask} {c : List String} {bound : List PlanTask}
    (hleaf : IsLeaf order catalog task c grounded)
    (h : agentTasks order agents grounded = .ok bound) :
    agentIDsFor order catalog agents task c ≠ [] ∧ bound.map PlanTask.taskID =
      ((agentIDsFor order catalog agents task c).map (labelFor catalog task c)).map Label.read := by
  have hspec := agentTasks_spec h
  rw [agentIDsOf_of_isLeaf hleaf] at hspec
  refine ⟨hspec.1, hspec.2.trans ?_⟩
  obtain ⟨bindings, rfl⟩ := hleaf
  rw [List.map_map]
  exact List.map_congr_left fun _ _ ↦ by rw [taskID_bindResources]; rfl

/-- **The groundings of a task have the ids that its labels read.** -/
theorem taskID_groundTask (hfiled : catalog.Filed resources) {task : PlanTask}
    {grounded : List PlanTask} (h : groundTask order catalog agents task = .ok grounded) :
    (∀ c ∈ tokenChoices catalog task, agentIDsFor order catalog agents task c ≠ []) ∧
      grounded.map PlanTask.taskID = (labelsOf order catalog agents task).map Label.read := by
  obtain ⟨results, hleaves, hagents⟩ := groundTask_spec hfiled h
  obtain ⟨groups, hgroups, rfl⟩ := exists_of_map_eq_ok hagents
  have hboth := forall₂_comp hleaves (forall₂_of_mapM hgroups)
  have hids := hboth.imp fun c bound hc ↦ by
    obtain ⟨result, hleaf, hbound⟩ := hc
    exact taskID_of_isLeaf hleaf hbound
  obtain ⟨hsome, hread⟩ := (List.forall₂_and_left _ _).mp hids
  refine ⟨hsome, ?_⟩
  rw [labelsOf, List.map_flatMap, List.map_flatten, List.flatMap_def]
  congr 1
  exact map_eq_of_forall₂ hread

/-- **The grounded tasks have the ids that the labels read.** -/
theorem taskID_groundTasks {tasks grounded : List PlanTask}
    (h : groundTasks order tasks resources agents = .ok grounded) :
    (∀ task ∈ tasks, ∀ c ∈ tokenChoices (buildResourceCatalog resources) task,
        agentIDsFor order (buildResourceCatalog resources) agents task c ≠ []) ∧
      grounded.map PlanTask.taskID =
        (tasks.flatMap (labelsOf order (buildResourceCatalog resources) agents)).map
          Label.read := by
  obtain ⟨groups, hgroups, rfl⟩ := exists_of_map_eq_ok h
  have hids := (forall₂_of_mapM hgroups).imp fun task bound hbound ↦
    taskID_groundTask (filed_buildResourceCatalog resources) hbound
  obtain ⟨hsome, hread⟩ := (List.forall₂_and_left _ _).mp hids
  refine ⟨hsome, ?_⟩
  rw [List.map_flatMap, List.map_flatten, List.flatMap_def]
  congr 1
  exact map_eq_of_forall₂ hread

/-! ## When the labels are distinct -/

theorem id_boundInstance (hfiled : catalog.Filed resources) {token instanceID : String}
    (h : instanceID ∈ instancesFor catalog token) :
    (boundInstance catalog token instanceID).resource.id = instanceID := by
  obtain ⟨resource, hresource⟩ := hfiled.listed h
  rw [boundInstance, ResourceCatalog.bind, ResourceCatalog.instanceOf, hresource]
  exact (hfiled.filed hresource).2

/-- The instance a choice has for a type token of the task. -/
theorem IsTokenChoice.exists_chosen {task : PlanTask} {c : List String}
    (hc : IsTokenChoice catalog task c) {token : String} (hin : token ∈ task.requiredResources)
    (htype : IsTypeToken catalog token) :
    ∃ instanceID ∈ instancesFor catalog token,
      chosen (typeTokens catalog task) c token = some instanceID := by
  have hsome := (chosen_isSome_iff hc.length_eq).mpr (mem_typeTokens.mpr ⟨hin, htype⟩)
  obtain ⟨instanceID, hchosen⟩ := Option.isSome_iff_exists.mp hsome
  exact ⟨instanceID, mem_instancesFor_of_chosen hc.mem hchosen, hchosen⟩

theorem mem_of_leastToken {task : PlanTask} {token : String} (h : leastToken task = some token) :
    token ∈ task.requiredResources :=
  (List.mem_insertionSort _).mp (List.mem_of_head? h)

/-- The id of the primary resource is all there is to the primary binding. -/
theorem primaryFor_eq_of_primaryID_eq (hfiled : catalog.Filed resources) {task : PlanTask}
    {c c' : List String} (hc : IsTokenChoice catalog task c) (hc' : IsTokenChoice catalog task c')
    (h : primaryID catalog task c = primaryID catalog task c') :
    primaryFor catalog task c = primaryFor catalog task c' := by
  rw [primaryID, primaryID, primaryFor, primaryFor] at h
  rw [primaryFor, primaryFor]
  cases hleast : leastToken task with
  | none => rw [Option.map_none, Option.map_none]
  | some token =>
    rw [hleast] at h
    rw [Option.map_some, Option.map_some, boundTo, boundTo]
    by_cases htype : IsTypeToken catalog token
    · have hin := mem_of_leastToken hleast
      obtain ⟨i, hi, hchosen⟩ := hc.exists_chosen hin htype
      obtain ⟨i', hi', hchosen'⟩ := hc'.exists_chosen hin htype
      have heq : i = i' := by
        simpa [boundTo, htype, hchosen, hchosen', id_boundInstance hfiled hi,
          id_boundInstance hfiled hi'] using h
      rw [hchosen, hchosen', heq]
    · rw [if_neg htype, if_neg htype]

theorem nodup_agentIDsOf (hagents : (agents.map AgentInfo.id).Nodup) (task : PlanTask) :
    (agentIDsOf agents task).Nodup := by
  rw [agentIDsOf]
  split
  · have hids := hagents.sublist ((List.filter_sublist (p := (agentCanRunTask · task))).map
      AgentInfo.id)
    have hmap := hids.map (Option.some_injective String)
    rw [List.map_map] at hmap
    exact hmap
  · exact List.nodup_singleton none

theorem labelFor_injective (task : PlanTask) (c : List String) :
    Function.Injective (labelFor catalog task c) :=
  fun _ _ h ↦ congrArg Label.agentID h

/-- **The labels of a task are distinct exactly when its primary resource determines the rest.** -/
theorem nodup_labelsOf_iff (hfiled : catalog.Filed resources)
    (hinstances : ∀ typeID, (catalog.typeInstances typeID).Nodup)
    (hagents : (agents.map AgentInfo.id).Nodup) {task : PlanTask}
    (hsome : ∀ c ∈ tokenChoices catalog task, agentIDsFor order catalog agents task c ≠ []) :
    (labelsOf order catalog agents task).Nodup ↔ PrimaryDetermines catalog task := by
  rw [labelsOf, List.nodup_flatMap]
  constructor
  · rintro ⟨-, hdisjoint⟩ c c' hc hc' hid
    by_contra hne
    -- the two choices have the same agents, and so the same labels
    have hids : agentIDsFor order catalog agents task c =
        agentIDsFor order catalog agents task c' := by
      rw [agentIDsFor, agentIDsFor, primaryFor_eq_of_primaryID_eq hfiled hc hc' hid]
    obtain ⟨agentID, hagentID⟩ := List.exists_mem_of_ne_nil _ (hsome c (mem_tokenChoices.mpr hc))
    have : Std.Symm (Function.onFun List.Disjoint fun c ↦
        (agentIDsFor order catalog agents task c).map (labelFor catalog task c)) :=
      ⟨fun _ _ h _ hlabel hlabel' ↦ h hlabel' hlabel⟩
    have hapart := hdisjoint.forall (mem_tokenChoices.mpr hc) (mem_tokenChoices.mpr hc') hne
    refine hapart (List.mem_map_of_mem hagentID) ?_
    rw [labelFor, hid]
    exact List.mem_map_of_mem (hids ▸ hagentID)
  · intro hdetermines
    refine ⟨fun c _ ↦ (nodup_agentIDsOf hagents _).map (labelFor_injective task c), ?_⟩
    have hnodup : (tokenChoices catalog task).Nodup := by
      refine nodup_choices fun set hset ↦ ?_
      obtain ⟨token, -, rfl⟩ := List.mem_map.mp hset
      exact hinstances _
    refine hnodup.imp_of_mem fun {c c'} hc hc' hne label hlabel hlabel' ↦ hne ?_
    obtain ⟨_, -, rfl⟩ := List.mem_map.mp hlabel
    obtain ⟨_, -, heq⟩ := List.mem_map.mp hlabel'
    exact hdetermines c c' (mem_tokenChoices.mp hc) (mem_tokenChoices.mp hc')
      (congrArg Label.resourceID heq).symm

theorem taskID_of_mem_labelsOf {task : PlanTask} {label : Label}
    (h : label ∈ labelsOf order catalog agents task) : label.taskID = task.taskID := by
  obtain ⟨c, -, hlabel⟩ := List.mem_flatMap.mp h
  obtain ⟨_, -, rfl⟩ := List.mem_map.mp hlabel
  rfl

theorem nodup_flatMap_labelsOf_iff {tasks : List PlanTask}
    (htasks : (tasks.map PlanTask.taskID).Nodup) :
    (tasks.flatMap (labelsOf order catalog agents)).Nodup ↔
      ∀ task ∈ tasks, (labelsOf order catalog agents task).Nodup := by
  rw [List.nodup_flatMap]
  refine and_iff_left ((List.pairwise_map.mp htasks).imp fun hne label hlabel hlabel' ↦ hne ?_)
  rw [← taskID_of_mem_labelsOf hlabel, taskID_of_mem_labelsOf hlabel']

/-! ## When the ids are distinct -/

theorem nodup_map_read_iff {tasks : List PlanTask} (htasks : (tasks.map PlanTask.taskID).Nodup)
    (hresources : (resources.map ResourceInfo.id).Nodup)
    (hagents : (agents.map AgentInfo.id).Nodup)
    (hsome : ∀ task ∈ tasks, ∀ c ∈ tokenChoices (buildResourceCatalog resources) task,
      agentIDsFor order (buildResourceCatalog resources) agents task c ≠ []) :
    ((tasks.flatMap (labelsOf order (buildResourceCatalog resources) agents)).map
        Label.read).Nodup ↔
      (∀ task ∈ tasks, PrimaryDetermines (buildResourceCatalog resources) task) ∧
        ReadApart order (buildResourceCatalog resources) agents tasks := by
  have hlabels : (tasks.flatMap (labelsOf order (buildResourceCatalog resources) agents)).Nodup ↔
      ∀ task ∈ tasks, PrimaryDetermines (buildResourceCatalog resources) task := by
    rw [nodup_flatMap_labelsOf_iff htasks]
    exact forall₂_congr fun task htask ↦ nodup_labelsOf_iff (filed_buildResourceCatalog resources)
      (nodup_typeInstances hresources) hagents (hsome task htask)
  constructor
  · intro hnodup
    refine ⟨hlabels.mp (List.Nodup.of_map _ hnodup), fun label label' hlabel hlabel' heq ↦ ?_⟩
    exact List.inj_on_of_nodup_map hnodup (mem_flatMap_labelsOf.mpr hlabel)
      (mem_flatMap_labelsOf.mpr hlabel') heq
  · rintro ⟨hdetermines, hread⟩
    refine List.Nodup.map_on (fun label hlabel label' hlabel' heq ↦ ?_) (hlabels.mpr hdetermines)
    exact hread label label' (mem_flatMap_labelsOf.mp hlabel) (mem_flatMap_labelsOf.mp hlabel') heq

/-- **The ids of the grounded tasks are distinct exactly when in no task two choices bind the least
token alike, and no two labels read alike.** -/
theorem groundTasks_nodup_iff {tasks grounded : List PlanTask}
    (htasks : (tasks.map PlanTask.taskID).Nodup)
    (hresources : (resources.map ResourceInfo.id).Nodup)
    (hagents : (agents.map AgentInfo.id).Nodup)
    (h : groundTasks order tasks resources agents = .ok grounded) :
    (grounded.map PlanTask.taskID).Nodup ↔
      (∀ task ∈ tasks, PrimaryDetermines (buildResourceCatalog resources) task) ∧
        ReadApart order (buildResourceCatalog resources) agents tasks := by
  obtain ⟨hsome, hids⟩ := taskID_groundTasks h
  rw [hids]
  exact nodup_map_read_iff htasks hresources hagents hsome

/-! ## Ids without a colon -/

def ColonFree (id : String) : Prop := ':' ∉ id.toList

/-- A text that does not go on with a letter of an id. -/
def Separated (rest : String) : Prop := ∀ c ∈ rest.toList.head?, c = ':'

theorem separated_idSuffix (id : Option String) : Separated (idSuffix id) := by
  cases id with
  | none => simp [Separated, idSuffix]
  | some id => simp [Separated, idSuffix]

theorem Separated.append {rest rest' : String} (h : Separated rest) (h' : Separated rest') :
    Separated (rest ++ rest') := by
  rw [Separated, String.toList_append]
  cases hrest : rest.toList with
  | nil => exact h'
  | cons c cs =>
    rw [Separated, hrest] at h
    exact h

theorem takeWhile_of_separated {id rest : String} (hid : ColonFree id) (hrest : Separated rest) :
    (id ++ rest).toList.takeWhile (· ≠ ':') = id.toList := by
  have hall : ∀ c ∈ id.toList, decide (c ≠ ':') = true := by
    intro c hc
    rw [decide_eq_true_eq]
    rintro rfl
    exact hid hc
  have hnone : rest.toList.takeWhile (· ≠ ':') = [] := by
    rw [Separated] at hrest
    cases hlist : rest.toList with
    | nil => rfl
    | cons c cs =>
      have hc : c = ':' := hrest c (by simp [hlist])
      simp [hc]
  rw [String.toList_append, List.takeWhile_append_of_pos hall, hnone, List.append_nil]

/-- An id without a colon is told from what follows it. -/
theorem append_inj_of_separated {id id' rest rest' : String} (hid : ColonFree id)
    (hid' : ColonFree id') (hrest : Separated rest) (hrest' : Separated rest')
    (h : id ++ rest = id' ++ rest') : id = id' ∧ rest = rest' := by
  have heq : id = id' := by
    rw [← String.toList_inj, ← takeWhile_of_separated hid hrest, h,
      takeWhile_of_separated hid' hrest']
  refine ⟨heq, ?_⟩
  rw [heq] at h
  exact (String.append_right_inj id').mp h

theorem idSuffix_injective : Function.Injective idSuffix := by
  rintro (_ | id) (_ | id') h
  · rfl
  · simp [idSuffix, ← String.toList_inj] at h
  · simp [idSuffix, ← String.toList_inj] at h
  · rw [idSuffix, idSuffix, String.append_right_inj] at h
    rw [h]

/-- The id of a primary resource is that of a resource, unless the token is blank. -/
theorem colonFree_primaryID (hfiled : catalog.Filed resources)
    (hresources : ∀ resource ∈ resources, ColonFree resource.id) {task : PlanTask}
    {c : List String} {id : String} (h : primaryID catalog task c = some id) : ColonFree id := by
  have hempty : ColonFree "" := by simp [ColonFree]
  have hbound : ∀ token instanceID,
      ColonFree (boundInstance catalog token instanceID).resource.id := by
    intro token instanceID
    rw [boundInstance, ResourceCatalog.bind, ResourceCatalog.instanceOf]
    cases hfound : catalog.instanceByID instanceID with
    | none => exact hempty
    | some resource => exact hresources resource (hfiled.filed hfound).1
  rw [primaryID, primaryFor, Option.map_map, Option.map_eq_some_iff] at h
  obtain ⟨token, -, rfl⟩ := h
  rw [Function.comp_apply, boundTo]
  split
  · exact hbound _ _
  · rename_i hnot
    rw [fixedTo]
    dsimp only
    split
    · exact hbound _ _
    · rename_i hnotInstance
      have hkind : (resolveResourceToken token catalog).kind = .noRef := by
        cases hkind : (resolveResourceToken token catalog).kind with
        | noRef => rfl
        | typeRef => exact absurd hkind hnot
        | instanceRef => exact absurd hkind hnotInstance
      rw [trimSpace_of_noRef hkind]
      exact hempty

/-- **Labels read apart when no task and no resource has a colon in its id.**  The id of the agent
comes last, and may have one. -/
theorem readApart_of_colonFree (hfiled : catalog.Filed resources) {tasks : List PlanTask}
    (htasks : (tasks.map PlanTask.taskID).Nodup)
    (htaskIDs : ∀ task ∈ tasks, ColonFree task.taskID)
    (hresources : ∀ resource ∈ resources, ColonFree resource.id) :
    ReadApart order catalog agents tasks := by
  rintro _ _ ⟨task, htask, c, -, agentID, hagentID, rfl⟩ ⟨task', htask', c', -, agentID', -, rfl⟩ h
  simp only [Label.read, labelFor, String.append_assoc] at h ⊢
  obtain ⟨hid, hrest⟩ := append_inj_of_separated (htaskIDs task htask) (htaskIDs task' htask')
    ((separated_idSuffix _).append (separated_idSuffix _))
    ((separated_idSuffix _).append (separated_idSuffix _)) h
  obtain rfl : task = task' := List.inj_on_of_nodup_map htasks htask htask' hid
  -- a task has a primary resource under every choice or under none
  cases hprimary : primaryID catalog task c with
  | none =>
    have hprimary' : primaryID catalog task c' = none := by
      rw [primaryID, primaryFor, Option.map_map, Option.map_eq_none_iff] at hprimary ⊢
      exact hprimary
    rw [hprimary, hprimary'] at hrest
    have hagent : agentID = agentID' := idSuffix_injective (by simpa [idSuffix] using hrest)
    rw [hprimary', hagent]
  | some id =>
    cases hprimary' : primaryID catalog task c' with
    | none =>
      rw [primaryID, primaryFor, Option.map_map, Option.map_eq_none_iff] at hprimary'
      simp [primaryID, primaryFor, hprimary'] at hprimary
    | some id' =>
      rw [hprimary, hprimary', idSuffix, idSuffix, String.append_assoc, String.append_assoc,
        String.append_right_inj] at hrest
      obtain ⟨rfl, hsuffix⟩ := append_inj_of_separated
        (colonFree_primaryID hfiled hresources hprimary)
        (colonFree_primaryID hfiled hresources hprimary') (separated_idSuffix _)
        (separated_idSuffix _) hrest
      rw [idSuffix_injective hsuffix]

/-- **Without colons the ids are distinct exactly when in no task two choices bind the least token
alike.** -/
theorem groundTasks_nodup_iff_of_colonFree {tasks grounded : List PlanTask}
    (htasks : (tasks.map PlanTask.taskID).Nodup)
    (hresources : (resources.map ResourceInfo.id).Nodup)
    (hagents : (agents.map AgentInfo.id).Nodup)
    (htaskIDs : ∀ task ∈ tasks, ColonFree task.taskID)
    (hresourceIDs : ∀ resource ∈ resources, ColonFree resource.id)
    (h : groundTasks order tasks resources agents = .ok grounded) :
    (grounded.map PlanTask.taskID).Nodup ↔
      ∀ task ∈ tasks, PrimaryDetermines (buildResourceCatalog resources) task := by
  obtain ⟨hsome, hids⟩ := taskID_groundTasks h
  have hread : ReadApart order (buildResourceCatalog resources) agents tasks :=
    readApart_of_colonFree (filed_buildResourceCatalog resources) htasks htaskIDs hresourceIDs
  rw [hids, nodup_map_read_iff htasks hresources hagents hsome]
  exact and_iff_left hread

theorem primaryDetermines_of_noTypeToken {task : PlanTask} (h : typeTokens catalog task = []) :
    PrimaryDetermines catalog task := by
  intro c c' hc hc' _
  rw [IsTokenChoice, h, List.map_nil, isChoice_nil] at hc hc'
  rw [hc, hc']

theorem primaryDetermines_of_oneToken (hfiled : catalog.Filed resources) {task : PlanTask}
    {token : String} (h : task.requiredResources = [token]) : PrimaryDetermines catalog task := by
  by_cases htype : IsTypeToken catalog token
  · intro c c' hc hc' hid
    have htokens : typeTokens catalog task = [token] := by simp [typeTokens, h, htype]
    have hsingle : ∀ c, IsTokenChoice catalog task c →
        ∃ i, c = [i] ∧ primaryID catalog task c = some i := by
      intro c hc
      rw [IsTokenChoice, htokens, List.map_singleton, isChoice_cons] at hc
      obtain ⟨i, rest, rfl, hi, -, hrest⟩ := hc
      obtain rfl := isChoice_nil.mp hrest
      refine ⟨i, rfl, ?_⟩
      have hbound := id_boundInstance hfiled hi
      simp [primaryID, primaryFor, leastToken, h, boundTo, htype, htokens, chosen, hbound]
    obtain ⟨i, rfl, hi⟩ := hsingle c hc
    obtain ⟨i', rfl, hi'⟩ := hsingle c' hc'
    rw [hi, hi', Option.some.injEq] at hid
    rw [hid]
  · exact primaryDetermines_of_noTypeToken (by simp [typeTokens, h, htype])

/-- **Templates with at most one token are grounded under ids of their own.** -/
theorem groundTasks_nodup_of_oneToken {tasks grounded : List PlanTask}
    (htasks : (tasks.map PlanTask.taskID).Nodup)
    (hresources : (resources.map ResourceInfo.id).Nodup)
    (hagents : (agents.map AgentInfo.id).Nodup)
    (htaskIDs : ∀ task ∈ tasks, ColonFree task.taskID)
    (hresourceIDs : ∀ resource ∈ resources, ColonFree resource.id)
    (htokens : ∀ task ∈ tasks, task.requiredResources.length ≤ 1)
    (h : groundTasks order tasks resources agents = .ok grounded) :
    (grounded.map PlanTask.taskID).Nodup := by
  rw [groundTasks_nodup_iff_of_colonFree htasks hresources hagents htaskIDs hresourceIDs h]
  intro task htask
  have hlength := htokens task htask
  match hrequired : task.requiredResources with
  | [] => exact primaryDetermines_of_noTypeToken (by simp [typeTokens, hrequired])
  | [token] => exact primaryDetermines_of_oneToken (filed_buildResourceCatalog resources) hrequired
  | _ :: _ :: _ =>
    rw [hrequired, List.length_cons, List.length_cons] at hlength
    omega

/-! ## Machines and docks -/

def listedOrder : SubstitutionOrder := fun _ ↦ RangeOrder.asListed _

/-- Two machines of one type, two docks of another. -/
def machineHall : List ResourceInfo :=
  [{ id := "cnc", name := "CNC", kind := "type", parentResourceID := "" },
    { id := "dock", name := "Dock", kind := "type", parentResourceID := "" },
    { id := "cnc1", name := "CNC 1", kind := "instance", parentResourceID := "cnc" },
    { id := "cnc2", name := "CNC 2", kind := "instance", parentResourceID := "cnc" },
    { id := "dock1", name := "Dock 1", kind := "instance", parentResourceID := "dock" },
    { id := "dock2", name := "Dock 2", kind := "instance", parentResourceID := "dock" }]

/-- Loading a machine takes a machine of any kind. -/
def loadTask : PlanTask := { taskID := "load", requiredResources := ["type:cnc"] }

/-- Carrying takes a machine and a dock. -/
def carryTask : PlanTask :=
  { taskID := "carry", requiredResources := ["type:cnc", "type:dock"] }

/-- A task with one token is grounded once for each machine, each time under an id of its own. -/
theorem loadTask_nodup_iff :
    (["load::cnc1", "load::cnc2"] : List String).Nodup ↔
      (∀ task ∈ [loadTask], PrimaryDetermines (buildResourceCatalog machineHall) task) ∧
        ReadApart listedOrder (buildResourceCatalog machineHall) [] [loadTask] := by
  obtain ⟨grounded, hgrounded, hids⟩ : ∃ grounded,
      groundTasks listedOrder [loadTask] machineHall [] = .ok grounded ∧
        grounded.map PlanTask.taskID = ["load::cnc1", "load::cnc2"] := ⟨_, rfl, rfl⟩
  rw [← hids]
  exact groundTasks_nodup_iff (by decide) (by decide) (by decide) hgrounded

/-- **Two tokens: the id tells the machine and not the dock.**  The four groundings share two
ids. -/
theorem carryTask_not_nodup :
    ([carryTask].map PlanTask.taskID).Nodup ∧ (machineHall.map ResourceInfo.id).Nodup ∧
      ∃ grounded, groundTasks listedOrder [carryTask] machineHall [] = .ok grounded ∧
        (grounded.map fun task ↦ (task.taskID, task.requiredResources)) =
          [("carry::cnc1", ["instance:cnc1", "instance:dock1"]),
            ("carry::cnc1", ["instance:cnc1", "instance:dock2"]),
            ("carry::cnc2", ["instance:cnc2", "instance:dock1"]),
            ("carry::cnc2", ["instance:cnc2", "instance:dock2"])] ∧
        ¬(grounded.map PlanTask.taskID).Nodup := by
  refine ⟨by decide, by decide, _, rfl, rfl, ?_⟩
  show ¬(["carry::cnc1", "carry::cnc1", "carry::cnc2", "carry::cnc2"] : List String).Nodup
  decide

end Pddl
end FleetServer
