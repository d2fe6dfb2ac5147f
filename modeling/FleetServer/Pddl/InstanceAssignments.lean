import FleetServer.Pddl.Bindings

/-!
# The instances a task is grounded with

`groundTask` is to return a task for every way to give each type token of the task an instance of
its own, besides the instances the task names.  Its search keeps the instances that are used in one
set, and the bindings by the text of the token.  So a token that is listed twice is given two
instances and bound to one of them, and what the task names is not in the set of the used ones.

`bindings_are_assignments_iff` says that this, and an instance that is listed twice under its type,
is all that makes a difference.
-/

set_option autoImplicit false

namespace FleetServer
namespace Pddl

open Choices Fallible GoString

variable {order : SubstitutionOrder} {catalog : ResourceCatalog} {agents : List AgentInfo}
  {task : PlanTask} {resources : List ResourceInfo}

/-! ## Assignments -/

/-- The type tokens of a task as they are listed, a token once for each time it is. -/
def occurrences (catalog : ResourceCatalog) (task : PlanTask) : List String :=
  task.requiredResources.filter fun token ↦ IsTypeToken catalog token

/-- The instances that the task names. -/
def namedInstances (catalog : ResourceCatalog) (task : PlanTask) : List String :=
  (task.refs catalog).filterMap fun ref ↦ if ref.kind = .instanceRef then some ref.key else none

/-- One instance for each time a type token is listed, no instance twice. -/
def IsInstanceChoice (catalog : ResourceCatalog) (task : PlanTask) (a : List String) : Prop :=
  IsChoice ((occurrences catalog task).map (instancesFor catalog)) a

/-- The same, and none that the task names. -/
structure IsAssignment (catalog : ResourceCatalog) (task : PlanTask) (a : List String) : Prop where
  choice : IsInstanceChoice catalog task a
  avoids : ∀ instanceID ∈ a, instanceID ∉ namedInstances catalog task

/-- What a returned task has where a type token is listed in the task. -/
def boundOccurrences (catalog : ResourceCatalog) (task grounded : PlanTask) : List String :=
  ((task.requiredResources.zip grounded.requiredResources).filter fun pair ↦
    IsTypeToken catalog pair.1).map Prod.snd

/-- The returned task is bound to the instances. -/
def IsBoundTo (catalog : ResourceCatalog) (task : PlanTask) (a : List String)
    (grounded : PlanTask) : Prop :=
  boundOccurrences catalog task grounded = a.map ("instance:" ++ ·)

instance (a : List String) (grounded : PlanTask) :
    Decidable (IsBoundTo catalog task a grounded) :=
  inferInstanceAs (Decidable (boundOccurrences catalog task grounded = a.map ("instance:" ++ ·)))

/-- A type token with the instance that is listed with it. -/
def pick (tokens c : List String) (token : String) : String := (chosen tokens c token).getD ""

/-- A token bound to the instance that a function has for it. -/
def boundWith (catalog : ResourceCatalog) (f : String → String) (token : String) :
    GroundedResource :=
  if IsTypeToken catalog token then boundInstance catalog token (f token)
  else fixedTo catalog token

/-- The task with every type token bound to the instance that a function has for it. -/
def taskWith (order : SubstitutionOrder) (catalog : ResourceCatalog) (task : PlanTask)
    (f : String → String) : PlanTask :=
  { bindResources order task ∅ ((leastToken task).map (boundWith catalog f)) with
    requiredResources := task.requiredResources.map fun token ↦
      "instance:" ++ (boundWith catalog f token).resource.id }

/-- The bindings of the returned tasks are the assignments: each task is bound to one, and the tasks
that are bound to an assignment are the task so bound, once for each agent it is bound to. -/
structure AreAssignments (order : SubstitutionOrder) (catalog : ResourceCatalog)
    (agents : List AgentInfo) (task : PlanTask) (grounded : List PlanTask) : Prop where
  assigned : ∀ g ∈ grounded, ∃ a, IsAssignment catalog task a ∧ IsBoundTo catalog task a g
  once : ∀ a, IsAssignment catalog task a →
    agentTasks order agents (taskWith order catalog task (pick (occurrences catalog task) a)) =
      .ok (grounded.filter fun g ↦ IsBoundTo catalog task a g)

/-- Whenever there are instances enough, no type token is listed twice, and those chosen are none
that the task names and are listed once under their type. -/
def Unambiguous (catalog : ResourceCatalog) (task : PlanTask) : Prop :=
  ∀ a, IsInstanceChoice catalog task a → (occurrences catalog task).Nodup ∧
    (∀ instanceID ∈ a, instanceID ∉ namedInstances catalog task) ∧
    List.Forall₂ (fun instanceID token ↦ (instancesFor catalog token).count instanceID = 1) a
      (occurrences catalog task)

/-! ## Choices as functions of the tokens -/

section Pick

variable {tokens c : List String}

theorem map_pick (hnodup : tokens.Nodup) : ∀ {c : List String}, c.length = tokens.length →
    tokens.map (pick tokens c) = c := by
  induction tokens with
  | nil => exact fun hlength ↦ (List.length_eq_zero_iff.mp hlength).symm
  | cons t tokens ih =>
    intro c hlength
    obtain ⟨i, c, rfl⟩ := List.exists_cons_of_length_eq_add_one hlength
    obtain ⟨hnew, hnodup⟩ := List.nodup_cons.mp hnodup
    have hlength : c.length = tokens.length := by simpa using hlength
    have hhead : pick (t :: tokens) (i :: c) t = i := by
      have hnone : chosen tokens c t = none := by
        rw [← Option.not_isSome_iff_eq_none, chosen_isSome_iff hlength]
        exact hnew
      rw [pick, chosen, hnone, if_pos rfl]
      rfl
    have htail : tokens.map (pick (t :: tokens) (i :: c)) = tokens.map (pick tokens c) := by
      refine List.map_congr_left fun token htoken ↦ ?_
      obtain ⟨j, hj⟩ := Option.isSome_iff_exists.mp ((chosen_isSome_iff hlength).mpr htoken)
      rw [pick, pick, chosen, hj]
      rfl
    rw [List.map_cons, hhead, htail, ih hnodup hlength]

theorem pick_map (f : String → String) {token : String} (h : token ∈ tokens) :
    pick tokens (tokens.map f) token = f token := by
  have hsome : ∀ {tokens : List String}, ∀ i ∈ chosen tokens (tokens.map f) token, i = f token := by
    intro tokens
    induction tokens with
    | nil => simp [chosen]
    | cons t tokens ih =>
      intro i hi
      rw [List.map_cons, chosen, Option.mem_def, Option.orElse_eq_some] at hi
      rcases hi with hi | ⟨-, hi⟩
      · exact ih i hi
      · split at hi
        · rename_i heq
          rw [← Option.some.inj hi, heq]
        · exact absurd hi (by simp)
  obtain ⟨i, hi⟩ := Option.isSome_iff_exists.mp
    ((chosen_isSome_iff (c := tokens.map f) (by simp)).mpr h)
  rw [pick, hi]
  exact hsome i hi

/-- A choice that is a function of the tokens may list them in any order. -/
theorem isChoice_map_iff {tokens' : List String} (hperm : tokens.Perm tokens')
    (f : String → String) :
    IsChoice (tokens.map (instancesFor catalog)) (tokens.map f) ↔
      IsChoice (tokens'.map (instancesFor catalog)) (tokens'.map f) := by
  have hfn : ∀ l : List String, IsChoice (l.map (instancesFor catalog)) (l.map f) ↔
      (∀ token ∈ l, f token ∈ instancesFor catalog token) ∧ (l.map f).Nodup := by
    intro l
    constructor
    · rintro ⟨hmem, hnodup⟩
      rw [List.forall₂_map_left_iff, List.forall₂_map_right_iff, List.forall₂_same] at hmem
      exact ⟨hmem, hnodup⟩
    · rintro ⟨hmem, hnodup⟩
      refine ⟨?_, hnodup⟩
      rw [List.forall₂_map_left_iff, List.forall₂_map_right_iff, List.forall₂_same]
      exact hmem
  rw [hfn, hfn, (hperm.map f).nodup_iff]
  exact and_congr_left fun _ ↦ forall_congr' fun token ↦ imp_congr_left hperm.mem_iff

end Pick

/-! ## The tasks that are returned -/

section Returned

theorem eq_taskWith {c : List String} {grounded : PlanTask}
    (h : IsBoundLeaf order catalog task c grounded) :
    grounded = taskWith order catalog task (pick (typeTokens catalog task) c) := by
  obtain ⟨bindings, hbound, rfl⟩ := h
  have hresources :
      (bindResources order task bindings (primaryFor catalog task c)).requiredResources =
      task.requiredResources.map fun token ↦
        "instance:" ++ (boundTo catalog task c token).resource.id := by
    refine List.map_congr_left fun token htoken ↦ ?_
    rw [hbound, if_pos htoken]
  have hto : boundTo catalog task c = boundWith catalog (pick (typeTokens catalog task) c) := rfl
  show { bindResources order task ∅ (primaryFor catalog task c) with
    requiredResources :=
      (bindResources order task bindings (primaryFor catalog task c)).requiredResources } = _
  rw [hresources, primaryFor, hto, taskWith]

theorem zip_map_filter {tokens : List String} {f : String → String} {p : String → Bool} :
    ((tokens.zip (tokens.map f)).filter fun pair ↦ p pair.1).map Prod.snd =
      (tokens.filter p).map f := by
  induction tokens with
  | nil => rfl
  | cons t tokens ih =>
    rw [List.map_cons, List.zip_cons_cons, List.filter_cons, List.filter_cons]
    split
    · rw [List.map_cons, List.map_cons, ih]
    · exact ih

/-- What the returned task has for the type tokens is what they are bound to. -/
theorem boundOccurrences_taskWith (hfiled : catalog.Filed resources) {f : String → String}
    (hf : ∀ token ∈ occurrences catalog task, f token ∈ instancesFor catalog token) :
    boundOccurrences catalog task (taskWith order catalog task f) =
      ((occurrences catalog task).map f).map ("instance:" ++ ·) := by
  rw [boundOccurrences, taskWith]
  dsimp only
  rw [zip_map_filter (p := fun token ↦ IsTypeToken catalog token), List.map_map]
  refine List.map_congr_left fun token htoken ↦ ?_
  have htype : IsTypeToken catalog token := of_decide_eq_true (List.mem_filter.mp htoken).2
  obtain ⟨resource, hresource⟩ := hfiled.listed (hf token htoken)
  rw [Function.comp_apply, boundWith, if_pos htype, boundInstance, ResourceCatalog.bind,
    ResourceCatalog.instanceOf, hresource, Option.getD_some, (hfiled.filed hresource).2]

theorem isBoundTo_taskWith (hfiled : catalog.Filed resources) {f : String → String}
    (hf : ∀ token ∈ occurrences catalog task, f token ∈ instancesFor catalog token)
    {a : List String} {g : PlanTask}
    (hg : g.requiredResources = (taskWith order catalog task f).requiredResources) :
    IsBoundTo catalog task a g ↔ (occurrences catalog task).map f = a := by
  have hinjective : Function.Injective fun instanceID : String ↦ "instance:" ++ instanceID :=
    fun _ _ h ↦ String.append_right_inj _ |>.mp h
  have hocc : boundOccurrences catalog task g =
      ((occurrences catalog task).map f).map ("instance:" ++ ·) := by
    rw [boundOccurrences, hg]
    exact boundOccurrences_taskWith hfiled hf
  rw [IsBoundTo, hocc]
  exact (List.map_injective_iff.mpr hinjective).eq_iff

/-- Binding the agent keeps the resources, and there is an agent to bind it to. -/
theorem requiredResources_agentTasks {result : PlanTask} {group : List PlanTask}
    (h : agentTasks order agents result = .ok group) :
    group ≠ [] ∧ ∀ g ∈ group, g.requiredResources = result.requiredResources := by
  rw [agentTasks] at h
  split at h
  · rw [← Except.ok.inj h]
    exact ⟨List.cons_ne_nil _ _, fun g hg ↦ by rw [List.mem_singleton.mp hg]⟩
  · split at h
    · exact absurd h (by simp)
    · dsimp only at h
      split at h
      · exact absurd h (by simp)
      · rename_i hsome
        rw [← Except.ok.inj h]
        refine ⟨fun hnone ↦ hsome (List.map_eq_nil_iff.mp hnone), fun g hg ↦ ?_⟩
        obtain ⟨agent, -, rfl⟩ := List.mem_map.mp hg
        rfl

/-- The tasks that a choice leads to. -/
def groupOf (order : SubstitutionOrder) (catalog : ResourceCatalog) (agents : List AgentInfo)
    (task : PlanTask) (c : List String) : List PlanTask :=
  (agentTasks order agents (taskWith order catalog task
    (pick (typeTokens catalog task) c))).toOption.getD []

/-- **Every choice leads to the task it binds**, and nothing else is returned. -/
theorem groundTask_groups (hfiled : catalog.Filed resources) {grounded : List PlanTask}
    (h : groundTask order catalog agents task = .ok grounded) :
    grounded = (tokenChoices catalog task).flatMap (groupOf order catalog agents task) ∧
      ∀ c ∈ tokenChoices catalog task,
        agentTasks order agents (taskWith order catalog task (pick (typeTokens catalog task) c)) =
          .ok (groupOf order catalog agents task c) := by
  obtain ⟨results, hleaves, hagents⟩ := groundTask_bound hfiled h
  have hresults : results = (tokenChoices catalog task).map fun c ↦
      taskWith order catalog task (pick (typeTokens catalog task) c) := by
    have hmap := map_eq_of_forall₂ (g := id) (hleaves.imp fun c g hg ↦ eq_taskWith hg)
    rwa [List.map_id] at hmap
  rw [groundTaskByAgent, hresults] at hagents
  obtain ⟨groups, hgroups, rfl⟩ := exists_of_map_eq_ok hagents
  have hforall := List.forall₂_map_left_iff.mp (forall₂_of_mapM hgroups)
  have hgroup : List.Forall₂ (fun c group ↦ id group = groupOf order catalog agents task c)
      (tokenChoices catalog task) groups :=
    hforall.imp fun c group hc ↦ by rw [groupOf, hc]; rfl
  refine ⟨?_, fun c hc ↦ ?_⟩
  · have hmap := map_eq_of_forall₂ (g := id) hgroup
    rw [List.map_id] at hmap
    rw [hmap, List.flatMap_def]
  · obtain ⟨group, -, hok⟩ := exists_of_mem_right hforall.flip hc
    rw [hok, groupOf, hok]
    rfl

end Returned

/-! ## When the bindings are the assignments -/

section Assignments

variable {grounded : List PlanTask} {a c : List String}

theorem perm_typeTokens : (typeTokens catalog task).Perm (occurrences catalog task) :=
  List.perm_insertionSort _ _

theorem pick_mem (hc : c ∈ tokenChoices catalog task) :
    ∀ token ∈ occurrences catalog task,
      pick (typeTokens catalog task) c token ∈ instancesFor catalog token := by
  intro token htoken
  have hchoice := mem_tokenChoices.mp hc
  obtain ⟨i, hi⟩ := Option.isSome_iff_exists.mp
    ((chosen_isSome_iff hchoice.length_eq).mpr (perm_typeTokens.mem_iff.mpr htoken))
  rw [pick, hi]
  exact mem_instancesFor_of_chosen hchoice.mem hi

/-- Only what a function has for the type tokens matters. -/
theorem taskWith_congr {f g : String → String}
    (h : ∀ token ∈ occurrences catalog task, f token = g token) :
    taskWith order catalog task f = taskWith order catalog task g := by
  have hbound : ∀ token ∈ task.requiredResources,
      boundWith catalog f token = boundWith catalog g token := by
    intro token htoken
    rw [boundWith, boundWith]
    split
    · rename_i htype
      rw [h token (List.mem_filter.mpr ⟨htoken, decide_eq_true htype⟩)]
    · rfl
  have hleast : (leastToken task).map (boundWith catalog f) =
      (leastToken task).map (boundWith catalog g) := by
    refine Option.map_congr fun token htoken ↦ hbound token ?_
    exact (List.mem_insertionSort _).mp (List.mem_of_mem_head? htoken)
  rw [taskWith, taskWith, hleast, List.map_congr_left fun token htoken ↦ by
    rw [hbound token htoken]]

variable (hnodup : (occurrences catalog task).Nodup)

include hnodup

/-- The choice of the search that binds the task to some instances. -/
theorem mem_tokenChoices_of_choice (ha : IsInstanceChoice catalog task a) :
    (typeTokens catalog task).map (pick (occurrences catalog task) a) ∈
      tokenChoices catalog task := by
  rw [mem_tokenChoices, IsTokenChoice, isChoice_map_iff perm_typeTokens,
    map_pick hnodup (by rw [ha.mem.length_eq, List.length_map])]
  exact ha

/-- What a choice of the search binds the task to. -/
theorem isInstanceChoice_of_mem (hc : c ∈ tokenChoices catalog task) :
    IsInstanceChoice catalog task
      ((occurrences catalog task).map (pick (typeTokens catalog task) c)) := by
  have hchoice := mem_tokenChoices.mp hc
  rw [IsInstanceChoice, ← isChoice_map_iff perm_typeTokens,
    map_pick (perm_typeTokens.nodup_iff.mpr hnodup) hchoice.length_eq]
  exact hchoice

/-- One choice of the search binds the task to some instances. -/
theorem map_pick_eq_iff (ha : IsInstanceChoice catalog task a)
    (hc : c ∈ tokenChoices catalog task) :
    (occurrences catalog task).map (pick (typeTokens catalog task) c) = a ↔
      c = (typeTokens catalog task).map (pick (occurrences catalog task) a) := by
  constructor
  · rintro rfl
    rw [← map_pick (perm_typeTokens.nodup_iff.mpr hnodup) (mem_tokenChoices.mp hc).length_eq]
    refine List.map_congr_left fun token htoken ↦ ?_
    rw [map_pick (perm_typeTokens.nodup_iff.mpr hnodup) (mem_tokenChoices.mp hc).length_eq,
      pick_map _ (perm_typeTokens.mem_iff.mp htoken)]
  · rintro rfl
    rw [List.map_congr_left fun token htoken ↦ pick_map _ (perm_typeTokens.mem_iff.mpr htoken)]
    exact map_pick hnodup (by rw [ha.mem.length_eq, List.length_map])

/-- The tasks bound to some instances are those of the one choice, as often as it is reached. -/
theorem filter_isBoundTo (hfiled : catalog.Filed resources)
    (h : groundTask order catalog agents task = .ok grounded)
    (ha : IsInstanceChoice catalog task a) :
    grounded.filter (fun g ↦ IsBoundTo catalog task a g) =
      (List.replicate ((tokenChoices catalog task).count
        ((typeTokens catalog task).map (pick (occurrences catalog task) a)))
        (groupOf order catalog agents task
          ((typeTokens catalog task).map (pick (occurrences catalog task) a)))).flatten := by
  obtain ⟨rfl, hgroups⟩ := groundTask_groups hfiled h
  have hbound : ∀ c ∈ tokenChoices catalog task, ∀ g ∈ groupOf order catalog agents task c,
      IsBoundTo catalog task a g ↔
        c = (typeTokens catalog task).map (pick (occurrences catalog task) a) := by
    intro c hc g hg
    rw [isBoundTo_taskWith hfiled (pick_mem hc)
      ((requiredResources_agentTasks (hgroups c hc)).2 g hg)]
    exact map_pick_eq_iff hnodup ha hc
  rw [List.filter_flatMap]
  have hmem := mem_tokenChoices_of_choice hnodup ha
  generalize (typeTokens catalog task).map (pick (occurrences catalog task) a) = x at hbound hmem ⊢
  have hx : (groupOf order catalog agents task x).filter (fun g ↦ IsBoundTo catalog task a g) =
      groupOf order catalog agents task x :=
    List.filter_eq_self.mpr fun g hg ↦ decide_eq_true ((hbound x hmem g hg).mpr rfl)
  rw [flatMap_eq_replicate (x := x), hx]
  intro c hc hne
  rw [List.filter_eq_nil_iff]
  exact fun g hg hb ↦ hne ((hbound c hc g hg).mp (of_decide_eq_true hb))

/-- **An assignment appears once** exactly when each of its instances is listed once. -/
theorem once_iff (hfiled : catalog.Filed resources)
    (h : groundTask order catalog agents task = .ok grounded)
    (ha : IsInstanceChoice catalog task a) :
    agentTasks order agents (taskWith order catalog task (pick (occurrences catalog task) a)) =
        .ok (grounded.filter fun g ↦ IsBoundTo catalog task a g) ↔
      List.Forall₂ (fun instanceID token ↦ (instancesFor catalog token).count instanceID = 1) a
        (occurrences catalog task) := by
  have hmem := mem_tokenChoices_of_choice hnodup ha
  have hgroup := (groundTask_groups hfiled h).2 _ hmem
  have hsame : ∀ token ∈ occurrences catalog task,
      pick (typeTokens catalog task)
        ((typeTokens catalog task).map (pick (occurrences catalog task) a)) token =
          pick (occurrences catalog task) a token :=
    fun token htoken ↦ pick_map _ (perm_typeTokens.mem_iff.mpr htoken)
  rw [taskWith_congr hsame] at hgroup
  have hne := (requiredResources_agentTasks hgroup).1
  rw [filter_isBoundTo hnodup hfiled h ha, hgroup, Except.ok.injEq, eq_flatten_replicate_iff hne,
    tokenChoices, count_choices_eq_one hmem, List.forall₂_map_left_iff, List.forall₂_map_right_iff,
    List.forall₂_same]
  -- both say so of every type token
  have hlist : a = (occurrences catalog task).map (pick (occurrences catalog task) a) :=
    (map_pick hnodup (by rw [ha.mem.length_eq, List.length_map])).symm
  rw [show List.Forall₂ (fun instanceID token ↦ (instancesFor catalog token).count instanceID = 1) a
    (occurrences catalog task) ↔ List.Forall₂ (fun instanceID token ↦
      (instancesFor catalog token).count instanceID = 1)
        ((occurrences catalog task).map (pick (occurrences catalog task) a))
        (occurrences catalog task) by rw [← hlist],
    List.forall₂_map_left_iff, List.forall₂_same]
  exact forall_congr' fun token ↦ imp_congr_left perm_typeTokens.mem_iff

omit hnodup in
/-- Where there are instances enough, the search finds a choice. -/
theorem exists_tokenChoice (ha : IsInstanceChoice catalog task a) :
    ∃ c, c ∈ tokenChoices catalog task := by
  obtain ⟨c, hc⟩ := ha.perm (perm_typeTokens.symm.map (instancesFor catalog))
  exact ⟨c, mem_tokenChoices.mpr hc⟩

omit hnodup in
theorem exists_instanceChoice (hc : c ∈ tokenChoices catalog task) :
    ∃ a, IsInstanceChoice catalog task a :=
  (mem_tokenChoices.mp hc).perm (perm_typeTokens.map (instancesFor catalog))

end Assignments

/-- **The bindings of the returned tasks are the assignments** exactly when, as far as there are
instances enough, no type token is listed twice, no instance that the task names could be chosen
for one, and none that could be is listed twice under its type. -/
theorem bindings_are_assignments_iff {grounded : List PlanTask}
    (h : groundTask order (buildResourceCatalog resources) agents task = .ok grounded) :
    AreAssignments order (buildResourceCatalog resources) agents task grounded ↔
      Unambiguous (buildResourceCatalog resources) task := by
  have hfiled := filed_buildResourceCatalog resources
  generalize buildResourceCatalog resources = catalog at h hfiled ⊢
  obtain ⟨hgrounded, hgroups⟩ := groundTask_groups hfiled h
  constructor
  · rintro ⟨hassigned, honce⟩ a ha
    -- a task for some choice is bound to an assignment, which repeats no instance
    have hbound : ∀ c ∈ tokenChoices catalog task, IsAssignment catalog task
        ((occurrences catalog task).map (pick (typeTokens catalog task) c)) := by
      intro c hc
      obtain ⟨g, rest, hg⟩ :=
        List.exists_cons_of_ne_nil (requiredResources_agentTasks (hgroups c hc)).1
      have hin : g ∈ groupOf order catalog agents task c := hg ▸ List.mem_cons_self
      obtain ⟨b, hb, hto⟩ := hassigned g (hgrounded ▸ List.mem_flatMap.mpr ⟨c, hc, hin⟩)
      rw [isBoundTo_taskWith hfiled (pick_mem hc)
        ((requiredResources_agentTasks (hgroups c hc)).2 g hin)] at hto
      rw [hto]
      exact hb
    have hnodup : (occurrences catalog task).Nodup := by
      obtain ⟨c, hc⟩ := exists_tokenChoice ha
      exact (hbound c hc).choice.nodup.of_map _
    have hself := hbound _ (mem_tokenChoices_of_choice hnodup ha)
    rw [(map_pick_eq_iff hnodup ha (mem_tokenChoices_of_choice hnodup ha)).mpr rfl] at hself
    exact ⟨hnodup, hself.avoids, (once_iff hnodup hfiled h ha).mp (honce a hself)⟩
  · intro hunambiguous
    refine ⟨fun g hg ↦ ?_, fun a ha ↦ ?_⟩
    · rw [hgrounded] at hg
      obtain ⟨c, hc, hin⟩ := List.mem_flatMap.mp hg
      obtain ⟨b, hb⟩ := exists_instanceChoice hc
      have hchoice := isInstanceChoice_of_mem (hunambiguous b hb).1 hc
      refine ⟨_, ⟨hchoice, (hunambiguous _ hchoice).2.1⟩, ?_⟩
      rw [isBoundTo_taskWith hfiled (pick_mem hc)
        ((requiredResources_agentTasks (hgroups c hc)).2 g hin)]
    · obtain ⟨hnodup, -, hlisted⟩ := hunambiguous a ha.choice
      exact (once_iff hnodup hfiled h ha.choice).mpr hlisted

/-! ## Two slots -/

def twoSlots : List ResourceInfo :=
  [{ id := "slot", name := "slot", kind := "type", parentResourceID := "" },
    { id := "s1", name := "left", kind := "instance", parentResourceID := "slot" },
    { id := "s2", name := "right", kind := "instance", parentResourceID := "slot" }]

def slotTask (requiredResources : List String) : PlanTask :=
  { taskID := "park", taskName := "Park", requiredResources }

def asListedOrder : SubstitutionOrder := fun _ ↦ .asListed _

/-- One slot is one of the two, and neither is named. -/
theorem unambiguous_slot :
    Unambiguous (buildResourceCatalog twoSlots) (slotTask ["type:slot"]) := by
  intro a ha
  have hone : occurrences (buildResourceCatalog twoSlots) (slotTask ["type:slot"]) =
      ["type:slot"] := by decide
  rw [IsInstanceChoice, hone, List.map_singleton, isChoice_cons] at ha
  obtain ⟨i, rest, rfl, hi, -, hrest⟩ := ha
  obtain rfl := isChoice_nil.mp hrest
  have hslot : i ∈ ["s1", "s2"] := hi
  have hnone : namedInstances (buildResourceCatalog twoSlots) (slotTask ["type:slot"]) = [] := by
    decide
  rw [hone, hnone]
  refine ⟨by decide, fun j _ ↦ List.not_mem_nil, .cons ?_ .nil⟩
  · rcases List.mem_pair.mp hslot with rfl | rfl <;> decide

theorem slot_assigned : ∃ grounded,
    groundTask asListedOrder (buildResourceCatalog twoSlots) [] (slotTask ["type:slot"]) =
      .ok grounded ∧ grounded.map (·.requiredResources) = [["instance:s1"], ["instance:s2"]] ∧
    AreAssignments asListedOrder (buildResourceCatalog twoSlots) [] (slotTask ["type:slot"])
      grounded :=
  ⟨_, rfl, rfl, (bindings_are_assignments_iff rfl).mpr unambiguous_slot⟩

/-- A task that needs two slots is returned with the same slot twice, and one that needs a slot
besides the one it names with that slot for both. -/
theorem slots_shared_twice :
    (∃ grounded, groundTask asListedOrder (buildResourceCatalog twoSlots) []
        (slotTask ["type:slot", "type:slot"]) = .ok grounded ∧
      grounded.map (·.requiredResources) =
        [["instance:s2", "instance:s2"], ["instance:s1", "instance:s1"]] ∧
      ¬AreAssignments asListedOrder (buildResourceCatalog twoSlots) []
        (slotTask ["type:slot", "type:slot"]) grounded) ∧
    ∃ grounded, groundTask asListedOrder (buildResourceCatalog twoSlots) []
        (slotTask ["type:slot", "instance:s1"]) = .ok grounded ∧
      grounded.map (·.requiredResources) =
        [["instance:s1", "instance:s1"], ["instance:s2", "instance:s1"]] ∧
      ¬AreAssignments asListedOrder (buildResourceCatalog twoSlots) []
        (slotTask ["type:slot", "instance:s1"]) grounded := by
  refine ⟨⟨_, rfl, rfl, fun h ↦ ?_⟩, ⟨_, rfl, rfl, fun h ↦ ?_⟩⟩
  · obtain ⟨a, ha, hto⟩ := h.assigned _ List.mem_cons_self
    have hto : ["instance:s2", "instance:s2"] = a.map ("instance:" ++ ·) := hto
    exact absurd (hto ▸ ha.choice.nodup.map fun _ _ h ↦ String.append_right_inj _ |>.mp h)
      (by decide)
  · obtain ⟨a, ha, hto⟩ := h.assigned _ List.mem_cons_self
    have hto : ["instance:s1"] = a.map ("instance:" ++ ·) := hto
    have hin : "instance:s1" ∈ a.map ("instance:" ++ ·) := hto ▸ List.mem_cons_self
    obtain ⟨i, hi, heq⟩ := List.mem_map.mp hin
    obtain rfl : i = "s1" := (String.append_right_inj "instance:").mp heq
    exact ha.avoids _ hi (by decide)

end Pddl
end FleetServer
