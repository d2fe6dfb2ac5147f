import FleetServer.Lib.Choices
import FleetServer.Lib.Fallible
import FleetServer.Pddl.Grounding

/-!
# What a task is bound to

The search of `groundTask` reaches one leaf for every choice of instances for the type tokens of
the task (`groundTask_spec`).  What a leaf makes of the task is read off the choice alone: the
other tokens are bound to the same resource in every leaf, and the primary binding is the one of
the least token (`primaryBinding_eq`).
-/

set_option autoImplicit false

namespace FleetServer
namespace Pddl

open Choices Fallible GoString

/-- The token stands for any one instance of a type. -/
def IsTypeToken (catalog : ResourceCatalog) (token : String) : Prop :=
  (resolveResourceToken token catalog).kind = .typeRef

instance (catalog : ResourceCatalog) : DecidablePred (IsTypeToken catalog) :=
  fun token ↦ inferInstanceAs (Decidable ((resolveResourceToken token catalog).kind = .typeRef))

/-- The instances a type token ranges over. -/
def instancesFor (catalog : ResourceCatalog) (token : String) : List String :=
  catalog.typeInstances (resolveResourceToken token catalog).key

def candidateSet (catalog : ResourceCatalog) (token : String) : CandidateSet :=
  { token, instances := instancesFor catalog token }

/-- The type tokens of a task, in the order they are bound in. -/
def typeTokens (catalog : ResourceCatalog) (task : PlanTask) : List String :=
  (task.requiredResources.filter fun token ↦ IsTypeToken catalog token).insertionSort (· ≤ ·)

/-- One instance for each type token of the task, and no instance twice. -/
def IsTokenChoice (catalog : ResourceCatalog) (task : PlanTask) (c : List String) : Prop :=
  IsChoice ((typeTokens catalog task).map (instancesFor catalog)) c

/-- The instance chosen for a token.  For a token that is listed twice it is the later one. -/
def chosen : List String → List String → String → Option String
  | t :: tokens, i :: c, token => chosen tokens c token <|> if t = token then some i else none
  | _, _, _ => none

/-- A token that is bound to an instance. -/
def boundInstance (catalog : ResourceCatalog) (token instanceID : String) : GroundedResource :=
  catalog.bind token instanceID (catalog.instanceOf instanceID)

/-- What a token that is not a type token is bound to. -/
def fixedTo (catalog : ResourceCatalog) (token : String) : GroundedResource :=
  let ref := resolveResourceToken token catalog
  if ref.kind = .instanceRef then boundInstance catalog token ref.key
  else
    let name := trimSpace token
    { token, resource := { id := name, name, kind := "instance", parentResourceID := "" } }

/-- What a token of the task is bound to under a choice. -/
def boundTo (catalog : ResourceCatalog) (task : PlanTask) (c : List String) (token : String) :
    GroundedResource :=
  if IsTypeToken catalog token then
    boundInstance catalog token ((chosen (typeTokens catalog task) c token).getD "")
  else fixedTo catalog token

/-- The least of the tokens of a task. -/
def leastToken (task : PlanTask) : Option String :=
  (task.requiredResources.insertionSort (· ≤ ·)).head?

/-- The primary binding of a task under a choice. -/
def primaryFor (catalog : ResourceCatalog) (task : PlanTask) (c : List String) :
    Option GroundedResource :=
  (leastToken task).map (boundTo catalog task c)

@[simp] theorem token_boundTo (catalog : ResourceCatalog) (task : PlanTask) (c : List String)
    (token : String) : (boundTo catalog task c token).token = token := by
  rw [boundTo, fixedTo]
  split
  · rfl
  · dsimp only
    split <;> rfl

/-! ## The loop over the tokens -/

section Tokens

variable {task : PlanTask} {resources : List ResourceInfo} {catalog : ResourceCatalog}

theorem TokenBindings.add_cases (hfiled : catalog.Filed resources) {acc acc' : TokenBindings}
    {token : String} (h : acc.add task catalog token = .ok acc') :
    (IsTypeToken catalog token ∧ acc' = { acc with
        dynamic := acc.dynamic ++ [candidateSet catalog token] }) ∨
      (¬IsTypeToken catalog token ∧ acc' = { acc with
        fixed := acc.fixed.insert token (fixedTo catalog token) }) := by
  simp only [TokenBindings.add] at h
  split at h
  · rename_i hkind
    split at h
    · exact absurd h (by simp)
    · exact Or.inl ⟨hkind, (Except.ok.inj h).symm⟩
  · rename_i hkind
    split at h
    · exact absurd h (by simp)
    · rename_i resource hresource
      have hfixed : fixedTo catalog token = catalog.bind token resource.id resource := by
        rw [fixedTo, if_pos hkind, boundInstance, ResourceCatalog.instanceOf, hresource,
          (hfiled.filed hresource).2]
        rfl
      have hnot : ¬IsTypeToken catalog token := by simp [IsTypeToken, hkind]
      exact Or.inr ⟨hnot, hfixed ▸ (Except.ok.inj h).symm⟩
  · rename_i hkind
    have hfixed : fixedTo catalog token = { token, resource :=
        { id := trimSpace token, name := trimSpace token, kind := "instance"
          parentResourceID := "" } } := by
      simp [fixedTo, hkind]
    have hnot : ¬IsTypeToken catalog token := by simp [IsTypeToken, hkind]
    exact Or.inr ⟨hnot, hfixed ▸ (Except.ok.inj h).symm⟩

theorem foldlM_add_spec (hfiled : catalog.Filed resources) {tokens : List String} :
    ∀ {acc acc' : TokenBindings}, tokens.foldlM (TokenBindings.add task catalog) acc = .ok acc' →
      acc'.dynamic = acc.dynamic ++
          (tokens.filter fun token ↦ IsTypeToken catalog token).map (candidateSet catalog) ∧
        ∀ token, acc'.fixed.lookup token =
          if token ∈ tokens ∧ ¬IsTypeToken catalog token then some (fixedTo catalog token)
          else acc.fixed.lookup token := by
  induction tokens with
  | nil =>
    intro acc acc' h
    obtain rfl : acc = acc' := by simpa [pure, Except.pure] using h
    simp
  | cons t tokens ih =>
    intro acc acc' h
    rw [List.foldlM_cons] at h
    obtain ⟨mid, hadd, hrest⟩ := exists_of_bind_eq_ok h
    obtain ⟨hdynamic, hfixed⟩ := ih hrest
    obtain ⟨htype, rfl⟩ | ⟨hnot, rfl⟩ := TokenBindings.add_cases hfiled hadd
    · refine ⟨by rw [hdynamic]; simp [htype], fun token ↦ ?_⟩
      rw [hfixed]
      by_cases heq : token = t
      · subst heq
        simp [htype]
      · simp [heq]
    · refine ⟨by rw [hdynamic]; simp [hnot], fun token ↦ ?_⟩
      rw [hfixed]
      by_cases heq : token = t
      · subst heq
        simp [hnot]
      · simp [heq, AList.lookup_insert_ne heq]

end Tokens

/-! ## The search -/

section Search

variable {catalog : ResourceCatalog}

/-- The bindings at the leaf of a choice. -/
def bindAll (catalog : ResourceCatalog) : List String → List String → Bindings → Bindings
  | t :: tokens, i :: c, bindings =>
    bindAll catalog tokens c (bindings.insert t (boundInstance catalog t i))
  | _, _, bindings => bindings

theorem chosen_isSome_iff {tokens : List String} :
    ∀ {c : List String}, c.length = tokens.length → ∀ {token : String},
      (chosen tokens c token).isSome ↔ token ∈ tokens := by
  induction tokens with
  | nil => simp [chosen]
  | cons t tokens ih =>
    intro c hlength token
    obtain ⟨i, c, rfl⟩ : ∃ i c', c = i :: c' := List.exists_cons_of_length_eq_add_one hlength
    have hrest : (chosen tokens c token).isSome ↔ token ∈ tokens := ih (by simpa using hlength)
    rw [chosen, List.mem_cons, ← hrest]
    by_cases heq : t = token
    · cases chosen tokens c token <;> simp [heq]
    · cases chosen tokens c token <;> simp [heq, Ne.symm heq]

/-- The instance chosen for a token is one of its own. -/
theorem mem_instancesFor_of_chosen {tokens : List String} :
    ∀ {c : List String}, List.Forall₂ (· ∈ ·) c (tokens.map (instancesFor catalog)) →
      ∀ {token instanceID : String}, chosen tokens c token = some instanceID →
        instanceID ∈ instancesFor catalog token := by
  induction tokens with
  | nil => simp [chosen]
  | cons t tokens ih =>
    intro c hchoice token instanceID h
    obtain ⟨i, c, hi, hc, rfl⟩ := List.forall₂_cons_right_iff.mp hchoice
    rw [chosen, Option.orElse_eq_some] at h
    rcases h with h | ⟨-, h⟩
    · exact ih hc h
    · split at h
      · rename_i heq
        rw [← heq, ← Option.some.inj h]
        exact hi
      · exact absurd h (by simp)

theorem lookup_bindAll {tokens : List String} :
    ∀ {c : List String} {bindings : Bindings} {token : String},
      (bindAll catalog tokens c bindings).lookup token =
        match chosen tokens c token with
        | some instanceID => some (boundInstance catalog token instanceID)
        | none => bindings.lookup token := by
  induction tokens with
  | nil => simp [bindAll, chosen]
  | cons t tokens ih =>
    intro c bindings token
    cases c with
    | nil => simp [bindAll, chosen]
    | cons i c =>
      rw [bindAll, ih, chosen]
      cases hlater : chosen tokens c token with
      | some instanceID => rfl
      | none =>
        by_cases heq : t = token
        · subst heq
          simp
        · simp [heq, AList.lookup_insert_ne (Ne.symm heq)]

/-- **The search instantiates the task at the leaf of every choice.** -/
theorem forall₂_of_expand {instantiate : Bindings → Except String PlanTask}
    {tokens : List String} : ∀ {bindings : Bindings} {used : List String} {results : List PlanTask},
      expand instantiate catalog (tokens.map (candidateSet catalog)) bindings used = .ok results →
        List.Forall₂
          (fun c grounded ↦ instantiate (bindAll catalog tokens c bindings) = .ok grounded)
          (choices (tokens.map (instancesFor catalog)) used) results := by
  induction tokens with
  | nil =>
    intro bindings used results h
    rw [List.map_nil, expand] at h
    cases hleaf : instantiate bindings with
    | error err => simp [hleaf, Except.map] at h
    | ok grounded =>
      obtain rfl : [grounded] = results := by simpa [hleaf, Except.map] using h
      exact .cons hleaf .nil
  | cons t tokens ih =>
    intro bindings used results h
    rw [List.map_cons, expand] at h
    obtain ⟨groups, hgroups, rfl⟩ := exists_of_map_eq_ok h
    rw [List.map_cons, choices, List.flatMap_def]
    refine List.rel_flatten (List.forall₂_map_left_iff.mpr ?_)
    refine (forall₂_of_mapM hgroups).imp fun instanceID group hgroup ↦ ?_
    split at hgroup
    · rename_i hused
      rw [if_pos hused, ← Except.ok.inj hgroup]
      exact .nil
    · rename_i hfree
      rw [if_neg hfree, List.forall₂_map_left_iff]
      exact ih hgroup

end Search

/-! ## The primary binding -/

/-- The head of a sorted list is the least of its elements. -/
theorem head?_insertionSort {α γ : Type} [LinearOrder γ] (key : α → γ) {as : List α} {a : α}
    (h : (as.insertionSort fun a b ↦ key a ≤ key b).head? = some a) :
    a ∈ as ∧ ∀ b ∈ as, key a ≤ key b := by
  have hsorted := List.pairwise_insertionSort (fun a b ↦ key a ≤ key b) as
  have hmem : ∀ b, b ∈ as.insertionSort (fun a b ↦ key a ≤ key b) ↔ b ∈ as :=
    fun b ↦ List.mem_insertionSort _
  obtain ⟨rest, hcons⟩ := List.head?_eq_some_iff.mp h
  rw [hcons] at hsorted hmem
  refine ⟨(hmem a).mp List.mem_cons_self, fun b hb ↦ ?_⟩
  rcases List.mem_cons.mp ((hmem b).mpr hb) with rfl | hb
  · exact le_refl _
  · exact (List.pairwise_cons.mp hsorted).1 b hb

/-- **The primary binding is what the least token is bound to.** -/
theorem primaryBinding_eq {bindings : Bindings} {tokens : List String}
    {f : String → GroundedResource} (htoken : ∀ token, (f token).token = token)
    (hlookup : ∀ token, bindings.lookup token = if token ∈ tokens then some (f token) else none) :
    primaryBinding bindings = ((tokens.insertionSort (· ≤ ·)).head?).map f := by
  have hmem : ∀ binding, binding ∈ bindings.entries.map Sigma.snd ↔
      ∃ token ∈ tokens, binding = f token := by
    intro binding
    rw [List.mem_map]
    constructor
    · rintro ⟨⟨token, _⟩, hentry, rfl⟩
      have := AList.mem_lookup_iff.mpr hentry
      rw [hlookup] at this
      split at this
      · rename_i htoken
        exact ⟨token, htoken, (Option.some.inj this).symm⟩
      · exact absurd this (by simp)
    · rintro ⟨token, htoken, rfl⟩
      refine ⟨⟨token, f token⟩, AList.mem_lookup_iff.mp ?_, rfl⟩
      rw [hlookup, if_pos htoken]
      rfl
  rw [primaryBinding]
  cases hleast : (tokens.insertionSort (· ≤ ·)).head? with
  | none =>
    have htokens : tokens = [] := by
      have := List.head?_eq_none_iff.mp hleast
      rw [← List.length_eq_zero_iff, ← List.length_insertionSort (· ≤ ·), this]
      rfl
    have hnil : bindings.entries.map Sigma.snd = [] := by
      rw [List.eq_nil_iff_forall_not_mem]
      intro binding h
      obtain ⟨_, htoken, -⟩ := (hmem binding).mp h
      rw [htokens] at htoken
      exact List.not_mem_nil htoken
    rw [hnil]
    rfl
  | some least =>
    obtain ⟨hin, hle⟩ := head?_insertionSort id hleast
    cases hprimary : ((bindings.entries.map Sigma.snd).insertionSort
        fun a b ↦ a.token ≤ b.token).head? with
    | none =>
      have := (List.mem_insertionSort (fun a b : GroundedResource ↦ a.token ≤ b.token)).mpr
        ((hmem (f least)).mpr ⟨least, hin, rfl⟩)
      rw [List.head?_eq_none_iff.mp hprimary] at this
      exact absurd this List.not_mem_nil
    | some primary =>
      obtain ⟨hbound, hprimaryLe⟩ := head?_insertionSort GroundedResource.token hprimary
      obtain ⟨token, htokenIn, rfl⟩ := (hmem primary).mp hbound
      have hle' := hprimaryLe (f least) ((hmem (f least)).mpr ⟨least, hin, rfl⟩)
      rw [htoken, htoken] at hle'
      rw [le_antisymm hle' (hle token htokenIn)]
      rfl

/-! ## Grounding one task -/

section Task

variable {order : SubstitutionOrder} {catalog : ResourceCatalog} {agents : List AgentInfo}
  {task : PlanTask}

/-- The choices of instances for the type tokens of a task, in the order of the search. -/
def tokenChoices (catalog : ResourceCatalog) (task : PlanTask) : List (List String) :=
  choices ((typeTokens catalog task).map (instancesFor catalog)) []

theorem mem_tokenChoices {c : List String} :
    c ∈ tokenChoices catalog task ↔ IsTokenChoice catalog task c :=
  mem_choices_nil

theorem IsTokenChoice.length_eq {c : List String} (hc : IsTokenChoice catalog task c) :
    c.length = (typeTokens catalog task).length := by
  rw [hc.mem.length_eq, List.length_map]

theorem mem_typeTokens {token : String} :
    token ∈ typeTokens catalog task ↔
      token ∈ task.requiredResources ∧ IsTypeToken catalog token := by
  rw [typeTokens, List.mem_insertionSort, List.mem_filter, decide_eq_true_eq]

/-- Every token of the task is bound, to what the choice says. -/
theorem lookup_union_fixed {c : List String} (hc : IsTokenChoice catalog task c) {fixed : Bindings}
    (hfixed : ∀ token, fixed.lookup token =
      if token ∈ task.requiredResources ∧ ¬IsTypeToken catalog token then
        some (fixedTo catalog token)
      else none) (token : String) :
    (bindAll catalog (typeTokens catalog task) c ∅ ∪ fixed).lookup token =
      if token ∈ task.requiredResources then some (boundTo catalog task c token) else none := by
  have hbound : (bindAll catalog (typeTokens catalog task) c ∅).lookup token =
      match chosen (typeTokens catalog task) c token with
      | some instanceID => some (boundInstance catalog token instanceID)
      | none => (∅ : Bindings).lookup token := lookup_bindAll
  have hsome : (chosen (typeTokens catalog task) c token).isSome ↔
      token ∈ task.requiredResources ∧ IsTypeToken catalog token := by
    rw [chosen_isSome_iff hc.length_eq, mem_typeTokens]
  cases hchosen : chosen (typeTokens catalog task) c token with
  | some instanceID =>
    rw [hchosen] at hbound hsome
    obtain ⟨hin, htype⟩ := hsome.mp rfl
    have hmem : token ∈ bindAll catalog (typeTokens catalog task) c ∅ := by
      rw [← AList.lookup_isSome, hbound]
      rfl
    rw [AList.lookup_union_left hmem, hbound, if_pos hin, boundTo, if_pos htype, hchosen]
    rfl
  | none =>
    rw [hchosen] at hbound hsome
    have hmem : token ∉ bindAll catalog (typeTokens catalog task) c ∅ := by
      rw [← AList.lookup_eq_none, hbound]
      rfl
    rw [AList.lookup_union_right hmem, hfixed, boundTo]
    by_cases hin : token ∈ task.requiredResources
    · have htype : ¬IsTypeToken catalog token := fun h ↦ absurd (hsome.mpr ⟨hin, h⟩) (by simp)
      simp [hin, htype]
    · simp [hin]

theorem eq_bindResources_of_ok {bindings : Bindings} {grounded : PlanTask}
    (h : instantiateGroundTask order task bindings = .ok grounded) :
    grounded = bindResources order task bindings (primaryBinding bindings) := by
  simp only [instantiateGroundTask] at h
  split at h
  · exact absurd h (by simp)
  · exact (Except.ok.inj h).symm

theorem primaryBinding_union_fixed {c : List String} (hc : IsTokenChoice catalog task c)
    {fixed : Bindings} (hfixed : ∀ token, fixed.lookup token =
      if token ∈ task.requiredResources ∧ ¬IsTypeToken catalog token then
        some (fixedTo catalog token)
      else none) :
    primaryBinding (bindAll catalog (typeTokens catalog task) c ∅ ∪ fixed) =
      primaryFor catalog task c :=
  primaryBinding_eq (token_boundTo catalog task c) (lookup_union_fixed hc hfixed)

/-- The task as it is at the leaf of a choice. -/
def IsLeaf (order : SubstitutionOrder) (catalog : ResourceCatalog) (task : PlanTask)
    (c : List String) (grounded : PlanTask) : Prop :=
  ∃ bindings, grounded = bindResources order task bindings (primaryFor catalog task c)

/-- Every token of the task is bound to what the choice says. -/
def BoundBy (catalog : ResourceCatalog) (task : PlanTask) (c : List String) (bindings : Bindings) :
    Prop :=
  ∀ token, bindings.lookup token =
    if token ∈ task.requiredResources then some (boundTo catalog task c token) else none

/-- The task as it is bound at the leaf of a choice. -/
def IsBoundLeaf (order : SubstitutionOrder) (catalog : ResourceCatalog) (task : PlanTask)
    (c : List String) (grounded : PlanTask) : Prop :=
  ∃ bindings, BoundBy catalog task c bindings ∧
    grounded = bindResources order task bindings (primaryFor catalog task c)

theorem isBoundLeaf_of_ok {c : List String} (hc : IsTokenChoice catalog task c) {fixed : Bindings}
    (hfixed : ∀ token, fixed.lookup token =
      if token ∈ task.requiredResources ∧ ¬IsTypeToken catalog token then
        some (fixedTo catalog token)
      else none) {grounded : PlanTask}
    (h : instantiateGroundTask order task
      (bindAll catalog (typeTokens catalog task) c ∅ ∪ fixed) = .ok grounded) :
    IsBoundLeaf order catalog task c grounded :=
  ⟨_, lookup_union_fixed hc hfixed,
    primaryBinding_union_fixed hc hfixed ▸ eq_bindResources_of_ok h⟩

/-- **A task is grounded by binding its resources in every way there is, and then its agent.** -/
theorem groundTask_bound {resources : List ResourceInfo} (hfiled : catalog.Filed resources)
    {grounded : List PlanTask} (h : groundTask order catalog agents task = .ok grounded) :
    ∃ results, List.Forall₂ (IsBoundLeaf order catalog task) (tokenChoices catalog task) results ∧
      groundTaskByAgent order results agents = .ok grounded := by
  rw [groundTask] at h
  obtain ⟨tokens, htokens, h⟩ := exists_of_bind_eq_ok h
  obtain ⟨hdynamic, hfixed⟩ := foldlM_add_spec hfiled htokens
  rw [List.nil_append] at hdynamic
  split at h
  · rename_i hnone
    obtain ⟨result, hresult, hagents⟩ := exists_of_bind_eq_ok h
    have htypes : typeTokens catalog task = [] := by
      rw [hnone, eq_comm, List.map_eq_nil_iff] at hdynamic
      rw [typeTokens, hdynamic]
      rfl
    have hchoices : tokenChoices catalog task = [[]] := by
      rw [tokenChoices, htypes]
      rfl
    -- the one choice, of no instance at all
    have hc : IsTokenChoice catalog task [] := by
      rw [← mem_tokenChoices, hchoices, List.mem_singleton]
    have hnothing : bindAll catalog (typeTokens catalog task) [] ∅ = ∅ := by
      rw [htypes]
      rfl
    refine ⟨[result], ?_, hagents⟩
    rw [hchoices]
    refine .cons (isBoundLeaf_of_ok hc hfixed ?_) .nil
    rw [hnothing, AList.empty_union]
    exact hresult
  · obtain ⟨results, hresults, hagents⟩ := exists_of_bind_eq_ok h
    have hsorted : tokens.dynamic.insertionSort (fun a b ↦ a.token ≤ b.token) =
        (typeTokens catalog task).map (candidateSet catalog) := by
      rw [hdynamic, typeTokens]
      exact (List.map_insertionSort (· ≤ ·) (fun a b : CandidateSet ↦ a.token ≤ b.token)
        (candidateSet catalog) _ fun _ _ _ _ ↦ Iff.rfl).symm
    rw [hsorted] at hresults
    refine ⟨results, ?_, hagents⟩
    have hleaves := (List.forall₂_and_left _ _).mpr
      ⟨fun c hc ↦ mem_tokenChoices.mp hc, forall₂_of_expand hresults⟩
    exact hleaves.imp fun c result hleaf ↦ isBoundLeaf_of_ok hleaf.1 hfixed hleaf.2

theorem IsBoundLeaf.isLeaf {c : List String} {grounded : PlanTask}
    (h : IsBoundLeaf order catalog task c grounded) : IsLeaf order catalog task c grounded :=
  h.imp fun _ hbound ↦ hbound.2

theorem groundTask_spec {resources : List ResourceInfo} (hfiled : catalog.Filed resources)
    {grounded : List PlanTask} (h : groundTask order catalog agents task = .ok grounded) :
    ∃ results, List.Forall₂ (IsLeaf order catalog task) (tokenChoices catalog task) results ∧
      groundTaskByAgent order results agents = .ok grounded := by
  obtain ⟨results, hleaves, hagents⟩ := groundTask_bound hfiled h
  exact ⟨results, hleaves.imp fun _ _ ↦ IsBoundLeaf.isLeaf, hagents⟩

end Task

end Pddl
end FleetServer
