import FleetServer.Pddl.Types

/-!
# Resource catalog and resource tokens

`buildResourceCatalog` sorts the resources of a problem into types and instances, and
`resolveResourceToken` reads one required-resource token of a task against the catalog.  A map of
the catalog is a function into `Option`; the two maps that are read without a presence test
(`typeCapacity`, `typeInstances`) are total, with the zero value where the key is missing.
-/

set_option autoImplicit false

namespace FleetServer
namespace Pddl

open GoString

structure ResourceCatalog where
  typeByID : String → Option ResourceInfo := fun _ ↦ none
  typeNameToID : String → Option String := fun _ ↦ none
  instanceByID : String → Option ResourceInfo := fun _ ↦ none
  instanceNameToID : String → Option String := fun _ ↦ none
  instanceToType : String → Option String := fun _ ↦ none
  typeCapacity : String → ℕ := fun _ ↦ 0
  typeInstances : String → List String := fun _ ↦ []

/-- The kind of a resolved token: the empty kind of an empty token, `type`, or `instance`. -/
inductive RefKind
  | noRef
  | typeRef
  | instanceRef
  deriving DecidableEq, Repr

structure NormalizedResourceRef where
  kind : RefKind := .noRef
  key : String := ""
  typeKey : String := ""
  deriving DecidableEq, Repr

/-- The loop body of `buildResourceCatalog`. -/
def ResourceCatalog.add (catalog : ResourceCatalog) (resource : ResourceInfo) : ResourceCatalog :=
  if toLower (trimSpace resource.kind) = "type" then
    { catalog with
      typeByID := Function.update catalog.typeByID resource.id (some resource)
      typeNameToID :=
        if resource.name ≠ "" then
          Function.update catalog.typeNameToID resource.name (some resource.id)
        else catalog.typeNameToID }
  else
    let catalog :=
      { catalog with
        instanceByID := Function.update catalog.instanceByID resource.id (some resource)
        instanceNameToID :=
          if resource.name ≠ "" then
            Function.update catalog.instanceNameToID resource.name (some resource.id)
          else catalog.instanceNameToID }
    if resource.parentResourceID ≠ "" then
      let parent := resource.parentResourceID
      { catalog with
        instanceToType := Function.update catalog.instanceToType resource.id (some parent)
        typeCapacity :=
          Function.update catalog.typeCapacity parent (catalog.typeCapacity parent + 1)
        typeInstances :=
          Function.update catalog.typeInstances parent
            (catalog.typeInstances parent ++ [resource.id]) }
    else catalog

def buildResourceCatalog (resources : List ResourceInfo) : ResourceCatalog :=
  resources.foldl ResourceCatalog.add {}

def resolveResourceToken (token : String) (catalog : ResourceCatalog) : NormalizedResourceRef :=
  let trimmed := trimSpace token
  if trimmed = "" then {}
  else if hasPrefix trimmed "type:" then
    let typeID := trimSpace (trimPrefix trimmed "type:")
    { kind := .typeRef, key := typeID, typeKey := typeID }
  else if hasPrefix trimmed "instance:" then
    let instanceID := trimSpace (trimPrefix trimmed "instance:")
    { kind := .instanceRef, key := instanceID
      typeKey := (catalog.instanceToType instanceID).getD "" }
  else match catalog.typeNameToID trimmed with
    | some typeID => { kind := .typeRef, key := typeID, typeKey := typeID }
    | none => match catalog.instanceNameToID trimmed with
      | some instanceID =>
        { kind := .instanceRef, key := instanceID
          typeKey := (catalog.instanceToType instanceID).getD "" }
      | none => { kind := .instanceRef, key := trimmed }

/-! ## What the catalog lists -/

/-- Instances are filed under their own id, and those that are listed under a type are filed. -/
structure ResourceCatalog.Filed (resources : List ResourceInfo) (catalog : ResourceCatalog) :
    Prop where
  filed : ∀ {instanceID : String} {resource : ResourceInfo},
    catalog.instanceByID instanceID = some resource →
      resource ∈ resources ∧ resource.id = instanceID
  listed : ∀ {typeID instanceID : String},
    instanceID ∈ catalog.typeInstances typeID → ∃ resource,
      catalog.instanceByID instanceID = some resource

theorem ResourceCatalog.Filed.add {resources : List ResourceInfo} {catalog : ResourceCatalog}
    (hfiled : catalog.Filed resources) {resource : ResourceInfo} (hmem : resource ∈ resources) :
    (catalog.add resource).Filed resources := by
  have hid : ∀ {instanceID : String} {r : ResourceInfo},
      Function.update catalog.instanceByID resource.id (some resource) instanceID = some r →
        r ∈ resources ∧ r.id = instanceID := by
    intro instanceID r h
    rw [Function.update_apply] at h
    split at h
    · rename_i heq
      rw [← Option.some.inj h]
      exact ⟨hmem, heq.symm⟩
    · exact hfiled.filed h
  have hnew : ∀ instanceID : String, (∃ r, catalog.instanceByID instanceID = some r) →
      ∃ r, Function.update catalog.instanceByID resource.id (some resource) instanceID =
        some r := by
    intro instanceID h
    rw [Function.update_apply]
    split
    · exact ⟨resource, rfl⟩
    · exact h
  rw [ResourceCatalog.add]
  split
  · exact ⟨hfiled.filed, hfiled.listed⟩
  · dsimp only
    split
    · refine ⟨hid, fun {typeID instanceID} h ↦ ?_⟩
      dsimp only at h
      rw [Function.update_apply] at h
      split at h
      · rcases List.mem_append.mp h with h | h
        · exact hnew instanceID (hfiled.listed h)
        · rw [List.mem_singleton.mp h]
          exact ⟨resource, Function.update_self ..⟩
      · exact hnew instanceID (hfiled.listed h)
    · exact ⟨hid, fun h ↦ hnew _ (hfiled.listed h)⟩

theorem filed_buildResourceCatalog (resources : List ResourceInfo) :
    (buildResourceCatalog resources).Filed resources := by
  have hrun : ∀ (added : List ResourceInfo) (catalog : ResourceCatalog),
      catalog.Filed resources → added ⊆ resources →
        (added.foldl ResourceCatalog.add catalog).Filed resources := by
    intro added
    induction added with
    | nil => exact fun _ h _ ↦ h
    | cons resource added ih =>
      intro catalog h hsub
      obtain ⟨hmem, hsub⟩ := List.cons_subset.mp hsub
      rw [List.foldl_cons]
      exact ih (catalog.add resource) (h.add hmem) hsub
  exact hrun resources {} ⟨fun h ↦ absurd h (by simp), fun h ↦ absurd h (by simp)⟩
    (List.Subset.refl resources)

/-- The resource is an instance of the type. -/
def ResourceInfo.isInstanceOf (typeID : String) (resource : ResourceInfo) : Bool :=
  toLower (trimSpace resource.kind) ≠ "type" && resource.parentResourceID ≠ "" &&
    resource.parentResourceID = typeID

theorem typeInstances_add (catalog : ResourceCatalog) (resource : ResourceInfo) (typeID : String) :
    (catalog.add resource).typeInstances typeID =
      catalog.typeInstances typeID ++
        if resource.isInstanceOf typeID then [resource.id] else [] := by
  rw [ResourceCatalog.add, ResourceInfo.isInstanceOf]
  split
  · rename_i htype
    simp [htype]
  · rename_i hinstance
    dsimp only
    split
    · rename_i hparent
      dsimp only
      rw [Function.update_apply]
      by_cases heq : typeID = resource.parentResourceID
      · subst heq
        simp [hinstance, hparent]
      · rw [if_neg heq]
        simp [hinstance, hparent, Ne.symm heq]
    · rename_i horphan
      simp [horphan]

/-- The instances of a type are listed in the order of the resources. -/
theorem typeInstances_buildResourceCatalog (resources : List ResourceInfo) (typeID : String) :
    (buildResourceCatalog resources).typeInstances typeID =
      (resources.filter (ResourceInfo.isInstanceOf typeID)).map ResourceInfo.id := by
  have hrun : ∀ (resources : List ResourceInfo) (catalog : ResourceCatalog),
      (resources.foldl ResourceCatalog.add catalog).typeInstances typeID =
        catalog.typeInstances typeID ++
          (resources.filter (ResourceInfo.isInstanceOf typeID)).map ResourceInfo.id := by
    intro resources
    induction resources with
    | nil => simp
    | cons resource resources ih =>
      intro catalog
      rw [List.foldl_cons, ih, typeInstances_add, List.filter_cons, List.append_assoc]
      split <;> rfl
  exact hrun resources {}

theorem nodup_typeInstances {resources : List ResourceInfo}
    (hids : (resources.map ResourceInfo.id).Nodup) (typeID : String) :
    ((buildResourceCatalog resources).typeInstances typeID).Nodup := by
  rw [typeInstances_buildResourceCatalog]
  exact hids.sublist (List.filter_sublist.map ResourceInfo.id)

/-- Only a blank token refers to nothing. -/
theorem trimSpace_of_noRef {token : String} {catalog : ResourceCatalog}
    (h : (resolveResourceToken token catalog).kind = .noRef) : trimSpace token = "" := by
  by_contra hne
  rw [resolveResourceToken, if_neg hne] at h
  split at h
  · exact absurd h (by simp)
  · split at h
    · exact absurd h (by simp)
    · split at h
      · exact absurd h (by simp)
      · split at h <;> exact absurd h (by simp)

/-- The references of a task's required resources. -/
def PlanTask.refs (task : PlanTask) (catalog : ResourceCatalog) : List NormalizedResourceRef :=
  task.requiredResources.map (resolveResourceToken · catalog)

end Pddl
end FleetServer
