import FleetServer.Lib.Fallible
import FleetServer.State.PlanResources

/-!
# Binding the required resources of a task

`resolveRuntimeBindings` (`internal/executor/runtime_resources.go`) binds the required-resource
tokens of a task one after the other.  A token for a type is bound to the first instance of the type
that is neither held nor bound so far, a token for an instance to that instance, whether or not
something else has it, and every other token to itself.

The bindings are kept by the text of the token, and what is bound in `heldNames`.  So a type that is
required twice is bound twice but listed once, and an instance that an earlier token was given can
be given to its own token again.  `bindings_own_iff` says that nothing else goes wrong.
-/

set_option autoImplicit false

namespace FleetServer
namespace Executor

open Fallible GoString Pddl State

/-! ## The catalog -/

/-- A `TaskDistributorResource`, as far as it is read, is a `ResourceInfo`.  `typeInstances` is read
without a presence test. -/
structure RuntimeResourceCatalog where
  typeByID : String → Option ResourceInfo := fun _ ↦ none
  typeNameToID : String → Option String := fun _ ↦ none
  instanceByID : String → Option ResourceInfo := fun _ ↦ none
  instanceNameToID : String → Option String := fun _ ↦ none
  instanceToType : String → Option String := fun _ ↦ none
  typeInstances : String → List ResourceInfo := fun _ ↦ []

/-- The loop body of `loadRuntimeResourceCatalog`. -/
def RuntimeResourceCatalog.add (catalog : RuntimeResourceCatalog) (resource : ResourceInfo) :
    RuntimeResourceCatalog :=
  if resource.kind = "type" then
    { catalog with
      typeByID := Function.update catalog.typeByID resource.id (some resource)
      typeNameToID := Function.update catalog.typeNameToID resource.name (some resource.id) }
  else
    let catalog :=
      { catalog with
        instanceByID := Function.update catalog.instanceByID resource.id (some resource)
        instanceNameToID :=
          Function.update catalog.instanceNameToID resource.name (some resource.id) }
    if resource.parentResourceID ≠ "" then
      let parent := resource.parentResourceID
      { catalog with
        instanceToType := Function.update catalog.instanceToType resource.id (some parent)
        typeInstances :=
          Function.update catalog.typeInstances parent
            (catalog.typeInstances parent ++ [resource]) }
    else catalog

/-- Without a distributor the catalog is empty. -/
def loadRuntimeResourceCatalog
    (listTaskDistributorResources : String → Except String (List ResourceInfo))
    (distributorID : String) : Except String RuntimeResourceCatalog :=
  let distributorID := trimSpace distributorID
  if distributorID = "" then .ok {}
  else (listTaskDistributorResources distributorID).map (·.foldl RuntimeResourceCatalog.add {})

/-! ## Binding -/

section Code

variable (catalog : RuntimeResourceCatalog)

/-- The type a token stands for; the empty text if it stands for none. -/
def RuntimeResourceCatalog.typeID (token : String) : String :=
  if hasPrefix token "instance:" then ""
  else if hasPrefix token "type:" then trimSpace (trimPrefix token "type:")
  else (catalog.typeNameToID token).getD ""

/-- `heldNames` is the list of the keys of the map. -/
def resolveRuntimeBindingToken (token : String) (heldNames : List String) :
    Except String String :=
  if hasPrefix token "instance:" then
    let instanceID := trimSpace (trimPrefix token "instance:")
    match catalog.instanceByID instanceID with
    | some resource => .ok resource.name
    | none => .error ("unknown instance id " ++ quote instanceID)
  else if catalog.typeID token ≠ "" then
    match (catalog.typeInstances (catalog.typeID token)).find? (·.name ∉ heldNames) with
    | some resource => .ok resource.name
    | none => .error ("no free instance for type " ++ quote token)
  else match catalog.instanceNameToID token with
    | some instanceID => .ok (((catalog.instanceByID instanceID).map (·.name)).getD "")
    | none => .ok token

/-- The loop body of `resolveRuntimeBindings`, over the bindings and `heldNames`. -/
def bindToken (acc : StringMap × List String) (token : String) :
    Except String (StringMap × List String) :=
  let trimmed := trimSpace token
  if trimmed = "" then .ok acc
  else
    (resolveRuntimeBindingToken catalog trimmed acc.2).map fun resourceID ↦
      (acc.1.insert trimmed resourceID, resourceID :: acc.2)

/-- The resources that are not free when the loop begins. -/
def initialHeldNames (currentHolds : List PlanResourceHold) (alreadyReserved : List String) :
    List String :=
  currentHolds.map (·.resourceID) ++ alreadyReserved

/-- `alreadyReserved` is the list of the keys of the map.  The map of no tokens is nil. -/
def resolveRuntimeBindings (requiredTokens : List String) (currentHolds : List PlanResourceHold)
    (alreadyReserved : List String) : Except String (Option StringMap) :=
  if requiredTokens = [] then .ok none
  else
    (requiredTokens.foldlM (bindToken catalog)
      (∅, initialHeldNames currentHolds alreadyReserved)).map fun acc ↦ some acc.1

end Code

/-! ## What one token is bound to -/

section Tokens

variable (catalog : RuntimeResourceCatalog)

/-- The token stands for any one instance of a type. -/
def RuntimeResourceCatalog.IsTypeToken (token : String) : Prop :=
  trimSpace token ≠ "" ∧ catalog.typeID (trimSpace token) ≠ ""

/-- The instances a token that stands for a type ranges over. -/
def RuntimeResourceCatalog.instancesFor (token : String) : List ResourceInfo :=
  catalog.typeInstances (catalog.typeID (trimSpace token))

/-- The resource a token names that stands for no type. -/
def RuntimeResourceCatalog.named (token : String) : Option String :=
  (resolveRuntimeBindingToken catalog (trimSpace token) []).toOption

/-- The first instance for a token that stands for a type, of those that are left. -/
def RuntimeResourceCatalog.firstLeft (taken : List String) (token : String) : Option String :=
  ((catalog.instancesFor token).find? (·.name ∉ taken)).map (·.name)

/-- What is taken once the next token has been served: the first instance that is left of its type,
or what it names. -/
def RuntimeResourceCatalog.take (taken : List String) (token : String) : List String :=
  if trimSpace token = "" then taken
  else if catalog.typeID (trimSpace token) ≠ "" then
    (catalog.firstLeft taken token).toList ++ taken
  else (catalog.named token).toList ++ taken

variable {catalog} {token : String} {heldNames : List String} {resourceID : String}

theorem typeID_of_instance (h : hasPrefix token "instance:" = true) :
    catalog.typeID token = "" := by
  rw [RuntimeResourceCatalog.typeID, if_pos h]

/-- **A token for a type gets the first instance that is left.** -/
theorem resolve_typeToken (htype : catalog.IsTypeToken token) :
    resolveRuntimeBindingToken catalog (trimSpace token) heldNames = .ok resourceID ↔
      catalog.firstLeft heldNames token = some resourceID := by
  have hprefix : ¬hasPrefix (trimSpace token) "instance:" = true :=
    fun h ↦ htype.2 (typeID_of_instance h)
  rw [resolveRuntimeBindingToken, if_neg hprefix, if_pos htype.2,
    RuntimeResourceCatalog.firstLeft, RuntimeResourceCatalog.instancesFor]
  split
  · rename_i resource hfind
    rw [hfind, Option.map_some, Option.some.injEq, Except.ok.injEq]
  · rename_i hfind
    rw [hfind]
    exact ⟨fun h ↦ absurd h (by simp), fun h ↦ absurd h (by simp)⟩

/-- What any other token gets does not depend on what is held. -/
theorem resolve_otherToken (htype : catalog.typeID (trimSpace token) = "") :
    resolveRuntimeBindingToken catalog (trimSpace token) heldNames = .ok resourceID ↔
      catalog.named token = some resourceID := by
  have hsame : resolveRuntimeBindingToken catalog (trimSpace token) heldNames =
      resolveRuntimeBindingToken catalog (trimSpace token) [] := by
    simp only [resolveRuntimeBindingToken, htype, ne_eq, not_true_eq_false, if_false]
  rw [hsame, RuntimeResourceCatalog.named]
  cases resolveRuntimeBindingToken catalog (trimSpace token) [] <;> simp [Except.toOption]

theorem firstLeft_eq_some (h : catalog.firstLeft heldNames token = some resourceID) :
    resourceID ∈ (catalog.instancesFor token).map (·.name) ∧ resourceID ∉ heldNames := by
  obtain ⟨resource, hfind, rfl⟩ := Option.map_eq_some_iff.mp h
  have hleft := List.find?_some hfind
  exact ⟨List.mem_map_of_mem (List.mem_of_find?_eq_some hfind), of_decide_eq_true hleft⟩

end Tokens

/-! ## The loop over the tokens -/

section Loop

variable {catalog : RuntimeResourceCatalog} {tokens before after : List String} {token : String}
  {acc acc' : StringMap × List String} {resourceID : String}

/-- What is taken once some tokens have been served, one after the other. -/
def RuntimeResourceCatalog.takenBy (catalog : RuntimeResourceCatalog) (taken tokens : List String) :
    List String :=
  tokens.foldl catalog.take taken

theorem takenBy_nil (taken : List String) : catalog.takenBy taken [] = taken := rfl

theorem takenBy_cons (taken : List String) (token : String) (tokens : List String) :
    catalog.takenBy taken (token :: tokens) = catalog.takenBy (catalog.take taken token) tokens :=
  List.foldl_cons ..

/-- What a round of the loop does for a token that is not blank. -/
theorem bindToken_eq_ok (hblank : trimSpace token ≠ "")
    (h : bindToken catalog acc token = .ok acc') :
    ∃ resourceID,
      resolveRuntimeBindingToken catalog (trimSpace token) acc.2 = .ok resourceID ∧
        acc' = (acc.1.insert (trimSpace token) resourceID, resourceID :: acc.2) := by
  rw [bindToken, if_neg hblank] at h
  obtain ⟨resourceID, hresolve, rfl⟩ := exists_of_map_eq_ok h
  exact ⟨resourceID, hresolve, rfl⟩

theorem take_eq (h : bindToken catalog acc token = .ok acc') :
    catalog.take acc.2 token = acc'.2 := by
  by_cases hblank : trimSpace token = ""
  · rw [bindToken, if_pos hblank] at h
    rw [RuntimeResourceCatalog.take, if_pos hblank, ← Except.ok.inj h]
  · obtain ⟨resourceID, hresolve, rfl⟩ := bindToken_eq_ok hblank h
    rw [RuntimeResourceCatalog.take, if_neg hblank]
    split
    · rename_i htype
      rw [(resolve_typeToken ⟨hblank, htype⟩).mp hresolve]
      rfl
    · rename_i htype
      rw [(resolve_otherToken (not_not.mp htype)).mp hresolve]
      rfl

/-- What is bound is held, and what is held stays held. -/
structure BindingsHeld (acc acc' : StringMap × List String) : Prop where
  grows : ∀ {resourceID : String}, resourceID ∈ acc.2 → resourceID ∈ acc'.2
  bound : (∀ {t resourceID : String}, acc.1.lookup t = some resourceID → resourceID ∈ acc.2) →
    ∀ {t resourceID : String}, acc'.1.lookup t = some resourceID → resourceID ∈ acc'.2

/-- What the loop makes of the bindings, one text at a time: what it did not meet stays as it was,
and what it met is bound to something that was free for a token of a type and that is named by any
other. -/
structure Binds (catalog : RuntimeResourceCatalog) (tokens : List String)
    (acc acc' : StringMap × List String) : Prop where
  taken : acc'.2 = catalog.takenBy acc.2 tokens
  held : BindingsHeld acc acc'
  other : ∀ {t : String}, (∀ token ∈ tokens, trimSpace token ≠ "" → trimSpace token ≠ t) →
    acc'.1.lookup t = acc.1.lookup t
  met : ∀ token ∈ tokens, trimSpace token ≠ "" → ∃ resourceID,
    acc'.1.lookup (trimSpace token) = some resourceID ∧
      (catalog.typeID (trimSpace token) ≠ "" → resourceID ∉ acc.2) ∧
      (catalog.typeID (trimSpace token) = "" → catalog.named token = some resourceID)

theorem bindsToken (h : bindToken catalog acc token = .ok acc') :
    Binds catalog [token] acc acc' := by
  have htaken : acc'.2 = catalog.takenBy acc.2 [token] := by
    rw [takenBy_cons, takenBy_nil, take_eq h]
  by_cases hblank : trimSpace token = ""
  · rw [bindToken, if_pos hblank] at h
    obtain rfl := Except.ok.inj h
    refine ⟨htaken, ⟨id, fun hbound ↦ hbound⟩, fun _ ↦ rfl, fun t ht hne ↦ ?_⟩
    obtain rfl := List.mem_singleton.mp ht
    exact absurd hblank hne
  · obtain ⟨resourceID, hresolve, rfl⟩ := bindToken_eq_ok hblank h
    refine ⟨htaken, ⟨List.mem_cons_of_mem resourceID, fun hbound {t name} hlookup ↦ ?_⟩,
      fun hother ↦ ?_, fun t ht _ ↦ ?_⟩
    · by_cases heq : t = trimSpace token
      · rw [heq, AList.lookup_insert] at hlookup
        rw [Option.some.inj hlookup]
        exact List.mem_cons_self
      · rw [AList.lookup_insert_ne heq] at hlookup
        exact List.mem_cons_of_mem resourceID (hbound hlookup)
    · have hne := hother token List.mem_cons_self hblank
      exact AList.lookup_insert_ne hne.symm
    · obtain rfl := List.mem_singleton.mp ht
      refine ⟨resourceID, AList.lookup_insert acc.1, fun htype ↦ ?_, fun htype ↦ ?_⟩
      · exact (firstLeft_eq_some ((resolve_typeToken ⟨hblank, htype⟩).mp hresolve)).2
      · exact (resolve_otherToken htype).mp hresolve

/-- **What a run of the loop binds.** -/
theorem binds_of_foldlM : ∀ {tokens : List String} {acc acc' : StringMap × List String},
    tokens.foldlM (bindToken catalog) acc = .ok acc' → Binds catalog tokens acc acc' := by
  intro tokens
  induction tokens with
  | nil =>
    intro acc acc' h
    obtain rfl : acc = acc' := by simpa [pure, Except.pure] using h
    exact ⟨rfl, ⟨id, fun hbound ↦ hbound⟩, fun _ ↦ rfl, fun _ ht ↦ absurd ht List.not_mem_nil⟩
  | cons token tokens ih =>
    intro acc acc' h
    rw [List.foldlM_cons] at h
    obtain ⟨mid, hround, hrest⟩ := exists_of_bind_eq_ok h
    have hfirst := bindsToken hround
    have hlater := ih hrest
    refine ⟨?_, ⟨fun hheld ↦ hlater.held.grows (hfirst.held.grows hheld),
      fun hbound ↦ hlater.held.bound (hfirst.held.bound hbound)⟩, fun hother ↦ ?_,
      fun t ht hblank ↦ ?_⟩
    · rw [hlater.taken, hfirst.taken, takenBy_cons, takenBy_nil, takenBy_cons]
    · rw [hlater.other fun t ht ↦ hother t (List.mem_cons_of_mem token ht),
        hfirst.other fun t ht ↦ hother t (List.mem_singleton.mp ht ▸ List.mem_cons_self)]
    · by_cases hmet : ∃ later ∈ tokens, trimSpace later = trimSpace t
      · obtain ⟨later, hin, heq⟩ := hmet
        obtain ⟨resourceID, hlookup, hfree, hnamed⟩ := hlater.met later hin (heq ▸ hblank)
        rw [heq] at hlookup hfree hnamed
        refine ⟨resourceID, hlookup, fun htype hheld ↦ hfree htype (hfirst.held.grows hheld),
          fun htype ↦ ?_⟩
        rw [← hnamed htype, RuntimeResourceCatalog.named, RuntimeResourceCatalog.named, heq]
      · push Not at hmet
        obtain rfl : t = token := by
          rcases List.mem_cons.mp ht with rfl | hin
          · rfl
          · exact absurd rfl (hmet t hin)
        rw [hlater.other fun later hin _ ↦ hmet later hin]
        exact hfirst.met t List.mem_cons_self hblank

/-- A run of the loop that meets a token for a type on its way. -/
theorem split_of_foldlM (htype : catalog.IsTypeToken token)
    (h : (before ++ token :: after).foldlM (bindToken catalog) acc = .ok acc') :
    ∃ mid resourceID, Binds catalog before acc mid ∧
      catalog.firstLeft (catalog.takenBy acc.2 before) token = some resourceID ∧
      resourceID ∉ mid.2 ∧
      Binds catalog after
        (mid.1.insert (trimSpace token) resourceID, resourceID :: mid.2) acc' := by
  rw [List.foldlM_append] at h
  obtain ⟨mid, hbefore, h⟩ := exists_of_bind_eq_ok h
  rw [List.foldlM_cons] at h
  obtain ⟨next, hround, hafter⟩ := exists_of_bind_eq_ok h
  obtain ⟨resourceID, hresolve, rfl⟩ := bindToken_eq_ok htype.1 hround
  have hbinds := binds_of_foldlM hbefore
  have hfirst := (resolve_typeToken htype).mp hresolve
  exact ⟨mid, resourceID, hbinds, hbinds.taken ▸ hfirst, (firstLeft_eq_some hfirst).2,
    binds_of_foldlM hafter⟩

end Loop

/-! ## When every token has an instance of its own -/

section Own

variable {catalog : RuntimeResourceCatalog} {requiredTokens alreadyReserved : List String}
  {currentHolds : List PlanResourceHold} {bindings : Option StringMap}

/-- Every time a token for a type is listed, it is bound to an instance of the type that is not held
and that no other token of the list is bound to, be it of the same text. -/
def OwnInstances (catalog : RuntimeResourceCatalog) (heldNames requiredTokens : List String)
    (bindings : StringMap) : Prop :=
  ∀ before token after, requiredTokens = before ++ token :: after → catalog.IsTypeToken token →
    ∃ name ∈ (catalog.instancesFor token).map (·.name),
      bindings.lookup (trimSpace token) = some name ∧ name ∉ heldNames ∧
        ∀ other ∈ before ++ after, bindings.lookup (trimSpace other) ≠ some name

/-- No token for a type is listed again later, and no later token names the instance that is the
first one left of that type. -/
def Undisturbed (catalog : RuntimeResourceCatalog) (heldNames requiredTokens : List String) :
    Prop :=
  ∀ before token after, requiredTokens = before ++ token :: after → catalog.IsTypeToken token →
    ∀ later ∈ after, trimSpace later ≠ "" → trimSpace later ≠ trimSpace token ∧
      (catalog.typeID (trimSpace later) = "" → ∀ name,
        catalog.firstLeft (catalog.takenBy heldNames before) token = some name →
          catalog.named later ≠ some name)

theorem ownInstances_of_undisturbed {heldNames : List String} {acc : StringMap × List String}
    (hrun : requiredTokens.foldlM (bindToken catalog) (∅, heldNames) = .ok acc)
    (h : Undisturbed catalog heldNames requiredTokens) :
    OwnInstances catalog heldNames requiredTokens acc.1 := by
  have hall := binds_of_foldlM hrun
  rintro before token after rfl htype
  obtain ⟨mid, name, hbefore, hfirst, hfree, hafter⟩ := split_of_foldlM htype hrun
  have hlater := h before token after rfl htype
  have hkept : acc.1.lookup (trimSpace token) = some name := by
    rw [hafter.other fun later hin hblank ↦ (hlater later hin hblank).1, AList.lookup_insert]
  refine ⟨name, (firstLeft_eq_some hfirst).1, hkept, fun hheld ↦ hfree (hbefore.held.grows hheld),
    fun other hother hsame ↦ ?_⟩
  have hblank : trimSpace other ≠ "" := by
    intro hblank
    rw [hblank, hall.other fun token _ hne ↦ hne] at hsame
    exact absurd hsame (by simp)
  by_cases hmet : ∃ later ∈ after, trimSpace later = trimSpace other
  · -- what comes later finds the instance held, or names another one
    obtain ⟨later, hin, heq⟩ := hmet
    rw [← heq] at hsame hblank
    obtain ⟨name', hlookup, hother, hnamed⟩ := hafter.met later hin hblank
    obtain rfl : name' = name := Option.some.inj (hlookup.symm.trans hsame)
    by_cases htypeID : catalog.typeID (trimSpace later) = ""
    · exact (hlater later hin hblank).2 htypeID name' hfirst (hnamed htypeID)
    · exact hother htypeID List.mem_cons_self
  · -- what came before and not again is held when the token is served
    push Not at hmet
    have hin : other ∈ before := by
      rcases List.mem_append.mp hother with hin | hin
      · exact hin
      · exact absurd rfl (hmet other hin)
    have hne : trimSpace other ≠ trimSpace token := by
      intro heq
      obtain ⟨front, back, rfl⟩ := List.append_of_mem hin
      refine (h front other (back ++ token :: after) (by simp) ?_ token (by simp) htype.1).1
        heq.symm
      rw [RuntimeResourceCatalog.IsTypeToken, heq]
      exact htype
    rw [hafter.other fun later hlater _ ↦ hmet later hlater, AList.lookup_insert_ne hne] at hsame
    exact hfree (hbefore.held.bound (fun h ↦ absurd h (by simp)) hsame)

theorem undisturbed_of_ownInstances {heldNames : List String} {acc : StringMap × List String}
    (hrun : requiredTokens.foldlM (bindToken catalog) (∅, heldNames) = .ok acc)
    (h : OwnInstances catalog heldNames requiredTokens acc.1) :
    Undisturbed catalog heldNames requiredTokens := by
  rintro before token after rfl htype
  obtain ⟨mid, name, hbefore, hfirst, hfree, hafter⟩ := split_of_foldlM htype hrun
  obtain ⟨bound, -, hbound, -, hown⟩ := h before token after rfl htype
  have hone : ∀ later ∈ after, trimSpace later ≠ trimSpace token := by
    intro later hin heq
    exact hown later (List.mem_append_right before hin) (heq ▸ hbound)
  refine fun later hin hblank ↦ ⟨hone later hin, fun htypeID name' hfirst' hnamed ↦ ?_⟩
  obtain rfl : name = name' := Option.some.inj (hfirst.symm.trans hfirst')
  -- the token still has the instance, and so has the later one
  rw [hafter.other fun later hin _ ↦ hone later hin, AList.lookup_insert] at hbound
  obtain ⟨given, hlookup, -, hgiven⟩ := hafter.met later hin hblank
  rw [hgiven htypeID] at hnamed
  refine hown later (List.mem_append_right before hin) ?_
  rw [hlookup, ← hbound, hnamed]

/-- **Every token for a type is bound to an instance of its own** exactly when none is listed again
and none is served with an instance that a later token names. -/
theorem bindings_own_iff
    (h : resolveRuntimeBindings catalog requiredTokens currentHolds alreadyReserved =
      .ok bindings) :
    OwnInstances catalog (initialHeldNames currentHolds alreadyReserved) requiredTokens
        (bindings.getD ∅) ↔
      Undisturbed catalog (initialHeldNames currentHolds alreadyReserved) requiredTokens := by
  rw [resolveRuntimeBindings] at h
  split at h
  · rename_i hnone
    subst hnone
    constructor <;> exact fun _ before token after hsplit ↦ absurd hsplit (by simp)
  · obtain ⟨acc, hrun, rfl⟩ := exists_of_map_eq_ok h
    exact ⟨undisturbed_of_ownInstances hrun, ownInstances_of_undisturbed hrun⟩

end Own

/-! ## A hall with two slots -/

def slotResources : List ResourceInfo :=
  [{ id := "slot", name := "slot", kind := "type", parentResourceID := "" },
    { id := "s1", name := "left", kind := "instance", parentResourceID := "slot" },
    { id := "s2", name := "right", kind := "instance", parentResourceID := "slot" }]

def slotCatalog : RuntimeResourceCatalog := slotResources.foldl RuntimeResourceCatalog.add {}

theorem slot_isTypeToken : slotCatalog.IsTypeToken "type:slot" := ⟨by decide, by decide⟩

theorem slots_undisturbed : Undisturbed slotCatalog [] ["instance:s1", "type:slot"] := by
  intro before token after hsplit htype later hlater
  match before, hsplit with
  | [], hsplit =>
    obtain ⟨rfl, -⟩ := List.cons.inj hsplit
    exact absurd rfl htype.2
  | [_], hsplit =>
    obtain ⟨-, hsplit⟩ := List.cons.inj hsplit
    obtain ⟨-, rfl⟩ := List.cons.inj hsplit
    exact absurd hlater List.not_mem_nil
  | _ :: _ :: rest, hsplit => exact absurd hsplit (by simp)

/-- A task that needs a slot besides the one it names. -/
theorem slots_own :
    OwnInstances slotCatalog [] ["instance:s1", "type:slot"]
      (((∅ : StringMap).insert "instance:s1" "left").insert "type:slot" "right") :=
  (bindings_own_iff (show resolveRuntimeBindings slotCatalog ["instance:s1", "type:slot"] [] [] =
    .ok (some _) from rfl)).mpr slots_undisturbed

/-- A task that needs two slots gets one, as a task does that needs a slot and names the first. -/
theorem slots_shared :
    resolveRuntimeBindings slotCatalog ["type:slot", "type:slot"] [] [] =
        .ok (some ((∅ : StringMap).insert "type:slot" "right")) ∧
      resolveRuntimeBindings slotCatalog ["type:slot", "instance:s1"] [] [] =
        .ok (some (((∅ : StringMap).insert "type:slot" "left").insert "instance:s1" "left")) ∧
      ¬OwnInstances slotCatalog [] ["type:slot", "type:slot"]
        ((∅ : StringMap).insert "type:slot" "right") ∧
      ¬OwnInstances slotCatalog [] ["type:slot", "instance:s1"]
        (((∅ : StringMap).insert "type:slot" "left").insert "instance:s1" "left") := by
  refine ⟨rfl, rfl, fun h ↦ ?_, fun h ↦ ?_⟩
  · obtain ⟨name, -, hbound, -, hown⟩ := h [] "type:slot" ["type:slot"] rfl slot_isTypeToken
    exact hown "type:slot" (by simp) hbound
  · obtain ⟨name, -, hbound, -, hown⟩ := h [] "type:slot" ["instance:s1"] rfl slot_isTypeToken
    obtain rfl : "left" = name := Option.some.inj hbound
    exact hown "instance:s1" (by simp) rfl

end Executor
end FleetServer
