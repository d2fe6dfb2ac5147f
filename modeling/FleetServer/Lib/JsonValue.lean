import Mathlib.Data.Rat.Defs
import Mathlib.Logic.Function.Basic

/-!
# JSON values

A JSON value, with an object given by what it has under each key: two objects are equal if they have
the same members, in whatever order they are written.  An object is changed key by key.
-/

set_option autoImplicit false

inductive JsonValue where
  | null
  | bool (b : Bool)
  | number (v : ℚ)
  | string (s : String)
  | array (items : List JsonValue)
  | object (members : String → Option JsonValue)

/-- What an object has under its keys. -/
abbrev JsonObject := String → Option JsonValue

def JsonValue.asObject : JsonValue → Option JsonObject
  | .object members => some members
  | _ => none

namespace JsonObject

variable {m : JsonObject} {key k : String} {v : JsonValue}

/-- What is read under a key; a missing key is read as a null. -/
def read (m : JsonObject) (key : String) : JsonValue := (m key).getD .null

def set (m : JsonObject) (key : String) (v : JsonValue) : JsonObject :=
  Function.update m key (some v)

def delete (m : JsonObject) (key : String) : JsonObject := Function.update m key none

/-- A member is moved to another key, over what is there. -/
def move (m : JsonObject) (source target : String) : JsonObject :=
  match m source with
  | some v => delete (set m target v) source
  | none => m

/-- The moves of several members, one after the other. -/
def moveAll (moves : List (String × String)) (m : JsonObject) : JsonObject :=
  moves.foldl (fun m pair ↦ move m pair.1 pair.2) m

/-- A member is rewritten, if it is there. -/
def mapMember (m : JsonObject) (key : String) (f : JsonValue → JsonValue) : JsonObject :=
  match m key with
  | some v => set m key (f v)
  | none => m

/-- A member that is a text is rewritten. -/
def mapString (m : JsonObject) (key : String) (f : String → String) : JsonObject :=
  match m key with
  | some (.string s) => set m key (.string (f s))
  | _ => m

@[simp] theorem set_self (m : JsonObject) (key : String) (v : JsonValue) :
    set m key v key = some v :=
  Function.update_self ..

@[simp] theorem set_of_ne (h : k ≠ key) : set m key v k = m k := Function.update_of_ne h ..

@[simp] theorem delete_self (m : JsonObject) (key : String) : delete m key key = none :=
  Function.update_self ..

@[simp] theorem delete_of_ne (h : k ≠ key) : delete m key k = m k := Function.update_of_ne h ..

theorem read_eq (h : m key = some v) : read m key = v := by rw [read, h, Option.getD_some]

theorem read_eq_null (h : m key = none) : read m key = .null := by rw [read, h, Option.getD_none]

/-- Writing what is there changes nothing. -/
theorem set_eq_self (h : m key = some v) : set m key v = m := by
  rw [set, ← h, Function.update_eq_self]

theorem delete_eq_self (h : m key = none) : delete m key = m := by
  rw [delete, ← h, Function.update_eq_self]

theorem move_eq_self {target : String} (h : m key = none) : move m key target = m := by
  rw [move, h]

@[simp] theorem move_self (m : JsonObject) {source target : String} :
    move m source target source = none := by
  cases h : m source with
  | none => simp only [move, h]
  | some v => simp only [move, h, delete_self]

theorem move_of_ne {source target : String} (hsource : k ≠ source) (htarget : k ≠ target) :
    move m source target k = m k := by
  cases h : m source with
  | none => simp only [move, h]
  | some v => simp only [move, h, delete_of_ne hsource, set_of_ne htarget]

theorem moveAll_of_none {moves : List (String × String)} (h : m k = none)
    (htarget : ∀ pair ∈ moves, k ≠ pair.2) : moveAll moves m k = none := by
  induction moves generalizing m with
  | nil => exact h
  | cons pair moves ih =>
    refine ih ?_ fun other hother ↦ htarget other (List.mem_cons_of_mem pair hother)
    show move m pair.1 pair.2 k = none
    by_cases hsource : k = pair.1
    · rw [hsource]
      exact move_self m
    · rw [move_of_ne hsource (htarget pair List.mem_cons_self), h]

/-- Members that are moved to keys that are not moved themselves are gone. -/
theorem moveAll_source {moves : List (String × String)}
    (h : ∀ pair ∈ moves, ∀ other ∈ moves, pair.1 ≠ other.2) (m : JsonObject) :
    ∀ pair ∈ moves, moveAll moves m pair.1 = none := by
  induction moves generalizing m with
  | nil => simp
  | cons first moves ih =>
    have hrest := ih (fun pair hpair other hother ↦
      h pair (List.mem_cons_of_mem first hpair) other (List.mem_cons_of_mem first hother))
    intro pair hpair
    show moveAll moves (move m first.1 first.2) pair.1 = none
    rcases List.mem_cons.mp hpair with hfirst | hpair
    · rw [hfirst]
      exact moveAll_of_none (move_self m) fun other hother ↦
        h first List.mem_cons_self other (List.mem_cons_of_mem first hother)
    · exact hrest _ pair hpair

theorem moveAll_eq_self {moves : List (String × String)} (h : ∀ pair ∈ moves, m pair.1 = none) :
    moveAll moves m = m := by
  induction moves with
  | nil => rfl
  | cons first moves ih =>
    show moveAll moves (move m first.1 first.2) = m
    rw [move_eq_self (h first List.mem_cons_self)]
    exact ih fun pair hpair ↦ h pair (List.mem_cons_of_mem first hpair)

theorem mapMember_of_ne (h : k ≠ key) (f : JsonValue → JsonValue) : mapMember m key f k = m k := by
  cases hm : m key with
  | none => simp only [mapMember, hm]
  | some w => simp only [mapMember, hm, set_of_ne h]

@[simp] theorem mapMember_self (m : JsonObject) (key : String) (f : JsonValue → JsonValue) :
    mapMember m key f key = (m key).map f := by
  cases hm : m key with
  | none => simp only [mapMember, hm, Option.map_none]
  | some w => simp only [mapMember, hm, set_self, Option.map_some]

theorem mapMember_eq_self {f : JsonValue → JsonValue} (h : ∀ w, m key = some w → f w = w) :
    mapMember m key f = m := by
  cases hm : m key with
  | none => simp only [mapMember, hm]
  | some w =>
    simp only [mapMember, hm]
    exact set_eq_self (by rw [hm, h w hm])

theorem mapString_of_ne (h : k ≠ key) (f : String → String) : mapString m key f k = m k := by
  rw [mapString]
  cases m key with
  | none => rfl
  | some v =>
    cases v with
    | string s => exact set_of_ne h
    | _ => rfl

theorem mapString_eq_self {f : String → String} (h : ∀ s, m key = some (.string s) → f s = s) :
    mapString m key f = m := by
  cases hm : m key with
  | none => simp only [mapString, hm]
  | some v =>
    cases v with
    | string s =>
      simp only [mapString, hm]
      exact set_eq_self (by rw [hm, h s hm])
    | _ => simp only [mapString, hm]

/-- A text that has been rewritten is a value of the function. -/
theorem exists_of_mapString {f : String → String} {s : String}
    (h : mapString m key f key = some (.string s)) : ∃ t, f t = s := by
  cases hm : m key with
  | none => simp [mapString, hm] at h
  | some v =>
    cases v with
    | string t => exact ⟨t, by simpa [mapString, hm] using h⟩
    | _ => simp [mapString, hm] at h

/-! ## Several members -/

/-- The members under some keys are rewritten, one after the other. -/
def mapMembers (m : JsonObject) (keys : List String) (f : JsonValue → JsonValue) : JsonObject :=
  keys.foldl (fun m key ↦ mapMember m key f) m

theorem mapMembers_of_notMem {keys : List String} (h : k ∉ keys) (m : JsonObject)
    (f : JsonValue → JsonValue) : mapMembers m keys f k = m k := by
  induction keys generalizing m with
  | nil => rfl
  | cons key keys ih =>
    rw [List.mem_cons, not_or] at h
    show mapMembers (mapMember m key f) keys f k = m k
    rw [ih h.2, mapMember_of_ne h.1]

/-- Each of the members is rewritten once. -/
theorem mapMembers_of_mem {keys : List String} (hnodup : keys.Nodup) (h : k ∈ keys)
    (m : JsonObject) (f : JsonValue → JsonValue) : mapMembers m keys f k = (m k).map f := by
  induction keys generalizing m with
  | nil => cases h
  | cons key keys ih =>
    obtain ⟨hkey, hkeys⟩ := List.nodup_cons.mp hnodup
    show mapMembers (mapMember m key f) keys f k = (m k).map f
    rcases List.mem_cons.mp h with rfl | hmem
    · rw [mapMembers_of_notMem hkey, mapMember_self]
    · have hne : k ≠ key := fun heq ↦ hkey (heq ▸ hmem)
      rw [ih hkeys hmem, mapMember_of_ne hne]

/-! ## Functions of some of the keys -/

/-- The same members under some keys. -/
def AgreeOn (keys : List String) (m m' : JsonObject) : Prop := ∀ k ∈ keys, m k = m' k

/-- A function that reads and changes nothing but what is under some keys. -/
structure LocalTo (keys : List String) (f : JsonObject → JsonObject) : Prop where
  frame : ∀ m, ∀ k ∉ keys, f m k = m k
  congr : ∀ m m', AgreeOn keys m m' → AgreeOn keys (f m) (f m')

section Local

variable {keys keys' : List String} {m' : JsonObject} {f g : JsonObject → JsonObject}

theorem AgreeOn.set (h : AgreeOn keys m m') (key : String) (v : JsonValue) :
    AgreeOn keys (set m key v) (set m' key v) := by
  intro k hk
  by_cases hkey : k = key
  · rw [hkey, set_self, set_self]
  · rw [set_of_ne hkey, set_of_ne hkey, h k hk]

theorem AgreeOn.delete (h : AgreeOn keys m m') (key : String) :
    AgreeOn keys (delete m key) (delete m' key) := by
  intro k hk
  by_cases hkey : k = key
  · rw [hkey, delete_self, delete_self]
  · rw [delete_of_ne hkey, delete_of_ne hkey, h k hk]

theorem AgreeOn.read_eq (h : AgreeOn keys m m') (hkey : key ∈ keys) : read m key = read m' key := by
  rw [read, read, h key hkey]

/-- Functions of different keys can be applied in either order. -/
theorem LocalTo.comm (hf : LocalTo keys f) (hg : LocalTo keys' g) (h : keys.Disjoint keys')
    (m : JsonObject) : f (g m) = g (f m) := by
  have hfg : AgreeOn keys (g m) m := fun k hk ↦ hg.frame m k (h hk)
  have hgf : AgreeOn keys' (f m) m := fun k hk ↦ hf.frame m k fun hkeys ↦ h hkeys hk
  funext k
  by_cases hk : k ∈ keys
  · rw [hf.congr _ _ hfg k hk, hg.frame (f m) k (h hk)]
  · rw [hf.frame (g m) k hk]
    by_cases hk' : k ∈ keys'
    · exact (hg.congr _ _ hgf k hk').symm
    · rw [hg.frame m k hk', hg.frame (f m) k hk', hf.frame m k hk]

/-- A function of some of the keys that changes nothing more when it is applied again. -/
structure Rewrite where
  keys : List String
  run : JsonObject → JsonObject
  isLocal : LocalTo keys run
  idem : ∀ m, run (run m) = run m

/-- One rewrite after the other. -/
def applyAll (rewrites : List Rewrite) (m : JsonObject) : JsonObject :=
  rewrites.foldl (fun m rewrite ↦ rewrite.run m) m

theorem applyAll_comm {rewrite : Rewrite} {rewrites : List Rewrite}
    (h : ∀ other ∈ rewrites, rewrite.keys.Disjoint other.keys) (m : JsonObject) :
    applyAll rewrites (rewrite.run m) = rewrite.run (applyAll rewrites m) := by
  induction rewrites generalizing m with
  | nil => rfl
  | cons first rest ih =>
    show applyAll rest (first.run (rewrite.run m)) =
      rewrite.run (applyAll rest (first.run m))
    rw [← rewrite.isLocal.comm first.isLocal (h first List.mem_cons_self) m]
    exact ih (fun other hother ↦ h other (List.mem_cons_of_mem first hother)) _

/-- Rewrites of different keys change nothing more when all of them are applied again. -/
theorem applyAll_idem {rewrites : List Rewrite} (h : (rewrites.flatMap Rewrite.keys).Nodup)
    (m : JsonObject) : applyAll rewrites (applyAll rewrites m) = applyAll rewrites m := by
  induction rewrites generalizing m with
  | nil => rfl
  | cons first rest ih =>
    rw [List.flatMap_cons, List.nodup_append] at h
    obtain ⟨-, hrest, hfirst⟩ := h
    have hdisjoint : ∀ other ∈ rest, first.keys.Disjoint other.keys := fun other hother k hk hk' ↦
      hfirst k hk k (List.mem_flatMap.mpr ⟨other, hother, hk'⟩) rfl
    calc applyAll rest (first.run (applyAll rest (first.run m)))
        = applyAll rest (applyAll rest (first.run (first.run m))) := by
          rw [← applyAll_comm hdisjoint (first.run m)]
      _ = applyAll rest (first.run m) := by rw [first.idem, ih hrest]

end Local

end JsonObject
