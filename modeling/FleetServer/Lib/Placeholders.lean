import Mathlib.Algebra.Order.BigOperators.Group.List
import Mathlib.Data.List.Sublists
import FleetServer.Lib.GoString

/-!
# Texts with placeholders

A text with placeholders is a list of parts: characters, and placeholders that stand for a value of
a table.  A program that replaces one placeholder after the other reads the text again each time,
with the values it has put in already; what it finds then may not be what the text had.
`ReadOnce table parts` rules that out: whichever placeholders are replaced so far, the others are
found just where they are parts.  Then the order in which they are replaced does not matter, and
each is replaced by its value (`foldl_replaceAll`).
-/

set_option autoImplicit false

namespace Placeholders

open GoString

inductive Part where
  | lit (c : Char)
  | key (name : String)
  deriving DecidableEq, Repr

/-- The values of the placeholders. -/
abbrev Values := List (String × String)

def Part.chars : Part → List Char
  | lit c => [c]
  | key name => name.toList

/-- The text that the parts are the reading of. -/
def text (parts : List Part) : List Char := parts.flatMap Part.chars

/-- The characters a part stands for: a placeholder without a value stands for itself. -/
def Part.value (table : Values) : Part → List Char
  | lit c => [c]
  | key name => ((table.lookup name).getD name).toList

/-- Every placeholder replaced by its value, all at once. -/
def filled (table : Values) (parts : List Part) : List Char := parts.flatMap (Part.value table)

/-! ## Reading a text -/

/-- The parts of a text, from the left.  `skip` characters still belong to the placeholder read
last. -/
def readParts (names : List String) : ℕ → List Char → List Part
  | _, [] => []
  | skip + 1, _ :: rest => readParts names skip rest
  | 0, c :: rest =>
    match names.find? (·.toList.isPrefixOf (c :: rest)) with
    | some name => .key name :: readParts names (name.toList.length - 1) rest
    | none => .lit c :: readParts names 0 rest

theorem text_readParts_drop {names : List String} (hne : "" ∉ names) (s : List Char) :
    ∀ skip, text (readParts names skip s) = s.drop skip := by
  induction s with
  | nil => simp [readParts, text]
  | cons c rest ih =>
    intro skip
    cases skip with
    | succ skip => exact ih skip
    | zero =>
      rw [readParts]
      split
      · rename_i name hfind
        have hstarts := List.find?_some hfind
        have hmem := List.mem_of_find?_eq_some hfind
        obtain ⟨after, hafter⟩ := List.isPrefixOf_iff_prefix.mp hstarts
        cases hname : name.toList with
        | nil => exact absurd (String.toList_eq_nil_iff.mp hname ▸ hmem) hne
        | cons d more =>
          rw [hname, List.cons_append, List.cons.injEq] at hafter
          obtain ⟨rfl, rfl⟩ := hafter
          have hrest := ih more.length
          rw [List.drop_left] at hrest
          show name.toList ++ text (readParts names (more.length + 1 - 1) (more ++ after)) = _
          rw [Nat.add_sub_cancel, hrest, hname]
          rfl
      · show c :: text (readParts names 0 rest) = _
        rw [ih 0]
        rfl

/-- A reading loses nothing. -/
theorem text_readParts {names : List String} (hne : "" ∉ names) (s : List Char) :
    text (readParts names 0 s) = s :=
  text_readParts_drop hne s 0

/-- The placeholders in a reading are those it is made with. -/
theorem mem_names_of_mem_readParts {names : List String} {name : String} {l : List Char} :
    ∀ skip, .key name ∈ readParts names skip l → name ∈ names := by
  induction l with
  | nil => simp [readParts]
  | cons c rest ih =>
    intro skip
    cases skip with
    | succ skip => exact ih skip
    | zero =>
      rw [readParts]
      split
      · rename_i found hfind
        rw [List.mem_cons, Part.key.injEq]
        rintro (rfl | hlater)
        · exact List.mem_of_find?_eq_some hfind
        · exact ih _ hlater
      · rw [List.mem_cons]
        rintro (hlit | hlater)
        · exact absurd hlit (by simp)
        · exact ih 0 hlater

/-! ## Where a word is found -/

/-- The part is the word, or the word does not begin within it. -/
def Part.Avoids (word : String) (rest : List Char) (part : Part) : Prop :=
  part = .key word ∨ ∀ s ∈ part.chars.tails, s ≠ [] → ¬word.toList <+: s ++ rest

instance (word : String) (rest : List Char) (part : Part) : Decidable (part.Avoids word rest) :=
  inferInstanceAs (Decidable (_ ∨ _))

/-- The word is found only where it is a part. -/
def OnlyAsPart (word : String) : List Part → Prop
  | [] => True
  | part :: rest => part.Avoids word (text rest) ∧ OnlyAsPart word rest

instance decidableOnlyAsPart (word : String) :
    (parts : List Part) → Decidable (OnlyAsPart word parts)
  | [] => inferInstanceAs (Decidable True)
  | part :: rest =>
    have := decidableOnlyAsPart word rest
    inferInstanceAs (Decidable (part.Avoids word (text rest) ∧ _))

/-- A word that is found begins in the first piece of a text or is found in the rest. -/
theorem begins_or_infix {word piece rest : List Char} (h : word <:+: piece ++ rest) :
    (∃ s ∈ piece.tails, s ≠ [] ∧ word <+: s ++ rest) ∨ word <:+: rest := by
  induction piece with
  | nil => exact Or.inr h
  | cons c piece ih =>
    rw [List.cons_append, List.infix_cons_iff] at h
    rcases h with hhere | hlater
    · exact Or.inl ⟨c :: piece, by simp, by simp, hhere⟩
    · rcases ih hlater with ⟨s, hs, hbegins⟩ | hrest
      · refine Or.inl ⟨s, ?_, hbegins⟩
        rw [List.mem_tails] at hs ⊢
        exact hs.trans (List.suffix_cons c piece)
      · exact Or.inr hrest

theorem OnlyAsPart.mem_of_infix {word : String} {parts : List Part} (h : OnlyAsPart word parts)
    (hne : word ≠ "") (hfound : word.toList <:+: text parts) : .key word ∈ parts := by
  induction parts with
  | nil =>
    have hnil : word.toList = [] := List.infix_nil.mp hfound
    exact absurd (String.toList_eq_nil_iff.mp hnil) hne
  | cons part rest ih =>
    obtain ⟨rfl | havoids, hrest⟩ := h
    · exact List.mem_cons_self
    · rcases begins_or_infix hfound with ⟨s, hs, hnil, hbegins⟩ | hlater
      · exact absurd hbegins (havoids s hs hnil)
      · exact List.mem_cons_of_mem _ (ih hrest hlater)

theorem infix_text_of_mem {word : String} {parts : List Part} (h : .key word ∈ parts) :
    word.toList <:+: text parts := by
  obtain ⟨before, after, rfl⟩ := List.append_of_mem h
  refine ⟨text before, text after, ?_⟩
  simp [text, Part.chars]

/-- `contains` sees the placeholders of a text. -/
theorem OnlyAsPart.contains_iff_mem {names : List String} {word value : String}
    (h : OnlyAsPart word (readParts names 0 value.toList)) (hnames : "" ∉ names) (hne : word ≠ "") :
    contains value word = true ↔ .key word ∈ readParts names 0 value.toList := by
  rw [contains_iff]
  constructor
  · intro hfound
    exact h.mem_of_infix hne (by rwa [text_readParts hnames])
  · intro hmem
    have hfound := infix_text_of_mem hmem
    rwa [text_readParts hnames] at hfound

/-- A placeholder that is not in a text is not in a reading of it. -/
theorem not_mem_readParts {names : List String} (hnames : "" ∉ names) {word value : String}
    (h : contains value word = false) : .key word ∉ readParts names 0 value.toList := fun hmem ↦ by
  have hfound := infix_text_of_mem hmem
  rw [text_readParts hnames, ← contains_iff, h] at hfound
  exact Bool.false_ne_true hfound

/-! ## Replacing one placeholder -/

/-- What becomes of a part when the placeholders in `done` have been replaced. -/
def Part.fill (table : Values) (done : List String) : Part → List Part
  | lit c => [lit c]
  | key name =>
    if name ∈ done then (table.lookup name).elim [key name] (·.toList.map lit) else [key name]

def fill (table : Values) (done : List String) (parts : List Part) : List Part :=
  parts.flatMap (Part.fill table done)

section Replace

variable {table : Values} {done : List String} {word new : String} {parts : List Part}

theorem text_append (l₁ l₂ : List Part) : text (l₁ ++ l₂) = text l₁ ++ text l₂ :=
  List.flatMap_append

theorem text_map_lit (l : List Char) : text (l.map Part.lit) = l := by
  induction l with
  | nil => rfl
  | cons c l ih => exact congrArg (c :: ·) ih

theorem replaceChars_skip (old new piece rest : List Char) :
    replaceChars old new piece.length (piece ++ rest) = replaceChars old new 0 rest := by
  induction piece with
  | nil => rfl
  | cons c piece ih => exact ih

/-- An occurrence that starts here is replaced. -/
theorem replaceChars_word {old : List Char} (hne : old ≠ []) (new rest : List Char) :
    replaceChars old new 0 (old ++ rest) = new ++ replaceChars old new 0 rest := by
  cases old with
  | nil => exact absurd rfl hne
  | cons c more =>
    have hstarts : (c :: more).isPrefixOf (c :: (more ++ rest)) = true :=
      List.isPrefixOf_iff_prefix.mpr ⟨rest, rfl⟩
    rw [List.cons_append, replaceChars, if_pos hstarts]
    exact congrArg (new ++ ·) (replaceChars_skip (c :: more) new more rest)

/-- A piece within which no occurrence starts is kept. -/
theorem replaceChars_piece {old piece rest : List Char}
    (h : ∀ s ∈ piece.tails, s ≠ [] → ¬old <+: s ++ rest) (new : List Char) :
    replaceChars old new 0 (piece ++ rest) = piece ++ replaceChars old new 0 rest := by
  induction piece with
  | nil => rfl
  | cons c piece ih =>
    have hhere : old.isPrefixOf (c :: (piece ++ rest)) = false := by
      rw [← Bool.not_eq_true, List.isPrefixOf_iff_prefix]
      exact h (c :: piece) (by simp) (by simp)
    have hlater := ih fun s hs ↦ h s ((List.mem_tails _ _).mpr
      (((List.mem_tails _ _).mp hs).trans (List.suffix_cons c piece)))
    rw [List.cons_append, replaceChars, hhere, hlater]
    rfl

/-- A word found only as a part is replaced there, and only there. -/
theorem replaceChars_text (hne : word ≠ "") (h : OnlyAsPart word parts) :
    replaceChars word.toList new.toList 0 (text parts) =
      text (fill [(word, new)] [word] parts) := by
  induction parts with
  | nil => rfl
  | cons part rest ih =>
    obtain ⟨hpart, hrest⟩ := h
    have htext : text (part :: rest) = part.chars ++ text rest := rfl
    have hfill : text (fill [(word, new)] [word] (part :: rest)) =
        text (part.fill [(word, new)] [word]) ++ text (fill [(word, new)] [word] rest) :=
      text_append _ _
    rw [htext, hfill, ← ih hrest]
    by_cases hword : part = .key word
    · rw [hword]
      have hvalue : text (Part.fill [(word, new)] [word] (.key word)) = new.toList := by
        simp [Part.fill, text_map_lit]
      rw [hvalue]
      exact replaceChars_word (fun h ↦ hne (String.toList_eq_nil_iff.mp h)) _ _
    · have hkept : text (part.fill [(word, new)] [word]) = part.chars := by
        cases part with
        | lit c => rfl
        | key name =>
          have hname : name ∉ [word] := by simpa using hword
          simp [Part.fill, hname, text]
      rw [hkept]
      exact replaceChars_piece (hpart.resolve_left hword) new.toList

end Replace

/-! ## Replacing the placeholders of a table -/

/-- No value is read again: whichever placeholders are replaced so far, the others are found only
where they are parts. -/
def ReadOnce (table : Values) (parts : List Part) : Prop :=
  ∀ done ∈ (table.map Prod.fst).sublists, ∀ entry ∈ table, entry.1 ∉ done →
    OnlyAsPart entry.1 (fill table done parts)

instance (table : Values) (parts : List Part) : Decidable (ReadOnce table parts) :=
  inferInstanceAs (Decidable (∀ done ∈ _, ∀ entry ∈ table, _ → _))

section Table

variable {table : Values} {done : List String} {parts : List Part} {entry : String × String}

theorem lookup_eq_none {name : String} (h : name ∉ table.map Prod.fst) :
    table.lookup name = none :=
  List.lookup_eq_none_iff.mpr fun _ hother ↦
    bne_iff_ne.mpr fun heq ↦ h (heq ▸ List.mem_map_of_mem hother)

theorem exists_lookup {name : String} (h : name ∈ table.map Prod.fst) :
    ∃ new, table.lookup name = some new := by
  obtain ⟨other, hother, rfl⟩ := List.mem_map.mp h
  exact Option.isSome_iff_exists.mp (List.lookup_isSome_iff.mpr ⟨other, hother, beq_self_eq_true _⟩)

theorem lookup_eq_some (hkeys : (table.map Prod.fst).Nodup) (hentry : entry ∈ table) :
    table.lookup entry.1 = some entry.2 := by
  obtain ⟨before, after, rfl⟩ := List.append_of_mem hentry
  refine List.lookup_eq_some_iff.mpr ⟨before, after, rfl, fun other hother ↦ bne_iff_ne.mpr ?_⟩
  rw [List.map_append, List.map_cons, List.nodup_middle, List.nodup_cons] at hkeys
  exact fun heq ↦ hkeys.1 (List.mem_append_left _ (heq ▸ List.mem_map_of_mem hother))

/-- What is filled in depends on the set of the placeholders replaced so far. -/
theorem fill_congr {done' : List String}
    (h : ∀ name ∈ table.map Prod.fst, name ∈ done ↔ name ∈ done') :
    fill table done parts = fill table done' parts := by
  refine List.flatMap_congr fun part _ ↦ ?_
  cases part with
  | lit c => rfl
  | key name =>
    by_cases hname : name ∈ table.map Prod.fst
    · simp only [Part.fill, h name hname]
    · have hlookup : table.lookup name = none := lookup_eq_none hname
      simp [Part.fill, hlookup]

@[simp] theorem fill_nil : fill table [] parts = parts := by
  induction parts with
  | nil => rfl
  | cons part rest ih =>
    have hpart : part.fill table [] = [part] := by cases part <;> rfl
    show part.fill table [] ++ fill table [] rest = _
    rw [hpart, ih]
    rfl

theorem ReadOnce.onlyAsPart (h : ReadOnce table parts) (hentry : entry ∈ table)
    (hdone : entry.1 ∉ done) : OnlyAsPart entry.1 (fill table done parts) := by
  have hfill : fill table done parts =
      fill table ((table.map Prod.fst).filter (· ∈ done)) parts :=
    fill_congr fun name hname ↦ by simp only [List.mem_filter, hname, decide_eq_true_eq, true_and]
  rw [hfill]
  refine h _ (List.mem_sublists.mpr List.filter_sublist) entry hentry fun hmem ↦ hdone ?_
  simpa using (List.mem_filter.mp hmem).2

/-- Before anything is replaced. -/
theorem ReadOnce.onlyAsPart_start (h : ReadOnce table parts) (hentry : entry ∈ table) :
    OnlyAsPart entry.1 parts := by
  have hstart := h.onlyAsPart hentry (List.not_mem_nil (a := entry.1))
  rwa [fill_nil] at hstart

theorem text_fill_all : text (fill table (table.map Prod.fst) parts) = filled table parts := by
  rw [text, fill, List.flatMap_assoc]
  refine List.flatMap_congr fun part _ ↦ ?_
  cases part with
  | lit c => rfl
  | key name =>
    show text (Part.fill table _ (.key name)) = _
    by_cases hname : name ∈ table.map Prod.fst
    · obtain ⟨new, hnew⟩ := exists_lookup hname
      simp [Part.fill, Part.value, hname, hnew, text_map_lit]
    · have hlookup : table.lookup name = none := lookup_eq_none hname
      simp [Part.fill, Part.value, hname, hlookup, text, Part.chars]

/-- Replacing one more placeholder. -/
theorem fill_fill (hkeys : (table.map Prod.fst).Nodup) (hentry : entry ∈ table) :
    fill [entry] [entry.1] (fill table done parts) = fill table (entry.1 :: done) parts := by
  rw [fill, fill, List.flatMap_assoc]
  refine List.flatMap_congr fun part _ ↦ ?_
  have hlits (l : List Char) : fill [entry] [entry.1] (l.map Part.lit) = l.map Part.lit := by
    induction l with
    | nil => rfl
    | cons c l ih => exact congrArg (.lit c :: ·) ih
  cases part with
  | lit c => rfl
  | key name =>
    show fill [entry] [entry.1] (Part.fill table done (.key name)) = _
    by_cases hname : name ∈ table.map Prod.fst
    · by_cases hdone : name ∈ done
      · obtain ⟨new, hnew⟩ := exists_lookup hname
        simp [Part.fill, hdone, hnew, hlits]
      · by_cases heq : name = entry.1
        · subst heq
          have hsingle : List.lookup entry.1 [entry] = some entry.2 :=
            lookup_eq_some (List.nodup_singleton _) List.mem_cons_self
          simp [Part.fill, fill, hdone, lookup_eq_some hkeys hentry, hsingle]
        · simp [Part.fill, fill, hdone, heq]
    · have hlookup : table.lookup name = none := lookup_eq_none hname
      have hother : name ≠ entry.1 := fun heq ↦ hname (heq ▸ List.mem_map_of_mem hentry)
      simp [Part.fill, fill, hlookup, hother]

/-- **The order in which the placeholders are replaced does not matter.** -/
theorem foldl_replaceAll (hkeys : (table.map Prod.fst).Nodup) (hne : "" ∉ table.map Prod.fst)
    (h : ReadOnce table parts) {l : Values} (hl : l.Perm table) :
    l.foldl (fun result entry ↦ replaceAll result entry.1 entry.2) (String.ofList (text parts)) =
      String.ofList (filled table parts) := by
  -- `before` is what the loop has replaced already
  have hrun : ∀ after before : Values, (before ++ after).Perm table →
      after.foldl (fun result entry ↦ replaceAll result entry.1 entry.2)
          (String.ofList (text (fill table (before.map Prod.fst) parts))) =
        String.ofList (filled table parts) := by
    intro after
    induction after with
    | nil =>
      intro before hperm
      rw [List.append_nil] at hperm
      rw [List.foldl_nil, ← text_fill_all]
      exact congrArg (String.ofList ∘ text) (fill_congr fun name _ ↦ (hperm.map _).mem_iff)
    | cons entry after ih =>
      intro before hperm
      have hentry : entry ∈ table := hperm.subset (by simp)
      have hdone : entry.1 ∉ before.map Prod.fst := by
        have hnodup := (hperm.map Prod.fst).nodup_iff.mpr hkeys
        rw [List.map_append, List.map_cons, List.nodup_middle, List.nodup_cons] at hnodup
        exact fun hmem ↦ hnodup.1 (List.mem_append_left _ hmem)
      have hword : entry.1 ≠ "" := fun hnil ↦ hne (hnil ▸ List.mem_map_of_mem hentry)
      have hstep : replaceAll (String.ofList (text (fill table (before.map Prod.fst) parts)))
            entry.1 entry.2 =
          String.ofList (text (fill table ((before ++ [entry]).map Prod.fst) parts)) := by
        rw [replaceAll, String.toList_ofList,
          replaceChars_text hword (h.onlyAsPart hentry hdone), fill_fill hkeys hentry]
        refine congrArg (String.ofList ∘ text) (fill_congr fun name _ ↦ ?_)
        simp [or_comm]
      rw [List.foldl_cons, hstep]
      exact ih (before ++ [entry]) (by rwa [List.append_assoc])
  have hstart := hrun l [] hl
  rwa [List.map_nil, fill_nil] at hstart

end Table

/-! ## Plain values

The usual placeholders begin with two opening marks.  Where neither a value nor the rest of the text
has such a mark, nothing is read again. -/

/-- Two marks, and then a word without a mark. -/
def Marked (mark : Char) (name : String) : Prop :=
  name.toList.take 2 = [mark, mark] ∧ name.toList.drop 2 ≠ [] ∧ mark ∉ name.toList.drop 2

instance (mark : Char) (name : String) : Decidable (Marked mark name) :=
  inferInstanceAs (Decidable (_ ∧ _))

/-- A part in which no other placeholder than the word itself begins. -/
def Part.Plain (mark : Char) (word : String) : Part → Prop
  | lit c => c ≠ mark
  | key name => Marked mark name ∧ (name.toList <+: word.toList ∨ word.toList <+: name.toList →
      name = word)

instance (mark : Char) (word : String) : (part : Part) → Decidable (part.Plain mark word)
  | .lit _ => inferInstanceAs (Decidable (_ ≠ _))
  | .key _ => inferInstanceAs (Decidable (_ ∧ (_ → _)))

section Plain

variable {mark : Char} {word : String} {part : Part} {parts : List Part} {table : Values}

theorem Marked.exists_cons {name : String} (h : Marked mark name) :
    ∃ c body, name.toList = mark :: mark :: c :: body ∧ mark ∉ c :: body := by
  obtain ⟨hmarks, hmore, hbody⟩ := h
  obtain ⟨c, body, hdrop⟩ := List.exists_cons_of_ne_nil hmore
  refine ⟨c, body, ?_, hdrop ▸ hbody⟩
  rw [← List.take_append_drop 2 name.toList, hmarks, hdrop]
  rfl

/-- A marked word does not begin where there is no mark. -/
theorem Marked.not_prefix (hword : Marked mark word) {c : Char} (hc : c ≠ mark)
    (rest : List Char) : ¬word.toList <+: c :: rest := by
  obtain ⟨d, body, hbody, -⟩ := hword.exists_cons
  rw [hbody]
  rintro ⟨after, hafter⟩
  exact hc (List.cons.inj hafter).1.symm

theorem Part.Plain.avoids (h : part.Plain mark word) (hword : Marked mark word)
    (rest : List Char) : part.Avoids word rest := by
  cases part with
  | lit c =>
    refine Or.inr fun s hs hnil ↦ ?_
    have hsingle : s = [c] := by
      rcases List.suffix_cons_iff.mp ((List.mem_tails _ _).mp hs) with heq | hnone
      · exact heq
      · exact absurd (List.suffix_nil.mp hnone) hnil
    rw [hsingle]
    exact hword.not_prefix h rest
  | key name =>
    obtain ⟨hname, hfree⟩ := h
    by_cases heq : name = word
    · exact Or.inl (congrArg Part.key heq)
    obtain ⟨c, body, hbody, hmark⟩ := hname.exists_cons
    refine Or.inr fun s hs hnil hbegins ↦ ?_
    have hsuffix : s <:+ mark :: mark :: c :: body := hbody ▸ (List.mem_tails _ _).mp hs
    rcases List.suffix_cons_iff.mp hsuffix with rfl | hsuffix
    · rw [← hbody] at hbegins
      exact heq (hfree (List.prefix_or_prefix_of_prefix (List.prefix_append _ rest) hbegins))
    rcases List.suffix_cons_iff.mp hsuffix with rfl | hsuffix
    · -- the word goes on with its second mark, the name does not
      obtain ⟨d, more, hmore, -⟩ := hword.exists_cons
      rw [hmore, List.cons_append, List.cons_prefix_cons, List.cons_append,
        List.cons_prefix_cons] at hbegins
      exact hmark (hbegins.2.1 ▸ List.mem_cons_self)
    · obtain ⟨d, more, rfl⟩ := List.exists_cons_of_ne_nil hnil
      have hd : d ≠ mark := fun hd ↦ hmark (hd ▸ hsuffix.subset List.mem_cons_self)
      exact hword.not_prefix hd (more ++ rest) hbegins

theorem onlyAsPart_of_plain (hword : Marked mark word)
    (h : ∀ part ∈ parts, part.Plain mark word) : OnlyAsPart word parts := by
  induction parts with
  | nil => trivial
  | cons part rest ih =>
    exact ⟨(h part List.mem_cons_self).avoids hword _,
      ih fun other hother ↦ h other (List.mem_cons_of_mem part hother)⟩

theorem readOnce_of_plain (mark : Char) (hnames : ∀ entry ∈ table, Marked mark entry.1)
    (hvalues : ∀ entry ∈ table, mark ∉ entry.2.toList)
    (hparts : ∀ entry ∈ table, ∀ part ∈ parts, part.Plain mark entry.1) : ReadOnce table parts := by
  intro done _ entry hentry _
  refine onlyAsPart_of_plain (hnames entry hentry) fun part hpart ↦ ?_
  obtain ⟨origin, horigin, hmem⟩ := List.mem_flatMap.mp hpart
  have hplain := hparts entry hentry origin horigin
  cases origin with
  | lit c =>
    rw [List.mem_singleton.mp hmem]
    exact hplain
  | key name =>
    rw [Part.fill] at hmem
    split at hmem
    · cases hlookup : table.lookup name with
      | none =>
        rw [hlookup] at hmem
        rw [List.mem_singleton.mp hmem]
        exact hplain
      | some new =>
        rw [hlookup] at hmem
        obtain ⟨c, hc, rfl⟩ := List.mem_map.mp hmem
        obtain ⟨before, after, htable, -⟩ := List.lookup_eq_some_iff.mp hlookup
        have hnew : (name, new) ∈ table := by simp [htable]
        exact fun hmark ↦ hvalues _ hnew (hmark ▸ hc)
    · rw [List.mem_singleton.mp hmem]
      exact hplain

end Plain

/-! ## Comparing two tables -/

section Compare

variable {α β : Type} {f g : α → List β} {l : List α}

/-- Pieces of the same lengths that join to the same list are the same. -/
theorem eq_of_flatMap_eq (hlength : ∀ a ∈ l, (f a).length = (g a).length)
    (h : l.flatMap f = l.flatMap g) : ∀ a ∈ l, f a = g a := by
  induction l with
  | nil => simp
  | cons a l ih =>
    rw [List.flatMap_cons, List.flatMap_cons] at h
    obtain ⟨hhead, htail⟩ := List.append_inj h (hlength a List.mem_cons_self)
    have hrest := ih (fun b hb ↦ hlength b (List.mem_cons_of_mem a hb)) htail
    intro b hb
    rcases List.mem_cons.mp hb with rfl | hb
    · exact hhead
    · exact hrest b hb

/-- If only one piece is different, its lengths are not. -/
theorem not_length_lt_of_flatMap_eq {b : α} (hother : ∀ a ∈ l, a ≠ b → f a = g a) (hb : b ∈ l)
    (h : l.flatMap f = l.flatMap g) : ¬(f b).length < (g b).length := by
  intro hlt
  have hsum : (l.map fun a ↦ (f a).length).sum < (l.map fun a ↦ (g a).length).sum := by
    refine List.sum_lt_sum _ _ (fun a ha ↦ ?_) ⟨b, hb, hlt⟩
    by_cases hab : a = b
    · exact hab ▸ hlt.le
    · exact (congrArg List.length (hother a ha hab)).le
  have hlength := congrArg List.length h
  rw [List.length_flatMap, List.length_flatMap] at hlength
  exact hsum.ne hlength

end Compare

/-- Two fillings of a text by tables with one value that differs are equal exactly when the text
does not have its placeholder. -/
theorem filled_eq_iff {table table' : Values} {parts : List Part} {word : String}
    (h : ∀ name, .key name ∈ parts → name ≠ word →
      (table.lookup name).getD name = (table'.lookup name).getD name) :
    filled table parts = filled table' parts ↔
      (.key word ∈ parts → (table.lookup word).getD word = (table'.lookup word).getD word) := by
  have hother : ∀ part ∈ parts, part ≠ .key word → part.value table = part.value table' := by
    intro part hpart hne
    cases part with
    | lit c => rfl
    | key name => exact congrArg String.toList (h name hpart fun heq ↦ hne (heq ▸ rfl))
  constructor
  · intro heq hword
    have hle := not_length_lt_of_flatMap_eq hother hword heq
    have hge := not_length_lt_of_flatMap_eq (fun part hpart hne ↦ (hother part hpart hne).symm)
      hword heq.symm
    refine String.toList_inj.mp (eq_of_flatMap_eq (fun part hpart ↦ ?_) heq _ hword)
    by_cases hpart' : part = .key word
    · subst hpart'
      omega
    · exact congrArg List.length (hother part hpart hpart')
  · intro hword
    refine List.flatMap_congr fun part hpart ↦ ?_
    by_cases hpart' : part = .key word
    · subst hpart'
      exact congrArg String.toList (hword hpart)
    · exact hother part hpart hpart'

end Placeholders
