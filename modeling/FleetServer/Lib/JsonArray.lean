import FleetServer.Lib.JsonText
import FleetServer.Lib.Placeholders

/-!
# JSON arrays of strings as text

A program that keeps an array of strings as its JSON text may look for one of them, or put another
in its place, without reading the array: it looks for the text of the string with its quotes.  That
goes wrong where a quote does not begin or end a string of the array, as inside `"a\"b"`, or where
what stands between two strings of the array is taken for one, as in `"a","b"`.  Where neither can
happen the text is found if and only if the string is in the array (`infix_array_iff`), and is
replaced where the string is and nowhere else (`replaceChars_array`).
-/

set_option autoImplicit false

namespace JsonText

open GoString

/-- The other strings of an array, and its end. -/
def moreStrings : List String → List Char
  | [] => [']']
  | s :: ss => ',' :: string s ++ moreStrings ss

/-- The text of an array of strings. -/
def array : List String → List Char
  | [] => ['[', ']']
  | s :: ss => '[' :: string s ++ moreStrings ss

/-- The string is written as it is. -/
def Plain (s : String) : Prop := ∀ c ∈ s.toList, escapeChar c = [c]

instance (s : String) : Decidable (Plain s) :=
  List.decidableBAll (fun c ↦ escapeChar c = [c]) s.toList

theorem Plain.flatMap_escapeChar {s : String} (h : Plain s) :
    s.toList.flatMap escapeChar = s.toList := by
  rw [List.flatMap_congr h, List.flatMap_singleton']

theorem Plain.string_eq {s : String} (h : Plain s) : string s = '"' :: (s.toList ++ ['"']) := by
  rw [string, h.flatMap_escapeChar]

/-- Only the text of a quote has a quote. -/
theorem quote_notMem_escapeChar {c : Char} (hc : c ≠ '"') : '"' ∉ escapeChar c := by
  have hletters : ∀ p ∈ shortEscapes, p.1 ≠ '"' → p.2 ≠ '"' := by decide
  have hdigits : ∀ n < 16, Nat.digitChar n ≠ '"' := by decide
  rcases escapeChar_cases c with ⟨letter, hmem, heq⟩ | ⟨-, heq⟩ | ⟨-, -, heq⟩
  · rw [heq]
    have hletter := hletters _ hmem hc
    simp only [List.mem_cons, List.not_mem_nil, or_false, not_or]
    exact ⟨by decide, fun h ↦ hletter h.symm⟩
  · rw [heq]
    have hdigit : ∀ n, hexDigit n ≠ '"' := fun n ↦ hdigits _ (Nat.mod_lt n (by decide))
    simp only [hexDigits, List.mem_cons, List.not_mem_nil, or_false, not_or]
    exact ⟨by decide, by decide, (hdigit _).symm, (hdigit _).symm, (hdigit _).symm,
      (hdigit _).symm⟩
  · rw [heq, List.mem_singleton]
    exact fun h ↦ hc h.symm

theorem quote_notMem_chars {s : String} (hs : '"' ∉ s.toList) :
    '"' ∉ s.toList.flatMap escapeChar := by
  intro hmem
  obtain ⟨c, hc, hquote⟩ := List.mem_flatMap.mp hmem
  exact quote_notMem_escapeChar (fun h ↦ hs (h ▸ hc)) hquote

theorem Plain.quote_notMem {s : String} (h : Plain s) : '"' ∉ s.toList := by
  intro hmem
  have hquote := h _ hmem
  revert hquote
  decide

/-- What stands before the first quote of a text. -/
theorem eq_of_prefix_quote {p q rest : List Char} (hp : '"' ∉ p) (hq : '"' ∉ q)
    (h : p ++ ['"'] <+: q ++ '"' :: rest) : p = q := by
  induction p generalizing q with
  | nil =>
    cases q with
    | nil => rfl
    | cons d q =>
      obtain ⟨rfl, -⟩ := List.cons_prefix_cons.mp h
      exact absurd List.mem_cons_self hq
  | cons c p ih =>
    cases q with
    | nil =>
      obtain ⟨rfl, -⟩ := List.cons_prefix_cons.mp h
      exact absurd List.mem_cons_self hp
    | cons d q =>
      obtain ⟨rfl, hrest⟩ := List.cons_prefix_cons.mp h
      rw [ih (fun h ↦ hp (List.mem_cons_of_mem _ h)) (fun h ↦ hq (List.mem_cons_of_mem _ h))
        hrest]

/-! ## Where a string is found -/

section Search

variable {word s : String} {ss : List String}

/-- From the end of a string on there is only the text between two strings. -/
theorem not_prefix_moreStrings (hword : '"' ∉ word.toList) (hcomma : word ≠ ",")
    (ss : List String) : ¬word.toList ++ ['"'] <+: moreStrings ss := by
  cases ss with
  | nil =>
    intro h
    have hmem : '"' ∈ [']'] := h.subset (List.mem_append_right _ (List.mem_singleton_self _))
    revert hmem
    decide
  | cons s ss =>
    intro h
    have hprefix : word.toList ++ ['"'] <+:
        [','] ++ '"' :: (s.toList.flatMap escapeChar ++ ['"'] ++ moreStrings ss) := h
    have heq := eq_of_prefix_quote hword (by decide) hprefix
    exact hcomma (String.toList_inj.mp heq)

/-- In the text of another string the word does not begin, nor at its end. -/
theorem not_prefix_string (hword : Plain word) (hcomma : word ≠ ",") (hs : '"' ∉ s.toList)
    (hne : s ≠ word) {t : List Char} (ht : t <:+ string s) (htne : t ≠ []) :
    ¬string word <+: t ++ moreStrings ss := by
  have hquote := hword.quote_notMem
  have hchars := quote_notMem_chars hs
  rw [hword.string_eq]
  rw [string, List.suffix_cons_iff] at ht
  rcases ht with rfl | ht
  · intro h
    rw [List.cons_append, List.append_assoc, List.singleton_append] at h
    have heq := eq_of_prefix_quote hquote hchars (List.cons_prefix_cons.mp h).2
    rw [← hword.flatMap_escapeChar] at heq
    have hends : word.toList.flatMap escapeChar ++ ['"'] = s.toList.flatMap escapeChar ++ ['"'] :=
      congrArg (· ++ ['"']) heq
    exact hne (String.toList_inj.mp (chars_append_inj hends).1.symm)
  · rcases List.suffix_concat_iff.mp ht with rfl | ⟨u, rfl, hu⟩
    · exact absurd rfl htne
    · intro h
      cases u with
      | nil => exact not_prefix_moreStrings hquote hcomma ss (List.cons_prefix_cons.mp h).2
      | cons c u =>
        obtain ⟨rfl, -⟩ := List.cons_prefix_cons.mp h
        exact hchars (hu.subset List.mem_cons_self)

theorem not_prefix_mark {mark : Char} (hmark : mark ≠ '"') (rest : List Char) :
    ∀ t ∈ [mark].tails, t ≠ [] → ¬string word <+: t ++ rest := by
  intro t ht htne h
  rcases List.suffix_cons_iff.mp ((List.mem_tails _ _).mp ht) with rfl | ht
  · exact hmark (List.cons_prefix_cons.mp h).1.symm
  · exact htne (List.suffix_nil.mp ht)

/-- Neither does it begin at the mark before a string. -/
theorem not_prefix_marked (hword : Plain word) (hcomma : word ≠ ",") (hs : '"' ∉ s.toList)
    (hne : s ≠ word) {mark : Char} (hmark : mark ≠ '"') :
    ∀ t ∈ (mark :: string s).tails, t ≠ [] → ¬string word <+: t ++ moreStrings ss := by
  intro t ht htne
  rcases List.suffix_cons_iff.mp ((List.mem_tails _ _).mp ht) with rfl | ht
  · intro h
    exact hmark (List.cons_prefix_cons.mp h).1.symm
  · exact not_prefix_string hword hcomma hs hne ht htne

theorem infix_marked_iff (hword : Plain word) (hcomma : word ≠ ",") (hs : '"' ∉ s.toList)
    {mark : Char} (hmark : mark ≠ '"') :
    string word <:+: mark :: string s ++ moreStrings ss ↔
      word = s ∨ string word <:+: moreStrings ss := by
  constructor
  · intro h
    by_cases hne : s = word
    · exact .inl hne.symm
    · refine .inr ((Placeholders.begins_or_infix h).resolve_left ?_)
      rintro ⟨t, ht, htne, hbegins⟩
      exact not_prefix_marked hword hcomma hs hne hmark t ht htne hbegins
  · rintro (rfl | h)
    · exact ⟨[mark], moreStrings ss, rfl⟩
    · exact h.trans (List.suffix_append _ _).isInfix

theorem infix_moreStrings_iff (hword : Plain word) (hcomma : word ≠ ",")
    (hss : ∀ s ∈ ss, '"' ∉ s.toList) : string word <:+: moreStrings ss ↔ word ∈ ss := by
  induction ss with
  | nil =>
    refine iff_of_false (fun h ↦ ?_) (List.not_mem_nil)
    have hmem : '"' ∈ [']'] := h.subset List.mem_cons_self
    revert hmem
    decide
  | cons s ss ih =>
    rw [List.forall_mem_cons] at hss
    rw [moreStrings, infix_marked_iff hword hcomma hss.1 (by decide), ih hss.2, List.mem_cons]

/-- **The text is found if and only if the string is in the array.** -/
theorem infix_array_iff (hword : Plain word) (hcomma : word ≠ ",")
    (hss : ∀ s ∈ ss, '"' ∉ s.toList) : string word <:+: array ss ↔ word ∈ ss := by
  cases ss with
  | nil =>
    refine iff_of_false (fun h ↦ ?_) (List.not_mem_nil)
    have hmem : '"' ∈ ['[', ']'] := h.subset List.mem_cons_self
    revert hmem
    decide
  | cons s ss =>
    rw [List.forall_mem_cons] at hss
    rw [array, infix_marked_iff hword hcomma hss.1 (by decide),
      infix_moreStrings_iff hword hcomma hss.2, List.mem_cons]

/-- One string for another. -/
def swap (word word' s : String) : String := if s = word then word' else s

theorem replaceChars_marked (hword : Plain word) (hcomma : word ≠ ",") (hs : '"' ∉ s.toList)
    {mark : Char} (hmark : mark ≠ '"') (word' : String) :
    replaceChars (string word) (string word') 0 (mark :: string s ++ moreStrings ss) =
      mark :: string (swap word word' s) ++
        replaceChars (string word) (string word') 0 (moreStrings ss) := by
  by_cases hne : s = word
  · subst hne
    have hne : string s ≠ [] := List.cons_ne_nil _ _
    rw [swap, if_pos rfl, List.cons_append, ← List.singleton_append,
      Placeholders.replaceChars_piece (not_prefix_mark hmark _),
      Placeholders.replaceChars_word hne]
    rfl
  · rw [swap, if_neg hne]
    exact Placeholders.replaceChars_piece (not_prefix_marked hword hcomma hs hne hmark) _

theorem replaceChars_moreStrings (hword : Plain word) (hcomma : word ≠ ",")
    (hss : ∀ s ∈ ss, '"' ∉ s.toList) (word' : String) :
    replaceChars (string word) (string word') 0 (moreStrings ss) =
      moreStrings (ss.map (swap word word')) := by
  induction ss with
  | nil => exact Placeholders.replaceChars_piece (not_prefix_mark (by decide) []) _
  | cons s ss ih =>
    rw [List.forall_mem_cons] at hss
    rw [moreStrings, replaceChars_marked hword hcomma hss.1 (by decide), ih hss.2]
    rfl

/-- **The text is replaced where the string is in the array and nowhere else.** -/
theorem replaceChars_array (hword : Plain word) (hcomma : word ≠ ",")
    (hss : ∀ s ∈ ss, '"' ∉ s.toList) (word' : String) :
    replaceChars (string word) (string word') 0 (array ss) =
      array (ss.map (swap word word')) := by
  cases ss with
  | nil =>
    have hopen : replaceChars (string word) (string word') 0 (['['] ++ [']']) =
        ['['] ++ replaceChars (string word) (string word') 0 ([']'] ++ []) :=
      Placeholders.replaceChars_piece (not_prefix_mark (by decide) [']']) _
    have hclose : replaceChars (string word) (string word') 0 ([']'] ++ []) = [']'] ++ [] :=
      Placeholders.replaceChars_piece (not_prefix_mark (by decide) []) _
    exact hopen.trans (congrArg ('[' :: ·) hclose)
  | cons s ss =>
    rw [List.forall_mem_cons] at hss
    rw [array, replaceChars_marked hword hcomma hss.1 (by decide),
      replaceChars_moreStrings hword hcomma hss.2]
    rfl

end Search

end JsonText
