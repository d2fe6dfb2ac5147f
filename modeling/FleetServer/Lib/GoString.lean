import Mathlib.Algebra.GroupWithZero.Nat
import Mathlib.Data.List.DropRight
import Mathlib.Data.List.Infix
import Mathlib.Data.String.Basic

/-!
# The string operations of the server's language

The server is written against a standard library of string operations whose behaviour the rest of
the development reads off here: trimming of white space, prefixes, lower case, replacement,
quoting.  They are given on the list of characters of a string, which is what keeps them evaluable
by `decide`.
-/

set_option autoImplicit false

namespace GoString

/-- The characters `TrimSpace` removes: Unicode white space. -/
def isSpace (c : Char) : Bool :=
  c.val ∈ ([0x09, 0x0A, 0x0B, 0x0C, 0x0D, 0x20, 0x85, 0xA0, 0x1680, 0x2000, 0x2001, 0x2002, 0x2003,
    0x2004, 0x2005, 0x2006, 0x2007, 0x2008, 0x2009, 0x200A, 0x2028, 0x2029, 0x202F, 0x205F,
    0x3000] : List UInt32)

/-- `strings.TrimSpace`. -/
def trimSpace (s : String) : String :=
  String.ofList ((s.toList.dropWhile isSpace).reverse.dropWhile isSpace).reverse

/-- A trimmed text has no white space left to trim. -/
theorem trimSpace_trimSpace (s : String) : trimSpace (trimSpace s) = trimSpace s := by
  have hstart : ((s.toList.dropWhile isSpace).rdropWhile isSpace).dropWhile isSpace =
      (s.toList.dropWhile isSpace).rdropWhile isSpace := by
    have hkept := List.rdropWhile_prefix isSpace (s.toList.dropWhile isSpace)
    rw [List.dropWhile_eq_self_iff]
    intro hlength
    rw [hkept.getElem hlength]
    exact List.dropWhile_get_zero_not isSpace s.toList (hlength.trans_le hkept.length_le)
  have hchars : (trimSpace s).toList = (s.toList.dropWhile isSpace).rdropWhile isSpace :=
    String.toList_ofList
  rw [trimSpace, hchars, hstart]
  exact congrArg String.ofList (List.rdropWhile_idempotent isSpace _)

/-- A text that neither starts nor ends with white space is trimmed already. -/
theorem trimSpace_of_ends {a b : Char} (ha : isSpace a = false) (hb : isSpace b = false)
    (middle : List Char) :
    trimSpace (String.ofList (a :: (middle ++ [b]))) = String.ofList (a :: (middle ++ [b])) := by
  rw [trimSpace, String.toList_ofList, List.dropWhile_cons_of_neg (by simp [ha])]
  rw [← List.cons_append, List.reverse_append, List.reverse_singleton, List.singleton_append,
    List.dropWhile_cons_of_neg (by simp [hb])]
  rw [List.reverse_cons, List.reverse_reverse]

/-- Trimming leaves an ending that neither starts nor ends with white space. -/
theorem exists_trimSpace_append {a b : Char} (ha : isSpace a = false) (hb : isSpace b = false)
    (s : String) (middle : List Char) :
    ∃ start, (trimSpace (s ++ String.ofList (a :: (middle ++ [b])))).toList =
      start ++ a :: (middle ++ [b]) := by
  have hstart : ∃ start, (s.toList ++ a :: (middle ++ [b])).dropWhile isSpace =
      start ++ a :: (middle ++ [b]) := by
    rw [List.dropWhile_append]
    split
    · exact ⟨[], List.dropWhile_cons_of_neg (by simp [ha])⟩
    · exact ⟨_, rfl⟩
  obtain ⟨start, hstart⟩ := hstart
  refine ⟨start, ?_⟩
  rw [trimSpace, String.toList_ofList, String.toList_append, String.toList_ofList, hstart,
    ← List.cons_append, ← List.append_assoc]
  exact List.rdropWhile_concat_neg isSpace _ b (by simp [hb])

/-- A text is its trimmed text with white space around it. -/
theorem exists_spaces_trimSpace (s : String) :
    ∃ before after, s.toList = before ++ ((trimSpace s).toList ++ after) ∧
      (∀ c ∈ before, isSpace c = true) ∧ (∀ c ∈ after, isSpace c = true) ∧
        ∀ c ∈ (trimSpace s).toList.head?, isSpace c = false := by
  have hchars : (trimSpace s).toList = (s.toList.dropWhile isSpace).rdropWhile isSpace :=
    String.toList_ofList
  refine ⟨s.toList.takeWhile isSpace, (s.toList.dropWhile isSpace).rtakeWhile isSpace, ?_,
    fun c hc ↦ List.mem_takeWhile_imp hc, fun c hc ↦ ?_, fun c hc ↦ ?_⟩
  · rw [hchars, List.rdropWhile_append_rtakeWhile, List.takeWhile_append_dropWhile]
  · exact List.mem_rtakeWhile_imp hc
  · rw [hchars] at hc
    obtain ⟨rest, hrest⟩ := List.rdropWhile_prefix isSpace (s.toList.dropWhile isSpace)
    have hhead : (s.toList.dropWhile isSpace).head? = some c := by
      rw [← hrest, List.head?_append, Option.mem_def.mp hc, Option.some_or]
    have hnot := List.head?_dropWhile_not isSpace s.toList
    rw [hhead] at hnot
    simpa using hnot

/-- `strings.HasPrefix`. -/
def hasPrefix (s pre : String) : Bool := pre.toList.isPrefixOf s.toList

/-- `strings.HasSuffix`. -/
def hasSuffix (s suf : String) : Bool := suf.toList.isSuffixOf s.toList

/-- `len`: the bytes of a text. -/
def byteLength (s : String) : ℕ := (s.toList.map Char.utf8Size).sum

/-- `strings.Contains`. -/
def contains (s part : String) : Bool := s.toList.tails.any (part.toList.isPrefixOf ·)

theorem contains_iff {s part : String} : contains s part = true ↔ part.toList <:+: s.toList := by
  simp only [contains, List.any_eq_true, List.mem_tails, List.isPrefixOf_iff_prefix,
    List.infix_iff_prefix_suffix]
  exact exists_congr fun _ ↦ and_comm

/-- `strings.TrimPrefix`. -/
def trimPrefix (s pre : String) : String :=
  if hasPrefix s pre then String.ofList (s.toList.drop pre.toList.length) else s

/-- `unicode.ToLower`, on the characters whose lower case is an ASCII letter: besides the capitals
these are the dotted capital I and the Kelvin sign. -/
def lowerChar (c : Char) : Char :=
  if c.val = 0x130 then 'i' else if c.val = 0x212A then 'k' else c.toLower

/-- `strings.ToLower`, on the characters whose lower case is an ASCII letter.  It is only ever
compared with an ASCII word here. -/
def toLower (s : String) : String := String.ofList (s.toList.map lowerChar)

/-- Replacing the occurrences of a word, from the left.  `skip` characters still belong to the
occurrence replaced last. -/
def replaceChars (old new : List Char) : ℕ → List Char → List Char
  | _, [] => []
  | skip + 1, _ :: rest => replaceChars old new skip rest
  | 0, c :: rest =>
    if old.isPrefixOf (c :: rest) then new ++ replaceChars old new (old.length - 1) rest
    else c :: replaceChars old new 0 rest

/-- `strings.ReplaceAll`, for a word that is not empty. -/
def replaceAll (s old new : String) : String :=
  String.ofList (replaceChars old.toList new.toList 0 s.toList)

/-- The escape the `%q` verb writes for one character of a printable text. -/
def quoteChar (c : Char) : List Char :=
  if c = '"' then ['\\', '"']
  else if c = '\\' then ['\\', '\\']
  else if c = '\n' then ['\\', 'n']
  else if c = '\t' then ['\\', 't']
  else if c = '\r' then ['\\', 'r']
  else [c]

/-- The `%q` verb of the formatting functions. -/
def quote (s : String) : String := String.ofList ('"' :: s.toList.flatMap quoteChar ++ ['"'])

end GoString
