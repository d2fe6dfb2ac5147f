import Mathlib.Data.List.Sort
import Mathlib.Tactic.Linarith

/-!
# JSON texts of strings and of maps of strings

The text that the encoder of the server's language writes for a string and for an object whose
members are strings.  A text can be read back in one way only: what stands after a string or an
object is determined together with it (`string_append_inj`, `object_append_inj`), so texts written
one after the other can be told apart.
-/

set_option autoImplicit false

namespace JsonText

/-! ## Characters -/

/-- The characters that have an escape of their own. -/
def shortEscapes : List (Char × Char) :=
  [('"', '"'), ('\\', '\\'), ('\n', 'n'), ('\r', 'r'), ('\t', 't'), (Char.ofNat 8, 'b'),
    (Char.ofNat 12, 'f')]

/-- The other characters that are not written as they are: control characters, the three that mean
something in a web page, and two line separators. -/
def isCoded (c : Char) : Bool :=
  c.toNat < 0x20 || c.toNat ∈ [0x3C, 0x3E, 0x26, 0x2028, 0x2029]

def hexDigit (n : ℕ) : Char := Nat.digitChar (n % 16)

def hexDigits (n : ℕ) : List Char :=
  [hexDigit (n / 4096), hexDigit (n / 256), hexDigit (n / 16), hexDigit n]

def escapeChar (c : Char) : List Char :=
  match shortEscapes.find? (·.1 = c) with
  | some escape => ['\\', escape.2]
  | none => if isCoded c then '\\' :: 'u' :: hexDigits c.toNat else [c]

theorem hexDigit_inj {m n : ℕ} (h : hexDigit m = hexDigit n) : m % 16 = n % 16 := by
  have hall : ∀ a < 16, ∀ b < 16, Nat.digitChar a = Nat.digitChar b → a = b := by decide
  exact hall _ (Nat.mod_lt m (by decide)) _ (Nat.mod_lt n (by decide)) h

theorem hexDigits_inj {m n : ℕ} (hm : m < 65536) (hn : n < 65536)
    (h : hexDigits m = hexDigits n) : m = n := by
  simp only [hexDigits, List.cons.injEq, and_true] at h
  obtain ⟨h₃, h₂, h₁, h₀⟩ := h
  have := hexDigit_inj h₃
  have := hexDigit_inj h₂
  have := hexDigit_inj h₁
  have := hexDigit_inj h₀
  omega

theorem toNat_lt_of_isCoded {c : Char} (h : isCoded c = true) : c.toNat < 65536 := by
  simp only [isCoded, Bool.or_eq_true, decide_eq_true_eq, List.mem_cons, List.not_mem_nil,
    or_false] at h
  omega

/-- What the text of a character looks like. -/
theorem escapeChar_cases (c : Char) :
    (∃ letter, (c, letter) ∈ shortEscapes ∧ escapeChar c = ['\\', letter]) ∨
    (isCoded c = true ∧ escapeChar c = '\\' :: 'u' :: hexDigits c.toNat) ∨
    (c ≠ '\\' ∧ c ≠ '"' ∧ escapeChar c = [c]) := by
  rw [escapeChar]
  split
  · rename_i escape hfind
    obtain ⟨character, letter⟩ := escape
    obtain rfl : character = c := by simpa using List.find?_some hfind
    exact .inl ⟨letter, List.mem_of_find?_eq_some hfind, rfl⟩
  · rename_i hnone
    have hplain : ∀ d ∈ shortEscapes.map Prod.fst, d ≠ c := by
      intro d hd
      obtain ⟨escape, hmem, rfl⟩ := List.mem_map.mp hd
      simpa using List.find?_eq_none.mp hnone escape hmem
    split
    · rename_i hcoded
      exact .inr (.inl ⟨hcoded, rfl⟩)
    · exact .inr (.inr ⟨(hplain '\\' (by decide)).symm, (hplain '"' (by decide)).symm, rfl⟩)

/-- **A character can be read off its text**, whatever comes after. -/
theorem escapeChar_append_inj {c d : Char} {r r' : List Char}
    (h : escapeChar c ++ r = escapeChar d ++ r') : c = d ∧ r = r' := by
  have hletters : ∀ p ∈ shortEscapes, ∀ q ∈ shortEscapes, p.2 = q.2 → p.1 = q.1 := by decide
  have hcode : ∀ p ∈ shortEscapes, p.2 ≠ 'u' := by decide
  rcases escapeChar_cases c with ⟨l, hl, hc⟩ | ⟨hcoded, hc⟩ | ⟨hc₁, -, hc⟩ <;>
    rcases escapeChar_cases d with ⟨l', hl', hd⟩ | ⟨hcoded', hd⟩ | ⟨hd₁, -, hd⟩ <;>
    rw [hc, hd] at h
  · simp only [List.cons_append, List.nil_append, List.cons.injEq, true_and] at h
    exact ⟨hletters _ hl _ hl' h.1, h.2⟩
  · simp only [List.cons_append, List.nil_append, List.cons.injEq, true_and] at h
    exact absurd h.1 (hcode _ hl)
  · simp only [List.cons_append, List.nil_append, List.cons.injEq] at h
    exact absurd h.1.symm hd₁
  · simp only [List.cons_append, List.nil_append, List.cons.injEq, true_and] at h
    exact absurd h.1.symm (hcode _ hl')
  · simp only [List.cons_append, List.cons.injEq, true_and] at h
    obtain ⟨hhex, hrest⟩ := List.append_inj h rfl
    refine ⟨Char.ext (UInt32.ext ?_), hrest⟩
    exact hexDigits_inj (toNat_lt_of_isCoded hcoded) (toNat_lt_of_isCoded hcoded') hhex
  · simp only [List.cons_append, List.nil_append, List.cons.injEq] at h
    exact absurd h.1.symm hd₁
  · simp only [List.cons_append, List.nil_append, List.cons.injEq] at h
    exact absurd h.1 hc₁
  · simp only [List.cons_append, List.nil_append, List.cons.injEq] at h
    exact absurd h.1 hc₁
  · simpa using h

theorem escapeChar_ne_quote (c : Char) (r r' : List Char) : escapeChar c ++ r ≠ '"' :: r' := by
  rcases escapeChar_cases c with ⟨l, -, hc⟩ | ⟨-, hc⟩ | ⟨-, hc₂, hc⟩ <;> rw [hc] <;> simp [*]

/-! ## Strings -/

/-- The text of a string. -/
def string (s : String) : List Char := '"' :: (s.toList.flatMap escapeChar ++ ['"'])

theorem chars_append_inj {cs ds r r' : List Char}
    (h : cs.flatMap escapeChar ++ '"' :: r = ds.flatMap escapeChar ++ '"' :: r') :
    cs = ds ∧ r = r' := by
  induction cs generalizing ds with
  | nil =>
    cases ds with
    | nil => exact ⟨rfl, (List.cons.inj h).2⟩
    | cons d ds =>
      rw [List.flatMap_cons, List.append_assoc] at h
      exact absurd h.symm (escapeChar_ne_quote d _ _)
  | cons c cs ih =>
    cases ds with
    | nil =>
      rw [List.flatMap_cons, List.append_assoc] at h
      exact absurd h (escapeChar_ne_quote c _ _)
    | cons d ds =>
      rw [List.flatMap_cons, List.flatMap_cons, List.append_assoc, List.append_assoc] at h
      obtain ⟨rfl, htail⟩ := escapeChar_append_inj h
      obtain ⟨rfl, hrest⟩ := ih htail
      exact ⟨rfl, hrest⟩

/-- **A string can be read off its text.** -/
theorem string_append_inj {s t : String} {r r' : List Char}
    (h : string s ++ r = string t ++ r') : s = t ∧ r = r' := by
  simp only [string, List.cons_append, List.append_assoc, List.cons.injEq, true_and,
    List.nil_append] at h
  obtain ⟨hchars, hrest⟩ := chars_append_inj h
  exact ⟨String.toList_inj.mp hchars, hrest⟩

/-! ## Objects -/

/-- The text of a member. -/
def member (entry : String × String) : List Char := string entry.1 ++ ':' :: string entry.2

/-- The members after the first, and the end of the object. -/
def moreMembers : List (String × String) → List Char
  | [] => ['\x7d']
  | entry :: rest => ',' :: (member entry ++ moreMembers rest)

/-- The text of an object. -/
def object : List (String × String) → List Char
  | [] => ['\x7b', '\x7d']
  | entry :: rest => '\x7b' :: (member entry ++ moreMembers rest)

theorem moreMembers_ends (entries : List (String × String)) :
    ∃ before, moreMembers entries = before ++ ['\x7d'] := by
  induction entries with
  | nil => exact ⟨[], rfl⟩
  | cons entry rest ih =>
    obtain ⟨before, hrest⟩ := ih
    exact ⟨',' :: (member entry ++ before), by simp [moreMembers, hrest]⟩

/-- The text of an object stands between braces. -/
theorem object_ends (entries : List (String × String)) :
    ∃ middle, object entries = '\x7b' :: (middle ++ ['\x7d']) := by
  cases entries with
  | nil => exact ⟨[], rfl⟩
  | cons entry rest =>
    obtain ⟨before, hrest⟩ := moreMembers_ends rest
    exact ⟨member entry ++ before, by simp [object, hrest]⟩

theorem member_append_inj {a b : String × String} {r r' : List Char}
    (h : member a ++ r = member b ++ r') : a = b ∧ r = r' := by
  simp only [member, List.append_assoc, List.cons_append] at h
  obtain ⟨hkey, h⟩ := string_append_inj h
  obtain ⟨hvalue, h⟩ := string_append_inj (List.cons.inj h).2
  exact ⟨Prod.ext hkey hvalue, h⟩

theorem moreMembers_append_inj {as bs : List (String × String)} {r r' : List Char}
    (h : moreMembers as ++ r = moreMembers bs ++ r') : as = bs ∧ r = r' := by
  induction as generalizing bs with
  | nil =>
    cases bs with
    | nil => exact ⟨rfl, (List.cons.inj h).2⟩
    | cons b bs => exact absurd (List.cons.inj h).1 (by decide)
  | cons a as ih =>
    cases bs with
    | nil => exact absurd (List.cons.inj h).1 (by decide)
    | cons b bs =>
      simp only [moreMembers, List.cons_append, List.append_assoc, List.cons.injEq,
        true_and] at h
      obtain ⟨rfl, htail⟩ := member_append_inj h
      obtain ⟨rfl, hrest⟩ := ih htail
      exact ⟨rfl, hrest⟩

/-- **The members of an object can be read off its text.** -/
theorem object_append_inj {as bs : List (String × String)} {r r' : List Char}
    (h : object as ++ r = object bs ++ r') : as = bs ∧ r = r' := by
  cases as with
  | nil =>
    cases bs with
    | nil => exact ⟨rfl, by simpa [object] using h⟩
    | cons b bs => simp [object, member, string] at h
  | cons a as =>
    cases bs with
    | nil => simp [object, member, string] at h
    | cons b bs =>
      simp only [object, List.cons_append, List.append_assoc, List.cons.injEq, true_and] at h
      obtain ⟨rfl, htail⟩ := member_append_inj h
      obtain ⟨rfl, hrest⟩ := moreMembers_append_inj htail
      exact ⟨rfl, hrest⟩

/-- The text of a map: an object with its keys in order. -/
def map (entries : List (String × String)) : List Char :=
  object (entries.insertionSort fun a b ↦ a.1 ≤ b.1)

/-- **The entries of a map can be read off its text**, but for their order. -/
theorem map_append_inj {as bs : List (String × String)} {r r' : List Char}
    (h : map as ++ r = map bs ++ r') : as.Perm bs ∧ r = r' := by
  obtain ⟨hentries, hrest⟩ := object_append_inj h
  refine ⟨?_, hrest⟩
  exact ((List.perm_insertionSort _ as).symm.trans (.of_eq hentries)).trans
    (List.perm_insertionSort _ bs)

end JsonText
