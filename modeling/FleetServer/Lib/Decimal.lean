import FleetServer.Lib.GoString
import Mathlib.Algebra.Ring.Int.Defs

/-!
# Decimal numbers in texts

A number is written with its digits, filled up with zeros to a width (`padded`), and a text of
digits is read as a number (`parse`).  What is written is read again, `parse_padded`, whatever the
width; the texts that are written have neither white space nor a sign, so that the readers that
allow for these (`atoi`, trimming) find the same number.
-/

set_option autoImplicit false

namespace Decimal

open GoString

/-- `%0<width>d`, for a number that is not negative. -/
def padded (width n : ℕ) : List Char := (Nat.toDigits 10 n).leftpad width '0'

/-- A text of digits. -/
def parse (cs : List Char) : Option ℕ :=
  if cs ≠ [] ∧ cs.all Char.isDigit = true then some (Nat.ofDigitChars 10 cs 0) else none

/-- `strconv.Atoi`: digits behind a sign or none, for a number of 64 bits. -/
def atoi (s : String) : Option ℤ :=
  let value := match s.toList with
    | '-' :: cs => (parse cs).map fun n ↦ -(n : ℤ)
    | '+' :: cs => (parse cs).map (Int.ofNat ·)
    | cs => (parse cs).map (Int.ofNat ·)
  value.filter fun n ↦ -2 ^ 63 ≤ n ∧ n < 2 ^ 63

variable {width n : ℕ} {c : Char} {cs : List Char}

theorem isDigit_of_mem_padded (h : c ∈ padded width n) : c.isDigit = true := by
  rw [padded, List.leftpad, List.mem_append, List.mem_replicate] at h
  rcases h with ⟨-, rfl⟩ | h
  · rfl
  · exact Nat.isDigit_of_mem_toDigits (by omega) (by omega) h

theorem padded_ne_nil : padded width n ≠ [] := by
  rw [padded, List.leftpad]
  exact List.append_ne_nil_of_right_ne_nil _ Nat.toDigits_ne_nil

/-- **What is written is read again.** -/
theorem parse_padded (width n : ℕ) : parse (padded width n) = some n := by
  have hdigits : (padded width n).all Char.isDigit = true :=
    List.all_eq_true.mpr fun _ h ↦ isDigit_of_mem_padded h
  rw [parse, if_pos ⟨padded_ne_nil, hdigits⟩, padded, List.leftpad, Nat.ofDigitChars_append,
    Nat.ofDigitChars_replicate_zero, Nat.mul_zero, Nat.ofDigitChars_ten_toDigits]

theorem padded_inj {m : ℕ} (h : padded width n = padded width m) : n = m := by
  have hparse := parse_padded width n
  rw [h, parse_padded, Option.some.injEq] at hparse
  exact hparse.symm

theorem isDigit_of_parse (h : parse cs = some n) : cs ≠ [] ∧ ∀ c ∈ cs, c.isDigit = true := by
  rw [parse] at h
  split_ifs at h with hcs
  exact ⟨hcs.1, List.all_eq_true.mp hcs.2⟩

theorem isSpace_of_isDigit (h : c.isDigit = true) : isSpace c = false := by
  rw [Char.isDigit, Bool.and_eq_true, decide_eq_true_eq, decide_eq_true_eq] at h
  rw [← Bool.not_eq_true]
  intro hspace
  have hspaces : ([0x09, 0x0A, 0x0B, 0x0C, 0x0D, 0x20, 0x85, 0xA0, 0x1680, 0x2000, 0x2001, 0x2002,
      0x2003, 0x2004, 0x2005, 0x2006, 0x2007, 0x2008, 0x2009, 0x200A, 0x2028, 0x2029, 0x202F,
      0x205F, 0x3000] : List UInt32).all (fun v ↦ v < 48 || 57 < v) = true := by
    decide
  have hout := List.all_eq_true.mp hspaces c.val (by simpa [isSpace] using hspace)
  rw [Bool.or_eq_true, decide_eq_true_eq, decide_eq_true_eq] at hout
  rcases hout with hlow | hhigh
  · exact absurd h.1 (UInt32.not_le.mpr hlow)
  · exact absurd h.2 (UInt32.not_le.mpr hhigh)

/-- A text of digits has nothing to trim. -/
theorem trimSpace_of_isDigit (h : ∀ c ∈ cs, c.isDigit = true) :
    trimSpace (String.ofList cs) = String.ofList cs := by
  have hkept : ∀ l : List Char, (∀ c ∈ l, c.isDigit = true) → l.dropWhile isSpace = l := by
    intro l hl
    cases l with
    | nil => rfl
    | cons c l =>
      rw [List.dropWhile_cons_of_neg]
      rw [isSpace_of_isDigit (hl c List.mem_cons_self)]
      decide
  rw [trimSpace, String.toList_ofList, hkept cs h,
    hkept cs.reverse fun c hc ↦ h c (List.mem_reverse.mp hc), List.reverse_reverse]

/-- A text of digits is read without a sign. -/
theorem atoi_of_parse (h : parse cs = some n) (hn : n < 2 ^ 63) :
    atoi (String.ofList cs) = some (n : ℤ) := by
  obtain ⟨hne, hdigits⟩ := isDigit_of_parse h
  obtain ⟨c, cs', rfl⟩ := List.exists_cons_of_ne_nil hne
  have hsign : c ≠ '-' ∧ c ≠ '+' := by
    have hdigit := hdigits c List.mem_cons_self
    constructor
    · rintro rfl
      exact absurd hdigit (by decide)
    · rintro rfl
      exact absurd hdigit (by decide)
  rw [atoi, String.toList_ofList]
  split
  · rename_i heq
    exact absurd (List.cons.inj heq).1 hsign.1
  · rename_i heq
    exact absurd (List.cons.inj heq).1 hsign.2
  · rw [h]
    refine Option.filter_eq_some_iff.mpr ⟨rfl, ?_⟩
    rw [decide_eq_true_eq]
    constructor <;> omega

theorem lt_of_atoi {s : String} {i : ℤ} (h : atoi s = some i) : i < 2 ^ 63 := by
  rw [atoi] at h
  obtain ⟨-, hrange⟩ := Option.filter_eq_some_iff.mp h
  rw [decide_eq_true_eq] at hrange
  exact hrange.2

end Decimal
