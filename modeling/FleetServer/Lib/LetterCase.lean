import Mathlib.Data.String.Basic

/-!
# Lower case

The lower case of a text, character by character, by a table of the letters that have one.  Which
letters these are depends on the version of Unicode; what a table has to be like does not.
-/

set_option autoImplicit false

/-- A table of lower-case letters. -/
structure LetterCase where
  lower : Char → Char
  /-- A lower-case letter has no other lower case. -/
  lower_lower : ∀ c, lower (lower c) = lower c
  lower_of_ascii : ∀ c, c.toNat < 128 → lower c = c.toLower

namespace LetterCase

variable (letters : LetterCase)

/-- `strings.ToLower`. -/
def toLower (s : String) : String := String.ofList (s.toList.map letters.lower)

@[simp] theorem toLower_toLower (s : String) :
    letters.toLower (letters.toLower s) = letters.toLower s := by
  rw [toLower, toLower, String.toList_ofList, List.map_map]
  exact congrArg String.ofList (List.map_congr_left fun c _ ↦ letters.lower_lower c)

@[simp] theorem toLower_eq_empty {s : String} : letters.toLower s = "" ↔ s = "" := by
  rw [toLower, ← String.toList_inj, String.toList_ofList, String.toList_empty,
    List.map_eq_nil_iff, String.toList_eq_nil_iff]

/-- A text of ASCII characters none of which is a capital. -/
def isLowerAscii (s : String) : Bool := s.toList.all fun c ↦ c.toNat < 128 && c.toLower == c

/-- Such a text is in lower case. -/
theorem toLower_of_ascii {s : String} (h : isLowerAscii s = true) : letters.toLower s = s := by
  have hkept : ∀ c ∈ s.toList, letters.lower c = id c := by
    intro c hc
    have hlower := List.all_eq_true.mp h c hc
    rw [Bool.and_eq_true, decide_eq_true_eq, beq_iff_eq] at hlower
    exact (letters.lower_of_ascii c hlower.1).trans hlower.2
  rw [toLower, List.map_congr_left hkept, List.map_id, String.ofList_toList]

theorem char_toLower_toLower (c : Char) : c.toLower.toLower = c.toLower := by
  have hkept (d : Char) (hd : ¬('A'.val ≤ d.val ∧ d.val ≤ 'Z'.val)) : d.toLower = d := dif_neg hd
  by_cases hc : 'A'.val ≤ c.val ∧ c.val ≤ 'Z'.val
  · refine hkept _ ?_
    have hval : c.toLower.val = c.val + ('a'.val - 'A'.val) :=
      congrArg Char.val (dif_pos hc)
    rw [hval]
    simp only [UInt32.le_iff_toNat_le, UInt32.toNat_add] at hc ⊢
    simp at *
    omega
  · rw [hkept c hc, hkept c hc]

/-- The capitals of ASCII. -/
def asciiLetters : LetterCase where
  lower := Char.toLower
  lower_lower := char_toLower_toLower
  lower_of_ascii _ _ := rfl

end LetterCase
