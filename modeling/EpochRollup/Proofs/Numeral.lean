/-
This file proves that integers are read back from their decimal digits. An integer reads back when
a word or a stored integer holds it; what is out of both ranges would come back as a double.
-/

import EpochRollup.Document.Numeral
import Mathlib.Data.List.TakeWhile

namespace EpochRollup

/-! ### Digits -/

theorem numberOfDigits_toDigits (number : Nat) :
    numberOfDigits (Nat.toDigits 10 number) = number := by
  have value := @Nat.ofDigitChars_ten_toDigits number
  simpa only [Nat.ofDigitChars, numberOfDigits, Nat.mul_comm 10] using value

/-- Only a lone zero begins with a zero. -/
theorem head?_toDigits_ne_zero {number : Nat} (positive : 0 < number) :
    (Nat.toDigits 10 number).head? ≠ some '0' := by
  have smallDigit : ∀ number < 10, 0 < number → [number.digitChar].head? ≠ some '0' := by decide
  induction number using Nat.strongRecOn with
  | ind number inductionHypothesis =>
    rcases Nat.lt_or_ge number 10 with small | large
    · rw [Nat.toDigits_of_lt_base small]
      exact smallDigit number small positive
    · have earlier := inductionHypothesis (number / 10) (by omega) (by omega)
      obtain ⟨first, more, split⟩ :=
        List.exists_cons_of_ne_nil (@Nat.toDigits_ne_nil (number / 10) 10)
      rw [Nat.toDigits_of_base_le (by decide) large]
      rw [split] at earlier ⊢
      exact earlier

namespace Numeral

theorem isDigit_of_mem {number : Nat} {character : Char}
    (member : character ∈ Nat.toDigits 10 number) : character.isDigit = true :=
  Nat.isDigit_of_mem_toDigits (by decide) (by decide) member

theorem takeWhile_toDigits (number : Nat) :
    (Nat.toDigits 10 number).takeWhile Char.isDigit = Nat.toDigits 10 number :=
  List.takeWhile_eq_self_iff.mpr fun _ => isDigit_of_mem

theorem dropWhile_toDigits (number : Nat) :
    (Nat.toDigits 10 number).dropWhile Char.isDigit = [] :=
  List.dropWhile_eq_nil_iff.mpr fun _ => isDigit_of_mem

theorem head?_toDigits_of_length {number : Nat} (long : (Nat.toDigits 10 number).length ≠ 1) :
    (Nat.toDigits 10 number).head? ≠ some '0' := by
  rcases Nat.eq_zero_or_pos number with rfl | positive
  · exact absurd rfl long
  · exact head?_toDigits_ne_zero positive

theorem head?_toDigits_ne_minus (number : Nat) :
    (Nat.toDigits 10 number).head? ≠ some '-' := by
  intro minus
  have digit := isDigit_of_mem (List.mem_of_head? minus)
  exact absurd digit (by decide)

theorem ofText?_toDigits (number : Nat) :
    ofText? (Nat.toDigits 10 number) = some ⟨false, number, 0, 0, true⟩ := by
  simpa [ofText?, head?_toDigits_ne_minus, takeWhile_toDigits, dropWhile_toDigits, places?,
    power?, numberOfDigits_toDigits] using head?_toDigits_of_length

theorem ofText?_minus_toDigits (number : Nat) :
    ofText? ('-' :: Nat.toDigits 10 number) = some ⟨true, number, 0, 0, true⟩ := by
  simpa [ofText?, takeWhile_toDigits, dropWhile_toDigits, places?, power?,
    numberOfDigits_toDigits] using head?_toDigits_of_length

/-! ### Integers -/

/-- The integers that are read as integers. -/
def IsWhole (value : Int) : Prop := -(storedLimit : Int) ≤ value ∧ value < wordLimit

theorem toList_toString_of_nonneg {value : Int} (positive : 0 ≤ value) :
    (toString value).toList = Nat.toDigits 10 value.toNat := by
  rw [Int.toString_eq_repr, Int.repr_eq_if, if_pos positive, Nat.toList_repr]

theorem toList_toString_of_neg {value : Int} (negative : value < 0) :
    (toString value).toList = '-' :: Nat.toDigits 10 (-value).toNat := by
  rw [Int.toString_eq_repr, Int.repr_eq_if, if_neg (by omega), String.toList_append,
    Nat.toList_repr]
  rfl

/-- An integer that is whole is the document of its numeral. -/
theorem ofText?_toString {value : Int} (whole : IsWhole value) :
    (ofText? (toString value).toList).map document = some (.integer value) := by
  unfold IsWhole at whole
  rcases Int.lt_or_le value 0 with negative | positive
  · have inWord : 0 < (-value).toNat ∧ (-value).toNat ≤ storedLimit := by omega
    have same : -((-value).toNat : Int) = value := by omega
    have found : integer? ⟨true, (-value).toNat, 0, 0, true⟩ = some value :=
      (if_pos inWord).trans (congrArg some same)
    rw [toList_toString_of_neg negative, ofText?_minus_toDigits, Option.map_some,
      document, found]
  · have inWord : value.toNat < wordLimit := by omega
    have same : (value.toNat : Int) = value := by omega
    have found : integer? ⟨false, value.toNat, 0, 0, true⟩ = some value :=
      (if_pos inWord).trans (congrArg some same)
    rw [toList_toString_of_nonneg positive, ofText?_toDigits, Option.map_some,
      document, found]

end Numeral

end EpochRollup
