/-
This file proves that partition names identify partitions. A name is the name of a table and
two written keys with underscores between them. No written key has an underscore in it, so
the keys can be read off the name, and a written key can be read back: an epoch from its
digits, a day from a year of any length before two digits of month and two of day.
-/

import EpochRollup.Partition
import EpochRollup.Proofs.Calendar

namespace EpochRollup

/-! ### Digits -/

/-- The digits of a number after any number of zeros determine the number. -/
theorem eq_of_zeros_append_toDigits {left right : Nat} {leftZeros rightZeros : Nat}
    (same : List.replicate leftZeros '0' ++ Nat.toDigits 10 left =
      List.replicate rightZeros '0' ++ Nat.toDigits 10 right) : left = right := by
  have values := congrArg (fun digits => Nat.ofDigitChars 10 digits 0) same
  simpa only [Nat.ofDigitChars_append, Nat.ofDigitChars_replicate_zero, Nat.mul_zero,
    Nat.ofDigitChars_ten_toDigits] using values

/-- Numbers that are written alike are the same. -/
theorem eq_of_repr_eq {left right : Nat} (same : left.repr = right.repr) : left = right := by
  have digits := congrArg String.toList same
  rw [Nat.toList_repr, Nat.toList_repr] at digits
  exact @eq_of_zeros_append_toDigits left right 0 0 digits

theorem not_mem_zeros_append_toDigits {mark : Char} (notDigit : mark.isDigit = false)
    (zeros number : Nat) : mark ∉ List.replicate zeros '0' ++ Nat.toDigits 10 number := by
  intro member
  rcases List.mem_append.mp member with zero | digit
  · rw [List.eq_of_mem_replicate zero] at notDigit
    exact absurd notDigit (by decide)
  · rw [Nat.isDigit_of_mem_toDigits (by decide) (by decide) digit] at notDigit
    exact absurd notDigit (by decide)

namespace CalendarDay

theorem toList_padded_of_nonneg (width : Nat) {value : Int} (positive : 0 ≤ value) :
    ∃ zeros, (padded width value).toList =
      List.replicate zeros '0' ++ Nat.toDigits 10 value.natAbs := by
  have notNegative : ¬value < 0 := by omega
  refine ⟨width - (toString value.natAbs).length, ?_⟩
  simp [padded, notNegative]

theorem toList_padded_of_neg (width : Nat) {value : Int} (negative : value < 0) :
    ∃ zeros, (padded width value).toList =
      '-' :: (List.replicate zeros '0' ++ Nat.toDigits 10 value.natAbs) := by
  refine ⟨width - "-".length - (toString value.natAbs).length, ?_⟩
  simp [padded, negative]

/-- A padded number can be read back. -/
theorem padded_injective {width : Nat} {left right : Int}
    (same : padded width left = padded width right) : left = right := by
  have minus : '-'.isDigit = false := by decide
  have lists := congrArg String.toList same
  rcases Int.lt_or_le left 0 with leftNegative | leftPositive <;>
    rcases Int.lt_or_le right 0 with rightNegative | rightPositive
  · obtain ⟨leftZeros, leftIs⟩ := toList_padded_of_neg width leftNegative
    obtain ⟨rightZeros, rightIs⟩ := toList_padded_of_neg width rightNegative
    rw [leftIs, rightIs, List.cons.injEq] at lists
    have := eq_of_zeros_append_toDigits lists.2
    omega
  · obtain ⟨leftZeros, leftIs⟩ := toList_padded_of_neg width leftNegative
    obtain ⟨rightZeros, rightIs⟩ := toList_padded_of_nonneg width rightPositive
    have member : '-' ∈ (padded width right).toList := by
      rw [← lists, leftIs]
      exact List.mem_cons_self
    rw [rightIs] at member
    exact absurd member (not_mem_zeros_append_toDigits minus _ _)
  · obtain ⟨leftZeros, leftIs⟩ := toList_padded_of_nonneg width leftPositive
    obtain ⟨rightZeros, rightIs⟩ := toList_padded_of_neg width rightNegative
    have member : '-' ∈ (padded width left).toList := by
      rw [lists, rightIs]
      exact List.mem_cons_self
    rw [leftIs] at member
    exact absurd member (not_mem_zeros_append_toDigits minus _ _)
  · obtain ⟨leftZeros, leftIs⟩ := toList_padded_of_nonneg width leftPositive
    obtain ⟨rightZeros, rightIs⟩ := toList_padded_of_nonneg width rightPositive
    rw [leftIs, rightIs] at lists
    have := eq_of_zeros_append_toDigits lists
    omega

theorem underscore_not_mem_padded (width : Nat) (value : Int) :
    '_' ∉ (padded width value).toList := by
  have underscore : '_'.isDigit = false := by decide
  rcases Int.lt_or_le value 0 with negative | positive
  · obtain ⟨zeros, listIs⟩ := toList_padded_of_neg width negative
    rw [listIs, List.mem_cons]
    rintro (minus | digit)
    · exact absurd minus (by decide)
    · exact not_mem_zeros_append_toDigits underscore _ _ digit
  · obtain ⟨zeros, listIs⟩ := toList_padded_of_nonneg width positive
    rw [listIs]
    exact not_mem_zeros_append_toDigits underscore _ _

/-! ### Days -/

theorem length_padded_two {value : Int} (positive : 0 ≤ value) (small : value < 100) :
    (padded 2 value).toList.length = 2 := by
  have general : ∀ number : Fin 100, (padded 2 (number.val : Int)).toList.length = 2 := by decide
  have read := general ⟨value.toNat, by omega⟩
  rwa [Int.toNat_of_nonneg positive] at read

theorem compact_injective {left right : CalendarDay} (same : left.compact = right.compact) :
    left = right := by
  have leftBounds := left.civil_bounds
  have rightBounds := right.civil_bounds
  have lists := congrArg String.toList same
  simp only [compact, String.toList_append] at lists
  obtain ⟨front, days⟩ := List.append_inj' lists (by
    rw [length_padded_two (by omega) (by omega), length_padded_two (by omega) (by omega)])
  obtain ⟨years, months⟩ := List.append_inj' front (by
    rw [length_padded_two (by omega) (by omega), length_padded_two (by omega) (by omega)])
  have year := padded_injective (String.toList_inj.mp years)
  have month := padded_injective (String.toList_inj.mp months)
  have day := padded_injective (String.toList_inj.mp days)
  refine civil_injective ?_
  generalize left.civil = leftDate at *
  generalize right.civil = rightDate at *
  obtain ⟨leftYear, leftMonth, leftDay⟩ := leftDate
  obtain ⟨rightYear, rightMonth, rightDay⟩ := rightDate
  simp only [CivilDate.mk.injEq]
  exact ⟨year, Int.ofNat_inj.mp month, Int.ofNat_inj.mp day⟩

theorem underscore_not_mem_compact (day : CalendarDay) : '_' ∉ day.compact.toList := by
  simp only [compact, String.toList_append, List.mem_append]
  rintro ((inYear | inMonth) | inDay)
  · exact underscore_not_mem_padded _ _ inYear
  · exact underscore_not_mem_padded _ _ inMonth
  · exact underscore_not_mem_padded _ _ inDay

end CalendarDay

/-! ### Names -/

/-- Two texts around a mark can be read off when the first does not hold the mark. -/
theorem append_mark_inj {mark : Char} {left right leftRest rightRest : List Char}
    (leftFree : mark ∉ left) (rightFree : mark ∉ right)
    (same : left ++ mark :: leftRest = right ++ mark :: rightRest) :
    left = right ∧ leftRest = rightRest := by
  induction left generalizing right with
  | nil =>
    cases right with
    | nil => exact ⟨rfl, (List.cons.inj same).2⟩
    | cons head tail =>
      have first := (List.cons.inj same).1
      exact absurd (first ▸ List.mem_cons_self) rightFree
  | cons head tail inductionHypothesis =>
    cases right with
    | nil =>
      have first := (List.cons.inj same).1
      exact absurd (first ▸ List.mem_cons_self) leftFree
    | cons other rest =>
      obtain ⟨rfl, tails⟩ := List.cons.inj same
      obtain ⟨rfl, rests⟩ := inductionHypothesis
        (fun member => leftFree (List.mem_cons_of_mem _ member))
        (fun member => rightFree (List.mem_cons_of_mem _ member)) tails
      exact ⟨rfl, rests⟩

namespace Partition

/-- The keys of a name, written with an underscore between them. -/
theorem eq_of_keys_eq {table leftStart leftStop rightStart rightStop : String}
    (leftFree : '_' ∉ leftStart.toList) (rightFree : '_' ∉ rightStart.toList)
    (same : table ++ "_" ++ leftStart ++ "_" ++ leftStop =
      table ++ "_" ++ rightStart ++ "_" ++ rightStop) :
    leftStart = rightStart ∧ leftStop = rightStop := by
  have lists := congrArg String.toList same
  have mark : "_".toList = ['_'] := rfl
  simp only [String.toList_append, List.append_assoc, List.append_cancel_left_eq, mark,
    List.singleton_append] at lists
  obtain ⟨starts, stops⟩ := append_mark_inj leftFree rightFree (List.cons.inj lists).2
  exact ⟨String.toList_inj.mp starts, String.toList_inj.mp stops⟩

/-- Hourly partitions of one name are one partition. -/
theorem hourly_name_inj {left right : EpochRange} :
    (hourly left).name = (hourly right).name ↔ left = right := by
  refine ⟨fun same => ?_, fun same => by rw [same]⟩
  have free (number : Nat) : '_' ∉ (toString number).toList := by
    rw [Nat.toString_eq_ofList_toDigits, String.toList_ofList]
    exact Nat.underscore_not_in_toDigits
  obtain ⟨starts, stops⟩ := eq_of_keys_eq (free _) (free _) same
  obtain ⟨leftStart, leftStop⟩ := left
  obtain ⟨rightStart, rightStop⟩ := right
  rw [EpochRange.mk.injEq]
  exact ⟨eq_of_repr_eq starts, eq_of_repr_eq stops⟩

/-- Daily partitions of one name cover the same days. -/
theorem daily_name_inj {left right : EpochRange} {leftDays rightDays : DayRange} :
    (daily left leftDays).name = (daily right rightDays).name ↔ leftDays = rightDays := by
  refine ⟨fun same => ?_, fun same => by rw [name, name, same]⟩
  obtain ⟨starts, stops⟩ := eq_of_keys_eq (CalendarDay.underscore_not_mem_compact _)
    (CalendarDay.underscore_not_mem_compact _) same
  obtain ⟨leftStart, leftStop⟩ := leftDays
  obtain ⟨rightStart, rightStop⟩ := rightDays
  rw [DayRange.mk.injEq]
  exact ⟨CalendarDay.compact_injective starts, CalendarDay.compact_injective stops⟩

/-- A partition of hours and a partition of days never share a name. -/
theorem hourly_name_ne_daily_name (range other : EpochRange) (days : DayRange) :
    (hourly range).name ≠ (daily other days).name := by
  intro same
  have lists := congrArg String.toList same
  simp [name, RollupTable.name] at lists

/-- A name tells the granularity of its partition. -/
theorem granularity_eq_of_name {first second : Partition} (same : first.name = second.name) :
    first.granularity = second.granularity := by
  cases first with
  | hourly range =>
    cases second with
    | hourly other => rfl
    | daily other days => exact absurd same (hourly_name_ne_daily_name _ _ _)
  | daily range days =>
    cases second with
    | hourly other => exact absurd same.symm (hourly_name_ne_daily_name _ _ _)
    | daily other otherDays => rfl

end Partition

end EpochRollup
