/-
This file orders days. Days are stored as text, and from the year 0 on the order of the
texts is the order of the days. A chain clock gives each epoch the day on which it starts,
and that day is the day of genesis plus the number of the epoch's day bucket, until the
calendar ends and every later epoch falls on its last day.
-/

import EpochRollup.Chain

namespace EpochRollup

namespace CalendarDay

/-! ### Civil dates -/

/-- The parts of a civil date other than the year have at most two digits. -/
theorem civil_bounds (day : CalendarDay) :
    1 ≤ day.civil.month ∧ day.civil.month ≤ 12 ∧ 1 ≤ day.civil.day ∧ day.civil.day ≤ 31 := by
  have yearRest := @dayOfYear_bounds ((day.number + epochShift) % 146097) (by omega) (by omega)
  simp only [civil]
  generalize yearOfEra ((day.number + epochShift) % 146097) = yearValue at *
  generalize (day.number + epochShift) % 146097 - daysBeforeYear yearValue = dayOfYear at *
  have month := monthOfYear_bounds yearRest.1 yearRest.2
  generalize monthOfYear dayOfYear = monthValue at *
  split <;> omega

theorem daysBeforeYear_mono {first second : Int} (le : first ≤ second) :
    daysBeforeYear first ≤ daysBeforeYear second := by
  simp only [daysBeforeYear]
  omega

/-- A day of an era comes before the next year of the era, unless its year is the last one. -/
theorem lt_daysBeforeYear {day : Int} (positive : 0 ≤ day) (below : day < 146097)
    (notLast : yearOfEra day < 399) : day < daysBeforeYear (yearOfEra day + 1) := by
  revert notLast
  simp only [yearOfEra, daysBeforeYear]
  generalize centuryIs : min (day / 36524) 3 = century
  have centuryBounds : 0 ≤ century ∧ century ≤ 3 ∧ 0 ≤ day - 36524 * century ∧
      day - 36524 * century ≤ 36524 ∧ (century < 3 → day - 36524 * century ≤ 36523) := by omega
  generalize dayOfCentury : day - 36524 * century = inCentury at *
  generalize cycleIs : inCentury / 1461 = cycle
  have cycleBounds : 0 ≤ cycle ∧ cycle ≤ 24 ∧ 0 ≤ inCentury - 1461 * cycle ∧
      inCentury - 1461 * cycle ≤ 1460 := by omega
  generalize dayOfCycle : inCentury - 1461 * cycle = inCycle at *
  generalize yearIs : min (inCycle / 365) 3 = year
  have yearBounds : 0 ≤ year ∧ year ≤ 3 ∧ 0 ≤ inCycle - 365 * year ∧
      inCycle - 365 * year ≤ 365 ∧ (year < 3 → inCycle - 365 * year ≤ 364) := by omega
  intro notLast
  -- The next year can open a cycle, and then also a century.
  by_cases opensCycle : year = 3
  · by_cases opensCentury : cycle = 24
    · have leapYears : (100 * century + 4 * cycle + year + 1) / 4 = 25 * century + 25 := by omega
      have leapCenturies : (100 * century + 4 * cycle + year + 1) / 100 = century + 1 := by omega
      rw [leapYears, leapCenturies]
      omega
    · have leapYears : (100 * century + 4 * cycle + year + 1) / 4 = 25 * century + cycle + 1 := by
        omega
      have leapCenturies : (100 * century + 4 * cycle + year + 1) / 100 = century := by omega
      rw [leapYears, leapCenturies]
      omega
  · have leapYears : (100 * century + 4 * cycle + year + 1) / 4 = 25 * century + cycle := by omega
    have leapCenturies : (100 * century + 4 * cycle + year + 1) / 100 = century := by omega
    rw [leapYears, leapCenturies]
    omega

/-- The year, counted from March, of a day of an era. -/
theorem yearOfEra_mono {first second : Int} (positive : 0 ≤ first) (less : first ≤ second)
    (below : second < 146097) : yearOfEra first ≤ yearOfEra second := by
  have firstYear := @yearOfEra_bounds first positive (by omega)
  have firstDays := (@dayOfYear_bounds first positive (by omega)).1
  rcases Int.lt_or_le (yearOfEra second) (yearOfEra first) with later | done
  · have earlier := @lt_daysBeforeYear second (by omega) below (by omega)
    have order : daysBeforeYear (yearOfEra second + 1) ≤ daysBeforeYear (yearOfEra first) :=
      daysBeforeYear_mono (by omega)
    omega
  · exact done

theorem monthOfYear_mono {first second : Int} (le : first ≤ second) :
    monthOfYear first ≤ monthOfYear second := by
  simp only [monthOfYear]
  omega

/-- Years counted from March are in order, and within one of them the days are. -/
theorem year_lt_or_day_lt {first second : Int} (less : first < second) :
    yearOfEra (first % 146097) + first / 146097 * 400 <
        yearOfEra (second % 146097) + second / 146097 * 400 ∨
      yearOfEra (first % 146097) + first / 146097 * 400 =
          yearOfEra (second % 146097) + second / 146097 * 400 ∧
        first % 146097 - daysBeforeYear (yearOfEra (first % 146097)) <
          second % 146097 - daysBeforeYear (yearOfEra (second % 146097)) := by
  have firstYear := @yearOfEra_bounds (first % 146097) (by omega) (by omega)
  have secondYear := @yearOfEra_bounds (second % 146097) (by omega) (by omega)
  rcases Int.lt_or_le (first / 146097) (second / 146097) with eras | sameEra
  · exact Or.inl (by omega)
  · have inOrder := @yearOfEra_mono (first % 146097) (second % 146097) (by omega) (by omega)
      (by omega)
    rcases Int.lt_or_eq_of_le inOrder with earlier | same
    · exact Or.inl (by omega)
    · refine Or.inr ⟨by omega, ?_⟩
      rw [same]
      omega

/-- Within a year the months are in order, and within one of them the days are. -/
theorem month_lt_or_day_lt {first second : Int} (less : first < second) :
    monthOfYear first < monthOfYear second ∨
      monthOfYear first = monthOfYear second ∧
        first - daysBeforeMonth (monthOfYear first) <
          second - daysBeforeMonth (monthOfYear second) := by
  rcases Int.lt_or_eq_of_le (monthOfYear_mono (Int.le_of_lt less)) with earlier | same
  · exact Or.inl earlier
  · refine Or.inr ⟨same, ?_⟩
    rw [same]
    omega

/-- An earlier day has an earlier date: an earlier year, or in the same year an earlier month,
or in the same month an earlier day of the month. -/
theorem civil_lt_of_lt {first second : CalendarDay} (less : first.number < second.number) :
    first.civil.year < second.civil.year ∨
      first.civil.year = second.civil.year ∧
        (first.civil.month < second.civil.month ∨
          first.civil.month = second.civil.month ∧ first.civil.day < second.civil.day) := by
  obtain ⟨first⟩ := first
  obtain ⟨second⟩ := second
  simp only [civil] at less ⊢
  generalize leftIs : first + epochShift = left
  generalize rightIs : second + epochShift = right
  have order : left < right := by omega
  have leftDays := @dayOfYear_bounds (left % 146097) (by omega) (by omega)
  have rightDays := @dayOfYear_bounds (right % 146097) (by omega) (by omega)
  have years := year_lt_or_day_lt order
  generalize yearOfEra (left % 146097) = leftYearOfEra at *
  generalize yearOfEra (right % 146097) = rightYearOfEra at *
  generalize left % 146097 - daysBeforeYear leftYearOfEra = leftDay at *
  generalize right % 146097 - daysBeforeYear rightYearOfEra = rightDay at *
  have leftMonth := monthOfYear_bounds leftDays.1 leftDays.2
  have rightMonth := monthOfYear_bounds rightDays.1 rightDays.2
  have months := @month_lt_or_day_lt leftDay rightDay
  generalize leftDay - daysBeforeMonth (monthOfYear leftDay) = leftDayOfMonth at *
  generalize rightDay - daysBeforeMonth (monthOfYear rightDay) = rightDayOfMonth at *
  generalize monthOfYear leftDay = leftMonthOfYear at *
  generalize monthOfYear rightDay = rightMonthOfYear at *
  -- January and February close the year counted from March, and open the next one.
  split <;> split <;> omega

/-! ### Written days -/

/-- From the year 0 on an earlier day is written as an earlier text. -/
theorem textKey_lt_of_lt {first second : CalendarDay} (notBefore : 0 ≤ first.civil.year)
    (less : first.number < second.number) : first.textKey < second.textKey := by
  have dates := civil_lt_of_lt less
  have firstBounds := first.civil_bounds
  simp only [textKey]
  rw [if_neg (by omega), if_neg (by omega)]
  omega

theorem textKey_le_of_le {first second : CalendarDay} (notBefore : 0 ≤ first.civil.year)
    (le : first.number ≤ second.number) : first.textKey ≤ second.textKey := by
  rcases Int.lt_or_eq_of_le le with less | same
  · exact Nat.le_of_lt (textKey_lt_of_lt notBefore less)
  · obtain ⟨number⟩ := first
    obtain rfl : number = second.number := same
    exact Nat.le_refl _

/-- From the year 0 on the order of the texts is the order of the days. -/
theorem textKey_lt_iff {first second : CalendarDay} (firstNotBefore : 0 ≤ first.civil.year)
    (secondNotBefore : 0 ≤ second.civil.year) :
    first.textKey < second.textKey ↔ first.number < second.number := by
  refine ⟨fun less => ?_, textKey_lt_of_lt firstNotBefore⟩
  rcases Int.lt_or_le first.number second.number with order | reverse
  · exact order
  · exact absurd less (Nat.not_lt.mpr (textKey_le_of_le secondNotBefore reverse))

theorem textKey_le_iff {first second : CalendarDay} (firstNotBefore : 0 ≤ first.civil.year)
    (secondNotBefore : 0 ≤ second.civil.year) :
    first.textKey ≤ second.textKey ↔ first.number ≤ second.number := by
  rw [← Nat.not_lt, textKey_lt_iff secondNotBefore firstNotBefore, Int.not_lt]

end CalendarDay

/-! ### The days of a chain -/

namespace ChainClock

variable (clock : ChainClock)

/-- The day bucket of an epoch, counted from the one of genesis. -/
def dayIndex (epoch : Nat) : Nat := (epoch + clock.utcOffset) / clock.epochsPerDay

/-- The days between 1970 and the start of an epoch, if the calendar did not end: the day
buckets since genesis come on top of the day of genesis. -/
theorem unclamped_day (epoch : Nat) :
    (clock.genesis.seconds + (epoch * clock.secondsPerEpoch : Nat)) / secondsPerDay =
      clock.genesis.day.number + clock.dayIndex epoch := by
  have secondPositive := clock.secondsPerEpoch_pos
  have day := clock.secondsPerEpoch_mul_epochsPerDay
  have offset : clock.genesis.sinceMidnight = clock.utcOffset * clock.secondsPerEpoch +
      clock.genesis.sinceMidnight % clock.secondsPerEpoch := by
    rw [utcOffset, Nat.mul_comm, Nat.div_add_mod]
  have small := Nat.mod_lt clock.genesis.sinceMidnight secondPositive
  have split : (epoch * clock.secondsPerEpoch + clock.genesis.sinceMidnight) / secondsPerDay =
      clock.dayIndex epoch := by
    rw [dayIndex, offset, ← day, ← Nat.div_div_eq_div_mul, ← Nat.add_assoc, ← Nat.add_mul,
      Nat.add_comm, Nat.add_mul_div_right _ _ secondPositive, Nat.div_eq_of_lt small,
      Nat.zero_add]
  have midnight : clock.genesis.seconds =
      clock.genesis.day.number * secondsPerDay + clock.genesis.sinceMidnight := by
    simp only [Instant.day, Instant.sinceMidnight, secondsPerDay]
    omega
  rw [midnight, Int.add_assoc, Int.add_comm, Int.add_mul_ediv_right _ _ (by decide),
    ← Int.natCast_add, Nat.add_comm, ← split]
  omega

/-- An epoch starts on the day of genesis plus the number of its day bucket, up to the last day
of the calendar. -/
theorem number_dayOf (epoch : Nat) :
    (clock.dayOf epoch).number =
      min (clock.genesis.day.number + clock.dayIndex epoch) CalendarDay.last.number := by
  have whole := clock.unclamped_day epoch
  rw [dayOf, timeOf, Instant.later]
  split
  · rename_i inside
    show (clock.genesis.seconds + (epoch * clock.secondsPerEpoch : Nat)) / (secondsPerDay : Int) = _
    rw [← whole, Int.min_eq_left]
    simp only [Instant.lastSecond, CalendarDay.last, secondsPerDay] at inside ⊢
    omega
  · rename_i outside
    show Instant.lastSecond / (secondsPerDay : Int) = _
    rw [← whole]
    simp only [Instant.lastSecond, CalendarDay.last, secondsPerDay] at outside ⊢
    omega

/-- An epoch starts before the calendar ends, so that its time is not held at the end. -/
def InCalendar (epoch : Nat) : Prop :=
  clock.genesis.seconds + (epoch * clock.secondsPerEpoch : Nat) ≤ Instant.lastSecond

instance (epoch : Nat) : Decidable (clock.InCalendar epoch) :=
  inferInstanceAs (Decidable (_ ≤ _))

theorem number_dayOf_of_inCalendar {epoch : Nat} (dated : clock.InCalendar epoch) :
    (clock.dayOf epoch).number = clock.genesis.day.number + clock.dayIndex epoch := by
  unfold InCalendar at dated
  rw [dayOf, timeOf, Instant.later, if_pos dated]
  exact clock.unclamped_day epoch

theorem InCalendar.of_le {epoch later : Nat} (dated : clock.InCalendar later)
    (before : epoch ≤ later) : clock.InCalendar epoch := by
  have order := Nat.mul_le_mul_right clock.secondsPerEpoch before
  unfold InCalendar at *
  omega

end ChainClock

end EpochRollup
