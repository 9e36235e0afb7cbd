/-
This file shows that the date of a stored row determines its day, on every chain. Before the
year 0 the written dates are not in order, but inside the calendar no two days are written
alike. All days past the end of the calendar carry its last date, and no partition admits that
date, so it is never stored.
-/

import EpochRollup.Proofs.Sound

namespace EpochRollup

namespace CalendarDay

/-- A day lies in the calendar. -/
def InCalendar (day : CalendarDay) : Prop := first.number ≤ day.number ∧ day.number ≤ last.number

variable {day other : CalendarDay}

/-- The years of the calendar have four digits. -/
theorem InCalendar.year (inside : day.InCalendar) :
    -9999 ≤ day.civil.year ∧ day.civil.year ≤ 9999 := by
  have firstYear : first.civil.year = -9999 := by decide
  have lastYear : last.civil.year = 9999 := by decide
  obtain ⟨after, before⟩ := inside
  refine ⟨?_, ?_⟩
  · rcases Int.lt_or_eq_of_le after with less | same
    · have dates := civil_lt_of_lt less
      omega
    · obtain rfl : first = day := congrArg mk same
      omega
  · rcases Int.lt_or_eq_of_le before with less | same
    · have dates := civil_lt_of_lt less
      omega
    · obtain rfl : day = last := congrArg mk same
      omega

/-- No two days of the calendar are written alike. -/
theorem InCalendar.eq_of_textKey (inside : day.InCalendar) (otherInside : other.InCalendar)
    (same : day.textKey = other.textKey) : day = other := by
  have year := inside.year
  have otherYear := otherInside.year
  have bounds := day.civil_bounds
  have otherBounds := other.civil_bounds
  refine civil_injective ?_
  simp only [textKey] at same
  generalize day.civil = date at *
  generalize other.civil = otherDate at *
  obtain ⟨leftYear, leftMonth, leftDay⟩ := date
  obtain ⟨rightYear, rightMonth, rightDay⟩ := otherDate
  simp only [CivilDate.mk.injEq] at *
  split at same <;> split at same <;> omega

/-- The last day is written behind all others. -/
theorem InCalendar.textKey_le_last (inside : day.InCalendar) : day.textKey ≤ last.textKey := by
  have year := inside.year
  have bounds := day.civil_bounds
  have lastKey : last.textKey = 1099991231 := by decide
  rw [lastKey, textKey]
  split <;> omega

end CalendarDay

namespace ChainClock

/-- The days of a chain lie in the calendar. -/
theorem inCalendar_dayOf (clock : ChainClock) (epoch : Nat) :
    (clock.dayOf epoch).InCalendar := by
  have number := clock.number_dayOf epoch
  have genesis : CalendarDay.first.number ≤ clock.genesis.day.number := by
    have after := clock.genesis_inCalendar.1
    show -4371587 ≤ clock.genesis.seconds / (secondsPerDay : Int)
    simp only [Instant.firstSecond, secondsPerDay] at after ⊢
    omega
  have ordered : CalendarDay.first.number ≤ CalendarDay.last.number := by decide
  unfold CalendarDay.InCalendar
  omega

end ChainClock

namespace Tables.Sound

variable {layout : BucketLayout} {tables after : Tables}

/-- A row that is stored is dated before the end of the calendar. -/
theorem dated (sound : tables.Sound layout) {row : DailyRow} (member : row ∈ tables.daily) :
    ∃ epoch, row.start = (layout.bucketAt .daily epoch).start ∧
      row.day = layout.clock.dayOf (layout.bucketAt .daily epoch).start ∧
      row.day.InCalendar ∧ row.day ≠ CalendarDay.last := by
  obtain ⟨admitted, epoch, start, day⟩ := sound.days row member
  refine ⟨epoch, start, day, day ▸ layout.clock.inCalendar_dayOf _, fun lastDay => ?_⟩
  obtain ⟨range, days, listed, -, before⟩ := admitsDay_iff.mp admitted
  obtain ⟨other, same⟩ := sound.partitions _ listed
  cases same
  -- No date is written behind the last one.
  have upTo := (layout.clock.inCalendar_dayOf
    (layout.partitionRangeAt .daily other).stop).textKey_le_last
  rw [lastDay] at before
  exact Nat.lt_irrefl _ (Nat.lt_of_lt_of_le before upTo)

/-- Stored rows with one date are rows of one day. -/
theorem start_eq_of_textKey (sound : tables.Sound layout) (afterSound : after.Sound layout)
    {row other : DailyRow} (member : row ∈ tables.daily) (otherMember : other ∈ after.daily)
    (same : row.day.textKey = other.day.textKey) : row.start = other.start := by
  obtain ⟨epoch, start, day, inside, notLast⟩ := sound.dated member
  obtain ⟨otherEpoch, otherStart, otherDay, otherInside, -⟩ := afterSound.dated otherMember
  have days := inside.eq_of_textKey otherInside same
  have number := layout.clock.number_dayOf (layout.bucketAt .daily epoch).start
  have otherNumber := layout.clock.number_dayOf (layout.bucketAt .daily otherEpoch).start
  have early : row.day.number ≠ CalendarDay.last.number :=
    fun last => notLast (congrArg CalendarDay.mk last)
  rw [← day] at number
  rw [← otherDay, ← days] at otherNumber
  have index : layout.clock.dayIndex (layout.bucketAt .daily epoch).start =
      layout.clock.dayIndex (layout.bucketAt .daily otherEpoch).start := by omega
  -- Days that are counted alike are one bucket.
  have buckets : layout.bucketAt .daily (layout.bucketAt .daily epoch).start =
      layout.bucketAt .daily (layout.bucketAt .daily otherEpoch).start := by
    have positive := layout.width_pos .daily
    obtain ⟨lower, upper⟩ := (EpochRange.mem_aligned_iff positive
      (layout.bucketAt .daily otherEpoch).start (layout.bucketAt .daily epoch).start).mpr index
    exact EpochRange.aligned_eq_of_mem positive lower upper
  rw [layout.bucketAt_start, layout.bucketAt_start] at buckets
  rw [start, otherStart, buckets]

end Tables.Sound

end EpochRollup
