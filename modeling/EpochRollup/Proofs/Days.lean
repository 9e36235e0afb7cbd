/-
This file says which days a daily partition covers. The store compares days as texts and the
layout counts epochs, and on a chain that starts in the year 0 or later the two agree: a
partition covers the day of an epoch exactly when it holds the epoch, as long as the day is
not the last one of the calendar. No row is ever admitted on that day, so nothing that is
stored is an exception.
-/

import EpochRollup.Proofs.Calendar
import EpochRollup.Proofs.Layout
import EpochRollup.Proofs.Name

namespace EpochRollup

namespace ChainClock

/-- The chain starts in the year 0 or later. -/
def FromYearZero (clock : ChainClock) : Prop := 0 ≤ clock.genesis.day.civil.year

variable {clock : ChainClock}

theorem utcOffset_lt (clock : ChainClock) : clock.utcOffset < clock.epochsPerDay := by
  have day := clock.secondsPerEpoch_mul_epochsPerDay
  rw [utcOffset, Nat.div_lt_iff_lt_mul clock.secondsPerEpoch_pos, Nat.mul_comm, day]
  simp only [Instant.sinceMidnight, secondsPerDay]
  omega

theorem FromYearZero.year_dayOf (years : clock.FromYearZero) (epoch : Nat) :
    0 ≤ (clock.dayOf epoch).civil.year := by
  have number := clock.number_dayOf epoch
  rcases Int.lt_or_le clock.genesis.day.number (clock.dayOf epoch).number with after | before
  · have dates := CalendarDay.civil_lt_of_lt after
    unfold FromYearZero at years
    omega
  · -- The day of genesis itself, or the last day of the calendar.
    have either : (clock.dayOf epoch).number = clock.genesis.day.number ∨
        (clock.dayOf epoch).number = CalendarDay.last.number := by omega
    rcases either with same | same
    · rw [show clock.dayOf epoch = clock.genesis.day from congrArg CalendarDay.mk same]
      exact years
    · rw [show clock.dayOf epoch = CalendarDay.last from congrArg CalendarDay.mk same]
      decide

/-- The order of stored days is the order of the days. -/
theorem FromYearZero.textKey_lt_iff (years : clock.FromYearZero) (first second : Nat) :
    (clock.dayOf first).textKey < (clock.dayOf second).textKey ↔
      (clock.dayOf first).number < (clock.dayOf second).number :=
  CalendarDay.textKey_lt_iff (years.year_dayOf first) (years.year_dayOf second)

theorem FromYearZero.textKey_le_iff (years : clock.FromYearZero) (first second : Nat) :
    (clock.dayOf first).textKey ≤ (clock.dayOf second).textKey ↔
      (clock.dayOf first).number ≤ (clock.dayOf second).number :=
  CalendarDay.textKey_le_iff (years.year_dayOf first) (years.year_dayOf second)

end ChainClock

namespace BucketLayout

variable {layout : BucketLayout}

/-- The day buckets of a partition are as many as it holds, from a multiple of that on. -/
theorem dayIndex_partition (layout : BucketLayout) (epoch : Nat) :
    layout.clock.dayIndex (layout.partitionRangeAt .daily epoch).start =
        layout.clock.dayIndex epoch / layout.dailyPartitionBuckets *
          layout.dailyPartitionBuckets ∧
      layout.clock.dayIndex (layout.partitionRangeAt .daily epoch).stop =
        layout.clock.dayIndex epoch / layout.dailyPartitionBuckets *
          layout.dailyPartitionBuckets + layout.dailyPartitionBuckets := by
  have offset := layout.clock.utcOffset_lt
  have positive := layout.clock.epochsPerDay_pos
  have held := layout.dailyPartitionBuckets_pos
  have start : (layout.partitionRangeAt .daily epoch).start =
      layout.clock.dayIndex epoch / layout.dailyPartitionBuckets *
        layout.dailyPartitionBuckets * layout.clock.epochsPerDay - layout.clock.utcOffset := by
    rw [ChainClock.dayIndex, Nat.div_div_eq_div_mul, Nat.mul_assoc,
      Nat.mul_comm layout.dailyPartitionBuckets]
    rfl
  have stop : (layout.partitionRangeAt .daily epoch).stop =
      (layout.clock.dayIndex epoch / layout.dailyPartitionBuckets *
        layout.dailyPartitionBuckets + layout.dailyPartitionBuckets) *
          layout.clock.epochsPerDay - layout.clock.utcOffset := by
    rw [ChainClock.dayIndex, Nat.div_div_eq_div_mul, Nat.add_mul, Nat.mul_assoc,
      Nat.mul_comm layout.dailyPartitionBuckets]
    rfl
  generalize layout.clock.dayIndex epoch / layout.dailyPartitionBuckets = index at *
  rw [start, stop, ChainClock.dayIndex, ChainClock.dayIndex]
  constructor
  · rcases Nat.eq_zero_or_pos index with zero | later
    · rw [zero, Nat.zero_mul, Nat.zero_mul, Nat.zero_sub, Nat.zero_add, Nat.div_eq_of_lt offset]
    · have far : layout.clock.epochsPerDay ≤
          index * layout.dailyPartitionBuckets * layout.clock.epochsPerDay :=
        Nat.le_mul_of_pos_left _ (Nat.mul_pos later held)
      rw [Nat.sub_add_cancel (by omega), Nat.mul_div_cancel _ positive]
  · have far : layout.clock.epochsPerDay ≤
        (index * layout.dailyPartitionBuckets + layout.dailyPartitionBuckets) *
          layout.clock.epochsPerDay := Nat.le_mul_of_pos_left _ (by omega)
    rw [Nat.sub_add_cancel (by omega), Nat.mul_div_cancel _ positive]

/-- An epoch lies in a daily partition exactly when its day bucket does. -/
theorem mem_partitionRangeAt_daily_iff (epoch other : Nat) :
    ((layout.partitionRangeAt .daily epoch).start ≤ other ∧
        other < (layout.partitionRangeAt .daily epoch).stop) ↔
      layout.clock.dayIndex (layout.partitionRangeAt .daily epoch).start ≤
          layout.clock.dayIndex other ∧
        layout.clock.dayIndex other <
          layout.clock.dayIndex (layout.partitionRangeAt .daily epoch).stop := by
  have held := layout.dailyPartitionBuckets_pos
  obtain ⟨start, stop⟩ := layout.dayIndex_partition epoch
  have quotient : (other + layout.shift .daily) / layout.partitionSpan .daily =
      (epoch + layout.shift .daily) / layout.partitionSpan .daily ↔
      layout.clock.dayIndex other / layout.dailyPartitionBuckets =
        layout.clock.dayIndex epoch / layout.dailyPartitionBuckets := by
    rw [ChainClock.dayIndex, ChainClock.dayIndex, Nat.div_div_eq_div_mul,
      Nat.div_div_eq_div_mul]
    rfl
  rw [partitionRangeAt, EpochRange.mem_aligned_iff (layout.partitionSpan_pos .daily), quotient,
    ← partitionRangeAt, start, stop, Nat.div_eq_iff held]
  generalize layout.clock.dayIndex epoch / layout.dailyPartitionBuckets *
    layout.dailyPartitionBuckets = first
  omega

/-- A partition covers the day of an epoch exactly when it holds the epoch. -/
theorem covers_dayOf_iff (years : layout.clock.FromYearZero) {epoch other : Nat}
    (beforeLast : (layout.clock.dayOf other).number < CalendarDay.last.number) :
    ((layout.days (layout.partitionRangeAt .daily epoch)).start.textKey ≤
          (layout.clock.dayOf other).textKey ∧
        (layout.clock.dayOf other).textKey <
          (layout.days (layout.partitionRangeAt .daily epoch)).stop.textKey) ↔
      (layout.partitionRangeAt .daily epoch).start ≤ other ∧
        other < (layout.partitionRangeAt .daily epoch).stop := by
  have start := layout.clock.number_dayOf (layout.partitionRangeAt .daily epoch).start
  have stop := layout.clock.number_dayOf (layout.partitionRangeAt .daily epoch).stop
  have here := layout.clock.number_dayOf other
  rw [mem_partitionRangeAt_daily_iff, days, years.textKey_le_iff, years.textKey_lt_iff]
  omega

/-- A day that some partition covers is not the last one of the calendar. -/
theorem number_lt_last_of_covered (years : layout.clock.FromYearZero) {epoch other : Nat}
    (covered : (layout.clock.dayOf other).textKey < (layout.clock.dayOf epoch).textKey) :
    (layout.clock.dayOf other).number < CalendarDay.last.number := by
  have limit := layout.clock.number_dayOf epoch
  have less := (years.textKey_lt_iff other epoch).mp covered
  omega

/-- A written date tells the day bucket, unless it is the last one of the calendar. -/
theorem bucketAt_daily_eq_of_textKey (years : layout.clock.FromYearZero) {epoch other : Nat}
    (beforeLast : (layout.clock.dayOf epoch).number < CalendarDay.last.number)
    (same : (layout.clock.dayOf other).textKey = (layout.clock.dayOf epoch).textKey) :
    layout.bucketAt .daily other = layout.bucketAt .daily epoch := by
  have here := layout.clock.number_dayOf epoch
  have there := layout.clock.number_dayOf other
  have upper := (years.textKey_le_iff other epoch).mp (Nat.le_of_eq same)
  have lower := (years.textKey_le_iff epoch other).mp (Nat.le_of_eq same.symm)
  have quotient : (other + layout.clock.utcOffset) / layout.clock.epochsPerDay =
      (epoch + layout.clock.utcOffset) / layout.clock.epochsPerDay := by
    show layout.clock.dayIndex other = layout.clock.dayIndex epoch
    omega
  show EpochRange.aligned layout.clock.utcOffset layout.clock.epochsPerDay other =
    EpochRange.aligned layout.clock.utcOffset layout.clock.epochsPerDay epoch
  unfold EpochRange.aligned
  rw [quotient]

/-- The day bucket that a daily partition stops before tells the partition. -/
theorem partitionAt_daily_eq_of_stop {epoch other : Nat}
    (same : layout.clock.dayIndex (layout.partitionRangeAt .daily other).stop =
      layout.clock.dayIndex (layout.partitionRangeAt .daily epoch).stop) :
    layout.partitionAt .daily other = layout.partitionAt .daily epoch := by
  have held := layout.dailyPartitionBuckets_pos
  obtain ⟨start, stop⟩ := layout.dayIndex_partition epoch
  obtain ⟨-, otherStop⟩ := layout.dayIndex_partition other
  have inside : layout.clock.dayIndex other / layout.dailyPartitionBuckets *
      layout.dailyPartitionBuckets ≤ layout.clock.dayIndex other := Nat.div_mul_le_self _ _
  have within : layout.clock.dayIndex other < layout.clock.dayIndex other /
      layout.dailyPartitionBuckets * layout.dailyPartitionBuckets +
        layout.dailyPartitionBuckets := Nat.lt_div_mul_add held
  exact layout.partitionAt_eq_iff.mpr
    ((layout.mem_partitionRangeAt_daily_iff epoch other).mpr ⟨by omega, by omega⟩)

/-- Daily partitions with one name stop on one day of the calendar. -/
theorem number_stop_of_name {epoch other : Nat}
    (same : (layout.partitionAt .daily other).name = (layout.partitionAt .daily epoch).name) :
    (layout.clock.dayOf (layout.partitionRangeAt .daily other).stop).number =
      (layout.clock.dayOf (layout.partitionRangeAt .daily epoch).stop).number :=
  congrArg (CalendarDay.number ∘ DayRange.stop) (Partition.daily_name_inj.mp same)

/-- A partition name tells the partition, unless it ends on the last day of the calendar. -/
theorem partitionAt_daily_eq_of_name {epoch other : Nat}
    (beforeLast : (layout.clock.dayOf (layout.partitionRangeAt .daily epoch).stop).number <
      CalendarDay.last.number)
    (same : (layout.partitionAt .daily other).name = (layout.partitionAt .daily epoch).name) :
    layout.partitionAt .daily other = layout.partitionAt .daily epoch := by
  have numbers := number_stop_of_name same
  have here := layout.clock.number_dayOf (layout.partitionRangeAt .daily epoch).stop
  have there := layout.clock.number_dayOf (layout.partitionRangeAt .daily other).stop
  exact partitionAt_daily_eq_of_stop (by omega)

/-- A partition that ends by an epoch ends by the start of its day. -/
theorem stop_partition_le_start {epoch other : Nat}
    (past : (layout.partitionRangeAt .daily epoch).stop ≤ other) :
    (layout.partitionRangeAt .daily epoch).stop ≤ (layout.bucketAt .daily other).start := by
  have positive := layout.partitionSpan_pos .daily
  have same : layout.partitionAt .daily (layout.bucketAt .daily other).start =
      layout.partitionAt .daily other :=
    layout.partitionAt_eq_of_mem_bucket (Nat.le_refl _)
      (EpochRange.start_aligned_lt_stop (layout.width_pos .daily) other)
  have ranges := congrArg Partition.range same
  rw [range_partitionAt, range_partitionAt] at ranges
  have before : (layout.partitionRangeAt .daily (layout.bucketAt .daily other).start).start ≤
      (layout.bucketAt .daily other).start := EpochRange.start_aligned_le positive _
  rw [ranges] at before
  exact Nat.le_trans (EpochRange.stop_aligned_le_start_aligned positive past) before

end BucketLayout

end EpochRollup
