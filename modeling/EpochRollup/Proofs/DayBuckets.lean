/-
This file proves that day buckets and calendar days are the same days. Buckets are floored in
epochs, from a genesis offset that is itself floored to whole epochs; calendar days are floored
in seconds. The day index of an epoch is where the two meet: buckets are told apart by it, and
as long as the calendar lasts the day of an epoch is the day of genesis plus the index
(`ChainClock.number_dayOf_of_inCalendar`). Partitions hold a fixed number of consecutive
indices, so they cover that many days, and the days of their epochs only.
-/

import EpochRollup.Proofs.Days

namespace EpochRollup

theorem CalendarDay.number_inj {first second : CalendarDay} :
    first.number = second.number ↔ first = second := by
  obtain ⟨first⟩ := first
  obtain ⟨second⟩ := second
  rw [CalendarDay.mk.injEq]

namespace ChainClock

variable {clock : ChainClock}

theorem dayIndex_mono {epoch later : Nat} (before : epoch ≤ later) :
    clock.dayIndex epoch ≤ clock.dayIndex later :=
  Nat.div_le_div_right (Nat.add_le_add_right before _)

/-- Inside the calendar the day index tells days apart. -/
theorem dayOf_eq_iff {epoch other : Nat} (dated : clock.InCalendar epoch)
    (otherDated : clock.InCalendar other) :
    clock.dayOf epoch = clock.dayOf other ↔ clock.dayIndex epoch = clock.dayIndex other := by
  have here := clock.number_dayOf_of_inCalendar dated
  have there := clock.number_dayOf_of_inCalendar otherDated
  rw [← CalendarDay.number_inj]
  omega

/-- Days never go back, not even at the end of the calendar. -/
theorem number_dayOf_mono {epoch later : Nat} (before : epoch ≤ later) :
    (clock.dayOf epoch).number ≤ (clock.dayOf later).number := by
  have index := clock.dayIndex_mono before
  rw [number_dayOf, number_dayOf]
  omega

end ChainClock

namespace BucketLayout

variable (layout : BucketLayout)

/-- The day index tells day buckets apart. -/
theorem bucketAt_daily_eq_iff (epoch other : Nat) :
    layout.bucketAt .daily epoch = layout.bucketAt .daily other ↔
      layout.clock.dayIndex epoch = layout.clock.dayIndex other := by
  have positive := layout.width_pos .daily
  constructor
  · intro same
    have inside : (layout.bucketAt .daily other).start ≤ epoch ∧
        epoch < (layout.bucketAt .daily other).stop := by
      rw [← same]
      exact ⟨EpochRange.start_aligned_le positive epoch, EpochRange.lt_stop_aligned positive epoch⟩
    exact (EpochRange.mem_aligned_iff positive other epoch).mp inside
  · intro same
    obtain ⟨after, before⟩ := (EpochRange.mem_aligned_iff positive other epoch).mpr same
    exact EpochRange.aligned_eq_of_mem positive after before

theorem dayIndex_stop_bucketAt (epoch : Nat) :
    layout.clock.dayIndex (layout.bucketAt .daily epoch).stop =
      layout.clock.dayIndex epoch + 1 :=
  EpochRange.quotient_stop (layout.width_pos .daily) epoch

/-- Day buckets and calendar days agree. Two epochs start on one calendar day exactly when they
have one day bucket; days do not go back; the epoch after a bucket starts on the next day; a
daily partition covers as many days as it holds buckets, and the day of an epoch exactly when
it holds the epoch. Each part asks that the times it is about are inside the calendar. -/
theorem dayOf_agrees_bucket {first second : Nat} {firstDay secondDay : EpochRange}
    (firstBucket : layout.bucket .daily first = .ok firstDay)
    (secondBucket : layout.bucket .daily second = .ok secondDay)
    (firstDated : layout.clock.InCalendar first)
    (secondDated : layout.clock.InCalendar second) :
    (layout.clock.dayOf first = layout.clock.dayOf second ↔ firstDay = secondDay) ∧
      (first ≤ second → (layout.clock.dayOf first).number ≤ (layout.clock.dayOf second).number) ∧
      (layout.clock.InCalendar firstDay.stop →
        (layout.clock.dayOf firstDay.stop).number = (layout.clock.dayOf first).number + 1) ∧
      ∀ span : EpochRange, layout.partitionRange .daily first = .ok span →
        layout.clock.InCalendar span.stop →
          (layout.days span).stop.number =
              (layout.days span).start.number + layout.dailyPartitionBuckets ∧
            (((layout.days span).start.number ≤ (layout.clock.dayOf second).number ∧
                (layout.clock.dayOf second).number < (layout.days span).stop.number) ↔
              span.contains second = true) := by
  obtain rfl := layout.bucket_eq_ok firstBucket
  obtain rfl := layout.bucket_eq_ok secondBucket
  refine ⟨?_, ChainClock.number_dayOf_mono, fun stopDated => ?_, fun span held stopDated => ?_⟩
  · rw [ChainClock.dayOf_eq_iff firstDated secondDated, bucketAt_daily_eq_iff]
  · rw [ChainClock.number_dayOf_of_inCalendar _ stopDated,
      ChainClock.number_dayOf_of_inCalendar _ firstDated, dayIndex_stop_bucketAt]
    omega
  · obtain rfl := layout.partitionRange_eq_ok held
    have proper : (layout.partitionRangeAt .daily first).start <
        (layout.partitionRangeAt .daily first).stop :=
      EpochRange.start_aligned_lt_stop (layout.partitionSpan_pos .daily) first
    have start := layout.clock.number_dayOf_of_inCalendar
      (stopDated.of_le layout.clock (Nat.le_of_lt proper))
    have stop := layout.clock.number_dayOf_of_inCalendar stopDated
    have here := layout.clock.number_dayOf_of_inCalendar secondDated
    obtain ⟨startIndex, stopIndex⟩ := layout.dayIndex_partition first
    rw [EpochRange.contains_iff, mem_partitionRangeAt_daily_iff]
    dsimp only [days]
    omega

end BucketLayout

namespace HalfPastSecond

/-- A chain that begins half a second past nine twenty-three in the morning, with epochs of 384
seconds. The offset of 88 epochs leaves the last eight seconds before genesis out. -/
def layout : BucketLayout :=
  .ofNumbers ⟨1704101000, 500000000⟩ 12 32 10 20 3 (by decide)

end HalfPastSecond

open HalfPastSecond in
/-- The last epoch of the short first day and the first one of the next day. -/
theorem dayOf_agrees_bucket_short_day :
    layout.bucket .daily 136 = .ok ⟨0, 137⟩ ∧ layout.bucket .daily 137 = .ok ⟨137, 362⟩ ∧
      layout.partitionRange .daily 136 = .ok ⟨0, 587⟩ ∧ layout.clock.InCalendar 587 ∧
      layout.clock.dayOf 136 ≠ layout.clock.dayOf 137 ∧
      (layout.clock.dayOf 137).number = (layout.clock.dayOf 136).number + 1 ∧
      (layout.days ⟨0, 587⟩).stop.number = (layout.days ⟨0, 587⟩).start.number + 3 ∧
      (layout.clock.dayOf 137).number < (layout.days ⟨0, 587⟩).stop.number := by
  obtain ⟨same, -, next, span⟩ :=
    @BucketLayout.dayOf_agrees_bucket layout 136 137 ⟨0, 137⟩ ⟨137, 362⟩ rfl rfl (by decide)
      (by decide)
  obtain ⟨long, within⟩ := span ⟨0, 587⟩ rfl (by decide)
  exact ⟨rfl, rfl, rfl, by decide, fun equal => absurd (same.mp equal) (by decide),
    next (by decide), long, (within.mpr rfl).2⟩

end EpochRollup
