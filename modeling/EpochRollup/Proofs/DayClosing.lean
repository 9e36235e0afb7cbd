/-
This file proves that a day closes with its last hour. Hours are counted from genesis and days
from midnight, so an hour may run past midnight by any amount, and the day of genesis may be
shorter than an hour. The hour of the last epoch of a day is always the last one that starts on
it (`BucketLayout.isLastHour`), and its end is the epoch at which a fold takes the day for closed.

What a fold records for a day is what the latest hour of the day covers. The recorded coverage
reaches the closing epoch only with the coverage of the last hour itself: an earlier hour ends by
the start of the last one, and rows of the day that are left from earlier folds are backed by
hours that are still stored.
-/

import EpochRollup.Proofs.DailyRetention
import EpochRollup.Proofs.HeadDay
import EpochRollup.Proofs.Words

namespace EpochRollup

/-! ### The last hour of a day -/

namespace BucketLayout

variable (layout : BucketLayout)

/-- The hour of the last epoch of a day. -/
def lastHour (day : EpochRange) : EpochRange := layout.bucketAt .hourly (day.stop - 1)

/-- An hour is the last one that starts on a day. -/
structure IsLastHour (day last : EpochRange) : Prop where
  /-- It starts on the day. -/
  starts : day.contains last.start = true
  /-- It holds the last epoch of the day. -/
  holds : last.contains (day.stop - 1) = true
  /-- Every hour that starts on the day starts no later, and ends no later. -/
  latest : ∀ epoch hour, layout.bucket .hourly epoch = .ok hour →
    day.contains hour.start = true → hour.start ≤ last.start ∧ hour.stop ≤ last.stop

theorem stop_lastHour (day : EpochRange) :
    (layout.lastHour day).stop = (layout.lastHour day).start + layout.hourlyWidth := rfl

theorem isHourStart_lastHour (day : EpochRange) :
    IsHourStart layout.hourlyWidth (layout.lastHour day).start := layout.isHourStart_bucketAt _

/-- The last hour of a day is no longer than the day, unless the day is the one of genesis, and
that day begins with an hour. -/
theorem lastHour_starts (epoch : Nat) :
    (layout.bucketAt .daily epoch).start ≤
        (layout.lastHour (layout.bucketAt .daily epoch)).start ∧
      (layout.lastHour (layout.bucketAt .daily epoch)).start <
        (layout.bucketAt .daily epoch).stop := by
  have fits := layout.hourlyWidth_le
  have proper : (layout.bucketAt .daily epoch).start < (layout.bucketAt .daily epoch).stop :=
    EpochRange.start_aligned_lt_stop (layout.width_pos .daily) epoch
  have first := layout.start_bucketAt_le .hourly ((layout.bucketAt .daily epoch).stop - 1)
  have past := layout.lt_stop_bucketAt .hourly ((layout.bucketAt .daily epoch).stop - 1)
  rw [layout.stop_bucketAt_hourly] at past
  unfold lastHour
  refine ⟨?_, by omega⟩
  rcases Nat.eq_zero_or_pos (layout.bucketAt .daily epoch).start with genesis | later
  · omega
  · have whole : (layout.bucketAt .daily epoch).stop =
        (layout.bucketAt .daily epoch).start + layout.clock.epochsPerDay :=
      EpochRange.stop_aligned_of_pos later
    omega

/-- The hour of the last epoch of a day is the last one that starts on it. -/
theorem isLastHour (epoch : Nat) :
    layout.IsLastHour (layout.bucketAt .daily epoch)
      (layout.lastHour (layout.bucketAt .daily epoch)) where
  starts := (EpochRange.contains_iff _ _).mpr (layout.lastHour_starts epoch)
  holds := (EpochRange.contains_iff _ _).mpr
    ⟨layout.start_bucketAt_le .hourly _, layout.lt_stop_bucketAt .hourly _⟩
  latest := by
    intro other hour found starts
    obtain rfl := layout.bucket_eq_ok found
    obtain ⟨-, before⟩ := (EpochRange.contains_iff _ _).mp starts
    have upTo := layout.start_bucketAt_mono .hourly (Nat.le_sub_one_of_lt before)
    rw [layout.bucketAt_start] at upTo
    exact ⟨upTo, Nat.add_le_add_right upTo layout.hourlyWidth⟩

variable {layout} {epoch : Nat}

/-- The last hour of a day is found unless it ends past the last word. -/
theorem bucket_lastHour {day : EpochRange} (bounds : layout.bucket .daily epoch = .ok day) :
    layout.bucket .hourly (day.stop - 1) =
      if (layout.lastHour day).stop < wordLimit then .ok (layout.lastHour day)
      else .error .add := by
  have shift : layout.shift .hourly = 0 := rfl
  obtain ⟨word, rfl⟩ := (alignedRange_eq_ok_iff_stop (layout.width_pos .daily)).mp bounds
  exact alignedRange_eq_ite layout.hourlyWidth_pos (by omega)

/-- A day closes with its last hour. -/
theorem closesAt_daily {day : EpochRange} (bounds : layout.bucket .daily epoch = .ok day) :
    layout.closesAt .daily day =
      if (layout.lastHour day).stop < wordLimit then .ok (layout.lastHour day).stop
      else .error .add := by
  unfold closesAt
  dsimp only
  rw [bucket_lastHour bounds]
  split <;> rfl

/-- The last hour of the day of a stored epoch ends before the last word. -/
theorem stop_lastHour_lt (stored : epoch < storedLimit) :
    (layout.lastHour (layout.bucketAt .daily epoch)).stop < wordLimit := by
  have limits : wordLimit = 2 * storedLimit := by decide
  have seconds : 3 * secondsPerDay ≤ storedLimit := by decide
  have hours := layout.width_le .hourly
  have days := layout.width_le .daily
  have first := layout.start_bucketAt_le .daily epoch
  have length : (layout.bucketAt .daily epoch).stop ≤
      (layout.bucketAt .daily epoch).start + layout.width .daily := EpochRange.stop_aligned_le epoch
  have last := (layout.lastHour_starts epoch).2
  have width : layout.width .hourly = layout.hourlyWidth := rfl
  rw [stop_lastHour]
  omega

/-- Stored epochs have their buckets. -/
theorem bucket_of_stored (granularity : Granularity) (stored : epoch < storedLimit) :
    layout.bucket granularity epoch = .ok (layout.bucketAt granularity epoch) := by
  have limits : wordLimit = 2 * storedLimit := by decide
  have seconds : 3 * secondsPerDay ≤ storedLimit := by decide
  have shift := layout.shift_lt_width granularity
  have width := layout.width_le granularity
  exact alignedRange_of_lt (by omega)

/-- An epoch lies in one day only. -/
theorem contains_iff_eq_own {start : Nat} {day own : EpochRange}
    (bounds : layout.bucket .daily epoch = .ok day)
    (ownBounds : layout.bucket .daily start = .ok own) :
    day.contains start = true ↔ day = own := by
  obtain rfl := layout.bucket_eq_ok bounds
  obtain rfl := layout.bucket_eq_ok ownBounds
  rw [EpochRange.contains_iff]
  constructor
  · rintro ⟨after, before⟩
    exact (EpochRange.aligned_eq_of_mem (layout.width_pos .daily) after before).symm
  · intro same
    rw [same]
    exact ⟨layout.start_bucketAt_le .daily start, layout.lt_stop_bucketAt .daily start⟩

end BucketLayout

/-! ### Coverage of the last hour -/

namespace Tables

variable {layout : BucketLayout} {tables after : Tables} {epoch : Nat}

/-- An hour is covered to its end when a row of it is. -/
theorem Steady.coverage_eq_stop_iff (steady : tables.Steady layout) (day : EpochRange) :
    EmbeddedStore.coverage tables (layout.lastHour day).start =
        some ((layout.lastHour day).stop : Int) ↔
      ∃ hour ∈ tables.hourly, hour.start = (layout.lastHour day).start ∧
        (layout.lastHour day).stop ≤ hour.stop := by
  have stop := layout.stop_lastHour day
  unfold EmbeddedStore.coverage
  rw [List.max?_eq_some_iff]
  constructor
  · rintro ⟨covered, -⟩
    obtain ⟨hour, filtered, same⟩ := List.mem_map.mp covered
    obtain ⟨member, start⟩ := List.mem_filter.mp filtered
    exact ⟨hour, member, of_decide_eq_true start, Int.le_of_eq same.symm⟩
  · rintro ⟨hour, member, start, reached⟩
    -- No row covers more than its hour.
    have upTo {other : HourlyRow} (member : other ∈ tables.hourly)
        (start : other.start = (layout.lastHour day).start) :
        other.stop ≤ (layout.lastHour day).stop := by
      have near := (steady.hours other member).2.1
      omega
    refine ⟨List.mem_map.mpr ⟨hour, List.mem_filter.mpr ⟨member, decide_eq_true start⟩,
      Int.le_antisymm (upTo member start) reached⟩, fun covered coveredMember => ?_⟩
    obtain ⟨other, filtered, rfl⟩ := List.mem_map.mp coveredMember
    obtain ⟨otherMember, otherStart⟩ := List.mem_filter.mp filtered
    exact upTo otherMember (of_decide_eq_true otherStart)

/-- Only the last hour of a day covers as much as closes the day. -/
theorem Steady.covered_of_closing (steady : tables.Steady layout) {hour : HourlyRow}
    (member : hour ∈ hoursIn tables.hourly (layout.bucketAt .daily epoch))
    (reached : (layout.lastHour (layout.bucketAt .daily epoch)).stop ≤ hour.stop) :
    EmbeddedStore.coverage tables (layout.lastHour (layout.bucketAt .daily epoch)).start =
      some ((layout.lastHour (layout.bucketAt .daily epoch)).stop : Int) := by
  obtain ⟨stored, -, before⟩ := mem_hoursIn.mp member
  have lastStarts := layout.isHourStart_lastHour (layout.bucketAt .daily epoch)
  have hourStarts := steady.sound.isHourStart stored
  have stop := layout.stop_lastHour (layout.bucketAt .daily epoch)
  have near := (steady.hours hour stored).2.1
  have holds := (EpochRange.contains_iff _ _).mp (layout.isLastHour epoch).holds
  have upTo := hourStarts.le_of_lt lastStarts (by omega)
  exact (steady.coverage_eq_stop_iff _).mpr ⟨hour, stored, by omega, reached⟩

/-- At any time the latest day is taken for closed only while its last hour is covered. -/
theorem Steady.covered_of_isClosed (steady : tables.Steady layout) (backed : tables.Backed layout)
    {latest : EpochRange}
    (latestIs : tables.lastDaily?.map EmbeddedStore.boundsOfStored = some latest)
    (closed : isClosed (some latest) (layout.bucketAt .daily epoch)
      (layout.lastHour (layout.bucketAt .daily epoch)).stop = true) :
    EmbeddedStore.coverage tables (layout.lastHour (layout.bucketAt .daily epoch)).start =
      some ((layout.lastHour (layout.bucketAt .daily epoch)).stop : Int) := by
  obtain ⟨range, same, begins, reached⟩ := isClosed_iff.mp closed
  cases same
  obtain ⟨row, member, rfl, most⟩ := exists_row_of_latestBounds latestIs
  have positive := layout.hourlyWidth_pos
  have stop := layout.stop_lastHour (layout.bucketAt .daily epoch)
  have begins : row.start.toNat = (layout.bucketAt .daily epoch).start := begins
  have reached : (layout.lastHour (layout.bucketAt .daily epoch)).stop ≤ row.stop.toNat := reached
  rcases backed row member with ⟨later, laterMember, after⟩ | ⟨hour, hourMember, covered⟩
  · have notAfter := most later laterMember
    omega
  · rw [begins, layout.bucketAt_start] at hourMember
    exact steady.covered_of_closing hourMember (by omega)

/-- After a fold of the latest day, it is taken for closed when its last hour is covered. -/
theorem isClosed_of_covered {rows : List DailyRow}
    (wrote : DayRows layout.clock tables.hourly (layout.bucketAt .daily epoch) rows)
    (steady : tables.Steady layout) {latest : EpochRange}
    (latestIs : (tables.withDays rows).lastDaily?.map EmbeddedStore.boundsOfStored = some latest)
    (begins : latest.start = (layout.bucketAt .daily epoch).start)
    (covered : EmbeddedStore.coverage tables
        (layout.lastHour (layout.bucketAt .daily epoch)).start =
      some ((layout.lastHour (layout.bucketAt .daily epoch)).stop : Int)) :
    isClosed (some latest) (layout.bucketAt .daily epoch)
      (layout.lastHour (layout.bucketAt .daily epoch)).stop = true := by
  obtain ⟨hour, stored, start, reached⟩ := (steady.coverage_eq_stop_iff _).mp covered
  obtain ⟨first, past⟩ := layout.lastHour_starts epoch
  have member : hour ∈ hoursIn tables.hourly (layout.bucketAt .daily epoch) :=
    mem_hoursIn.mpr ⟨stored, by omega, by omega⟩
  -- Each row that is written covers as much, and none of the day covers more than the latest.
  obtain ⟨written, new⟩ := List.exists_mem_of_ne_nil _ wrote.nonempty
  have summary := wrote.written written new
  have further := summary.stop_le (fun hour stored => steady.sound.isHourStart stored)
    (fun hour stored => ⟨(steady.hours hour stored).1, (steady.hours hour stored).2.1⟩) member
  have writtenMember : written ∈ (tables.withDays rows).daily :=
    (mem_putRows DailyRow.orderedBy_key steady.sound.dailyKeyed wrote.keyed written).mpr
      (Or.inl new)
  obtain ⟨row, -, rfl, most⟩ := exists_row_of_latestBounds latestIs
  have upTo := most written writtenMember
  have writtenStart := summary.start
  have begins : row.start.toNat = (layout.bucketAt .daily epoch).start := begins
  refine isClosed_iff.mpr ⟨_, rfl, begins, ?_⟩
  show (layout.lastHour (layout.bucketAt .daily epoch)).stop ≤ row.stop.toNat
  omega

/-- What a fold of a day records has reached the closing epoch of the day exactly when the last
hour is covered to its end. -/
theorem isClosed_foldDay_iff (steady : tables.Steady layout) (backed : tables.Backed layout)
    {count : Nat} {latest : EpochRange}
    (given : Given tables (.foldDay (layout.bucketAt .daily epoch)
      (layout.clock.dayOf (layout.bucketAt .daily epoch).start)) count after)
    (latestIs : after.lastDaily?.map EmbeddedStore.boundsOfStored = some latest)
    (begins : latest.start = (layout.bucketAt .daily epoch).start) :
    isClosed (some latest) (layout.bucketAt .daily epoch)
        (layout.lastHour (layout.bucketAt .daily epoch)).stop = true ↔
      EmbeddedStore.coverage after (layout.lastHour (layout.bucketAt .daily epoch)).start =
        some ((layout.lastHour (layout.bucketAt .daily epoch)).stop : Int) := by
  have sound := steady.sound.foldDay epoch given
  rcases given.foldDay_cases with ⟨rfl, none⟩ | ⟨rows, wrote, rfl⟩
  · refine ⟨steady.covered_of_isClosed backed latestIs, fun covered => ?_⟩
    -- The day has no hours, so its last hour is not covered.
    obtain ⟨hour, stored, start, -⟩ := (steady.coverage_eq_stop_iff _).mp covered
    obtain ⟨first, past⟩ := layout.lastHour_starts epoch
    have member : hour ∈ hoursIn after.hourly (layout.bucketAt .daily epoch) :=
      mem_hoursIn.mpr ⟨stored, by omega, by omega⟩
    rw [none] at member
    cases member
  · exact ⟨(steady.withDays wrote sound).covered_of_isClosed
        (backed.withDays steady.sound wrote sound) latestIs,
      isClosed_of_covered wrote steady latestIs begins⟩

end Tables

/-! ### Runs -/

/-- A day closes with its last hour. The hour of its last epoch is the last one that starts on it,
the day is closed from the end of that hour on, and each hour starts on one day only. In a run the
latest day is never taken for closed unless that hour is covered to its end, and right after a
fold of the day it is taken for closed exactly then. -/
theorem Runs.closes_with_lastHour {regime : Regime} {epoch : Nat} {day : EpochRange}
    (bounds : regime.layout.bucket .daily epoch = .ok day) :
    ∃ last, regime.layout.IsLastHour day last ∧
      (regime.layout.bucket .hourly (day.stop - 1) =
        if last.stop < wordLimit then .ok last else .error .add) ∧
      (regime.layout.closesAt .daily day =
        if last.stop < wordLimit then .ok last.stop else .error .add) ∧
      (epoch < storedLimit → last.stop < wordLimit) ∧
      (∀ other hour, regime.layout.bucket .hourly other = .ok hour →
        (hour.start < storedLimit → ∃ own, regime.layout.bucket .daily hour.start = .ok own) ∧
          ∀ own another found, regime.layout.bucket .daily hour.start = .ok own →
            regime.layout.bucket .daily another = .ok found →
              (found.contains hour.start = true ↔ found = own)) ∧
      ∀ log latest, Runs regime .start log →
        ((∀ again, Given log.now .lastDailyBounds (some latest) again →
            isClosed (some latest) day last.stop = true →
              EmbeddedStore.coverage log.now last.start = some (last.stop : Int)) ∧
          ∀ count after again,
            Given log.now (.foldDay day (regime.layout.clock.dayOf day.start)) count after →
            Given after .lastDailyBounds (some latest) again → latest.start = day.start →
              (isClosed (some latest) day last.stop = true ↔
                EmbeddedStore.coverage after last.start = some (last.stop : Int))) := by
  have dayIs := regime.layout.bucket_eq_ok bounds
  refine ⟨regime.layout.lastHour day, dayIs ▸ regime.layout.isLastHour epoch,
    BucketLayout.bucket_lastHour bounds, BucketLayout.closesAt_daily bounds,
    dayIs ▸ BucketLayout.stop_lastHour_lt,
    fun other hour _ => ⟨fun stored => ⟨_, BucketLayout.bucket_of_stored .daily stored⟩,
      fun own another found ownBounds foundBounds =>
        BucketLayout.contains_iff_eq_own foundBounds ownBounds⟩, ?_⟩
  subst dayIs
  refine fun log latest runs => ⟨fun again read closed => ?_, ?_⟩
  · exact runs.steady.covered_of_isClosed runs.backed (read.look fun _ => rfl).2.symm closed
  · intro count after again given read begins
    exact Tables.isClosed_foldDay_iff runs.steady runs.backed given
      (read.look fun _ => rfl).2.symm begins

namespace AcrossMidnight

/-- A chain with three epochs to a day that begins with the last one of a day, and hours of two
epochs: the first hour is longer than the first day. -/
def layout : BucketLayout :=
  .ofNumbers ⟨1704124800, 0⟩ 450 64 2 2 2 (by decide)

/-- The first day. -/
def day : EpochRange := ⟨0, 1⟩

/-- The first hour. -/
def hour : EpochRange := ⟨0, 2⟩

/-- The first epoch is folded into its hour and its day, and then the second one into the hour. -/
def ended : EmbeddedStore × Chronicle :=
  Act.playAll layout ⟨6, none⟩ [.supply [⟨0, 7, .none⟩], .fold, .pass, .supply [⟨1, 7, .none⟩],
    .fold] (.fresh, .start)

/-- The store once the day is folded again. -/
def refolded : EmbeddedStore :=
  (ended.1.answer (.foldDay day (layout.clock.dayOf day.start))).2

theorem runs_ended : Runs (.free layout) .start ended.2 ∧ ended.2.now = ended.1.tables :=
  Act.runs_playAll trivial .none rfl ⟨trivial, trivial, trivial⟩

theorem evaluated :
    (ended.1.answer .lastDailyBounds).1 = .ok (some ⟨0, 1⟩) ∧
      (ended.1.answer (.foldDay day (layout.clock.dayOf day.start))).1 = .ok 1 ∧
      (refolded.answer .lastDailyBounds).1 = .ok (some ⟨0, 2⟩) := by
  decide +kernel

end AcrossMidnight

open AcrossMidnight in
/-- The first day closes with the hour that runs past its end. With the first epoch alone it is
open, and once it is folded with the second one it is closed. -/
theorem Runs.closes_with_lastHour_across_midnight :
    layout.bucket .daily 0 = .ok day ∧ layout.closesAt .daily day = .ok 2 ∧
      layout.IsLastHour day hour ∧ Runs (.free layout) .start ended.2 ∧
      ((ended.1.answer .lastDailyBounds).1 = .ok (some ⟨0, 1⟩) ∧
        isClosed (some ⟨0, 1⟩) day 2 = false) ∧
      ((refolded.answer .lastDailyBounds).1 = .ok (some ⟨0, 2⟩) ∧
        isClosed (some ⟨0, 2⟩) day 2 = true) ∧
      EmbeddedStore.coverage refolded.tables 0 = some 2 := by
  obtain ⟨last, isLast, found, -, -, -, runs⟩ :=
    @Runs.closes_with_lastHour (.free layout) 0 day rfl
  obtain rfl : hour = last := by
    have first : layout.bucket .hourly (day.stop - 1) = .ok hour := rfl
    rw [show (Regime.free layout).layout = layout from rfl, first] at found
    split at found
    · exact Except.ok.inj found
    · cases found
  obtain ⟨before, folded, read⟩ := evaluated
  have given := EmbeddedStore.given_of_answer folded
  rw [← runs_ended.2] at given
  have closed := (runs ended.2 ⟨0, 2⟩ runs_ended.1).2 1 refolded.tables _ given
    (EmbeddedStore.given_of_answer read) rfl
  exact ⟨rfl, rfl, isLast, runs_ended.1, ⟨before, by decide⟩, ⟨read, by decide⟩,
    closed.mp (by decide)⟩

end EpochRollup
