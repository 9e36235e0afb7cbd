/-
This file says what is true of the tables however epochs arrive: late, twice, or with gaps.
Hours are then no longer the fold of all epochs, but they still advance. The coverage of each
hour ends with an epoch that is present, so folding the latest hour again cannot cover less,
and no row of a day reaches past the latest hour. The steps below are all that the engine does
to the tables; each keeps this and none moves the frontier back.
-/

import EpochRollup.Proofs.DayHours
import EpochRollup.Proofs.HourlyFold

namespace EpochRollup

/-! ### The invariant -/

/-- Tables that the engine can have made from epochs in any order. -/
structure Tables.Steady (layout : BucketLayout) (tables : Tables) : Prop where
  /-- The tables are sound. -/
  sound : tables.Sound layout
  /-- An hour covers a part of its bucket that ends with an epoch that is present. -/
  hours : ∀ row ∈ tables.hourly, row.start < row.stop ∧
    row.stop ≤ row.start + layout.hourlyWidth ∧ ∃ source ∈ tables.epochs,
      source.epoch + 1 = row.stop
  /-- A day does not reach past the latest hour. -/
  days : ∀ row ∈ tables.daily, (∃ hour ∈ tables.hourly, row.start ≤ hour.start) ∧
    row.stop ≤ tables.frontier

/-- Where the latest hour stands. -/
structure Tables.LatestHour (layout : BucketLayout) (tables : Tables) (start : Int) : Prop where
  /-- It is found. -/
  found : tables.lastHourly? = some (start, tables.frontier)
  /-- It starts with a bucket. -/
  starts : IsHourStart layout.hourlyWidth start
  /-- It covers something. -/
  before : start < tables.frontier
  /-- It covers a part of its bucket. -/
  near : tables.frontier ≤ start + layout.hourlyWidth
  /-- No hour is later. -/
  most : ∀ row ∈ tables.hourly, row.start ≤ start
  /-- It has a row. -/
  held : ∃ row ∈ tables.hourly, row.start = start

namespace Tables

variable {layout : BucketLayout} {tables after : Tables} {start : Int}

/-- A row of an hour lies in a partition of the layout that is there. -/
theorem Sound.listed (sound : tables.Sound layout) {row : HourlyRow}
    (member : row ∈ tables.hourly) :
    layout.partitionAt .hourly row.start.toNat ∈ tables.catalogue := by
  obtain ⟨admitted, epoch, rowStart⟩ := sound.hours row member
  obtain ⟨range, listed, after, before⟩ := admitsHour_iff.mp admitted
  obtain ⟨other, same⟩ := sound.partitions _ listed
  cases same
  rwa [layout.partitionAt_eq_iff.mpr (by omega :
    (layout.partitionRangeAt .hourly other).start ≤ row.start.toNat ∧
      row.start.toNat < (layout.partitionRangeAt .hourly other).stop)]

theorem Sound.isHourStart (sound : tables.Sound layout) {row : HourlyRow}
    (member : row ∈ tables.hourly) : IsHourStart layout.hourlyWidth row.start := by
  obtain ⟨-, epoch, rowStart⟩ := sound.hours row member
  rw [rowStart]
  exact layout.isHourStart_bucketAt epoch

namespace LatestHour

theorem head? (latest : tables.LatestHour layout start) : tables.head? = some start.toNat := by
  rw [Tables.head?, (lastHourly?_eq_some.mp latest.found).1]
  rfl

theorem start_eq_head (latest : tables.LatestHour layout start) {head : Nat}
    (headIs : tables.head? = some head) : start = head := by
  have nonneg := latest.starts.nonneg
  rw [latest.head?, Option.some.injEq] at headIs
  omega

/-- A row of the latest hour covers what the hour covers. -/
theorem exists_last (latest : tables.LatestHour layout start) :
    ∃ row ∈ tables.hourly, row.start = start ∧ row.stop = tables.frontier := by
  obtain ⟨row, member, same, -⟩ := exists_latest_row latest.found
  obtain ⟨startIs, stopIs⟩ := Prod.mk.inj same
  exact ⟨row, member, startIs.symm, stopIs.symm⟩

end LatestHour

namespace Steady

theorem empty : Tables.empty.Steady layout where
  sound := Sound.empty
  hours := fun _ member => absurd member List.not_mem_nil
  days := fun _ member => absurd member List.not_mem_nil

theorem exists_latest (steady : tables.Steady layout) (nonempty : tables.hourly ≠ []) :
    ∃ start, tables.LatestHour layout start := by
  cases found : tables.lastHourly? with
  | none => exact absurd (lastHourly?_eq_none.mp found) nonempty
  | some bounds =>
    obtain ⟨start, stop⟩ := bounds
    have frontier : tables.frontier = stop := frontier_of_some found
    obtain ⟨row, member, same, most⟩ := exists_latest_row found
    obtain ⟨rfl, rfl⟩ := Prod.mk.inj same
    obtain ⟨before, near, -⟩ := steady.hours row member
    exact ⟨row.start,
      { found := by rw [found, frontier]
        starts := steady.sound.isHourStart member
        before := by omega
        near := by omega
        most := fun other otherMember => by
          have upTo := most other otherMember
          omega
        held := ⟨row, member, rfl⟩ }⟩

theorem latest_of_head (steady : tables.Steady layout) {head : Nat}
    (headIs : tables.head? = some head) : tables.LatestHour layout head := by
  have nonempty : tables.hourly ≠ [] := by
    intro empty
    rw [head?, empty] at headIs
    cases headIs
  obtain ⟨start, latest⟩ := steady.exists_latest nonempty
  rwa [latest.start_eq_head headIs] at latest

theorem hours_nonneg (steady : tables.Steady layout) {row : HourlyRow}
    (member : row ∈ tables.hourly) : 0 ≤ row.start ∧ 0 ≤ row.stop := by
  obtain ⟨-, epoch, same⟩ := steady.sound.hours row member
  have before := (steady.hours row member).1
  omega

/-- No hour covers more than the latest one. -/
theorem stop_le_frontier (steady : tables.Steady layout) {row : HourlyRow}
    (member : row ∈ tables.hourly) : row.stop ≤ tables.frontier := by
  obtain ⟨start, latest⟩ := steady.exists_latest (List.ne_nil_of_mem member)
  obtain ⟨-, near, -⟩ := steady.hours row member
  by_cases here : row.start = start
  · have stops := (lastHourly?_eq_some.mp latest.found).2
    exact (List.max?_eq_some_iff.mp stops).2 _ (List.mem_map.mpr
      ⟨row, List.mem_filter.mpr ⟨member, decide_eq_true here⟩, rfl⟩)
  · have upTo := latest.most row member
    have before := latest.before
    have apart := (steady.sound.isHourStart member).add_le_of_lt latest.starts (by omega)
    omega

/-! ### Steps that leave the hours alone -/

theorem of_same (steady : tables.Steady layout) (sound : after.Sound layout)
    (epochs : ∀ source ∈ tables.epochs, ∃ kept ∈ after.epochs, kept.epoch = source.epoch)
    (hourly : after.hourly = tables.hourly) (daily : ∀ row ∈ after.daily, row ∈ tables.daily) :
    after.Steady layout where
  sound := sound
  hours := by
    rw [hourly]
    intro row member
    obtain ⟨before, near, source, sourceMember, same⟩ := steady.hours row member
    obtain ⟨kept, keptMember, keptIs⟩ := epochs source sourceMember
    exact ⟨before, near, kept, keptMember, keptIs ▸ same⟩
  days := by
    rw [hourly, frontier_congr hourly]
    exact fun row member => steady.days row (daily row member)

theorem arrive (steady : tables.Steady layout) (stored : List EpochRow) :
    ({ tables with epochs := putRows EpochRow.before stored tables.epochs } : Tables).Steady
      layout := by
  refine steady.of_same (steady.sound.of_same rfl rfl rfl) (fun source member => ?_) rfl
    fun _ => id
  obtain ⟨kept, keptMember, same⟩ := exists_key_putRows EpochRow.orderedBy_key member stored
  refine ⟨kept, keptMember, ?_⟩
  rw [EpochRow.key, EpochRow.key, EmbeddingLike.apply_eq_iff_eq, Prod.mk.injEq] at same
  exact same.1

theorem refresh (steady : tables.Steady layout) (rolling : List RollingRow) :
    ({ tables with rolling } : Tables).Steady layout :=
  steady.of_same (steady.sound.of_same rfl rfl rfl) (fun source member => ⟨source, member, rfl⟩)
    rfl fun _ => id

theorem ensure (steady : tables.Steady layout) (granularity : Granularity) (epoch : Nat) :
    (tables.ensure (layout.partitionAt granularity epoch)).Steady layout := by
  refine steady.of_same (steady.sound.ensure granularity epoch) (fun source member => ?_)
    (hourly_ensure _ _) fun row member => ?_
  · exact ⟨source, (epochs_ensure _ _).symm ▸ member, rfl⟩
  · rwa [daily_ensure] at member

theorem dropDays (steady : tables.Steady layout) (epoch : Nat) :
    (tables.drop (layout.partitionAt .daily epoch)).Steady layout :=
  steady.of_same (steady.sound.drop _) (fun source member => ⟨source, member, rfl⟩) rfl
    fun _ member => (mem_daily_drop.mp member).1

/-- The rows of a day are written from hours that start on it. -/
theorem withDays (steady : tables.Steady layout) {bucket : EpochRange} {rows : List DailyRow}
    (wrote : DayRows layout.clock tables.hourly bucket rows)
    (sound : (tables.withDays rows).Sound layout) : (tables.withDays rows).Steady layout where
  sound := sound
  hours := steady.hours
  days := by
    intro row member
    rcases mem_of_mem_putRows member with new | old
    · have summary := wrote.written row new
      obtain ⟨hour, hourMember, -⟩ := summary.exists_hour
      obtain ⟨stored, after, -⟩ := mem_hoursIn.mp hourMember
      obtain ⟨last, lastMember, same⟩ := summary.exists_stop
      refine ⟨⟨hour, stored, ?_⟩, ?_⟩
      · rw [summary.start]
        exact after
      · rw [← same]
        exact steady.stop_le_frontier lastMember
    · exact steady.days row old

/-! ### Steps on the hours -/

/-- A partition that ends by the start of the latest hour may be dropped, and the latest hour
stays where it is. -/
theorem latest_dropHours (latest : tables.LatestHour layout start) {epoch : Nat}
    (apart : ((layout.partitionRangeAt .hourly epoch).stop : Int) ≤ start) :
    (tables.drop (layout.partitionAt .hourly epoch)).LatestHour layout start ∧
      (tables.drop (layout.partitionAt .hourly epoch)).frontier = tables.frontier := by
  have found : (tables.drop (layout.partitionAt .hourly epoch)).lastHourly? =
      some (start, tables.frontier) := lastHourly?_drop latest.found apart
  have frontier : (tables.drop (layout.partitionAt .hourly epoch)).frontier = tables.frontier :=
    frontier_of_some found
  obtain ⟨row, member, same⟩ := latest.held
  refine ⟨?_, frontier⟩
  exact
    { found := by rw [found, frontier]
      starts := latest.starts
      before := by rw [frontier]; exact latest.before
      near := by rw [frontier]; exact latest.near
      most := fun other otherMember => latest.most other (mem_hourly_drop.mp otherMember).1
      held := ⟨row, mem_hourly_drop.mpr ⟨member, by omega⟩, same⟩ }

theorem dropHours (steady : tables.Steady layout) (latest : tables.LatestHour layout start)
    {epoch : Nat} (apart : ((layout.partitionRangeAt .hourly epoch).stop : Int) ≤ start) :
    (tables.drop (layout.partitionAt .hourly epoch)).Steady layout := by
  obtain ⟨stays, frontier⟩ := latest_dropHours latest apart
  refine ⟨steady.sound.drop _, fun row member => ?_, fun row member => ?_⟩
  · exact steady.hours row (mem_hourly_drop.mp member).1
  · obtain ⟨⟨hour, hourMember, upTo⟩, covered⟩ := steady.days row member
    obtain ⟨kept, keptMember, same⟩ := stays.held
    have most := latest.most hour hourMember
    exact ⟨⟨kept, keptMember, by omega⟩, by rw [frontier]; exact covered⟩

end Steady

/-- Each hour that is stored has a row after rows are written. -/
theorem exists_key_withHours {row : HourlyRow} (member : row ∈ tables.hourly)
    (rows : List HourlyRow) : ∃ kept ∈ (tables.withHours rows).hourly,
      kept.start = row.start ∧ kept.validator = row.validator := by
  obtain ⟨kept, keptMember, same⟩ := exists_key_putRows HourlyRow.orderedBy_key member rows
  exact ⟨kept, keptMember, (HourlyRow.key_eq_iff kept row).mp same⟩

/-- The rows of a bucket are written that is not behind the latest hour and was not covered to
its end. -/
structure WritesHours (layout : BucketLayout) (tables : Tables) (start : Nat) (last : Int)
    (rows : List HourlyRow) : Prop where
  /-- What holds before. -/
  steady : tables.Steady layout
  /-- The bucket is one of the layout. -/
  starts : IsHourStart layout.hourlyWidth start
  /-- Its partition is there. -/
  listed : layout.partitionAt .hourly start ∈ tables.catalogue
  /-- The bucket is open. -/
  isOpen : tables.frontier < start + layout.hourlyWidth
  /-- The rows are those of the bucket. -/
  wrote : BucketRows layout tables.epochs start last rows

namespace WritesHours

variable {start : Nat} {last : Int} {rows : List HourlyRow}

/-- The rows are written and take the place of those with their keys. -/
theorem mem_iff (writes : tables.WritesHours layout start last rows) (row : HourlyRow) :
    row ∈ (tables.withHours rows).hourly ↔
      row ∈ rows ∨ row ∈ tables.hourly ∧ ∀ other ∈ rows, row.key ≠ other.key :=
  mem_putRows HourlyRow.orderedBy_key writes.steady.sound.hourlyKeyed writes.wrote.keyed row

theorem start_le (writes : tables.WritesHours layout start last rows) {row : HourlyRow}
    (member : row ∈ tables.hourly) : row.start ≤ start := by
  have covered := writes.steady.stop_le_frontier member
  obtain ⟨before, -⟩ := writes.steady.hours row member
  have isOpen := writes.isOpen
  exact (writes.steady.sound.isHourStart member).le_of_lt writes.starts (by omega)

/-- An hour that is stored of the bucket covers no more than the rows that are written. -/
theorem stop_le (writes : tables.WritesHours layout start last rows) {row : HourlyRow}
    (member : row ∈ tables.hourly) (here : row.start = start) : row.stop ≤ last + 1 := by
  obtain ⟨before, near, source, sourceMember, same⟩ := writes.steady.hours row member
  have upTo := writes.wrote.le_last sourceMember (by omega) (by omega)
  omega

theorem exists_row (writes : tables.WritesHours layout start last rows) :
    ∃ row ∈ rows, row.start = start ∧ row.stop = last + 1 := by
  obtain ⟨source, member, inside, -⟩ := writes.wrote.exists_last
  obtain ⟨row, rowMember, -⟩ := writes.wrote.exists_row member inside.1 inside.2
  exact ⟨row, rowMember, (writes.wrote.written row rowMember).1⟩

/-- The bucket is the latest hour afterwards. -/
theorem lastHourly? (writes : tables.WritesHours layout start last rows) :
    (tables.withHours rows).lastHourly? = some ((start : Int), last + 1) := by
  obtain ⟨row, rowMember, rowStart, rowStop⟩ := writes.exists_row
  have stored := (writes.mem_iff row).mpr (Or.inl rowMember)
  refine lastHourly?_eq_some.mpr ⟨List.max?_eq_some_iff.mpr ⟨?_, ?_⟩,
    List.max?_eq_some_iff.mpr ⟨?_, ?_⟩⟩
  · exact List.mem_map.mpr ⟨row, stored, rowStart⟩
  · intro other otherMember
    obtain ⟨otherRow, otherStored, rfl⟩ := List.mem_map.mp otherMember
    rcases (writes.mem_iff otherRow).mp otherStored with new | ⟨old, -⟩
    · exact Int.le_of_eq (writes.wrote.written otherRow new).1.1
    · exact writes.start_le old
  · exact List.mem_map.mpr ⟨row, List.mem_filter.mpr ⟨stored, decide_eq_true rowStart⟩, rowStop⟩
  · intro other otherMember
    obtain ⟨otherRow, filtered, rfl⟩ := List.mem_map.mp otherMember
    obtain ⟨otherStored, otherStart⟩ := List.mem_filter.mp filtered
    rcases (writes.mem_iff otherRow).mp otherStored with new | ⟨old, -⟩
    · exact Int.le_of_eq (writes.wrote.written otherRow new).1.2
    · exact writes.stop_le old (of_decide_eq_true otherStart)

theorem frontier (writes : tables.WritesHours layout start last rows) :
    (tables.withHours rows).frontier = last + 1 := frontier_of_some writes.lastHourly?

/-- The frontier does not move back, and it stays inside the bucket. -/
theorem frontier_le (writes : tables.WritesHours layout start last rows) :
    tables.frontier ≤ last + 1 ∧ last + 1 ≤ start + layout.hourlyWidth := by
  obtain ⟨source, -, inside, same⟩ := writes.wrote.exists_last
  refine ⟨?_, by omega⟩
  by_cases empty : tables.hourly = []
  · have zero := frontier_of_empty empty
    omega
  · obtain ⟨latestStart, latest⟩ := writes.steady.exists_latest empty
    obtain ⟨row, member, rowStart, rowStop⟩ := latest.exists_last
    have upTo := writes.start_le member
    have near := latest.near
    rcases Int.lt_or_eq_of_le upTo with earlier | here
    · have apart := latest.starts.add_le_of_lt writes.starts (by omega)
      omega
    · have covered := writes.stop_le member (by omega)
      omega

theorem steady_after (writes : tables.WritesHours layout start last rows)
    (sound : (tables.withHours rows).Sound layout) : (tables.withHours rows).Steady layout where
  sound := sound
  hours := by
    intro row member
    rcases (writes.mem_iff row).mp member with new | ⟨old, -⟩
    · obtain ⟨rowStart, rowStop⟩ := (writes.wrote.written row new).1
      obtain ⟨source, sourceMember, inside, same⟩ := writes.wrote.exists_last
      exact ⟨by omega, by omega, source, sourceMember, by omega⟩
    · exact writes.steady.hours row old
  days := by
    intro row member
    obtain ⟨⟨hour, hourMember, upTo⟩, covered⟩ := writes.steady.days row member
    obtain ⟨kept, keptMember, same, -⟩ := exists_key_withHours hourMember rows
    have moved := writes.frontier_le.1
    rw [writes.frontier]
    exact ⟨⟨kept, keptMember, by omega⟩, by omega⟩

end WritesHours

end Tables

end EpochRollup
