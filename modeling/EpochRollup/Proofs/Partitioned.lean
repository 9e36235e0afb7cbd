/-
This file takes the two partitioned tables together. What is said of their rows mostly does not
depend on the table: a row is held, a catalogued partition covers it, and a partition that is
dropped takes the rows it covers and leaves the others covered.

The store admits a row by the ranges of its catalogue, deletes rows by the range of a partition
that is dropped, and forgets that partition by its name. The three mean one interval: partitions
of one name cover the same rows (`Partition.covers_iff_of_name`).
-/

import EpochRollup.Proofs.Call
import EpochRollup.Proofs.Layout
import EpochRollup.Proofs.Name

namespace EpochRollup

/-! ### Rows of the partitioned tables -/

/-- A row of a table that is partitioned. -/
inductive PartitionedRow where
  /-- A row of an hour. -/
  | hourly (row : HourlyRow)
  /-- A row of a day. -/
  | daily (row : DailyRow)

namespace PartitionedRow

/-- The granularity of the table of a row. -/
def granularity : PartitionedRow → Granularity
  | .hourly _ => .hourly
  | .daily _ => .daily

/-- The first epoch of the bucket of a row. -/
def start : PartitionedRow → Int
  | .hourly row => row.start
  | .daily row => row.start

end PartitionedRow

/-- The tables hold a row. -/
def Tables.Holds (tables : Tables) : PartitionedRow → Prop
  | .hourly row => row ∈ tables.hourly
  | .daily row => row ∈ tables.daily

/-- A fold of the layout writes such a row: it starts with a bucket, and the row of a day
carries the date of its start. -/
def BucketLayout.Writes (layout : BucketLayout) : PartitionedRow → Prop
  | .hourly row => ∃ epoch, row.start = (layout.bucketAt .hourly epoch).start
  | .daily row => ∃ epoch, row.start = (layout.bucketAt .daily epoch).start ∧
      row.day = layout.clock.dayOf (layout.bucketAt .daily epoch).start

/-- The range of a partition covers the key of a row of its table: the start of an hour, or a
day. Days are compared as they are written, as the catalogue compares them. -/
def Partition.Covers : Partition → PartitionedRow → Prop
  | .hourly range, .hourly row => (range.start : Int) ≤ row.start ∧ row.start < range.stop
  | .daily _ days, .daily row =>
    days.start.textKey ≤ row.day.textKey ∧ row.day.textKey < days.stop.textKey
  | _, _ => False

instance (partition : Partition) (row : PartitionedRow) : Decidable (partition.Covers row) :=
  match partition, row with
  | .hourly _, .hourly _ => inferInstanceAs (Decidable (_ ∧ _))
  | .daily _ _, .daily _ => inferInstanceAs (Decidable (_ ∧ _))
  | .hourly _, .daily _ => inferInstanceAs (Decidable False)
  | .daily _ _, .hourly _ => inferInstanceAs (Decidable False)

/-- Partitions of one name cover the same rows. -/
theorem Partition.covers_iff_of_name {first second : Partition} (same : first.name = second.name)
    (row : PartitionedRow) : first.Covers row ↔ second.Covers row := by
  cases first with
  | hourly range =>
    cases second with
    | hourly other => rw [hourly_name_inj.mp same]
    | daily other days => exact absurd same (hourly_name_ne_daily_name _ _ _)
  | daily range days =>
    cases second with
    | hourly other => exact absurd same.symm (hourly_name_ne_daily_name _ _ _)
    | daily other otherDays =>
      obtain rfl := daily_name_inj.mp same
      cases row <;> exact Iff.rfl

namespace Tables

variable {tables after : Tables} {partition : Partition} {row : PartitionedRow}

/-! ### Catalogued names -/

theorem hasPartition_iff {name : String} :
    tables.hasPartition name = true ↔ ∃ partition ∈ tables.catalogue, partition.name = name := by
  simp [hasPartition]

/-- An hourly partition is catalogued when its name is. -/
theorem hasPartition_hourly_iff {range : EpochRange} :
    tables.hasPartition (Partition.hourly range).name = true ↔
      .hourly range ∈ tables.catalogue := by
  rw [hasPartition_iff]
  constructor
  · rintro ⟨partition, member, same⟩
    cases partition with
    | hourly other =>
      rw [← Partition.hourly_name_inj.mp same]
      exact member
    | daily other days => exact absurd same.symm (Partition.hourly_name_ne_daily_name _ _ _)
  · intro member
    exact ⟨_, member, rfl⟩

theorem hasPartition_drop_iff {dropped : Partition} {name : String} :
    (tables.drop dropped).hasPartition name = true ↔
      tables.hasPartition name = true ∧ name ≠ dropped.name := by
  rw [hasPartition_iff, hasPartition_iff]
  constructor
  · rintro ⟨partition, member, rfl⟩
    obtain ⟨old, apart⟩ := mem_catalogue_drop.mp member
    exact ⟨⟨partition, old, rfl⟩, apart⟩
  · rintro ⟨⟨partition, old, rfl⟩, apart⟩
    exact ⟨partition, mem_catalogue_drop.mpr ⟨old, apart⟩, rfl⟩

theorem catalogue_subset_ensure (tables : Tables) (partition : Partition) :
    tables.catalogue ⊆ (tables.ensure partition).catalogue :=
  fun _ member => mem_catalogue_ensure.mpr (Or.inl member)

/-! ### Covered rows -/

theorem admitsHour_iff {start : Int} :
    tables.admitsHour start = true ↔
      ∃ range, .hourly range ∈ tables.catalogue ∧ (range.start : Int) ≤ start ∧
        start < range.stop := by
  rw [admitsHour, List.any_eq_true]
  constructor
  · rintro ⟨partition, member, covers⟩
    cases partition with
    | hourly range => exact ⟨range, member, by simpa using covers⟩
    | daily range days => simp at covers
  · rintro ⟨range, member, covers⟩
    exact ⟨.hourly range, member, by simpa using covers⟩

theorem admitsDay_iff {day : CalendarDay} :
    tables.admitsDay day = true ↔
      ∃ range days, .daily range days ∈ tables.catalogue ∧ days.start.textKey ≤ day.textKey ∧
        day.textKey < days.stop.textKey := by
  rw [admitsDay, List.any_eq_true]
  constructor
  · rintro ⟨partition, member, covers⟩
    cases partition with
    | hourly range => simp at covers
    | daily range days => exact ⟨range, days, member, by simpa using covers⟩
  · rintro ⟨range, days, member, covers⟩
    exact ⟨.daily range days, member, by simpa using covers⟩

/-- A catalogued partition covers a row. -/
def Covered (tables : Tables) (row : PartitionedRow) : Prop :=
  ∃ partition ∈ tables.catalogue, partition.Covers row

theorem covered_hourly_iff {row : HourlyRow} :
    tables.Covered (.hourly row) ↔ tables.admitsHour row.start = true := by
  rw [admitsHour_iff]
  constructor
  · rintro ⟨partition, member, covers⟩
    cases partition with
    | hourly range => exact ⟨range, member, covers⟩
    | daily range days => exact covers.elim
  · rintro ⟨range, member, covers⟩
    exact ⟨.hourly range, member, covers⟩

theorem covered_daily_iff {row : DailyRow} :
    tables.Covered (.daily row) ↔ tables.admitsDay row.day = true := by
  rw [admitsDay_iff]
  constructor
  · rintro ⟨partition, member, covers⟩
    cases partition with
    | hourly range => exact covers.elim
    | daily range days => exact ⟨range, days, member, covers⟩
  · rintro ⟨range, days, member, covers⟩
    exact ⟨.daily range days, member, covers⟩

theorem Covered.mono (covered : tables.Covered row)
    (included : tables.catalogue ⊆ after.catalogue) : after.Covered row :=
  covered.imp fun _ held => ⟨included held.1, held.2⟩

/-- A row stays covered when a partition is dropped that does not cover it. -/
theorem Covered.drop (covered : tables.Covered row) (apart : ¬partition.Covers row) :
    (tables.drop partition).Covered row := by
  obtain ⟨other, member, covers⟩ := covered
  refine ⟨other, mem_catalogue_drop.mpr ⟨member, fun same => ?_⟩, covers⟩
  exact apart ((Partition.covers_iff_of_name same row).mp covers)

/-! ### Held rows -/

theorem not_holds_empty (row : PartitionedRow) : ¬Tables.empty.Holds row := by
  cases row <;> exact List.not_mem_nil

theorem holds_congr (hourly : after.hourly = tables.hourly) (daily : after.daily = tables.daily) :
    after.Holds row ↔ tables.Holds row := by
  cases row with
  | hourly row => exact iff_of_eq (congrArg (row ∈ ·) hourly)
  | daily row => exact iff_of_eq (congrArg (row ∈ ·) daily)

/-- A partition that is created changes no row. -/
theorem holds_ensure_iff : (tables.ensure partition).Holds row ↔ tables.Holds row :=
  holds_congr (hourly_ensure tables partition) (daily_ensure tables partition)

/-- A drop deletes the rows that its partition covers and no others. -/
theorem holds_drop_iff_not_covers :
    (tables.drop partition).Holds row ↔ tables.Holds row ∧ ¬partition.Covers row := by
  cases row with
  | hourly row =>
    cases partition with
    | hourly range => exact mem_hourly_drop
    | daily range days => exact (and_iff_left id).symm
  | daily row =>
    cases partition with
    | hourly range => exact (and_iff_left id).symm
    | daily range days => exact mem_daily_drop

/-- Rows that were written into the hours are new or were there. -/
theorem holds_of_putHours {written : List HourlyRow}
    (held : { tables with hourly := putRows HourlyRow.before written tables.hourly }.Holds row) :
    tables.Holds row ∨ ∃ new ∈ written, row = .hourly new := by
  cases row with
  | hourly row => exact (mem_of_mem_putRows held).symm.imp id fun new => ⟨row, new, rfl⟩
  | daily row => exact Or.inl held

/-- Rows that were written into the days are new or were there. -/
theorem holds_of_putDays {written : List DailyRow}
    (held : { tables with daily := putRows DailyRow.before written tables.daily }.Holds row) :
    tables.Holds row ∨ ∃ new ∈ written, row = .daily new := by
  cases row with
  | hourly row => exact Or.inl held
  | daily row => exact (mem_of_mem_putRows held).symm.imp id fun new => ⟨row, new, rfl⟩

end Tables

end EpochRollup
