/-
This file proves that a stored rollup row always has a partition, whatever is asked of the
embedded store and whatever fails. The store admits a row by the ranges of its catalogue,
deletes rows by the range of a partition that is dropped, and forgets that partition by its
name. Rows stay covered because the three mean one interval: partitions of one name cover the
same rows (`Partition.covers_iff_of_name`), so a range is forgotten only with its rows.

Nothing is asked of the partitions. They may overlap, be empty or never have been created.
Where they all come from one layout, no two of them cover one row, and the partition of a row
is the one that the layout gives for it.
-/

import Mathlib.Data.List.Nodup
import EpochRollup.Proofs.DayBuckets
import EpochRollup.Proofs.Reclaim

namespace EpochRollup

/-- From the year 0 on a partition covers the days between its ends. -/
theorem Partition.covers_daily_iff {range : EpochRange} {days : DayRange} {row : DailyRow}
    (start : 0 ≤ days.start.civil.year) (stop : 0 ≤ days.stop.civil.year)
    (day : 0 ≤ row.day.civil.year) :
    (Partition.daily range days).Covers (.daily row) ↔
      days.start.number ≤ row.day.number ∧ row.day.number < days.stop.number :=
  and_congr (CalendarDay.textKey_le_iff start day) (CalendarDay.textKey_lt_iff day stop)

/-! ### Stores that have answered calls -/

/-- A call ensures one of these partitions or none. -/
def StoreCall.EnsuresOnly (ensures : Partition → Prop) : StoreCall → Prop
  | .ensurePartition partition => ensures partition
  | _ => True

namespace EmbeddedStore

/-- Stores that were created and have answered calls since, where only some partitions were
ensured. Faults may come and go, any call may fail, and the store may be closed. -/
inductive Served (ensures : Partition → Prop) : EmbeddedStore → Prop where
  /-- The store is new. -/
  | fresh : Served ensures .fresh
  /-- A call is answered, or it fails. -/
  | call {store : EmbeddedStore} (earlier : Served ensures store) (call : StoreCall)
      (allowed : call.EnsuresOnly ensures) : Served ensures (store.answer call).2
  /-- Other faults are placed. -/
  | fault {store : EmbeddedStore} (earlier : Served ensures store) (faults : List Fault) :
      Served ensures { store with faults }
  /-- The store is closed. -/
  | close {store : EmbeddedStore} (earlier : Served ensures store) : Served ensures store.close

/-- Calls that are made one after the other. -/
theorem Served.calls {ensures : Partition → Prop} {calls : List StoreCall} {store : EmbeddedStore}
    (served : Served ensures store) (allowed : calls.Forall (·.EnsuresOnly ensures)) :
    Served ensures (calls.foldl (fun store call => (store.answer call).2) store) := by
  induction calls generalizing store with
  | nil => exact served
  | cons call rest inductionHypothesis =>
    obtain ⟨first, others⟩ := List.forall_cons .. |>.mp allowed
    exact inductionHypothesis (served.call call first) others

end EmbeddedStore

/-- Tables whose rows are covered by a catalogue that lists each name once and holds partitions
that were ensured. -/
structure Tables.Catalogued (ensures : Partition → Prop) (tables : Tables) : Prop where
  /-- Rows are covered. -/
  rows : ∀ row, tables.Holds row → tables.Covered row
  /-- Names are the keys of the catalogue. -/
  names : (tables.catalogue.map Partition.name).Nodup
  /-- Partitions were ensured. -/
  ensured : ∀ partition ∈ tables.catalogue, ensures partition

namespace Tables.Catalogued

variable {ensures : Partition → Prop} {tables after : Tables}

theorem empty : Tables.empty.Catalogued ensures where
  rows := fun row held => absurd held (not_holds_empty row)
  names := List.nodup_nil
  ensured := fun _ member => absurd member List.not_mem_nil

/-- Only new rows have to be looked at when the catalogue is as it was. -/
theorem of_rows (catalogued : tables.Catalogued ensures)
    (catalogue : after.catalogue = tables.catalogue)
    (rows : ∀ row, after.Holds row → tables.Holds row ∨ tables.Covered row) :
    after.Catalogued ensures where
  rows := fun row held => ((rows row held).elim (catalogued.rows row) id).mono
    (catalogue ▸ List.Subset.refl _)
  names := catalogue ▸ catalogued.names
  ensured := catalogue ▸ catalogued.ensured

theorem ensure (catalogued : tables.Catalogued ensures) {partition : Partition}
    (allowed : ensures partition) : (tables.ensure partition).Catalogued ensures where
  rows := by
    intro row held
    exact (catalogued.rows row (holds_ensure_iff.mp held)).mono (catalogue_subset_ensure _ _)
  names := nodup_names_ensure catalogued.names partition
  ensured := by
    intro other member
    rcases mem_catalogue_ensure.mp member with old | ⟨rfl, -⟩
    · exact catalogued.ensured other old
    · exact allowed

/-- Any partition may be dropped, also one that was never ensured. -/
theorem drop (catalogued : tables.Catalogued ensures) (partition : Partition) :
    (tables.drop partition).Catalogued ensures where
  rows := by
    intro row held
    obtain ⟨old, apart⟩ := holds_drop_iff_not_covers.mp held
    exact (catalogued.rows row old).drop apart
  names := nodup_names_drop catalogued.names partition
  ensured := fun other member => catalogued.ensured other (mem_catalogue_drop.mp member).1

/-- Every answer keeps the rows covered. -/
theorem answered (catalogued : tables.Catalogued ensures) {call : StoreCall}
    {answer : call.Answer} (given : Given tables call answer after)
    (allowed : call.EnsuresOnly ensures) : after.Catalogued ensures := by
  cases call with
  | upsertEpochs rows =>
    obtain ⟨stored, -, rfl⟩ := given.upsertEpochs
    exact catalogued.of_rows rfl fun row held => Or.inl ((holds_congr rfl rfl).mp held)
  | foldHour bucket =>
    rcases given.foldHour with ⟨-, -, rfl⟩ | ⟨last, rows, -, admitted, -, written, -, rfl⟩
    · exact catalogued
    · refine catalogued.of_rows rfl fun row held => (holds_of_putHours held).imp_right ?_
      rintro ⟨new, member, rfl⟩
      rw [covered_hourly_iff, (written new member).1.1]
      exact admitted
  | upsertHourly rows =>
    obtain ⟨stored, admitted, rfl⟩ := given.upsertHourly
    refine catalogued.of_rows rfl fun row held => (holds_of_putHours held).imp_right ?_
    rintro ⟨new, member, rfl⟩
    exact covered_hourly_iff.mpr (admitted new member)
  | foldDay range day =>
    rcases given.foldDay with
      ⟨-, -, rfl⟩ | ⟨first, last, rows, -, -, admitted, -, written, -, rfl⟩
    · exact catalogued
    · refine catalogued.of_rows rfl fun row held => (holds_of_putDays held).imp_right ?_
      rintro ⟨new, member, rfl⟩
      rw [covered_daily_iff, (written new member).1.1]
      exact admitted
  | replaceRolling start head =>
    obtain ⟨rolling, rfl⟩ := given.of_refreshes (.replace start head)
    exact catalogued.of_rows rfl fun row held => Or.inl ((holds_congr rfl rfl).mp held)
  | clearRolling =>
    rw [given.clearRolling]
    exact catalogued.of_rows rfl fun row held => Or.inl ((holds_congr rfl rfl).mp held)
  | ensurePartition partition =>
    rw [given.ensurePartition.2]
    exact catalogued.ensure allowed
  | dropPartition partition =>
    rw [given.dropPartition.2]
    exact catalogued.drop partition
  | _ => exact given.of_reads rfl ▸ catalogued

end Tables.Catalogued

theorem EmbeddedStore.Served.catalogued {ensures : Partition → Prop} {store : EmbeddedStore}
    (served : Served ensures store) : store.tables.Catalogued ensures := by
  induction served with
  | fresh => exact .empty
  | @call store earlier call allowed inductionHypothesis =>
    rcases store.answer_cases call with ⟨answer, -, given⟩ | ⟨error, failed⟩
    · exact inductionHypothesis.answered given allowed
    · rw [failed]
      exact inductionHypothesis
  | fault earlier faults inductionHypothesis => exact inductionHypothesis
  | close earlier inductionHypothesis => exact inductionHypothesis

/-! ### One layout -/

namespace BucketLayout

variable {layout : BucketLayout}

/-- A partition that the layout gives for some epoch. -/
def Gives (layout : BucketLayout) (partition : Partition) : Prop :=
  ∃ granularity epoch, layout.partitionFor granularity epoch = .ok partition

theorem Gives.eq_partitionAt {partition : Partition} (gives : layout.Gives partition) :
    ∃ granularity epoch, partition = layout.partitionAt granularity epoch :=
  gives.imp fun _ => Exists.imp fun _ => layout.partitionFor_eq_ok

/-- An hour is covered by the partition of its start alone. -/
theorem Gives.partitionFor_start {partition : Partition} (gives : layout.Gives partition)
    {row : HourlyRow} (covers : partition.Covers (.hourly row)) :
    0 ≤ row.start ∧ layout.partitionFor .hourly row.start.toNat = .ok partition := by
  obtain ⟨granularity, epoch, found⟩ := gives
  cases granularity with
  | hourly =>
    obtain rfl := layout.partitionFor_eq_ok found
    obtain ⟨after, before⟩ := covers
    exact ⟨by omega, partitionFor_ok_of_mem found (by rw [range_partitionAt]; omega)
      (by rw [range_partitionAt]; omega)⟩
  | daily =>
    obtain rfl := layout.partitionFor_eq_ok found
    exact covers.elim

/-- Days that a daily partition covers start before a later partition does. -/
theorem textKey_lt_of_stop_le (years : layout.clock.FromYearZero) {epoch later : Nat}
    (apart : (layout.partitionRangeAt .daily epoch).stop ≤
      (layout.partitionRangeAt .daily later).start) :
    (layout.clock.dayOf (layout.partitionRangeAt .daily epoch).stop).textKey ≤
      (layout.clock.dayOf (layout.partitionRangeAt .daily later).start).textKey :=
  (years.textKey_le_iff _ _).mpr (ChainClock.number_dayOf_mono apart)

/-- Two partitions of one layout that cover one row are one partition. -/
theorem Gives.eq_of_covers (years : layout.clock.FromYearZero) {first second : Partition}
    (firstGiven : layout.Gives first) (secondGiven : layout.Gives second) {row : PartitionedRow}
    (covers : first.Covers row) (also : second.Covers row) : first = second := by
  cases row with
  | hourly row =>
    have found := (firstGiven.partitionFor_start covers).2
    rw [(secondGiven.partitionFor_start also).2] at found
    exact (Except.ok.inj found).symm
  | daily row =>
    obtain ⟨granularity, epoch, rfl⟩ := firstGiven.eq_partitionAt
    obtain ⟨otherGranularity, other, rfl⟩ := secondGiven.eq_partitionAt
    cases granularity with
    | hourly => exact covers.elim
    | daily =>
      cases otherGranularity with
      | hourly => exact also.elim
      | daily =>
        by_contra different
        have positive := layout.partitionSpan_pos .daily
        -- Of two ranges of the layout one ends before the other starts.
        have apart {here there : Nat}
            (different : layout.partitionAt .daily here ≠ layout.partitionAt .daily there)
            (order : here ≤ there) :
            (layout.partitionRangeAt .daily here).stop ≤
              (layout.partitionRangeAt .daily there).start := by
          refine EpochRange.stop_aligned_le_start_aligned positive (Nat.le_of_not_lt ?_)
          intro inside
          have after : (layout.partitionRangeAt .daily here).start ≤ here :=
            EpochRange.start_aligned_le positive here
          exact different (layout.partitionAt_eq_iff.mpr
            ⟨Nat.le_trans after order, inside⟩).symm
        rcases Nat.le_total epoch other with order | order
        · have keys := textKey_lt_of_stop_le years (apart different order)
          exact absurd (Nat.le_trans keys also.1) (Nat.not_le.mpr covers.2)
        · have keys := textKey_lt_of_stop_le years (apart (Ne.symm different) order)
          exact absurd (Nat.le_trans keys covers.1) (Nat.not_le.mpr also.2)

end BucketLayout

/-- Every stored row has a partition. In a store that was created and has answered any calls
since, some of which may have failed, a catalogued partition covers each hourly and each daily
row. Written dates are dates in order where they lie in the year 0 or later. Where every
partition that was ensured is one that a layout gives, on a chain that starts in such a year,
no two entries of the catalogue cover one row, so each row has exactly one partition, and that
of an hour is the one that the layout gives for its start. -/
theorem EmbeddedStore.Served.rows_covered {ensures : Partition → Prop} {store : EmbeddedStore}
    (served : Served ensures store) :
    (∀ row, store.tables.Holds row →
        ∃ partition ∈ store.tables.catalogue, partition.Covers row) ∧
      ((∀ range days, ensures (.daily range days) →
          0 ≤ days.start.civil.year ∧ 0 ≤ days.stop.civil.year) →
        ∀ row ∈ store.tables.daily, 0 ≤ row.day.civil.year →
          ∃ range days, .daily range days ∈ store.tables.catalogue ∧
            days.start.number ≤ row.day.number ∧ row.day.number < days.stop.number) ∧
      ∀ layout : BucketLayout, layout.clock.FromYearZero →
        (∀ partition, ensures partition →
          ∃ granularity epoch, layout.partitionFor granularity epoch = .ok partition) →
        (store.tables.catalogue.Pairwise fun first second =>
            ∀ row, ¬(first.Covers row ∧ second.Covers row)) ∧
          (∀ row, store.tables.Holds row →
            ∃! partition, partition ∈ store.tables.catalogue ∧ partition.Covers row) ∧
          ∀ row ∈ store.tables.hourly, 0 ≤ row.start ∧
            ∃ partition ∈ store.tables.catalogue, partition.Covers (.hourly row) ∧
              layout.partitionFor .hourly row.start.toNat = .ok partition := by
  have catalogued := served.catalogued
  refine ⟨catalogued.rows, fun dated row held notBefore => ?_, fun layout years gives => ?_⟩
  · obtain ⟨partition, member, covers⟩ := catalogued.rows (.daily row) held
    cases partition with
    | hourly range => exact covers.elim
    | daily range days =>
      obtain ⟨start, stop⟩ := dated range days (catalogued.ensured _ member)
      exact ⟨range, days, member, (Partition.covers_daily_iff start stop notBefore).mp covers⟩
  · have alone {first second : Partition} (firstMember : first ∈ store.tables.catalogue)
        (secondMember : second ∈ store.tables.catalogue) {row : PartitionedRow}
        (covers : first.Covers row) (also : second.Covers row) : first = second :=
      BucketLayout.Gives.eq_of_covers years (gives _ (catalogued.ensured _ firstMember))
        (gives _ (catalogued.ensured _ secondMember)) covers also
    refine ⟨?_, fun row held => ?_, fun row held => ?_⟩
    · have entries : store.tables.catalogue.Pairwise (· ≠ ·) := catalogued.names.of_map
      exact entries.imp_of_mem fun firstMember secondMember different row both =>
        different (alone firstMember secondMember both.1 both.2)
    · obtain ⟨partition, member, covers⟩ := catalogued.rows row held
      exact ⟨partition, ⟨member, covers⟩, fun other found =>
        alone found.1 member found.2 covers⟩
    · obtain ⟨partition, member, covers⟩ := catalogued.rows (.hourly row) held
      have given : layout.Gives partition := gives _ (catalogued.ensured _ member)
      obtain ⟨nonneg, found⟩ := given.partitionFor_start covers
      exact ⟨nonneg, partition, member, covers, found⟩

namespace AcrossPartitions

/-- A chain with three epochs to a day, hours of one epoch and partitions of two buckets. -/
def layout : BucketLayout :=
  .ofNumbers ⟨1704067200, 0⟩ 3600 8 1 2 2 (by decide)

/-- The store after some calls. Two hours are folded in two partitions. The partition that is
dropped after that was never ensured and lies across both of them. The last call asks for an
hour that no partition covers. -/
def store : EmbeddedStore :=
  [.ensurePartition (layout.partitionAt .hourly 0), .ensurePartition (layout.partitionAt .hourly 2),
    .ensurePartition (layout.partitionAt .daily 0), .upsertEpochs [⟨0, 7, .none⟩, ⟨2, 7, .none⟩],
    .foldHour ⟨0, 1⟩, .foldHour ⟨2, 3⟩, .foldDay ⟨0, 3⟩ (layout.clock.dayOf 0),
    .dropPartition (.hourly ⟨1, 3⟩), .upsertHourly [⟨0, 1, 8, .none⟩, ⟨9, 10, 7, .none⟩]].foldl
      (fun store call => (store.answer call).2) .fresh

theorem served : EmbeddedStore.Served layout.Gives store :=
  EmbeddedStore.Served.fresh.calls ⟨⟨.hourly, 0, rfl⟩, ⟨.hourly, 2, rfl⟩, ⟨.daily, 0, rfl⟩,
    trivial, trivial, trivial, trivial, trivial, trivial⟩

/-- One of the hours is gone, its partition is not, and the rows of the last call are refused
together. -/
theorem evaluated :
    store.tables.hourly.map (fun row => (row.start, row.validator)) = [(0, 7)] ∧
      store.tables.daily.map (·.validator) = [7] ∧
      store.tables.catalogue = [layout.partitionAt .hourly 0, layout.partitionAt .hourly 2,
        layout.partitionAt .daily 0] := by
  decide +kernel

end AcrossPartitions

open AcrossPartitions in
/-- Rows have exactly one partition each after a drop across two partitions and a refused
call. -/
theorem EmbeddedStore.Served.rows_covered_across_partitions :
    EmbeddedStore.Served layout.Gives store ∧ layout.clock.FromYearZero ∧
      store.tables.hourly.map (fun row => (row.start, row.validator)) = [(0, 7)] ∧
      store.tables.daily.map (·.validator) = [7] ∧
      (∀ row, store.tables.Holds row →
        ∃! partition, partition ∈ store.tables.catalogue ∧ partition.Covers row) ∧
      ∀ row ∈ store.tables.hourly, 0 ≤ row.start ∧
        ∃ partition ∈ store.tables.catalogue, partition.Covers (.hourly row) ∧
          layout.partitionFor .hourly row.start.toNat = .ok partition := by
  have years : layout.clock.FromYearZero := by show (0 : Int) ≤ _; decide
  exact ⟨served, years, evaluated.1, evaluated.2.1,
    (EmbeddedStore.Served.rows_covered served).2.2 layout years (fun _ gives => gives) |>.2⟩

end EpochRollup
