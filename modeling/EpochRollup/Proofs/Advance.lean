/-
This file says how the hourly and the daily table advance. The place of a row is the start of
its bucket and then the end of what it covers, in lexicographic order. No step of the engine
takes back a place that a table has reached (`Tables.Advances`), and a bucket that is finished,
since its table has reached a later bucket or all that the bucket can cover, is not written any
more. Its rows only ever go together, with their partition.

A bucket is written as a whole, so what has to be known is that it is not finished and that it
does not cover less than before (`Tables.Advances.of_written`). For hours both follow from the
frontier. For a day the second one needs an argument: it is folded from the hours that are
left, and older ones may have been dropped. `Tables.Backed` says what keeps it from shrinking.
-/

import EpochRollup.Proofs.MadeUp
import EpochRollup.Proofs.Reclaim

namespace EpochRollup

/-! ### Places -/

namespace PartitionedRow

/-- The end of what a row covers. -/
def stop : PartitionedRow → Int
  | .hourly row => row.stop
  | .daily row => row.stop

/-- Where a row stands: at its bucket, and within the bucket at the end of what it covers. -/
def place (row : PartitionedRow) : Int ×ₗ Int := toLex (row.start, row.stop)

theorem place_le_iff {row : PartitionedRow} {start stop : Int} :
    toLex (start, stop) ≤ row.place ↔ start < row.start ∨ start = row.start ∧ stop ≤ row.stop :=
  Prod.Lex.toLex_le_toLex

/-- The row is one of the bucket of an epoch. -/
def IsOf (layout : BucketLayout) (granularity : Granularity) (epoch : Nat)
    (row : PartitionedRow) : Prop :=
  row.granularity = granularity ∧ row.start = (layout.bucketAt granularity epoch).start

end PartitionedRow

namespace BucketLayout

variable (layout : BucketLayout)

/-- The end of what rows of the bucket of an epoch can cover: the end of the bucket, or for a day
that of the last hour that starts on it. -/
def closesBy : Granularity → Nat → Nat
  | .hourly, epoch => (layout.bucketAt .hourly epoch).stop
  | .daily, epoch => layout.closing epoch

/-- A fold takes a bucket for closed when it is covered up to there. -/
theorem closesAt_eq_ok {granularity : Granularity} {epoch closesAt : Nat}
    (ok : layout.closesAt granularity (layout.bucketAt granularity epoch) = .ok closesAt) :
    closesAt = layout.closesBy granularity epoch := by
  cases granularity with
  | hourly =>
    cases ok
    rfl
  | daily => exact closesAt_daily_eq_ok ok

theorem closesBy_congr {granularity : Granularity} {epoch other : Nat}
    (same : layout.bucketAt granularity epoch = layout.bucketAt granularity other) :
    layout.closesBy granularity epoch = layout.closesBy granularity other := by
  cases granularity with
  | hourly => exact congrArg EpochRange.stop same
  | daily =>
    show layout.closing epoch = layout.closing other
    unfold closing
    rw [same]

end BucketLayout

namespace Tables

variable {layout : BucketLayout} {tables before after : Tables} {granularity : Granularity}

/-- A table has a row at a place or after it. -/
def Reaches (tables : Tables) (granularity : Granularity) (place : Int ×ₗ Int) : Prop :=
  ∃ row, tables.Holds row ∧ row.granularity = granularity ∧ place ≤ row.place

/-- The bucket of an epoch is finished: a later bucket has rows, or a row of it covers all that
the bucket can cover. -/
def Finished (tables : Tables) (layout : BucketLayout) (granularity : Granularity)
    (epoch : Nat) : Prop :=
  ∃ row, tables.Holds row ∧ row.granularity = granularity ∧
    ((layout.bucketAt granularity epoch).start < row.start ∨
      (layout.bucketAt granularity epoch).start = row.start ∧
        layout.closesBy granularity epoch ≤ row.stop)

/-- A bucket is finished once its table has reached its end. -/
theorem finished_iff_reaches {epoch : Nat} : tables.Finished layout granularity epoch ↔
    tables.Reaches granularity
      (toLex ((layout.bucketAt granularity epoch).start, layout.closesBy granularity epoch)) := by
  simp only [Finished, Reaches, PartitionedRow.place_le_iff]

/-- Whether a bucket is finished does not depend on the epoch that it is named by. -/
theorem Finished.congr {epoch other : Nat} (finished : tables.Finished layout granularity epoch)
    (same : layout.bucketAt granularity epoch = layout.bucketAt granularity other) :
    tables.Finished layout granularity other := by
  unfold Finished at finished ⊢
  rwa [← same, ← layout.closesBy_congr same]

/-! ### Steps that advance -/

/-- What a step may do to the partitioned tables. -/
structure Advances (layout : BucketLayout) (before after : Tables) : Prop where
  /-- No place is taken back. -/
  reaches : ∀ granularity place, before.Reaches granularity place →
    after.Reaches granularity place
  /-- A finished bucket keeps its rows, or it has none any more and its partition is dropped. -/
  keeps : ∀ granularity epoch, before.Finished layout granularity epoch →
    (∀ row : PartitionedRow, row.IsOf layout granularity epoch →
        (after.Holds row ↔ before.Holds row)) ∨
      after = before.drop (layout.partitionAt granularity epoch) ∧
        ∀ row : PartitionedRow, row.IsOf layout granularity epoch → ¬after.Holds row

namespace Advances

/-- A step that leaves the rows alone. -/
theorem of_sameRows (hourly : after.hourly = before.hourly) (daily : after.daily = before.daily) :
    before.Advances layout after := by
  have same (row : PartitionedRow) : after.Holds row ↔ before.Holds row := by
    cases row with
    | hourly row => exact iff_of_eq (congrArg (row ∈ ·) hourly)
    | daily row => exact iff_of_eq (congrArg (row ∈ ·) daily)
  exact
    { reaches := fun _ _ ⟨row, held, rest⟩ => ⟨row, (same row).mpr held, rest⟩
      keeps := fun _ _ _ => Or.inl fun row _ => same row }

/-- A step that writes one bucket. The bucket is not finished and does not cover less. -/
theorem of_written {epoch : Nat} (notFinished : ¬before.Finished layout granularity epoch)
    (covers : ∀ row : PartitionedRow, before.Holds row → row.IsOf layout granularity epoch →
      after.Reaches granularity row.place)
    (elsewhere : ∀ row : PartitionedRow, ¬row.IsOf layout granularity epoch →
      (after.Holds row ↔ before.Holds row)) : before.Advances layout after where
  reaches := by
    rintro other place ⟨row, held, rfl, upTo⟩
    by_cases here : row.IsOf layout granularity epoch
    · obtain ⟨kept, keptHeld, same, further⟩ := covers row held here
      exact ⟨kept, keptHeld, same.trans here.1.symm, le_trans upTo further⟩
    · exact ⟨row, (elsewhere row here).mpr held, rfl, upTo⟩
  keeps := by
    intro other otherEpoch finished
    refine Or.inl fun row ofOther => elsewhere row fun here => notFinished ?_
    obtain rfl := here.1.symm.trans ofOther.1
    refine finished.congr (layout.bucketAt_eq_of_start ?_)
    have starts := here.2.symm.trans ofOther.2
    omega

end Advances

/-! ### Partitions that are dropped -/

/-- A partition may be dropped that some row of its table starts behind. -/
theorem Sound.advances_drop (sound : tables.Sound layout) (years : layout.clock.FromYearZero)
    {epoch : Nat} {last : PartitionedRow} (held : tables.Holds last)
    (ofTable : last.granularity = granularity)
    (behind : (layout.partitionRangeAt granularity epoch).stop ≤ last.start) :
    tables.Advances layout (tables.drop (layout.partitionAt granularity epoch)) where
  reaches := by
    rintro other place ⟨row, rowHeld, rfl, upTo⟩
    by_cases inside : layout.partitionOf row = layout.partitionAt granularity epoch
    · -- The row starts in the partition, so the other one is later and lies outside.
      have granularities := congrArg Partition.granularity inside
      rw [BucketLayout.partitionOf, BucketLayout.granularity_partitionAt,
        BucketLayout.granularity_partitionAt] at granularities
      rw [BucketLayout.partitionOf, granularities, layout.partitionAt_eq_iff] at inside
      refine ⟨last, (sound.holds_drop_iff years held).mpr fun within => ?_,
        ofTable.trans granularities.symm, le_trans upTo ?_⟩
      · rw [BucketLayout.partitionOf, ofTable, layout.partitionAt_eq_iff] at within
        omega
      · exact PartitionedRow.place_le_iff.mpr (Or.inl (by omega))
    · exact ⟨row, (sound.holds_drop_iff years rowHeld).mpr inside, rfl, upTo⟩
  keeps := by
    intro other otherEpoch _
    have partition {row : PartitionedRow} (ofBucket : row.IsOf layout other otherEpoch) :
        layout.partitionOf row = layout.partitionAt other otherEpoch := by
      rw [BucketLayout.partitionOf, ofBucket.1, ofBucket.2, Int.toNat_natCast,
        layout.partitionAt_start]
    by_cases here :
        layout.partitionAt other otherEpoch = layout.partitionAt granularity epoch
    · refine Or.inr ⟨by rw [here], fun row ofBucket kept => ?_⟩
      exact (sound.holds_drop_iff years kept.of_drop).mp kept ((partition ofBucket).trans here)
    · refine Or.inl fun row ofBucket => ⟨Holds.of_drop, fun rowHeld => ?_⟩
      exact (sound.holds_drop_iff years rowHeld).mpr fun within =>
        here ((partition ofBucket).symm.trans within)

/-! ### Hours that are written -/

namespace WritesHours

variable {start : Nat} {last : Int} {rows : List HourlyRow}

/-- An hour that was stored is stored afterwards and does not cover less. -/
theorem exists_kept (writes : tables.WritesHours layout start last rows) {row : HourlyRow}
    (member : row ∈ tables.hourly) :
    ∃ kept ∈ (tables.withHours rows).hourly, kept.start = row.start ∧ row.stop ≤ kept.stop := by
  by_cases here : row.start = start
  · obtain ⟨written, writtenMember, rowStart, rowStop⟩ := writes.exists_row
    have covered := writes.stop_le member here
    exact ⟨written, (writes.mem_iff written).mpr (Or.inl writtenMember), by omega, by omega⟩
  · refine ⟨row, (writes.mem_iff row).mpr (Or.inr ⟨member, fun other new same => here ?_⟩), rfl,
      Int.le_refl _⟩
    rw [((HourlyRow.key_eq_iff row other).mp same).1, (writes.wrote.written other new).1.1]

theorem advances (writes : tables.WritesHours layout start last rows) :
    tables.Advances layout (tables.withHours rows) := by
  have isOpen := writes.isOpen
  have begins : (layout.bucketAt .hourly start).start = start :=
    BucketLayout.start_bucketAt_of_isHourStart writes.starts
  have stop : (layout.bucketAt .hourly start).stop = start + layout.hourlyWidth := by
    rw [layout.stop_bucketAt_hourly, begins]
  -- The bucket is open: no hour is later, and none covers it to its end.
  have notFinished : ¬tables.Finished layout .hourly start := by
    rintro ⟨row, held, ofTable, reached⟩
    cases row with
    | hourly row =>
      have upTo := writes.start_le held
      have covered := writes.steady.stop_le_frontier held
      simp only [PartitionedRow.start, PartitionedRow.stop, BucketLayout.closesBy] at reached
      omega
    | daily row => cases ofTable
  refine .of_written notFinished ?_ ?_
  · rintro row held ⟨ofTable, -⟩
    cases row with
    | hourly row =>
      obtain ⟨kept, member, same, covers⟩ := writes.exists_kept held
      exact ⟨.hourly kept, member, rfl,
        PartitionedRow.place_le_iff.mpr (Or.inr ⟨same.symm, covers⟩)⟩
    | daily row => cases ofTable
  · intro row apart
    cases row with
    | hourly row =>
      refine (writes.mem_iff row).trans ⟨fun either => ?_, fun held => Or.inr ⟨held, ?_⟩⟩
      · refine either.elim (fun new => absurd ⟨rfl, ?_⟩ apart) And.left
        show row.start = _
        rw [(writes.wrote.written row new).1.1, begins]
      · refine fun other new same => apart ⟨rfl, ?_⟩
        show row.start = _
        rw [((HourlyRow.key_eq_iff row other).mp same).1, (writes.wrote.written other new).1.1,
          begins]
    | daily row => exact Iff.rfl

end WritesHours

end Tables

/-! ### Days that are written -/

/-- A row covers as much as each of the hours that start on its day. -/
theorem DailyRow.Summarizes.stop_le {clock : ChainClock} {hours : List HourlyRow}
    {bucket : EpochRange} {row : DailyRow} (sums : row.Summarizes clock hours bucket)
    {width : Nat} (starts : ∀ hour ∈ hours, IsHourStart width hour.start)
    (covers : ∀ hour ∈ hours, hour.start < hour.stop ∧ hour.stop ≤ hour.start + width)
    {hour : HourlyRow} (member : hour ∈ hoursIn hours bucket) : hour.stop ≤ row.stop := by
  obtain ⟨last, lastIs, stopIs⟩ := sums.covers
  have upTo := (List.max?_eq_some_iff.mp lastIs).2 _ (List.mem_map.mpr ⟨hour, member, rfl⟩)
  have most {other : HourlyRow} (member : other ∈ hoursIn hours bucket)
      (here : other.start = last) : other.stop ≤ row.stop :=
    (List.max?_eq_some_iff.mp stopIs).2 _ (List.mem_map.mpr
      ⟨other, List.mem_filter.mpr ⟨member, decide_eq_true here⟩, rfl⟩)
  by_cases here : hour.start = last
  · exact most member here
  · -- An earlier hour ends by the start of the last one.
    obtain ⟨final, finalMember, finalStart⟩ := List.mem_map.mp (List.max?_mem lastIs)
    have stored := (mem_hoursIn.mp member).1
    have finalStored := (mem_hoursIn.mp finalMember).1
    have apart := (starts hour stored).add_le_of_lt (starts final finalStored) (by omega)
    have near := (covers hour stored).2
    have proper := (covers final finalStored).1
    have covered := most finalMember finalStart
    omega

namespace Tables

variable {layout : BucketLayout} {tables after : Tables}

/-- A row of a day cannot shrink: either a later day has rows, or an hour is stored that starts
on the day and covers as much as the row. -/
def Backed (layout : BucketLayout) (tables : Tables) : Prop :=
  ∀ row ∈ tables.daily, (∃ later ∈ tables.daily, row.start < later.start) ∨
    ∃ hour ∈ hoursIn tables.hourly (layout.bucketAt .daily row.start.toNat), row.stop ≤ hour.stop

namespace Backed

theorem empty : Tables.empty.Backed layout := fun _ member => absurd member List.not_mem_nil

theorem of_sameRows (backed : tables.Backed layout) (hourly : after.hourly = tables.hourly)
    (daily : after.daily = tables.daily) : after.Backed layout := by
  unfold Backed
  rw [hourly, daily]
  exact backed

theorem withHours {start : Nat} {last : Int} {rows : List HourlyRow}
    (backed : tables.Backed layout) (writes : tables.WritesHours layout start last rows) :
    (tables.withHours rows).Backed layout := by
  intro row member
  refine (backed row member).imp_right ?_
  rintro ⟨hour, hourMember, covered⟩
  obtain ⟨stored, after, before⟩ := mem_hoursIn.mp hourMember
  obtain ⟨kept, keptMember, same, covers⟩ := writes.exists_kept stored
  exact ⟨kept, mem_hoursIn.mpr ⟨keptMember, by omega, by omega⟩, by omega⟩

end Backed

/-- The day of the latest hour has rows. -/
def DayReached (layout : BucketLayout) (tables : Tables) : Prop :=
  ∀ head, tables.head? = some head →
    ∃ row ∈ tables.daily, row.start = (layout.bucketAt .daily head).start

/-- Where the day of the latest hour has rows, that hour keeps them from shrinking. -/
theorem Steady.backed_of_reached (steady : tables.Steady layout)
    (reached : tables.DayReached layout) : tables.Backed layout := by
  intro row member
  obtain ⟨⟨hour, hourMember, upTo⟩, covered⟩ := steady.days row member
  obtain ⟨start, latest⟩ := steady.exists_latest (List.ne_nil_of_mem hourMember)
  obtain ⟨last, lastMember, lastStart⟩ := reached _ latest.head?
  have most := latest.most hour hourMember
  have begins := steady.sound.start_bucketAt member
  rcases Int.lt_or_le row.start last.start with earlier | notEarlier
  · exact Or.inl ⟨last, lastMember, earlier⟩
  · -- The row is of the day of the latest hour.
    have notAfter : row.start.toNat ≤ start.toNat := by omega
    have ordered := layout.start_bucketAt_mono .daily notAfter
    have bucket : layout.bucketAt .daily row.start.toNat = layout.bucketAt .daily start.toNat :=
      layout.bucketAt_eq_of_start (by omega)
    have past := layout.lt_stop_bucketAt .daily start.toNat
    obtain ⟨final, finalMember, finalStart, finalStop⟩ := latest.exists_last
    rw [bucket]
    exact Or.inr ⟨final, mem_hoursIn.mpr ⟨finalMember, by omega, by omega⟩, by omega⟩

section

variable {epoch : Nat} {rows : List DailyRow}

/-- Each day that has rows has rows after one is written. -/
theorem Sound.exists_start_withDays (sound : tables.Sound layout)
    (after : (tables.withDays rows).Sound layout) {row : DailyRow} (member : row ∈ tables.daily) :
    ∃ kept ∈ (tables.withDays rows).daily, kept.start = row.start := by
  obtain ⟨kept, keptMember, same⟩ := exists_key_putRows DailyRow.orderedBy_key member rows
  refine ⟨kept, keptMember, (sound.start_eq_of_textKey after member keptMember ?_).symm⟩
  exact ((DailyRow.key_eq_iff kept row).mp same).1.symm

/-- A day may be folded that is not finished. -/
theorem Steady.advances_withDays (steady : tables.Steady layout) (backed : tables.Backed layout)
    (notFinished : ¬tables.Finished layout .daily epoch)
    (wrote : DayRows layout.clock tables.hourly (layout.bucketAt .daily epoch) rows)
    (sound : (tables.withDays rows).Sound layout) :
    tables.Advances layout (tables.withDays rows) := by
  refine .of_written notFinished ?_ ?_
  · rintro row held ⟨ofTable, here⟩
    cases row with
    | hourly row => cases ofTable
    | daily row =>
      have here : row.start = (layout.bucketAt .daily epoch).start := here
      rcases backed row held with ⟨later, member, after⟩ | ⟨hour, member, covered⟩
      · obtain ⟨kept, keptMember, same⟩ := steady.sound.exists_start_withDays sound member
        have later : row.start < kept.start := by omega
        exact ⟨.daily kept, keptMember, rfl, PartitionedRow.place_le_iff.mpr (Or.inl later)⟩
      · rw [here, Int.toNat_natCast, layout.bucketAt_start] at member
        obtain ⟨written, new⟩ := List.exists_mem_of_ne_nil _ wrote.nonempty
        have summary := wrote.written written new
        have covers := summary.stop_le (fun hour stored => steady.sound.isHourStart stored)
          (fun hour stored => ⟨(steady.hours hour stored).1, (steady.hours hour stored).2.1⟩) member
        refine ⟨.daily written, (mem_putRows DailyRow.orderedBy_key steady.sound.dailyKeyed
          wrote.keyed written).mpr (Or.inl new), rfl, PartitionedRow.place_le_iff.mpr (Or.inr ?_)⟩
        exact ⟨here.trans summary.start.symm, Int.le_trans covered covers⟩
  · intro row apart
    cases row with
    | hourly row => exact Iff.rfl
    | daily row =>
      exact steady.sound.mem_withDays_elsewhere wrote sound fun same => apart ⟨rfl, same⟩

theorem Backed.withDays (backed : tables.Backed layout) (sound : tables.Sound layout)
    (wrote : DayRows layout.clock tables.hourly (layout.bucketAt .daily epoch) rows)
    (afterSound : (tables.withDays rows).Sound layout) : (tables.withDays rows).Backed layout := by
  intro row member
  rcases mem_of_mem_putRows member with new | old
  · -- The row covers what one of the hours covers that it is folded from.
    have summary := wrote.written row new
    obtain ⟨last, -, stopIs⟩ := summary.covers
    obtain ⟨hour, filtered, same⟩ := List.mem_map.mp (List.max?_mem stopIs)
    rw [summary.start, Int.toNat_natCast, layout.bucketAt_start]
    exact Or.inr ⟨hour, (List.mem_filter.mp filtered).1, Int.le_of_eq same.symm⟩
  · refine (backed row old).imp_left ?_
    rintro ⟨later, laterMember, after⟩
    obtain ⟨kept, keptMember, same⟩ := sound.exists_start_withDays afterSound laterMember
    exact ⟨kept, keptMember, by omega⟩

end

end Tables

end EpochRollup
