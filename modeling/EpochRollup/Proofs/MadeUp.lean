/-
This file says what it means for a day to be made up. At some moment its rows were written
from all hours of the day that are stored now and from hours of the day that have been dropped
since; and they are still what was written then, unless a row of the day was deleted.

Once the hours of a day have closed, no hour of it is written any more, so the day stays made
up while later epochs arrive. A partition of hours that was dropped does not come back: it would
lie between an hour of the day and the latest hour, and then it holds the latest hour.
-/

import EpochRollup.Proofs.Dates
import EpochRollup.Proofs.Rolled
import EpochRollup.Proofs.Steady

namespace EpochRollup

variable {layout : BucketLayout} {day : Nat}

/-! ### Rows that are deleted -/

namespace Chronicle

variable {log : Chronicle} {after : Tables}

/-- A row of the day that starts at an epoch was there, and the next tables had no row with its
key. -/
def LostDay (log : Chronicle) (start : Nat) : Prop :=
  ∃ change ∈ (log.now :: log.past).zip log.past, ∃ row ∈ change.2.daily,
    row.start = start ∧ ∀ other ∈ change.1.daily, other.key ≠ row.key

instance (log : Chronicle) (start : Nat) : Decidable (log.LostDay start) :=
  inferInstanceAs (Decidable (∃ change ∈ (log.now :: log.past).zip log.past,
    ∃ row ∈ change.2.daily, row.start = start ∧ ∀ other ∈ change.1.daily, other.key ≠ row.key))

theorem lostDay_record {start : Nat} :
    (log.record after).LostDay start ↔ log.LostDay start ∨
      ∃ row ∈ log.now.daily, row.start = start ∧ ∀ other ∈ after.daily, other.key ≠ row.key := by
  unfold record
  split
  · rename_i same
    refine (or_iff_left ?_).symm
    rintro ⟨row, member, -, gone⟩
    exact gone row (same ▸ member) rfl
  · unfold LostDay
    rw [List.zip_cons_cons, List.exists_mem_cons_iff]
    exact or_comm

/-- What is lost stays lost. -/
theorem LostDay.record {start : Nat} (lost : log.LostDay start) :
    (log.record after).LostDay start := lostDay_record.mpr (Or.inl lost)

end Chronicle

/-! ### Days that are made up -/

/-- The rows of a day are those of a moment that had all hours of the day that are stored, and
besides them only hours whose partition is gone. -/
structure MadeFrom (layout : BucketLayout) (day : Nat) (stored : Tables) (daily : List DailyRow)
    (moment : Tables) : Prop where
  /-- There were hours of the day. -/
  seen : hoursIn moment.hourly (layout.bucketAt .daily day) ≠ []
  /-- All that are stored were there. -/
  included : ∀ hour ∈ hoursIn stored.hourly (layout.bucketAt .daily day), hour ∈ moment.hourly
  /-- The others have been dropped with their partitions. -/
  dropped : ∀ hour ∈ hoursIn moment.hourly (layout.bucketAt .daily day),
    hour ∈ stored.hourly ∨ layout.partitionAt .hourly hour.start.toNat ∉ stored.catalogue
  /-- There is still an hour that is not before them. -/
  upTo : ∀ hour ∈ hoursIn moment.hourly (layout.bucketAt .daily day),
    ∃ other ∈ stored.hourly, hour.start ≤ other.start
  /-- The validator of each has its row. -/
  rows : ∀ hour ∈ hoursIn moment.hourly (layout.bucketAt .daily day), ∃ row ∈ daily,
    row.validator = hour.validator ∧
      row.IsFoldOf layout.clock moment.hourly (layout.bucketAt .daily day)

/-- A day was made up at some moment, seen from tables with its hours. -/
def Chronicle.Made (log : Chronicle) (layout : BucketLayout) (day : Nat) (stored : Tables) : Prop :=
  log.Ever (MadeFrom layout day stored log.now.daily)

/-- The hours of a day have closed. -/
def Tables.Settled (tables : Tables) (layout : BucketLayout) (day : Nat) : Prop :=
  (layout.closing day : Int) ≤ tables.frontier

namespace MadeFrom

variable {stored after moment : Tables} {daily others : List DailyRow} {start head : Nat}

/-- Only the rows of the day matter. -/
theorem of_rows (made : MadeFrom layout day stored daily moment)
    (kept : ∀ row ∈ daily, row.start = (layout.bucketAt .daily day).start → row ∈ others) :
    MadeFrom layout day stored others moment :=
  { made with
    rows := fun hour member => by
      obtain ⟨row, rowMember, validator, summary⟩ := made.rows hour member
      exact ⟨row, kept row rowMember summary.start, validator, summary⟩ }

theorem of_sameHours (made : MadeFrom layout day stored daily moment)
    (same : stored.SameHours after) : MadeFrom layout day after daily moment where
  seen := made.seen
  included := same.1 ▸ made.included
  dropped := by
    rw [same.1]
    exact fun hour member => (made.dropped hour member).imp_right fun gone listed =>
      gone ((same.2 _).mp listed)
  upTo := same.1 ▸ made.upTo
  rows := made.rows

/-- A partition that is made for an open hour is none of those that have been dropped. -/
theorem ensure (made : MadeFrom layout day stored daily moment) (steady : stored.Steady layout)
    (starts : IsHourStart layout.hourlyWidth start)
    (isOpen : stored.frontier < start + layout.hourlyWidth) :
    MadeFrom layout day (stored.ensure (layout.partitionAt .hourly start)) daily moment where
  seen := made.seen
  included := by
    rw [Tables.hourly_ensure]
    exact made.included
  dropped := by
    rw [Tables.hourly_ensure]
    intro hour member
    refine (made.dropped hour member).imp_right fun gone listed => ?_
    rcases Tables.mem_catalogue_ensure.mp listed with old | ⟨same, missing⟩
    · exact gone old
    · -- The latest hour lies between the hour and the bucket, so the partition was there.
      obtain ⟨other, otherMember, before⟩ := made.upTo hour member
      obtain ⟨covers, -⟩ := steady.hours other otherMember
      have covered := steady.stop_le_frontier otherMember
      have later : other.start ≤ start :=
        (steady.sound.isHourStart otherMember).le_of_lt starts (by omega)
      have inside := layout.partitionAt_eq_iff.mp same
      have within : start < (layout.partitionRangeAt .hourly start).stop :=
        EpochRange.lt_stop_aligned (layout.partitionSpan_pos .hourly) start
      have between : layout.partitionAt .hourly other.start.toNat =
          layout.partitionAt .hourly start :=
        layout.partitionAt_eq_iff.mpr ⟨by omega, by omega⟩
      have otherListed := steady.sound.listed otherMember
      rw [between] at otherListed
      have present : stored.hasPartition (layout.partitionAt .hourly start).name = true :=
        Tables.hasPartition_hourly_iff.mpr otherListed
      rw [present] at missing
      cases missing
  upTo := by
    rw [Tables.hourly_ensure]
    exact made.upTo
  rows := made.rows

/-- An open hour is none of a day that is settled. -/
theorem withHours {last : Int} {rows : List HourlyRow}
    (made : MadeFrom layout day stored daily moment)
    (writes : stored.WritesHours layout start last rows) (settled : stored.Settled layout day) :
    MadeFrom layout day (stored.withHours rows) daily moment := by
  have isOpen := writes.isOpen
  have elsewhere : ((layout.bucketAt .daily day).stop : Int) ≤ start := by
    by_contra inside
    have close : (start : Int) + layout.hourlyWidth ≤ layout.closing day :=
      BucketLayout.le_closing writes.starts (by omega)
    unfold Tables.Settled at settled
    omega
  have same {hour : HourlyRow} (before : hour.start < (layout.bucketAt .daily day).stop) :
      hour ∈ (stored.withHours rows).hourly ↔ hour ∈ stored.hourly := by
    have apart {row : HourlyRow} (member : row ∈ rows) : hour.start ≠ row.start := by
      rw [(writes.wrote.written row member).1.1]
      omega
    rw [writes.mem_iff]
    refine ⟨fun either => either.elim (fun new => absurd rfl (apart new)) And.left, fun old =>
      Or.inr ⟨old, fun row member sameKey => apart member ?_⟩⟩
    exact ((HourlyRow.key_eq_iff hour row).mp sameKey).1
  refine
    { seen := made.seen, included := ?included, dropped := ?dropped, upTo := ?upTo
      rows := made.rows }
  case included =>
    intro hour member
    obtain ⟨written, after, before⟩ := mem_hoursIn.mp member
    exact made.included hour (mem_hoursIn.mpr ⟨(same before).mp written, after, before⟩)
  case dropped =>
    intro hour member
    exact (made.dropped hour member).imp_left (same (mem_hoursIn.mp member).2.2).mpr
  case upTo =>
    intro hour member
    obtain ⟨other, otherMember, later⟩ := made.upTo hour member
    obtain ⟨kept, keptMember, start, -⟩ := Tables.exists_key_withHours otherMember rows
    exact ⟨kept, keptMember, by omega⟩

/-- Hours are dropped with their partition, and the latest one stays. -/
theorem dropHours {epoch : Nat} (made : MadeFrom layout day stored daily moment)
    (latest : stored.LatestHour layout head)
    (apart : ((layout.partitionRangeAt .hourly epoch).stop : Int) ≤ head) :
    MadeFrom layout day (stored.drop (layout.partitionAt .hourly epoch)) daily moment where
  seen := made.seen
  included := by
    intro hour member
    obtain ⟨kept, inside⟩ := mem_hoursIn.mp member
    exact made.included hour (mem_hoursIn.mpr ⟨(Tables.mem_hourly_drop.mp kept).1, inside⟩)
  dropped := by
    intro hour member
    rw [Tables.mem_catalogue_drop]
    rcases made.dropped hour member with there | gone
    · by_cases same : layout.partitionAt .hourly hour.start.toNat =
        layout.partitionAt .hourly epoch
      · exact Or.inr fun listed => listed.2 (congrArg Partition.name same)
      · refine Or.inl (Tables.mem_hourly_drop.mpr ⟨there, fun inside => same ?_⟩)
        exact layout.partitionAt_eq_iff.mpr ⟨by omega, by omega⟩
    · exact Or.inr fun listed => gone listed.1
  upTo := by
    intro hour member
    obtain ⟨other, otherMember, later⟩ := made.upTo hour member
    obtain ⟨kept, keptMember, same⟩ := (Tables.Steady.latest_dropHours latest apart).1.held
    have most := latest.most other otherMember
    exact ⟨kept, keptMember, by omega⟩
  rows := made.rows

end MadeFrom

/-! ### Steps on a day that is made up -/

namespace Chronicle.Made

variable {log : Chronicle} {after stored other : Tables}

theorem record (made : log.Made layout day stored)
    (moves : ∀ moment, MadeFrom layout day stored log.now.daily moment →
      MadeFrom layout day other after.daily moment) : (log.record after).Made layout day other := by
  unfold Made
  rw [Chronicle.now_record]
  refine Chronicle.ever_record.mpr (Or.inr ?_)
  rcases made with here | ⟨moment, member, earlier⟩
  · exact Or.inl (moves _ here)
  · exact Or.inr ⟨moment, member, moves _ earlier⟩

/-- There are rows of the day. -/
theorem exists_row (made : log.Made layout day stored) :
    ∃ row ∈ log.now.daily, row.start = (layout.bucketAt .daily day).start := by
  obtain ⟨moment, whole⟩ : ∃ moment, MadeFrom layout day stored log.now.daily moment := by
    rcases made with here | ⟨moment, -, earlier⟩
    · exact ⟨_, here⟩
    · exact ⟨moment, earlier⟩
  obtain ⟨hour, member⟩ := List.exists_mem_of_ne_nil _ whole.seen
  obtain ⟨row, rowMember, -, summary⟩ := whole.rows hour member
  exact ⟨row, rowMember, summary.start⟩

/-- A partition of days may be dropped: either a row of the day is lost or all are kept. -/
theorem dropDays (made : log.Made layout day stored) (keyed : Keyed DailyRow.key log.now.daily)
    (same : stored.SameHours other) (epoch : Nat) :
    (log.record (log.now.drop (layout.partitionAt .daily epoch))).LostDay
        (layout.bucketAt .daily day).start ∨
      (log.record (log.now.drop (layout.partitionAt .daily epoch))).Made layout day other := by
  by_cases all : ∀ row ∈ log.now.daily, row.start = (layout.bucketAt .daily day).start →
    row ∈ (log.now.drop (layout.partitionAt .daily epoch)).daily
  · exact Or.inr (made.record fun moment whole => (whole.of_rows all).of_sameHours same)
  · push Not at all
    obtain ⟨row, member, start, gone⟩ := all
    refine Or.inl (Chronicle.lostDay_record.mpr (Or.inr ⟨row, member, start, ?_⟩))
    intro kept keptMember same
    have old : kept ∈ log.now.daily := (Tables.mem_daily_drop.mp keptMember).1
    rw [keyed.eq_of_key_eq old member same] at keptMember
    exact gone keptMember

end Chronicle.Made

/-! ### Folds of days -/

section

variable {log : Chronicle} {rows : List DailyRow} {epoch : Nat}

/-- The rows of another day leave the rows of the day as they are. -/
theorem Tables.Sound.mem_withDays_elsewhere {tables : Tables} (sound : tables.Sound layout)
    (wrote : DayRows layout.clock tables.hourly (layout.bucketAt .daily epoch) rows)
    (after : (tables.withDays rows).Sound layout) {row : DailyRow}
    (apart : row.start ≠ (layout.bucketAt .daily epoch).start) :
    row ∈ (tables.withDays rows).daily ↔ row ∈ tables.daily := by
  have read := mem_putRows DailyRow.orderedBy_key sound.dailyKeyed wrote.keyed row
  show row ∈ putRows _ _ _ ↔ _
  rw [read]
  refine ⟨fun either => either.elim (fun new => absurd (wrote.written row new).start apart)
    And.left, fun old => Or.inr ⟨old, fun other member same => apart ?_⟩⟩
  have stored : other ∈ (tables.withDays rows).daily :=
    (mem_putRows DailyRow.orderedBy_key sound.dailyKeyed wrote.keyed other).mpr (Or.inl member)
  rw [← (wrote.written other member).start]
  exact sound.start_eq_of_textKey after old stored
    ((DailyRow.key_eq_iff row other).mp same).1

/-- A day that is folded is made up. -/
theorem Chronicle.made_withDays
    (wrote : DayRows layout.clock log.now.hourly (layout.bucketAt .daily day) rows)
    (keyed : Keyed DailyRow.key log.now.daily) :
    (log.record (log.now.withDays rows)).Made layout day (log.now.withDays rows) := by
  refine Chronicle.ever_of_now ?_
  rw [Chronicle.now_record]
  refine ⟨?_, fun hour member => (mem_hoursIn.mp member).1, fun hour member =>
    Or.inl (mem_hoursIn.mp member).1, fun hour member =>
      ⟨hour, (mem_hoursIn.mp member).1, Int.le_refl _⟩, fun hour member => ?_⟩
  · obtain ⟨row, member⟩ := List.exists_mem_of_ne_nil _ wrote.nonempty
    obtain ⟨hour, hourMember, -⟩ := (wrote.written row member).exists_hour
    exact List.ne_nil_of_mem hourMember
  · obtain ⟨row, rowMember, validator⟩ := wrote.complete hour member
    exact ⟨row, (mem_putRows DailyRow.orderedBy_key keyed wrote.keyed row).mpr (Or.inl rowMember),
      validator, wrote.written row rowMember⟩

end

end EpochRollup
