/-
This file gives the invariant of the daily table. A day is done when its partition was made
and, as long as the partition is there, its rows are the summaries of all hours that ever
started on the day. Folds refold the latest day with rows and go up from it, so every day
before it has to stay done, and the latest one too once it has closed. The hours of such a
day are settled: the frontier is behind the last of them. The hours from the latest day on
are still stored, so that the latest day can be folded again.
-/

import EpochRollup.Proofs.DayHours
import EpochRollup.Proofs.Folded

namespace EpochRollup

variable {layout : BucketLayout} {log : Chronicle}

/-! ### When a day closes -/

namespace BucketLayout

/-- The epoch at which the hours that start on the day of an epoch have closed. -/
def closing (layout : BucketLayout) (epoch : Nat) : Nat :=
  (layout.bucketAt .hourly ((layout.bucketAt .daily epoch).stop - 1)).stop

theorem closesAt_daily_eq_ok {epoch close : Nat}
    (ok : layout.closesAt .daily (layout.bucketAt .daily epoch) = .ok close) :
    close = layout.closing epoch := by
  unfold closesAt at ok
  cases found : layout.bucket .hourly ((layout.bucketAt .daily epoch).stop - 1) with
  | error cause =>
    simp only [found] at ok
    cases ok
  | ok bucket =>
    simp only [found] at ok
    cases ok
    exact congrArg EpochRange.stop (layout.bucket_eq_ok found)

/-- The hour of the last epoch of a day is the last one that starts on it. -/
theorem closing_eq (layout : BucketLayout) (epoch : Nat) :
    ∃ start : Int, IsHourStart layout.hourlyWidth start ∧
      start < (layout.bucketAt .daily epoch).stop ∧
      ((layout.bucketAt .daily epoch).stop : Int) ≤ start + layout.hourlyWidth ∧
      (layout.closing epoch : Int) = start + layout.hourlyWidth := by
  have positive : 0 < (layout.bucketAt .daily epoch).stop :=
    Nat.lt_of_le_of_lt (Nat.zero_le _) (EpochRange.lt_stop_aligned (layout.width_pos .daily) epoch)
  have before : (layout.bucketAt .hourly ((layout.bucketAt .daily epoch).stop - 1)).start ≤
      (layout.bucketAt .daily epoch).stop - 1 :=
    EpochRange.start_aligned_le layout.hourlyWidth_pos _
  have after : (layout.bucketAt .daily epoch).stop - 1 <
      (layout.bucketAt .hourly ((layout.bucketAt .daily epoch).stop - 1)).stop :=
    EpochRange.lt_stop_aligned layout.hourlyWidth_pos _
  have stop : (layout.bucketAt .hourly ((layout.bucketAt .daily epoch).stop - 1)).stop =
      (layout.bucketAt .hourly ((layout.bucketAt .daily epoch).stop - 1)).start +
        layout.hourlyWidth := rfl
  refine ⟨(layout.bucketAt .hourly ((layout.bucketAt .daily epoch).stop - 1)).start,
    ⟨_, rfl⟩, ?_, ?_, ?_⟩
  · omega
  · omega
  · unfold closing
    omega

theorem closing_pos (layout : BucketLayout) (epoch : Nat) : 0 < layout.closing epoch :=
  Nat.lt_of_le_of_lt (Nat.zero_le _) (EpochRange.lt_stop_aligned layout.hourlyWidth_pos _)

/-- An hour that starts after a day starts after the day has closed. -/
theorem closing_le {epoch : Nat} {start : Int} (starts : IsHourStart layout.hourlyWidth start)
    (after : ((layout.bucketAt .daily epoch).stop : Int) ≤ start) :
    (layout.closing epoch : Int) ≤ start := by
  obtain ⟨last, lastStarts, before, -, closing⟩ := layout.closing_eq epoch
  rw [closing]
  exact lastStarts.add_le_of_lt starts (by omega)

/-- An hour that starts on a day ends by the time the day closes. -/
theorem le_closing {epoch : Nat} {start : Int} (starts : IsHourStart layout.hourlyWidth start)
    (before : start < (layout.bucketAt .daily epoch).stop) :
    start + layout.hourlyWidth ≤ layout.closing epoch := by
  obtain ⟨last, lastStarts, -, reached, closing⟩ := layout.closing_eq epoch
  rw [closing]
  have ordered := starts.le_of_lt lastStarts (by omega)
  omega

end BucketLayout

/-! ### Days that are done -/

/-- The daily table holds the summaries of the hours that ever started on the day of an epoch,
and no other rows of that day. -/
structure DayTable (layout : BucketLayout) (log : Chronicle) (epoch : Nat) : Prop where
  /-- There are no other rows than summaries. -/
  rows : ∀ row ∈ log.now.daily, row.start = (layout.bucketAt .daily epoch).start →
    row.Summarizes layout.clock log.hours (layout.bucketAt .daily epoch)
  /-- The validator of each of the hours has a row. -/
  complete : ∀ hour ∈ hoursIn log.hours (layout.bucketAt .daily epoch),
    ∃ row ∈ log.now.daily, row.start = (layout.bucketAt .daily epoch).start ∧
      row.validator = hour.validator

/-- The day of an epoch has had its partition, and has its rows unless the partition was
dropped. -/
structure DayDone (layout : BucketLayout) (log : Chronicle) (epoch : Nat) : Prop where
  /-- The partition was made. -/
  listed : log.Ever fun tables => tables.hasPartition (layout.partitionAt .daily epoch).name = true
  /-- As long as it is there, so are the rows. -/
  held : log.now.hasPartition (layout.partitionAt .daily epoch).name = true →
    DayTable layout log epoch

theorem DayDone.congr {epoch other : Nat} (done : DayDone layout log epoch)
    (same : layout.bucketAt .daily other = layout.bucketAt .daily epoch) :
    DayDone layout log other := by
  have partitions := layout.partitionAt_eq_of_bucketAt_eq same
  obtain ⟨listed, held⟩ := done
  rw [← partitions] at listed held
  refine ⟨listed, fun present => ?_⟩
  obtain ⟨rows, complete⟩ := held present
  rw [← same] at rows complete
  exact ⟨rows, complete⟩

/-! ### The invariant -/

/-- Some row is of a later day than an epoch, or of its day and covers all that the day can
have. -/
def Tables.Passed (tables : Tables) (layout : BucketLayout) (epoch : Nat) : Prop :=
  ∃ row ∈ tables.daily, (epoch : Int) < row.start ∨
    row.start = (layout.bucketAt .daily epoch).start ∧ (layout.closing epoch : Int) ≤ row.stop

/-- Some day up to an epoch has had a row. -/
def Chronicle.Begun (log : Chronicle) (epoch : Nat) : Prop :=
  log.Ever fun tables => ∃ row ∈ tables.daily, row.start ≤ epoch

theorem Chronicle.Begun.of_record {after : Tables} {epoch : Nat}
    (begun : (log.record after).Begun epoch)
    (subset : ∀ row ∈ after.daily, row.start ≤ epoch → row ∈ log.now.daily) : log.Begun epoch := by
  rcases Chronicle.ever_record.mp begun with ⟨row, member, upTo⟩ | earlier
  · exact Chronicle.ever_of_now ⟨row, subset row member upTo, upTo⟩
  · exact earlier

theorem Chronicle.Begun.of_same {after : Tables} {epoch : Nat}
    (begun : (log.record after).Begun epoch) (same : after.daily = log.now.daily) :
    log.Begun epoch :=
  begun.of_record fun _ member _ => same ▸ member

/-- A day that was passed is no later than the one no row is after. -/
theorem Tables.Passed.lt_stop {tables : Tables} {epoch start : Nat}
    (passed : tables.Passed layout epoch) (ahead : ∀ row ∈ tables.daily, row.start ≤ start) :
    epoch < (layout.bucketAt .daily start).stop := by
  have positive := layout.width_pos .daily
  have inside : start < (layout.bucketAt .daily start).stop :=
    EpochRange.lt_stop_aligned positive start
  obtain ⟨row, member, later | ⟨here, -⟩⟩ := passed
  · have upTo := ahead row member
    omega
  · have upTo := ahead row member
    have ordered : (layout.bucketAt .daily (layout.bucketAt .daily epoch).start).stop ≤
        (layout.bucketAt .daily start).stop := EpochRange.stop_aligned_mono positive (by omega)
    have within : epoch < (layout.bucketAt .daily epoch).stop :=
      EpochRange.lt_stop_aligned positive epoch
    rw [layout.bucketAt_start] at ordered
    omega

/-- A partition that was ever there and is not there any more was there before. -/
theorem Chronicle.ever_hasPartition_of_missing {after : Tables} {name : String}
    (ever : (log.record after).Ever fun tables => tables.hasPartition name = true)
    (missing : after.hasPartition name = false) :
    log.Ever fun tables => tables.hasPartition name = true :=
  Chronicle.ever_of_record ever (ne_true_of_eq_false missing)

/-- Days that were passed are done, and the hours from the latest day on are stored. -/
structure Rolled (layout : BucketLayout) (log : Chronicle) : Prop where
  /-- Hours that are not before the latest day are stored. -/
  kept : ∀ hour ∈ log.hours, (∀ row ∈ log.now.daily, row.start ≤ hour.start) →
    hour ∈ log.now.hourly
  /-- The validator of a row has an hour on its day. -/
  behind : ∀ row ∈ log.now.daily, ∃ hour ∈ hoursIn log.hours
    (layout.bucketAt .daily row.start.toNat), hour.validator = row.validator
  /-- Rows do not cover more than hours. -/
  covered : ∀ row ∈ log.now.daily, row.stop ≤ log.now.frontier
  /-- The daily table does not become empty. -/
  begun : (log.Ever fun tables => tables.daily ≠ []) → log.now.daily ≠ []
  /-- Partitions that were dropped end by the start of a day with rows. -/
  gone : ∀ epoch, (log.Ever fun tables =>
      tables.hasPartition (layout.partitionAt .daily epoch).name = true) →
    log.now.hasPartition (layout.partitionAt .daily epoch).name = false →
    ∃ row ∈ log.now.daily, ((layout.partitionRangeAt .daily epoch).stop : Int) ≤ row.start
  /-- Days that were passed are done. -/
  done : ∀ epoch, log.Begun epoch → log.now.Passed layout epoch → DayDone layout log epoch

theorem Rolled.start : Rolled layout .start where
  kept := fun _ member => absurd member List.not_mem_nil
  behind := fun _ member => absurd member List.not_mem_nil
  covered := fun _ member => absurd member List.not_mem_nil
  begun := fun ever => ever.elim id fun ⟨_, member, _⟩ => absurd member List.not_mem_nil
  gone := fun _ ever => ever.elim (fun present => nomatch present)
    fun ⟨_, member, _⟩ => absurd member List.not_mem_nil
  done := fun _ _ ⟨_, member, _⟩ => absurd member List.not_mem_nil

/-- What is known of an hour that was ever stored. -/
theorem Folded.bounds (folded : Folded layout log) {hour : HourlyRow} (member : hour ∈ log.hours) :
    IsHourStart layout.hourlyWidth hour.start ∧ hour.start < log.now.frontier ∧
      hour.stop ≤ log.now.frontier := by
  have fold := (folded.archive hour).mp member
  obtain ⟨source, sourceMember, inside, last⟩ := fold.exists_last
  obtain ⟨-, below⟩ := mem_epochsBelow.mp sourceMember
  exact ⟨fold.starts, by omega, by omega⟩

/-- A row starts the day it is on. -/
theorem Tables.Sound.start_bucketAt {tables : Tables} (sound : tables.Sound layout) {row : DailyRow}
    (member : row ∈ tables.daily) :
    ((layout.bucketAt .daily row.start.toNat).start : Int) = row.start := by
  obtain ⟨-, epoch, start, -⟩ := sound.days row member
  rw [start, Int.toNat_natCast, layout.bucketAt_start]

/-- The hours of a day that was passed have closed. -/
theorem Rolled.settled (rolled : Rolled layout log) (folded : Folded layout log) {epoch : Nat}
    (passed : log.now.Passed layout epoch) : (layout.closing epoch : Int) ≤ log.now.frontier := by
  obtain ⟨row, member, later | ⟨-, closed⟩⟩ := passed
  · obtain ⟨hour, hourMember, -⟩ := rolled.behind row member
    obtain ⟨stored, after, -⟩ := mem_hoursIn.mp hourMember
    obtain ⟨starts, before, -⟩ := folded.bounds stored
    have start := folded.sound.start_bucketAt member
    have apart : (layout.bucketAt .daily epoch).stop ≤
        (layout.bucketAt .daily row.start.toNat).start :=
      EpochRange.stop_aligned_le_of_lt (layout.width_pos .daily) (by
        show epoch < (layout.bucketAt .daily row.start.toNat).start
        omega)
    have close : (layout.closing epoch : Int) ≤ hour.start :=
      BucketLayout.closing_le starts (by omega)
    omega
  · exact Int.le_trans closed (rolled.covered row member)

/-! ### Steps that leave the days alone -/

theorem Tables.SameDays.hasPartition {tables after : Tables} (same : tables.SameDays after)
    (epoch : Nat) : after.hasPartition (layout.partitionAt .daily epoch).name =
      tables.hasPartition (layout.partitionAt .daily epoch).name := by
  -- Only daily partitions have such a name.
  have read {tables : Tables} : tables.hasPartition (layout.partitionAt .daily epoch).name = true ↔
      ∃ range days, .daily range days ∈ tables.catalogue ∧
        (Partition.daily range days).name = (layout.partitionAt .daily epoch).name := by
    rw [Tables.hasPartition_iff]
    constructor
    · rintro ⟨partition, member, name⟩
      cases partition with
      | hourly range => exact absurd name (Partition.hourly_name_ne_daily_name _ _ _)
      | daily range days => exact ⟨range, days, member, name⟩
    · rintro ⟨range, days, member, name⟩
      exact ⟨.daily range days, member, name⟩
  rw [Bool.eq_iff_iff, read, read]
  simp only [same.2]

/-- A day that is done stays done while its hours stay what they are. -/
theorem DayDone.of_sameDays {after : Tables} {epoch : Nat} (done : DayDone layout log epoch)
    (same : log.now.SameDays after)
    (hours : hoursIn (log.record after).hours (layout.bucketAt .daily epoch) =
      hoursIn log.hours (layout.bucketAt .daily epoch)) :
    DayDone layout (log.record after) epoch := by
  refine ⟨Chronicle.ever_record.mpr (Or.inr done.listed), fun present => ?_⟩
  rw [Chronicle.now_record, same.hasPartition] at present
  obtain ⟨rows, complete⟩ := done.held present
  refine ⟨?_, ?_⟩ <;> rw [Chronicle.now_record, same.1]
  · exact fun row member start => (rows row member start).congr hours.symm
  · rw [hours]
    exact complete

/-- A step from one state of the hours to another that leaves the days alone. -/
structure HoursMove (layout : BucketLayout) (log : Chronicle) (after : Tables) : Prop where
  /-- What holds before. -/
  folded : Folded layout log
  /-- Days and their partitions stay. -/
  same : log.now.SameDays after
  /-- The frontier does not move back. -/
  moved : log.now.frontier ≤ after.frontier
  /-- The hours of settled days stay what they are. -/
  settled : ∀ epoch, (layout.closing epoch : Int) ≤ log.now.frontier →
    hoursIn (log.record after).hours (layout.bucketAt .daily epoch) =
      hoursIn log.hours (layout.bucketAt .daily epoch)
  /-- No bucket loses a validator. -/
  grows : ∀ hour ∈ log.hours, ∃ other ∈ (log.record after).hours,
    other.start = hour.start ∧ other.validator = hour.validator
  /-- Hours that are not before the latest day stay stored. -/
  kept : Rolled layout log → ∀ hour ∈ (log.record after).hours,
    (∀ row ∈ log.now.daily, row.start ≤ hour.start) → hour ∈ after.hourly

namespace HoursMove

variable {after : Tables}

theorem rolled (move : HoursMove layout log after) (rolled : Rolled layout log) :
    Rolled layout (log.record after) := by
  have catalogued (epoch : Nat) : after.hasPartition (layout.partitionAt .daily epoch).name =
      log.now.hasPartition (layout.partitionAt .daily epoch).name := move.same.hasPartition epoch
  refine
    { kept := ?kept, behind := ?behind, covered := ?covered, begun := ?begun, gone := ?gone
      done := ?done } <;>
    rw [Chronicle.now_record]
  case kept =>
    rw [move.same.1]
    exact move.kept rolled
  case behind =>
    rw [move.same.1]
    intro row member
    obtain ⟨hour, hourMember, validator⟩ := rolled.behind row member
    obtain ⟨stored, inside⟩ := mem_hoursIn.mp hourMember
    obtain ⟨other, otherMember, start, same⟩ := move.grows hour stored
    refine ⟨other, mem_hoursIn.mpr ⟨otherMember, ?_⟩, same.trans validator⟩
    rw [start]
    exact inside
  case covered =>
    rw [move.same.1]
    exact fun row member => Int.le_trans (rolled.covered row member) move.moved
  case begun =>
    rw [move.same.1]
    intro ever
    rcases Chronicle.ever_record.mp ever with here | earlier
    · rw [move.same.1] at here
      exact here
    · exact rolled.begun earlier
  case gone =>
    intro epoch ever missing
    have earlier := Chronicle.ever_hasPartition_of_missing ever missing
    rw [catalogued] at missing
    rw [move.same.1]
    exact rolled.gone epoch earlier missing
  case done =>
    intro epoch begun passed
    unfold Tables.Passed at passed
    rw [move.same.1] at passed
    exact (rolled.done epoch (begun.of_same move.same.1) passed).of_sameDays move.same
      (move.settled epoch (rolled.settled move.folded passed))

/-- Hours that are stored as before are a move. -/
theorem of_hours (folded : Folded layout log) (same : log.now.SameDays after)
    (hours : (log.record after).hours = log.hours) (frontier : after.frontier = log.now.frontier)
    (kept : Rolled layout log → ∀ hour ∈ log.now.hourly,
      (∀ row ∈ log.now.daily, row.start ≤ hour.start) → hour ∈ after.hourly) :
    HoursMove layout log after where
  folded := folded
  same := same
  moved := Int.le_of_eq frontier.symm
  settled := fun epoch _ => by rw [hours]
  grows := fun hour member => ⟨hour, hours ▸ member, rfl, rfl⟩
  kept := by
    rw [hours]
    exact fun rolled hour member later => kept rolled hour (rolled.kept hour member later) later

end HoursMove

/-! ### Folds of hours -/

/-- Rows that arrive leave the hours and days alone. -/
theorem HoursMove.arrive (folded : Folded layout log) (epochs : List EpochRow) :
    HoursMove layout log { log.now with epochs } :=
  .of_hours folded ⟨rfl, fun _ _ => Iff.rfl⟩
    (Chronicle.hours_record_of_subset folded.sound.hourlyKeyed folded.sound.hourlyKeyed
      (Chronicle.hourly_subset_hours folded.sound.hourlyKeyed))
    rfl fun _ _ member _ => member

/-- So does a new hourly partition. -/
theorem HoursMove.ensure (folded : Folded layout log) (epoch : Nat) :
    HoursMove layout log (log.now.ensure (layout.partitionAt .hourly epoch)) := by
  have sound := folded.sound
  have hourly : (log.now.ensure (layout.partitionAt .hourly epoch)).hourly = log.now.hourly :=
    Tables.hourly_ensure _ _
  refine .of_hours folded (log.now.sameDays_ensure layout epoch) ?_ (Tables.frontier_ensure _ _) ?_
  · refine Chronicle.hours_record_of_subset sound.hourlyKeyed ?_ ?_ <;> rw [hourly]
    · exact sound.hourlyKeyed
    · exact Chronicle.hourly_subset_hours sound.hourlyKeyed
  · rw [hourly]
    exact fun _ _ member _ => member

/-- The rows of a bucket change no settled day, since the frontier is not past the bucket. -/
theorem HoursMove.write {start : Nat} {last : Int} {rows : List HourlyRow}
    (folds : FoldsBucket layout log start)
    (wrote : BucketRows layout log.now.epochs start last rows)
    (sound : (log.now.withHours rows).Sound layout) :
    HoursMove layout log (log.now.withHours rows) := by
  have frontier := folds.frontier_putRows wrote
  have moved := folds.frontier_le wrote
  have archive := folds.mem_hours_putRows_iff wrote sound.hourlyKeyed
  have elsewhere {row : HourlyRow} (apart : row.start ≠ start) :
      row ∈ (log.record (log.now.withHours rows)).hours ↔ row ∈ log.hours := by
    rw [archive, folds.foldOf_iff wrote apart, ← folds.folded.archive]
  refine ⟨folds.folded, ⟨rfl, fun _ _ => Iff.rfl⟩, ?_, ?_, ?_, ?_⟩
  · rw [frontier]
    exact moved
  · intro epoch closed
    refine hoursIn_eq (Chronicle.keyed_hours _) log.keyed_hours fun row after before => ?_
    by_cases here : row.start = start
    · -- The bucket itself is complete when its day is settled.
      obtain ⟨_, -, within, same⟩ := wrote.exists_last
      have close := BucketLayout.le_closing folds.starts (here ▸ before)
      have unmoved : last + 1 = log.now.frontier := by omega
      rw [archive, unmoved, ← folds.folded.archive]
    · exact elsewhere here
  · intro hour member
    by_cases here : hour.start = start
    · obtain ⟨source, sourceMember, inside, validator⟩ := mem_validators_epochSamples.mp
        ((folds.folded.archive hour).mp member).seen
      rw [here] at inside
      obtain ⟨row, rowMember, rowValidator⟩ :=
        wrote.exists_row (mem_epochsBelow.mp sourceMember).1 inside.1 inside.2
      have rowStart := (wrote.written row rowMember).1.1
      exact ⟨row, (archive row).mpr ((wrote.mem_iff folds.starts rowStart).mp rowMember),
        rowStart.trans here.symm, rowValidator.trans validator⟩
    · exact ⟨hour, (elsewhere here).mpr member, rfl, rfl⟩
  · intro rolled hour member behind
    refine (folds.mem_putRows_iff wrote hour).mpr ⟨(archive hour).mp member, ?_⟩
    by_cases here : hour.start = start
    · rw [here, Int.toNat_natCast]
      exact folds.listed
    · have stored := rolled.kept hour ((elsewhere here).mp member) behind
      exact ((folds.folded.member hour).mp stored).2

/-- A fold of hours carries the invariant of the days along. -/
theorem Rolled.carries {regime : Regime} (orderly : regime.Orderly (-1)) :
    regime.Carries layout (Rolled layout) where
  orderly := orderly
  stable := by
    intro log rows after held allowed given
    obtain ⟨added, rfl, arrived⟩ := orderly.appended allowed given
    exact ⟨held.1.append fun row member => ⟨(arrived row member).1, (arrived row member).2.2⟩,
      (HoursMove.arrive held.1 _).rolled held.2⟩
  ensures := fun log start held _ _ => (HoursMove.ensure held.1 start).rolled held.2
  writes := fun log start last rows folds wrote sound held =>
    (HoursMove.write folds wrote sound).rolled held

end EpochRollup
