/-
This file says exactly what a fold of days does to the tables, also when it stops half-way. The
days that are due can be read off the tables before it begins: they go from the latest day to
the day of the hourly head, without the latest one when it is closed. A fold does them one
after the other, so what it leaves is a first part of them, folded as a whole, and at most the
partition of the next one.
-/

import EpochRollup.Proofs.FailedCall
import EpochRollup.Proofs.MadeUp
import EpochRollup.Proofs.Reclaim

namespace EpochRollup

/-! ### The days that are due -/

namespace BucketLayout

variable (layout : BucketLayout) (latest : Option EpochRange) (head : Nat)

/-- Consecutive days, of which the first one holds an epoch. -/
def daysFrom : Nat → Nat → List EpochRange
  | 0, _ => []
  | count + 1, epoch =>
    layout.bucketAt .daily epoch :: daysFrom count (layout.bucketAt .daily epoch).stop

/-- The days from the one of an epoch to the one of the head, without the latest one when it is
closed. -/
def daysDue (epoch : Nat) : List EpochRange :=
  (layout.daysFrom (layout.bucketsBetween .daily epoch head) epoch).filter fun day =>
    !isClosed latest day (layout.closing day.start)

theorem closing_start (epoch : Nat) :
    layout.closing (layout.bucketAt .daily epoch).start = layout.closing epoch := by
  unfold closing
  rw [layout.bucketAt_start]

theorem bucketIndex_start (granularity : Granularity) (epoch : Nat) :
    layout.bucketIndex granularity (layout.bucketAt granularity epoch).start =
      layout.bucketIndex granularity epoch :=
  (EpochRange.mem_aligned_iff (layout.width_pos granularity) epoch _).mp
    ⟨Nat.le_refl _, EpochRange.start_aligned_lt_stop (layout.width_pos granularity) epoch⟩

/-- A day ends where the next one starts. -/
theorem start_bucketAt_stop (granularity : Granularity) (epoch : Nat) :
    (layout.bucketAt granularity (layout.bucketAt granularity epoch).stop).start =
      (layout.bucketAt granularity epoch).stop :=
  EpochRange.start_aligned_stop (layout.width_pos granularity) epoch

/-- Days are counted upwards. -/
theorem le_of_mem_daysFrom {count epoch : Nat} {day : EpochRange}
    (member : day ∈ layout.daysFrom count epoch) :
    (layout.bucketAt .daily epoch).start ≤ day.start := by
  induction count generalizing epoch with
  | zero => cases member
  | succ count inductionHypothesis =>
    rcases List.mem_cons.mp member with rfl | later
    · exact Nat.le_refl _
    · have after := inductionHypothesis later
      rw [start_bucketAt_stop] at after
      exact Nat.le_trans (Nat.le_of_lt
        (EpochRange.start_aligned_lt_stop (layout.width_pos .daily) epoch)) after

theorem pairwise_daysFrom (count epoch : Nat) :
    (layout.daysFrom count epoch).Pairwise fun first second => first.start < second.start := by
  induction count generalizing epoch with
  | zero => exact List.Pairwise.nil
  | succ count inductionHypothesis =>
    refine List.pairwise_cons.mpr ⟨fun day member => ?_, inductionHypothesis _⟩
    have after := layout.le_of_mem_daysFrom member
    rw [start_bucketAt_stop] at after
    exact Nat.lt_of_lt_of_le (EpochRange.start_aligned_lt_stop (layout.width_pos .daily) epoch)
      after

/-- The days are counted from the start of the first one as from any other epoch of it. -/
theorem daysDue_start (epoch : Nat) :
    layout.daysDue latest head (layout.bucketAt .daily epoch).start =
      layout.daysDue latest head epoch := by
  have same : layout.bucketsBetween .daily (layout.bucketAt .daily epoch).start head =
      layout.bucketsBetween .daily epoch head := by
    unfold bucketsBetween
    rw [layout.bucketIndex_start]
  unfold daysDue
  rw [same]
  cases layout.bucketsBetween .daily epoch head with
  | zero => rfl
  | succ count => rw [daysFrom, daysFrom, layout.bucketAt_start]

/-- Up to the head, the day of an epoch is due unless it is closed, and then the days after
it. -/
theorem daysDue_of_le {epoch : Nat}
    (upTo : layout.bucketIndex .daily epoch ≤ layout.bucketIndex .daily head) :
    layout.daysDue latest head (layout.bucketAt .daily epoch).start =
      if isClosed latest (layout.bucketAt .daily epoch) (layout.closing epoch) then
        layout.daysDue latest head (layout.bucketAt .daily epoch).stop
      else
        layout.bucketAt .daily epoch ::
          layout.daysDue latest head (layout.bucketAt .daily epoch).stop := by
  have next : layout.bucketsBetween .daily (layout.bucketAt .daily epoch).start head =
      layout.bucketsBetween .daily (layout.bucketAt .daily epoch).stop head + 1 := by
    unfold bucketsBetween
    rw [layout.bucketIndex_start, layout.bucketIndex_stop]
    omega
  rw [daysDue, next, daysFrom, layout.bucketAt_start, List.filter_cons, layout.closing_start]
  split
  · rename_i due
    rw [if_neg (by simpa using due)]
    rfl
  · rename_i closed
    rw [if_pos (by simpa using closed)]
    rfl

/-- No day is due when the day of the head is closed. -/
theorem daysDue_of_closed
    (closed : isClosed latest (layout.bucketAt .daily head) (layout.closing head) = true) :
    layout.daysDue latest head (layout.bucketAt .daily head).start = [] := by
  have none : layout.bucketsBetween .daily (layout.bucketAt .daily head).stop head = 0 := by
    unfold bucketsBetween
    rw [layout.bucketIndex_stop, Nat.sub_self]
  rw [layout.daysDue_of_le latest head (Nat.le_refl _), if_pos closed]
  unfold daysDue
  rw [none]
  rfl

end BucketLayout

/-- The days that a fold of days has to do on the tables. -/
def Tables.dueDays (layout : BucketLayout) (tables : Tables) : List EpochRange :=
  match tables.head? with
  | none => []
  | some head =>
    let latest := tables.lastDaily?.map EmbeddedStore.boundsOfStored
    layout.daysDue latest head ((latest.map (·.start)).getD head)

/-! ### Folding them -/

/-- Days are folded one after the other, each once its partition is there. -/
inductive DaysFolded (layout : BucketLayout) (tables : Tables) : List EpochRange → Tables →
    Prop where
  /-- No day is folded. -/
  | none : DaysFolded layout tables [] tables
  /-- One more day is folded. -/
  | next {days : List EpochRange} {between after : Tables} {written : Nat} (epoch : Nat)
      (earlier : DaysFolded layout tables days between)
      (given : Given (between.ensure (layout.partitionAt .daily epoch))
        (layout.foldCall .daily epoch) written after) :
      DaysFolded layout tables (days ++ [layout.bucketAt .daily epoch]) after

/-- Where a fold stops, of which these days are still due. -/
inductive DayStop (layout : BucketLayout) (between : Tables) (rest : List EpochRange)
    (call : StoreCall) (left : Tables) : Prop where
  /-- A bound cannot be read. -/
  | bound (looks : call.Looks) (same : left = between)
  /-- The partition of the next day cannot be ensured. -/
  | partition {day : EpochRange} (next : rest.head? = some day)
      (failed : call = .ensurePartition (layout.partitionAt .daily day.start))
      (same : left = between)
  /-- The next day cannot be folded, once its partition is there. -/
  | fold {day : EpochRange} (next : rest.head? = some day)
      (failed : call = layout.foldCall .daily day.start)
      (made : left = between.ensure (layout.partitionAt .daily day.start))

/-- A first part of the days is folded, and then a call fails. -/
def PartlyFolded (layout : BucketLayout) (tables : Tables) (call : StoreCall)
    (done rest : List EpochRange) (left : Tables) : Prop :=
  done ++ rest = tables.dueDays layout ∧
    ∃ between, DaysFolded layout tables done between ∧ DayStop layout between rest call left

theorem Tables.rolling_ensure (tables : Tables) (partition : Partition) :
    (tables.ensure partition).rolling = tables.rolling := by unfold ensure; split <;> rfl

section

variable {layout : BucketLayout} {tables between after left : Tables} {latest : Option EpochRange}
  {head : Nat} {call : StoreCall} {error : StoreError} {cause : RollupError}

namespace BucketLayout

open Procedure

/-- A day is folded once its partition is there. -/
theorem returns_aggregate {epoch : Nat} {result : Nat × Bool}
    (returns : (layout.aggregate .daily (layout.bucketAt .daily epoch)).Returns tables result
      after) :
    layout.partitionFor .daily (layout.bucketAt .daily epoch).start =
        .ok (layout.partitionAt .daily epoch) ∧
      Given (tables.ensure (layout.partitionAt .daily epoch)) (layout.foldCall .daily epoch)
        result.1 after := by
  obtain ⟨_, between, ensured, returns⟩ := returns_bind returns
  obtain ⟨written, _, given, returns⟩ := returns_bind returns
  obtain ⟨partition, found, ensured⟩ := returns_compute_bind ensured
  obtain ⟨created, _, answered, ended⟩ := returns_bind ensured
  obtain ⟨rfl, rfl⟩ := returns_pure ended
  obtain ⟨rfl, rfl⟩ := returns_pure returns
  obtain rfl := layout.partitionFor_eq_ok found
  obtain ⟨-, rfl⟩ := (returns_settle answered).ensurePartition
  rw [layout.partitionAt_start] at found given
  exact ⟨found, returns_settle given⟩

/-- Either its partition cannot be ensured, or it cannot be folded then. -/
theorem failsAt_aggregate {epoch : Nat}
    (fails : (layout.aggregate .daily (layout.bucketAt .daily epoch)).FailsAt tables call error
      left cause) :
    (call = .ensurePartition (layout.partitionAt .daily epoch) ∧ left = tables) ∨
      (call = layout.foldCall .daily epoch ∧
        left = tables.ensure (layout.partitionAt .daily epoch)) := by
  rcases failsAt_bind halts_ensurePartitionFor fails with ⟨_, fails⟩ | ⟨_, between, ensured, fails⟩
  · obtain ⟨partition, found, fails⟩ := failsAt_compute_bind fails
    obtain rfl := layout.partitionFor_eq_ok found
    rw [layout.partitionAt_start] at fails
    rcases failsAt_bind halts_askFor fails with ⟨_, fails⟩ | ⟨_, _, -, fails⟩
    · exact Or.inl (failsAt_settle fails)
    · cases fails
  · obtain ⟨partition, found, ensured⟩ := returns_compute_bind ensured
    obtain ⟨created, _, answered, ended⟩ := returns_bind ensured
    obtain ⟨rfl, rfl⟩ := returns_pure ended
    obtain rfl := layout.partitionFor_eq_ok found
    obtain ⟨-, rfl⟩ := (returns_settle answered).ensurePartition
    rw [layout.partitionAt_start] at fails
    rcases failsAt_bind halts_askFor fails with ⟨_, fails⟩ | ⟨_, _, -, fails⟩
    · exact Or.inr (failsAt_settle fails)
    · cases fails

variable {epoch remaining : Nat} {report result : FoldReport} {days : List EpochRange}

/-- A turn of a loop that comes back leaves its bucket as it is when that is closed, and folds it
otherwise. -/
theorem returns_foldBuckets_succ {granularity : Granularity}
    (returns : (layout.foldBuckets granularity latest (remaining + 1) epoch report).Returns tables
      result after) :
    ∃ closesAt, layout.closesAt granularity (layout.bucketAt granularity epoch) = .ok closesAt ∧
      ((isClosed latest (layout.bucketAt granularity epoch) closesAt = true ∧
        (layout.foldBuckets granularity latest remaining (layout.bucketAt granularity epoch).stop
          { report with bucketsSkipped := report.bucketsSkipped + 1 }).Returns tables result
          after) ∨
        (isClosed latest (layout.bucketAt granularity epoch) closesAt = false ∧
          ∃ rows created between rowsWritten,
            (layout.aggregate granularity (layout.bucketAt granularity epoch)).Returns tables
              (rows, created) between ∧
            Word.add report.rowsWritten rows = .ok rowsWritten ∧
            (layout.foldBuckets granularity latest remaining
              (layout.bucketAt granularity epoch).stop
              { report with
                bucketsFolded := report.bucketsFolded + 1
                rowsWritten
                partitionsCreated := report.partitionsCreated + created.toNat
                lastBucket := some (layout.bucketAt granularity epoch) }).Returns between result
              after)) := by
  obtain ⟨bucket, found, returns⟩ := returns_compute_bind returns
  obtain rfl := layout.bucket_eq_ok found
  obtain ⟨closesAt, closing, returns⟩ := returns_compute_bind returns
  refine ⟨closesAt, closing, ?_⟩
  split at returns
  · rename_i closed
    exact Or.inl ⟨closed, returns⟩
  · rename_i isOpen
    obtain ⟨⟨rows, created⟩, between, aggregated, returns⟩ := returns_bind returns
    obtain ⟨rowsWritten, counted, returns⟩ := returns_compute_bind returns
    exact Or.inr ⟨Bool.eq_false_iff.mpr isOpen, rows, created, between, rowsWritten, aggregated,
      counted, returns⟩

/-- As long as days are counted the head is not passed. -/
theorem of_bucketsBetween_succ (counted : remaining + 1 = layout.bucketsBetween .daily epoch head) :
    remaining = layout.bucketsBetween .daily (layout.bucketAt .daily epoch).stop head ∧
      layout.bucketIndex .daily epoch ≤ layout.bucketIndex .daily head := by
  unfold bucketsBetween at counted ⊢
  rw [layout.bucketIndex_stop]
  omega

/-- A fold of consecutive days folds those that are due. -/
theorem returns_foldBuckets (counted : remaining = layout.bucketsBetween .daily epoch head)
    (returns : (layout.foldBuckets .daily latest remaining epoch report).Returns between result
      after) (folded : DaysFolded layout tables days between) :
    DaysFolded layout tables
      (days ++ layout.daysDue latest head (layout.bucketAt .daily epoch).start) after := by
  induction remaining generalizing epoch report between days with
  | zero =>
    obtain ⟨-, rfl⟩ := returns_pure returns
    rw [layout.daysDue_start, daysDue, ← counted]
    exact (List.append_nil days).symm ▸ folded
  | succ remaining inductionHypothesis =>
    obtain ⟨next, upTo⟩ := of_bucketsBetween_succ counted
    obtain ⟨closesAt, closing, turn⟩ := returns_foldBuckets_succ returns
    rw [layout.closesAt_daily_eq_ok closing] at turn
    rw [layout.daysDue_of_le latest head upTo, ← layout.start_bucketAt_stop]
    rcases turn with ⟨closed, returns⟩ | ⟨isOpen, _, _, _, _, aggregated, -, returns⟩
    · rw [if_pos closed]
      exact inductionHypothesis next returns folded
    · obtain ⟨-, given⟩ := returns_aggregate aggregated
      rw [if_neg (Bool.eq_false_iff.mp isOpen), ← List.singleton_append, ← List.append_assoc]
      exact inductionHypothesis next returns (folded.next epoch given)

/-- One that stops has folded a first part of them. -/
theorem failsAt_foldBuckets (counted : remaining = layout.bucketsBetween .daily epoch head)
    (fails : (layout.foldBuckets .daily latest remaining epoch report).FailsAt between call error
      left cause) (folded : DaysFolded layout tables days between) :
    ∃ done rest, done ++ rest =
        days ++ layout.daysDue latest head (layout.bucketAt .daily epoch).start ∧
      ∃ ready, DaysFolded layout tables done ready ∧ DayStop layout ready rest call left := by
  induction remaining generalizing epoch report between days with
  | zero => cases fails
  | succ remaining inductionHypothesis =>
    obtain ⟨next, upTo⟩ := of_bucketsBetween_succ counted
    obtain ⟨bucket, found, fails⟩ := failsAt_compute_bind fails
    obtain rfl := layout.bucket_eq_ok found
    obtain ⟨closesAt, closing, fails⟩ := failsAt_compute_bind fails
    rw [layout.closesAt_daily_eq_ok closing] at fails
    rw [layout.daysDue_of_le latest head upTo, ← layout.start_bucketAt_stop]
    split at fails
    · rename_i closed
      rw [if_pos closed]
      exact inductionHypothesis next fails folded
    · rename_i isOpen
      rw [if_neg isOpen]
      rcases failsAt_bind (halts_aggregate _) fails with ⟨_, fails⟩ | ⟨_, _, aggregated, fails⟩
      · refine ⟨days, _, rfl, between, folded, ?_⟩
        rcases failsAt_aggregate fails with ⟨failed, same⟩ | ⟨failed, made⟩
        · exact .partition rfl (by rwa [layout.partitionAt_start]) same
        · refine .fold rfl ?_ (by rwa [layout.partitionAt_start])
          rwa [foldCall, layout.bucketAt_start]
      · obtain ⟨_, -, fails⟩ := failsAt_compute_bind fails
        obtain ⟨-, given⟩ := returns_aggregate aggregated
        rw [← List.singleton_append, ← List.append_assoc]
        exact inductionHypothesis next fails (folded.next epoch given)

/-! ### The whole fold -/

/-- A fold of days folds the days that are due. -/
theorem returns_foldDays
    (returns : (layout.foldDays (storedBounds layout.clock)).Returns tables result after) :
    DaysFolded layout tables (tables.dueDays layout) after := by
  obtain ⟨latestHour, _, answered, returns⟩ := returns_bind returns
  obtain ⟨rfl, headIs⟩ := (returns_settle answered).look fun _ => rfl
  cases latestHour with
  | none =>
    obtain ⟨-, rfl⟩ := returns_pure returns
    rw [Tables.dueDays, Tables.head?_of_lastHourly?_none headIs.symm]
    exact .none
  | some latestHour =>
    obtain ⟨latest, _, answered, returns⟩ := returns_bind returns
    obtain ⟨rfl, rfl⟩ := (returns_settle answered).look fun _ => rfl
    obtain ⟨_, -, returns⟩ := returns_compute_bind returns
    rw [Tables.dueDays, Tables.head?_of_lastHourly? headIs.symm]
    have folded := returns_foldBuckets rfl returns .none
    rwa [List.nil_append, layout.daysDue_start] at folded

/-- One that stops has folded a first part of them. -/
theorem failsAt_foldDays
    (fails : (layout.foldDays (storedBounds layout.clock)).FailsAt tables call error left cause) :
    ∃ done rest, PartlyFolded layout tables call done rest left := by
  rcases failsAt_bind (halts_storedBounds _ _) fails with ⟨_, fails⟩ | ⟨latestHour, _, answered,
    fails⟩
  · obtain ⟨rfl, same⟩ := failsAt_settle fails
    exact ⟨[], _, rfl, tables, .none, .bound .lastHourlyBounds same⟩
  obtain ⟨rfl, headIs⟩ := (returns_settle answered).look fun _ => rfl
  cases latestHour with
  | none => cases fails
  | some latestHour =>
    rcases failsAt_bind (halts_storedBounds _ _) fails with ⟨_, fails⟩ | ⟨latest, _, answered,
      fails⟩
    · obtain ⟨rfl, same⟩ := failsAt_settle fails
      exact ⟨[], _, rfl, _, .none, .bound .lastDailyBounds same⟩
    obtain ⟨rfl, rfl⟩ := (returns_settle answered).look fun _ => rfl
    obtain ⟨_, -, fails⟩ := failsAt_compute_bind fails
    obtain ⟨done, rest, due, partly⟩ := failsAt_foldBuckets rfl fails .none
    rw [List.nil_append, layout.daysDue_start] at due
    refine ⟨done, rest, ?_, partly⟩
    rw [due, Tables.dueDays, Tables.head?_of_lastHourly? headIs.symm]

end BucketLayout

end

/-! ### What is left of the tables -/

/-- The days that are done have the rows of a fold, and nothing else has changed but for
partitions that were made. -/
structure DaysLeft (layout : BucketLayout) (tables : Tables) (done rest : List EpochRange)
    (left : Tables) : Prop where
  /-- They are the first of the days that are due. -/
  due : done ++ rest = tables.dueDays layout
  /-- Days are done in their order. -/
  ascending : (done ++ rest).Pairwise fun first second => first.start < second.start
  /-- The epochs are as they were. -/
  epochs : left.epochs = tables.epochs
  /-- So are the hours. -/
  hourly : left.hourly = tables.hourly
  /-- So is the trailing window. -/
  rolling : left.rolling = tables.rolling
  /-- Each validator with an hour on a day that is done has its row of the fold. -/
  refolded : ∀ day ∈ done, ∀ hour ∈ hoursIn tables.hourly day,
    ∃ row ∈ left.daily, row.validator = hour.validator ∧
      row.IsFoldOf layout.clock tables.hourly day
  /-- Rows that are new are such rows. -/
  written : ∀ row ∈ left.daily, row ∈ tables.daily ∨
    ∃ day ∈ done, row.IsFoldOf layout.clock tables.hourly day
  /-- The rows of other days are as they were. -/
  unchanged : ∀ row : DailyRow, (∀ day ∈ done, row.start ≠ day.start) →
    (row ∈ left.daily ↔ row ∈ tables.daily)
  /-- No partition is gone. -/
  kept : tables.catalogue ⊆ left.catalogue
  /-- Partitions were made for the days that are done and for the next one only. -/
  made : ∀ entry ∈ left.catalogue, entry ∈ tables.catalogue ∨
    ∃ day ∈ done ++ rest.head?.toList, entry = layout.partitionAt .daily day.start

/-- What the fold of a day does to the daily rows. -/
structure DayRefolded (clock : ChainClock) (hours : List HourlyRow) (day : EpochRange)
    (before after : List DailyRow) : Prop where
  /-- Each validator with an hour on the day has its row of the fold. -/
  complete : ∀ hour ∈ hoursIn hours day,
    ∃ row ∈ after, row.validator = hour.validator ∧ row.IsFoldOf clock hours day
  /-- Rows that are new are such rows. -/
  written : ∀ row ∈ after, row ∈ before ∨ row.IsFoldOf clock hours day
  /-- The rows of other days are as they were. -/
  unchanged : ∀ row : DailyRow, row.start ≠ day.start → (row ∈ after ↔ row ∈ before)

section

variable {layout : BucketLayout} {tables between left : Tables}
  {days done rest : List EpochRange}

/-- A day without hours leaves the rows alone, and the rows of another day are put over them. -/
theorem Given.dayRefolded {count epoch : Nat}
    (given : Given tables (.foldDay (layout.bucketAt .daily epoch)
      (layout.clock.dayOf (layout.bucketAt .daily epoch).start)) count left)
    (sound : tables.Sound layout) :
    DayRefolded layout.clock tables.hourly (layout.bucketAt .daily epoch) tables.daily
      left.daily := by
  have leftSound := sound.foldDay epoch given
  rcases given.foldDay_cases with ⟨rfl, none⟩ | ⟨rows, wrote, rfl⟩
  · refine ⟨fun hour member => ?_, fun _ => Or.inl, fun _ _ => Iff.rfl⟩
    rw [none] at member
    cases member
  · have stored (row : DailyRow) : row ∈ (tables.withDays rows).daily ↔ _ :=
      mem_putRows DailyRow.orderedBy_key sound.dailyKeyed wrote.keyed row
    refine ⟨fun hour member => ?_, fun row member => ?_, fun row apart =>
      sound.mem_withDays_elsewhere wrote leftSound apart⟩
    · obtain ⟨row, rowMember, validator⟩ := wrote.complete hour member
      exact ⟨row, (stored row).mpr (Or.inl rowMember), validator, wrote.written row rowMember⟩
    · rcases (stored row).mp member with written | ⟨old, -⟩
      · exact Or.inr (wrote.written row written)
      · exact Or.inl old

theorem Tables.pairwise_dueDays (layout : BucketLayout) (tables : Tables) :
    (tables.dueDays layout).Pairwise fun first second => first.start < second.start := by
  unfold dueDays
  split
  · exact List.Pairwise.nil
  · exact (layout.pairwise_daysFrom _ _).filter _

namespace DaysFolded

theorem same (folded : DaysFolded layout tables days left) :
    left.epochs = tables.epochs ∧ left.hourly = tables.hourly ∧ left.rolling = tables.rolling := by
  induction folded with
  | none => exact ⟨rfl, rfl, rfl⟩
  | @next days between after written epoch _ given inductionHypothesis =>
    rcases given.foldDay_cases with ⟨rfl, -⟩ | ⟨rows, -, rfl⟩
    · rw [Tables.epochs_ensure, Tables.hourly_ensure, Tables.rolling_ensure]
      exact inductionHypothesis
    · show (between.ensure _).epochs = _ ∧ (between.ensure _).hourly = _ ∧
        (between.ensure _).rolling = _
      rw [Tables.epochs_ensure, Tables.hourly_ensure, Tables.rolling_ensure]
      exact inductionHypothesis

theorem sound (folded : DaysFolded layout tables days left) (sound : tables.Sound layout) :
    left.Sound layout := by
  induction folded with
  | none => exact sound
  | next epoch _ given inductionHypothesis =>
    exact (inductionHypothesis.ensure .daily epoch).foldDay epoch given

theorem eq_of_nil (folded : DaysFolded layout tables [] left) : left = tables := by
  generalize noneIs : ([] : List EpochRange) = days at folded
  cases folded with
  | none => rfl
  | next epoch earlier given =>
    exact absurd noneIs.symm (List.append_ne_nil_of_right_ne_nil _ (List.cons_ne_nil _ _))

/-- The catalogue grows by the partitions of the days. -/
theorem catalogue (folded : DaysFolded layout tables days left) :
    tables.catalogue ⊆ left.catalogue ∧ ∀ entry ∈ left.catalogue, entry ∈ tables.catalogue ∨
      ∃ day ∈ days, entry = layout.partitionAt .daily day.start := by
  induction folded with
  | none => exact ⟨fun _ => id, fun _ => Or.inl⟩
  | @next days between after written epoch _ given inductionHypothesis =>
    obtain ⟨kept, made⟩ := inductionHypothesis
    have grown : after.catalogue =
        (between.ensure (layout.partitionAt .daily epoch)).catalogue := by
      rcases given.foldDay_cases with ⟨rfl, -⟩ | ⟨rows, -, rfl⟩ <;> rfl
    rw [grown]
    refine ⟨fun entry member => Tables.catalogue_subset_ensure _ _ (kept member),
      fun entry member => ?_⟩
    rcases Tables.mem_catalogue_ensure.mp member with old | ⟨rfl, -⟩
    · exact (made entry old).imp_right fun ⟨day, dayMember, same⟩ =>
        ⟨day, List.mem_append_left _ dayMember, same⟩
    · exact Or.inr ⟨_, List.mem_append_right _ (List.mem_singleton.mpr rfl),
        (layout.partitionAt_start .daily epoch).symm⟩

theorem nodup_names (folded : DaysFolded layout tables days left)
    (names : (tables.catalogue.map Partition.name).Nodup) :
    (left.catalogue.map Partition.name).Nodup := by
  induction folded with
  | none => exact names
  | next epoch _ given inductionHypothesis =>
    rcases given.foldDay_cases with ⟨rfl, -⟩ | ⟨rows, -, rfl⟩ <;>
      exact Tables.nodup_names_ensure inductionHypothesis _

/-- The rows are written by folds still. -/
theorem wrote (folded : DaysFolded layout tables days left) (sound : tables.Sound layout)
    (names : (tables.catalogue.map Partition.name).Nodup) : layout.Wrote left where
  rows := fun row held => ((folded.sound sound).rows row held).2
  names := folded.nodup_names names

/-- Each day is one of the layout. -/
theorem isDay (folded : DaysFolded layout tables days left) :
    ∀ day ∈ days, ∃ epoch, day = layout.bucketAt .daily epoch := by
  induction folded with
  | none => exact nofun
  | next epoch _ _ inductionHypothesis =>
    intro day member
    exact (List.mem_append.mp member).elim (inductionHypothesis day) fun last =>
      ⟨epoch, List.mem_singleton.mp last⟩

/-- Each validator of a day that is folded has its row, and the rows of other days are as they
were. -/
theorem rows (folded : DaysFolded layout tables days left) (sound : tables.Sound layout) :
    (∀ day ∈ days, ∀ hour ∈ hoursIn tables.hourly day, ∃ row ∈ left.daily,
        row.validator = hour.validator ∧ row.IsFoldOf layout.clock tables.hourly day) ∧
      (∀ row ∈ left.daily, row ∈ tables.daily ∨
        ∃ day ∈ days, row.IsFoldOf layout.clock tables.hourly day) ∧
      ∀ row : DailyRow, (∀ day ∈ days, row.start ≠ day.start) →
        (row ∈ left.daily ↔ row ∈ tables.daily) := by
  induction folded with
  | none => exact ⟨nofun, fun _ => Or.inl, fun _ _ => Iff.rfl⟩
  | @next days between after count epoch earlier given inductionHypothesis =>
    obtain ⟨refolded, new, unchanged⟩ := inductionHypothesis
    have hourly : (between.ensure (layout.partitionAt .daily epoch)).hourly = tables.hourly :=
      (Tables.hourly_ensure _ _).trans earlier.same.2.1
    have step := given.dayRefolded ((earlier.sound sound).ensure .daily epoch)
    rw [hourly, Tables.daily_ensure] at step
    refine ⟨fun day member hour hourMember => ?_, fun row member => ?_, fun row apart => ?_⟩
    · by_cases last : day = layout.bucketAt .daily epoch
      · subst last
        exact step.complete hour hourMember
      · have old : day ∈ days := (List.mem_append.mp member).resolve_right fun here =>
          last (List.mem_singleton.mp here)
        obtain ⟨row, rowMember, validator, fold⟩ := refolded day old hour hourMember
        refine ⟨row, (step.unchanged row ?_).mpr rowMember, validator, fold⟩
        -- Days that start together are one day.
        obtain ⟨other, rfl⟩ := earlier.isDay day old
        exact fun here => last (layout.bucketAt_eq_of_start
          (Int.ofNat.inj (fold.start.symm.trans here)))
    · rcases step.written row member with old | written
      · exact (new row old).imp_right fun ⟨day, dayMember, fold⟩ =>
          ⟨day, List.mem_append_left _ dayMember, fold⟩
      · exact Or.inr ⟨_, List.mem_append_right _ (List.mem_singleton.mpr rfl), written⟩
    · rw [step.unchanged row (apart _ (List.mem_append_right _ (List.mem_singleton.mpr rfl)))]
      exact unchanged row fun day member => apart day (List.mem_append_left _ member)

/-- A first part of the days leaves their rows, and at most partitions besides. -/
theorem leaves (folded : DaysFolded layout tables done between) (sound : tables.Sound layout)
    (due : done ++ rest = tables.dueDays layout)
    (now : left = between ∨ ∃ day, rest.head? = some day ∧
      left = between.ensure (layout.partitionAt .daily day.start)) :
    DaysLeft layout tables done rest left := by
  have ascending : (done ++ rest).Pairwise fun first second => first.start < second.start :=
    due ▸ tables.pairwise_dueDays layout
  obtain ⟨epochs, hourly, rolling⟩ := folded.same
  obtain ⟨refolded, written, unchanged⟩ := folded.rows sound
  obtain ⟨kept, made⟩ := folded.catalogue
  have made (entry : Partition) (member : entry ∈ between.catalogue) :
      entry ∈ tables.catalogue ∨ ∃ day ∈ done ++ rest.head?.toList,
        entry = layout.partitionAt .daily day.start :=
    (made entry member).imp_right fun ⟨day, dayMember, same⟩ =>
      ⟨day, List.mem_append_left _ dayMember, same⟩
  rcases now with rfl | ⟨day, next, rfl⟩
  · exact ⟨due, ascending, epochs, hourly, rolling, refolded, written, unchanged, kept, made⟩
  · refine ⟨due, ascending, (Tables.epochs_ensure _ _).trans epochs,
      (Tables.hourly_ensure _ _).trans hourly, (Tables.rolling_ensure _ _).trans rolling,
      ?_, ?_, ?_, fun entry member => Tables.catalogue_subset_ensure _ _ (kept member),
      fun entry member => ?_⟩
    · rwa [Tables.daily_ensure]
    · rwa [Tables.daily_ensure]
    · rwa [Tables.daily_ensure]
    · rcases Tables.mem_catalogue_ensure.mp member with old | ⟨rfl, -⟩
      · exact made entry old
      · exact Or.inr ⟨day, List.mem_append_right _ (Option.mem_toList.mpr next), rfl⟩

/-- A fold of all days that are due leaves their rows. -/
theorem daysLeft (folded : DaysFolded layout tables (tables.dueDays layout) left)
    (sound : tables.Sound layout) :
    DaysLeft layout tables (tables.dueDays layout) [] left :=
  folded.leaves sound (List.append_nil _) (Or.inl rfl)

end DaysFolded

/-- Wherever a fold of days stops, it leaves the rows of the days before that. -/
theorem PartlyFolded.daysLeft {call : StoreCall}
    (partly : PartlyFolded layout tables call done rest left) (sound : tables.Sound layout) :
    DaysLeft layout tables done rest left := by
  obtain ⟨due, between, folded, stop⟩ := partly
  refine folded.leaves sound due ?_
  cases stop with
  | bound looks same => exact Or.inl same
  | partition next failed same => exact Or.inl same
  | fold next failed made => exact Or.inr ⟨_, next, made⟩

end

end EpochRollup
