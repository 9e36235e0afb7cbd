/-
This file proves that a fold of days does every day from the latest one with rows up to the day
of the hourly head. The loop goes up with the promise that every day before the next one is
done, as far as some day up to it has had a row or the fold has been there. A day is folded
from stored hours, and those are all the hours that ever started on it, because hours are
dropped only before the latest day with rows.
-/

import EpochRollup.Proofs.Rolled
import EpochRollup.Proofs.Walk

namespace EpochRollup

variable {layout : BucketLayout} {log : Chronicle}

/-! ### Steps that leave the hours alone -/

/-- A step that leaves the hours stored as they are leaves all hours as they are. -/
theorem Folded.hours_of_sameHours (folded : Folded layout log) {after : Tables}
    (same : log.now.SameHours after) :
    (log.record after).hours = log.hours ∧ after.frontier = log.now.frontier := by
  refine ⟨?_, Tables.frontier_congr same.1⟩
  refine Chronicle.hours_record_of_subset folded.sound.hourlyKeyed ?_ ?_ <;> rw [same.1]
  · exact folded.sound.hourlyKeyed
  · exact Chronicle.hourly_subset_hours folded.sound.hourlyKeyed

/-- Once the days up to some day with rows are behind, a new partition has never been there. -/
theorem Rolled.hasPartition_of_ensure (rolled : Rolled layout log) {epoch other : Nat}
    (ahead : ∀ row ∈ log.now.daily, row.start ≤ epoch)
    (listed : log.Ever fun tables =>
      tables.hasPartition (layout.partitionAt .daily other).name = true)
    (present : (log.now.ensure (layout.partitionAt .daily epoch)).hasPartition
      (layout.partitionAt .daily other).name = true) :
    log.now.hasPartition (layout.partitionAt .daily other).name = true := by
  obtain ⟨partition, member, name⟩ := Tables.hasPartition_iff.mp present
  rcases Tables.mem_catalogue_ensure.mp member with old | ⟨rfl, missing⟩
  · exact Tables.hasPartition_iff.mpr ⟨partition, old, name⟩
  · -- The partition was there before, so it was dropped and ends by the start of a day with rows.
    rw [← name] at listed
    obtain ⟨row, rowMember, stop⟩ := rolled.gone epoch listed missing
    have past : epoch < (layout.partitionRangeAt .daily epoch).stop :=
      EpochRange.lt_stop_aligned (layout.partitionSpan_pos .daily) epoch
    have before := ahead row rowMember
    omega

theorem DayDone.ensure (folded : FoldedWith layout (Rolled layout) log) {epoch other : Nat}
    (ahead : ∀ row ∈ log.now.daily, row.start ≤ epoch) (done : DayDone layout log other) :
    DayDone layout (log.record (log.now.ensure (layout.partitionAt .daily epoch))) other := by
  have daily : (log.now.ensure (layout.partitionAt .daily epoch)).daily = log.now.daily :=
    Tables.daily_ensure _ _
  refine ⟨Chronicle.ever_record.mpr (Or.inr done.listed), fun present => ?_⟩
  rw [Chronicle.now_record] at present
  obtain ⟨rows, complete⟩ := done.held
    (folded.2.hasPartition_of_ensure ahead done.listed present)
  obtain ⟨hours, -⟩ := folded.1.hours_of_sameHours (log.now.sameHours_ensure layout epoch)
  refine ⟨?_, ?_⟩ <;> rw [Chronicle.now_record, daily, hours]
  · exact rows
  · exact complete

/-- The partition of a day that is not before the latest one may be made. -/
theorem Rolled.ensure (folded : FoldedWith layout (Rolled layout) log) {epoch : Nat}
    (ahead : ∀ row ∈ log.now.daily, row.start ≤ epoch) :
    FoldedWith layout (Rolled layout)
      (log.record (log.now.ensure (layout.partitionAt .daily epoch))) := by
  have same := log.now.sameHours_ensure layout epoch
  have daily : (log.now.ensure (layout.partitionAt .daily epoch)).daily = log.now.daily :=
    Tables.daily_ensure _ _
  have hourly : (log.now.ensure (layout.partitionAt .daily epoch)).hourly = log.now.hourly :=
    Tables.hourly_ensure _ _
  obtain ⟨hours, frontier⟩ := folded.1.hours_of_sameHours same
  have rolled := folded.2
  refine ⟨folded.1.of_sameHours same (Tables.epochs_ensure _ _)
    (folded.1.sound.ensure .daily epoch),
    { kept := ?kept, behind := ?behind, covered := ?covered, begun := ?begun, gone := ?gone
      done := ?done }⟩ <;>
    rw [Chronicle.now_record]
  case kept =>
    rw [daily, hourly, hours]
    exact rolled.kept
  case behind =>
    rw [daily, hours]
    exact rolled.behind
  case covered =>
    rw [daily, frontier]
    exact rolled.covered
  case begun =>
    rw [daily]
    intro ever
    rcases Chronicle.ever_record.mp ever with here | earlier
    · rw [daily] at here
      exact here
    · exact rolled.begun earlier
  case gone =>
    intro other ever missing
    rw [daily]
    refine rolled.gone other (Chronicle.ever_hasPartition_of_missing ever missing) ?_
    by_contra present
    rw [Bool.not_eq_false] at present
    obtain ⟨partition, member, name⟩ := Tables.hasPartition_iff.mp present
    have still := Tables.hasPartition_iff.mpr
      ⟨partition, Tables.catalogue_subset_ensure _ (layout.partitionAt .daily epoch) member, name⟩
    rw [missing] at still
    cases still
  case done =>
    intro other begun passed
    unfold Tables.Passed at passed
    rw [daily] at passed
    exact DayDone.ensure folded ahead (rolled.done other (begun.of_same daily) passed)

/-! ### The fold of one day -/

/-- A day is folded that is not before the latest one. -/
structure FoldsDay (layout : BucketLayout) (log : Chronicle) (start : Nat) : Prop where
  /-- The written dates are in order. -/
  years : layout.clock.FromYearZero
  /-- What holds before. -/
  folded : FoldedWith layout (Rolled layout) log
  /-- The day starts there. -/
  starts : (layout.bucketAt .daily start).start = start
  /-- There are no rows of later days. -/
  ahead : ∀ row ∈ log.now.daily, row.start ≤ start
  /-- The partition of the day is there. -/
  listed : log.now.hasPartition (layout.partitionAt .daily start).name = true
  /-- The days before are done. -/
  before : ∀ epoch, log.Begun epoch → epoch < start → DayDone layout log epoch

namespace FoldsDay

variable {start : Nat} {rows : List DailyRow}

/-- All hours that ever started on the day are stored. -/
theorem stored (folds : FoldsDay layout log start) :
    hoursIn log.now.hourly (layout.bucketAt .daily start) =
      hoursIn log.hours (layout.bucketAt .daily start) := by
  have keyed := folds.folded.1.sound.hourlyKeyed
  refine hoursIn_eq keyed log.keyed_hours fun hour after before =>
    ⟨fun member => Chronicle.hourly_subset_hours keyed member, fun member => ?_⟩
  refine folds.folded.2.kept hour member fun row rowMember => ?_
  have ordered := folds.ahead row rowMember
  have starts := folds.starts
  omega

/-- A row of the day lies in its bucket. -/
theorem bucketAt_row {row : DailyRow} (here : row.start = start) :
    layout.bucketAt .daily row.start.toNat = layout.bucketAt .daily start := by
  rw [here, Int.toNat_natCast]

/-- A day on which no hour ever started is done: there is no row of it either. -/
theorem done_of_empty (folds : FoldsDay layout log start)
    (empty : hoursIn log.now.hourly (layout.bucketAt .daily start) = []) :
    DayDone layout log start := by
  rw [folds.stored] at empty
  refine ⟨Chronicle.ever_of_now folds.listed, fun _ => ⟨?_, ?_⟩⟩ <;> rw [folds.starts]
  · intro row member here
    obtain ⟨hour, hourMember, -⟩ := folds.folded.2.behind row member
    rw [bucketAt_row here, empty] at hourMember
    cases hourMember
  · intro hour member
    rw [empty] at member
    cases member

variable (folds : FoldsDay layout log start)
  (wrote : DayRows layout.clock log.now.hourly (layout.bucketAt .daily start) rows)

include folds wrote

/-- Rows of other days stay, and the rows of the day are the ones written. -/
theorem mem_withDays_iff (row : DailyRow) :
    row ∈ (log.now.withDays rows).daily ↔
      if row.start = start then row ∈ rows else row ∈ log.now.daily := by
  have starts := folds.starts
  show row ∈ putRows _ _ _ ↔ _
  rw [mem_putRows DailyRow.orderedBy_key folds.folded.1.sound.dailyKeyed wrote.keyed]
  split
  · rename_i here
    refine ⟨fun either => either.elim id fun ⟨old, apart⟩ => ?_, Or.inl⟩
    -- The validator of an old row still has its hour on the day, so the row was written again.
    obtain ⟨hour, member, validator⟩ := folds.folded.2.behind row old
    rw [bucketAt_row here, ← folds.stored] at member
    obtain ⟨other, otherMember, otherValidator⟩ := wrote.complete hour member
    obtain ⟨-, epoch, rowStart, day⟩ := folds.folded.1.sound.days row old
    refine absurd ((DailyRow.key_eq_iff row other).mpr ⟨?_, ?_⟩) (apart other otherMember)
    · have same : (layout.bucketAt .daily epoch).start = start := by omega
      rw [day, (wrote.written other otherMember).day, starts, same]
    · exact validator.symm.trans otherValidator.symm
  · rename_i elsewhere
    constructor
    · rintro (new | ⟨old, -⟩)
      · have newStart := (wrote.written row new).start
        rw [starts] at newStart
        exact absurd newStart elsewhere
      · exact old
    · intro old
      refine Or.inr ⟨old, fun other otherMember same => elsewhere ?_⟩
      -- Rows with one date are rows of one day.
      obtain ⟨epoch, rowStart, day, beforeLast⟩ :=
        folds.folded.1.sound.covered folds.years old
      have dates := ((DailyRow.key_eq_iff row other).mp same).1
      rw [(wrote.written other otherMember).day, day, starts] at dates
      rw [day] at beforeLast
      have buckets := BucketLayout.bucketAt_daily_eq_of_textKey folds.years beforeLast dates.symm
      have first : (layout.bucketAt .daily (layout.bucketAt .daily epoch).start).start =
          (layout.bucketAt .daily epoch).start :=
        congrArg EpochRange.start (layout.bucketAt_start .daily epoch)
      rw [← buckets, starts] at first
      rw [rowStart, ← first]

/-- There are still no rows of later days. -/
theorem ahead_withDays : ∀ row ∈ (log.now.withDays rows).daily, row.start ≤ start := by
  intro row member
  have read := (folds.mem_withDays_iff wrote row).mp member
  split at read
  · omega
  · exact folds.ahead row read

/-- The day of the fold is done. -/
theorem done_here : DayDone layout (log.record (log.now.withDays rows)) start := by
  obtain ⟨hours, -⟩ := folds.folded.1.hours_of_sameHours
    (log.now.sameHours_withDays rows)
  refine ⟨Chronicle.ever_record.mpr (Or.inl folds.listed), fun _ => ⟨?_, ?_⟩⟩ <;>
    rw [Chronicle.now_record, hours, folds.starts]
  · intro row member here
    have read := (folds.mem_withDays_iff wrote row).mp member
    rw [if_pos here] at read
    exact (wrote.written row read).congr folds.stored
  · intro hour member
    rw [← folds.stored] at member
    obtain ⟨row, rowMember, validator⟩ := wrote.complete hour member
    have here := (wrote.written row rowMember).start
    rw [folds.starts] at here
    refine ⟨row, (folds.mem_withDays_iff wrote row).mpr ?_, here, validator⟩
    rw [if_pos here]
    exact rowMember

/-- Other days that were done are done. -/
theorem done_elsewhere {epoch : Nat} (apart : (layout.bucketAt .daily epoch).start ≠ start)
    (done : DayDone layout log epoch) :
    DayDone layout (log.record (log.now.withDays rows)) epoch := by
  obtain ⟨hours, -⟩ := folds.folded.1.hours_of_sameHours
    (log.now.sameHours_withDays rows)
  refine ⟨Chronicle.ever_record.mpr (Or.inr done.listed), fun present => ?_⟩
  rw [Chronicle.now_record] at present
  obtain ⟨kept, complete⟩ := done.held present
  have read {row : DailyRow} (there : row.start = (layout.bucketAt .daily epoch).start) :
      row ∈ (log.now.withDays rows).daily ↔ row ∈ log.now.daily := by
    rw [folds.mem_withDays_iff wrote, if_neg]
    omega
  refine ⟨?_, ?_⟩ <;> rw [Chronicle.now_record, hours]
  · exact fun row member there => kept row ((read there).mp member) there
  · intro hour member
    obtain ⟨row, rowMember, there, validator⟩ := complete hour member
    exact ⟨row, (read there).mpr rowMember, there, validator⟩

theorem begun_before {epoch : Nat} (before : epoch < start)
    (begun : (log.record (log.now.withDays rows)).Begun epoch) : log.Begun epoch := by
  refine begun.of_record fun row member upTo => ?_
  have read := (folds.mem_withDays_iff wrote row).mp member
  rw [if_neg (by omega)] at read
  exact read

/-- A day up to the end of the one of the fold is done. -/
theorem done_upTo {epoch : Nat} (begun : (log.record (log.now.withDays rows)).Begun epoch)
    (upTo : epoch < (layout.bucketAt .daily start).stop) :
    DayDone layout (log.record (log.now.withDays rows)) epoch := by
  have positive := layout.width_pos .daily
  rcases Nat.lt_or_ge epoch start with before | after
  · refine folds.done_elsewhere wrote ?_
      (folds.before epoch (folds.begun_before wrote before begun) before)
    have ordered : (layout.bucketAt .daily epoch).start ≤ epoch :=
      EpochRange.start_aligned_le positive epoch
    omega
  · refine (folds.done_here wrote).congr (EpochRange.aligned_eq_of_mem positive ?_ upTo)
    show (layout.bucketAt .daily start).start ≤ epoch
    rw [folds.starts]
    exact after

/-- The invariant holds after the rows of a day are written. -/
theorem rolled (sound : (log.now.withDays rows).Sound layout) :
    FoldedWith layout (Rolled layout) (log.record (log.now.withDays rows)) := by
  have same := log.now.sameHours_withDays rows
  obtain ⟨hours, frontier⟩ := folds.folded.1.hours_of_sameHours same
  have rolled := folds.folded.2
  have starts := folds.starts
  have read := folds.mem_withDays_iff wrote
  obtain ⟨new, newMember⟩ := List.exists_mem_of_ne_nil _ wrote.nonempty
  have newStart := (wrote.written new newMember).start
  rw [starts] at newStart
  have newStored : new ∈ (log.now.withDays rows).daily := by
    rw [read, if_pos newStart]
    exact newMember
  refine ⟨folds.folded.1.of_sameHours same rfl sound,
    { kept := ?kept, behind := ?behind, covered := ?covered, begun := ?begun, gone := ?gone
      done := ?done }⟩ <;>
    rw [Chronicle.now_record]
  case kept =>
    rw [hours]
    intro hour member later
    refine rolled.kept hour member fun row rowMember => ?_
    have ordered := folds.ahead row rowMember
    have after := later new newStored
    omega
  case behind =>
    rw [hours]
    intro row member
    have either := (read row).mp member
    split at either
    · rename_i here
      rw [bucketAt_row here, ← folds.stored]
      exact (wrote.written row either).exists_hour
    · exact rolled.behind row either
  case covered =>
    rw [frontier]
    intro row member
    have either := (read row).mp member
    split at either
    · obtain ⟨hour, hourMember, stop⟩ := (wrote.written row either).exists_stop
      rw [← stop]
      exact (folds.folded.1.bounds (Chronicle.hourly_subset_hours
        folds.folded.1.sound.hourlyKeyed hourMember)).2.2
    · exact rolled.covered row either
  case begun => exact fun _ => List.ne_nil_of_mem newStored
  case gone =>
    intro epoch ever missing
    obtain ⟨row, member, stop⟩ :=
      rolled.gone epoch (Chronicle.ever_hasPartition_of_missing ever missing) missing
    by_cases here : row.start = start
    · exact ⟨new, newStored, by omega⟩
    · refine ⟨row, (read row).mpr ?_, stop⟩
      rw [if_neg here]
      exact member
  case done =>
    exact fun epoch begun passed =>
      folds.done_upTo wrote begun (passed.lt_stop (folds.ahead_withDays wrote))

end FoldsDay

/-! ### The loop -/

/-- Where a fold of days stands before the day that begins at a start. -/
structure DayProgress (layout : BucketLayout) (latest : Option EpochRange) (head first start : Nat)
    (log : Chronicle) : Prop where
  /-- The invariant. -/
  folded : FoldedWith layout (Rolled layout) log
  /-- The head that was read. -/
  headIs : log.now.head? = some head
  /-- The days before are done. -/
  before : ∀ epoch, log.Begun epoch ∨ first ≤ epoch → epoch < start → DayDone layout log epoch
  /-- There are no rows of later days. -/
  ahead : ∀ row ∈ log.now.daily, row.start ≤ start
  /-- The latest day that was read is done when it has closed. -/
  closed : ∀ range, latest = some range → layout.closing range.start ≤ range.stop →
    DayDone layout log range.start
  /-- The fold has begun at the first day or before it. -/
  fresh : first ≤ start

section

variable {regime : Regime} {latest : Option EpochRange} {head first start candidate : Nat}

theorem Regime.Orderly.stable_dayProgress (orderly : regime.Orderly (-1)) :
    regime.Stable (DayProgress layout latest head first start) := by
  intro log rows after held allowed given
  have folded := (Rolled.carries orderly).stable log rows after held.folded allowed given
  obtain ⟨stored, -, rfl⟩ := given.upsertEpochs
  obtain ⟨hours, -⟩ := held.folded.1.hours_of_sameHours
    (⟨rfl, fun _ => Iff.rfl⟩ : log.now.SameHours
      { log.now with epochs := putRows EpochRow.before stored log.now.epochs })
  have done {epoch : Nat} (done : DayDone layout log epoch) : DayDone layout (log.record
      { log.now with epochs := putRows EpochRow.before stored log.now.epochs }) epoch :=
    done.of_sameDays ⟨rfl, fun _ _ => Iff.rfl⟩ (by rw [hours])
  have daily : ({ log.now with epochs := putRows EpochRow.before stored log.now.epochs } :
      Tables).daily = log.now.daily := rfl
  refine ⟨folded, ?_, fun epoch begun less =>
      done (held.before epoch (begun.imp_left (·.of_same daily)) less), ?_,
    fun range same covered => done (held.closed range same covered), held.fresh⟩
  · rw [Chronicle.now_record]
    exact held.headIs
  · rw [Chronicle.now_record]
    exact held.ahead

namespace DayProgress

/-- A day that is done may be left as it is. -/
theorem skip (progress : DayProgress layout latest head first
      (layout.bucketAt .daily candidate).start log)
    (done : DayDone layout log (layout.bucketAt .daily candidate).start) :
    DayProgress layout latest head first (layout.bucketAt .daily candidate).stop log := by
  have positive := layout.width_pos .daily
  have proper : (layout.bucketAt .daily candidate).start <
      (layout.bucketAt .daily candidate).stop := EpochRange.start_aligned_lt_stop positive candidate
  refine
    { folded := progress.folded, headIs := progress.headIs, before := ?before, ahead := ?ahead
      closed := progress.closed, fresh := Nat.le_trans progress.fresh (Nat.le_of_lt proper) }
  case before =>
    intro epoch begun less
    rcases Nat.lt_or_ge epoch (layout.bucketAt .daily candidate).start with before | after
    · exact progress.before epoch begun before
    · refine done.congr ?_
      rw [layout.bucketAt_start]
      exact EpochRange.aligned_eq_of_mem positive after less
  case ahead =>
    intro row member
    have ordered := progress.ahead row member
    omega

theorem ensure (progress : DayProgress layout latest head first start log) :
    DayProgress layout latest head first start
      (log.record (log.now.ensure (layout.partitionAt .daily start))) := by
  have done {epoch : Nat} (done : DayDone layout log epoch) :=
    DayDone.ensure progress.folded progress.ahead done
  refine ⟨Rolled.ensure progress.folded progress.ahead, ?_, fun epoch begun less => done
      (progress.before epoch (begun.imp_left (·.of_same (Tables.daily_ensure _ _))) less), ?_,
    fun range same covered => done (progress.closed range same covered), progress.fresh⟩
  · rw [Chronicle.now_record, Tables.head?, Tables.hourly_ensure]
    exact progress.headIs
  · rw [Chronicle.now_record, Tables.daily_ensure]
    exact progress.ahead

/-- The next day can be folded once its partition is there. -/
theorem foldsDay (years : layout.clock.FromYearZero)
    (progress : DayProgress layout latest head first (layout.bucketAt .daily candidate).start log)
    (listed : log.now.hasPartition
      (layout.partitionAt .daily (layout.bucketAt .daily candidate).start).name = true) :
    FoldsDay layout log (layout.bucketAt .daily candidate).start where
  years := years
  folded := progress.folded
  starts := congrArg EpochRange.start (layout.bucketAt_start .daily candidate)
  ahead := progress.ahead
  listed := listed
  before := fun epoch begun before => progress.before epoch (Or.inl begun) before

/-- After the rows of a day are written it is done. -/
theorem write (progress : DayProgress layout latest head first start log)
    (folds : FoldsDay layout log start) {rows : List DailyRow}
    (wrote : DayRows layout.clock log.now.hourly (layout.bucketAt .daily start) rows)
    (sound : (log.now.withDays rows).Sound layout) :
    DayProgress layout latest head first (layout.bucketAt .daily start).stop
      (log.record (log.now.withDays rows)) := by
  have positive := layout.width_pos .daily
  have starts := folds.starts
  have proper : start < (layout.bucketAt .daily start).stop :=
    EpochRange.lt_stop_aligned positive start
  refine
    { folded := folds.rolled wrote sound, headIs := ?headIs, before := ?before, ahead := ?ahead
      closed := ?closed, fresh := Nat.le_trans progress.fresh (Nat.le_of_lt proper) }
  case headIs =>
    rw [Chronicle.now_record]
    exact progress.headIs
  case before =>
    intro epoch begun less
    rcases Nat.lt_or_ge epoch start with before | after
    · have ordered : (layout.bucketAt .daily epoch).start ≤ epoch :=
        EpochRange.start_aligned_le positive epoch
      refine folds.done_elsewhere wrote (by omega) (progress.before epoch ?_ before)
      exact begun.imp_left (folds.begun_before wrote before)
    · refine (folds.done_here wrote).congr (EpochRange.aligned_eq_of_mem positive ?_ less)
      show (layout.bucketAt .daily start).start ≤ epoch
      rw [starts]
      exact after
  case ahead =>
    rw [Chronicle.now_record]
    intro row member
    have upTo := folds.ahead_withDays wrote row member
    omega
  case closed =>
    intro range same covered
    by_cases here : (layout.bucketAt .daily range.start).start = start
    · refine (folds.done_here wrote).congr ?_
      rw [← here]
      exact (layout.bucketAt_start .daily range.start).symm
    · exact folds.done_elsewhere wrote here (progress.closed range same covered)

/-- After the fold of a day it is done. -/
theorem fold (years : layout.clock.FromYearZero)
    (progress : DayProgress layout latest head first (layout.bucketAt .daily candidate).start log)
    (listed : log.now.hasPartition
      (layout.partitionAt .daily (layout.bucketAt .daily candidate).start).name = true)
    {count : Nat} {after : Tables}
    (given : Given log.now (.foldDay (layout.bucketAt .daily candidate)
      (layout.clock.dayOf (layout.bucketAt .daily candidate).start)) count after) :
    DayProgress layout latest head first (layout.bucketAt .daily candidate).stop
      (log.record after) := by
  have day : layout.bucketAt .daily (layout.bucketAt .daily candidate).start =
      layout.bucketAt .daily candidate := layout.bucketAt_start .daily candidate
  have folds := progress.foldsDay years listed
  have sound := progress.folded.1.sound.foldDay candidate given
  rcases given.foldDay_cases with ⟨rfl, empty⟩ | ⟨rows, wrote, rfl⟩
  · rw [Chronicle.record_now]
    rw [← day] at empty
    exact progress.skip (folds.done_of_empty empty)
  · rw [← day] at wrote
    have written := progress.write folds wrote sound
    rwa [day] at written

/-- A fold of days walks with it. -/
theorem foldWalk (years : layout.clock.FromYearZero) (orderly : regime.Orderly (-1)) :
    FoldWalk regime layout .daily latest head (FoldedWith layout (Rolled layout))
      (DayProgress layout latest head first) where
  stable := fun _ => orderly.stable_dayProgress
  failing := fun _ _ progress => progress.folded
  skip := by
    intro epoch closesAt log closing closed progress
    obtain rfl := BucketLayout.closesAt_daily_eq_ok closing
    obtain ⟨range, rangeIs, same, reached⟩ := isClosed_iff.mp closed
    have day : layout.bucketAt .daily (layout.bucketAt .daily epoch).start =
        layout.bucketAt .daily epoch := layout.bucketAt_start .daily epoch
    have done := progress.closed range rangeIs (by
      unfold BucketLayout.closing at reached ⊢
      rw [same, day]
      exact reached)
    rw [same] at done
    exact progress.skip done
  ensure := by
    intro epoch log _ progress
    have kept := progress.ensure
    rwa [layout.partitionAt_start] at kept
  fold := by
    intro epoch log answer after _ present progress given
    refine progress.fold years ?_ given
    rw [layout.partitionAt_start]
    exact present

end DayProgress

/-! ### A whole fold -/

/-- Every day up to the one of the hourly head is done, and that one has rows. -/
structure CaughtUp (layout : BucketLayout) (head : Nat) (log : Chronicle) : Prop where
  /-- The head. -/
  headIs : log.now.head? = some head
  /-- The days are done. -/
  days : ∀ epoch, log.Begun epoch → epoch ≤ head → DayDone layout log epoch
  /-- The day of the head has rows. -/
  level : ∃ row ∈ log.now.daily, row.start = (layout.bucketAt .daily head).start

/-- The head is the start of an hour that is stored. -/
theorem exists_head (folded : Folded layout log) (headIs : log.now.head? = some head) :
    ∃ hour ∈ log.now.hourly, hour.start = head ∧ ∀ other ∈ log.hours, other.start ≤ head := by
  obtain ⟨start, startIs, rfl⟩ := Option.map_eq_some_iff.mp headIs
  obtain ⟨hour, member, rfl⟩ := List.mem_map.mp (List.max?_mem startIs)
  have keyed := folded.sound.hourlyKeyed
  have positive := (folded.bounds (Chronicle.hourly_subset_hours keyed member)).1.nonneg
  have natural : ((epochOfStored hour.start : Nat) : Int) = hour.start :=
    Int.toNat_of_nonneg positive
  refine ⟨hour, member, natural.symm, fun other otherMember => ?_⟩
  obtain ⟨latest, found, -, ordered, -⟩ :=
    folded.start_le ((folded.archive other).mp otherMember)
  have same := (Tables.lastHourly?_eq_some.mp found).1
  rw [startIs, Option.some.injEq] at same
  omega

/-- No row is of a day after the head. -/
theorem Rolled.start_le_head (rolled : Rolled layout log) (folded : Folded layout log)
    (headIs : log.now.head? = some head) {row : DailyRow} (member : row ∈ log.now.daily) :
    row.start ≤ head := by
  obtain ⟨hour, hourMember, -⟩ := rolled.behind row member
  obtain ⟨stored, after, -⟩ := mem_hoursIn.mp hourMember
  obtain ⟨-, -, -, most⟩ := exists_head folded headIs
  have upTo := most hour stored
  have start := folded.sound.start_bucketAt member
  omega

/-- A fold that has gone past the head is caught up. -/
theorem DayProgress.caughtUp (progress : DayProgress layout latest head first start log)
    (past : head < start) (ordered : first ≤ head) : CaughtUp layout head log := by
  have folded := progress.folded.1
  have rolled := progress.folded.2
  refine ⟨progress.headIs, fun epoch begun upTo => progress.before epoch (Or.inl begun) (by omega),
    ?_⟩
  have done := progress.before head (Or.inr ordered) past
  have present : log.now.hasPartition (layout.partitionAt .daily head).name = true := by
    by_contra missing
    rw [Bool.not_eq_true] at missing
    obtain ⟨row, member, stop⟩ := rolled.gone head done.listed missing
    have upTo := rolled.start_le_head folded progress.headIs member
    have inside : head < (layout.partitionRangeAt .daily head).stop :=
      EpochRange.lt_stop_aligned (layout.partitionSpan_pos .daily) head
    omega
  obtain ⟨hour, member, hourStart, -⟩ := exists_head folded progress.headIs
  have positive := layout.width_pos .daily
  have after : (layout.bucketAt .daily head).start ≤ head :=
    EpochRange.start_aligned_le positive head
  have before : head < (layout.bucketAt .daily head).stop :=
    EpochRange.lt_stop_aligned positive head
  have keyed := folded.sound.hourlyKeyed
  obtain ⟨row, rowMember, rowStart, -⟩ := (done.held present).complete hour
    (mem_hoursIn.mpr ⟨Chronicle.hourly_subset_hours keyed member, by omega, by omega⟩)
  exact ⟨row, rowMember, rowStart⟩

/-- A fold may resume at the latest day. -/
theorem Rolled.resume (folded : FoldedWith layout (Rolled layout) log)
    (headIs : log.now.head? = some head) {range : EpochRange}
    (latestIs : log.now.lastDaily?.map EmbeddedStore.boundsOfStored = some range) :
    DayProgress layout (some range) head (layout.bucketAt .daily range.start).start
        (layout.bucketAt .daily range.start).start log ∧ range.start ≤ head := by
  obtain ⟨row, member, rfl, most⟩ := Tables.exists_row_of_latestBounds latestIs
  have day := folded.1.sound.start_bucketAt member
  have natural : ((row.start.toNat : Nat) : Int) = row.start := by
    obtain ⟨-, epoch, rowStart, -⟩ := folded.1.sound.days row member
    rw [rowStart, Int.toNat_natCast]
  have starts : (layout.bucketAt .daily row.start.toNat).start = row.start.toNat := by omega
  have upTo := folded.2.start_le_head folded.1 headIs member
  show DayProgress layout (some ⟨row.start.toNat, row.stop.toNat⟩) head
    (layout.bucketAt .daily row.start.toNat).start (layout.bucketAt .daily row.start.toNat).start
    log ∧ row.start.toNat ≤ head
  rw [starts]
  refine ⟨⟨folded, headIs, fun epoch begun less => ?_, fun other otherMember => ?_,
    fun range rangeIs covered => ?_, Nat.le_refl _⟩, by omega⟩
  · exact folded.2.done epoch (begun.resolve_right (by omega)) ⟨row, member, Or.inl (by omega)⟩
  · have upTo := most other otherMember
    omega
  · cases rangeIs
    refine folded.2.done _ (Chronicle.ever_of_now ⟨row, member, Int.le_of_eq natural.symm⟩)
      ⟨row, member, Or.inr ⟨day.symm, ?_⟩⟩
    have positive := layout.closing_pos row.start.toNat
    have covered : layout.closing row.start.toNat ≤ row.stop.toNat := covered
    show (layout.closing row.start.toNat : Int) ≤ row.stop
    omega

/-- A first fold begins at the day of the head. -/
theorem Rolled.begin (folded : FoldedWith layout (Rolled layout) log)
    (headIs : log.now.head? = some head) (empty : log.now.daily = []) :
    DayProgress layout none head (layout.bucketAt .daily head).start
      (layout.bucketAt .daily head).start log := by
  refine ⟨folded, headIs, fun epoch begun less => ?_, fun row member => ?_,
    fun range rangeIs => (nomatch rangeIs), Nat.le_refl _⟩
  · have begun := begun.resolve_right (by omega)
    have nonempty {tables : Tables} (some : ∃ row ∈ tables.daily, row.start ≤ epoch) :
        tables.daily ≠ [] := by
      obtain ⟨row, member, -⟩ := some
      exact List.ne_nil_of_mem member
    refine absurd empty (folded.2.begun (begun.imp nonempty ?_))
    rintro ⟨tables, past, some⟩
    exact ⟨tables, past, nonempty some⟩
  · rw [empty] at member
    cases member

/-- The invariant holds and the days have caught up with the head, if there is one. -/
def UpToHead (layout : BucketLayout) (log : Chronicle) : Prop :=
  FoldedWith layout (Rolled layout) log ∧
    ∀ head, log.now.head? = some head → CaughtUp layout head log

/-- A fold of days keeps the invariant, and one that comes back has caught up with the head. -/
theorem keeps_foldDays (years : layout.clock.FromYearZero) (orderly : regime.Orderly (-1)) :
    (layout.foldDays (storedBounds layout.clock)).Keeps regime (FoldedWith layout (Rolled layout))
      (FoldedWith layout (Rolled layout)) fun _ => UpToHead layout := by
  have stable : regime.Stable (FoldedWith layout (Rolled layout)) := (Rolled.carries orderly).stable
  refine Procedure.keeps_bind _
    (keeps_storedBounds layout.clock .lastHourly stable fun log held => held) fun answer => ?_
  cases answer with
  | none =>
    refine Procedure.keeps_pure fun log held => ⟨held.1, fun head headIs => ?_⟩
    rw [Tables.head?_of_lastHourly?_none held.2.symm] at headIs
    cases headIs
  | some latestHour =>
    have headStable : regime.Stable fun log => FoldedWith layout (Rolled layout) log ∧
        log.now.head? = some latestHour.start :=
      stable.and (regime.stable_besidesEpochs fun hourly _ _ =>
        (hourly.map (·.start)).max?.map epochOfStored = some latestHour.start)
    refine Procedure.keeps_bind _ ((keeps_storedBounds layout.clock .lastDaily headStable
      fun log held => held.1).weaken (fun _ => id)
      (fun log held => ⟨held.1, Tables.head?_of_lastHourly? held.2.symm⟩) fun _ _ => id)
      fun latest => ?_
    have finish {first : Nat} (ordered : first ≤ latestHour.start) (log : Chronicle)
        (done : ∃ start, latestHour.start < start ∧
          DayProgress layout latest latestHour.start first start log) : UpToHead layout log := by
      obtain ⟨start, past, progress⟩ := done
      refine ⟨progress.folded, fun head headIs => ?_⟩
      rw [progress.headIs] at headIs
      cases headIs
      exact progress.caughtUp past ordered
    intro log outcome final held ends
    obtain ⟨⟨folded, headIs⟩, latestIs⟩ := held
    have before (resume : Nat) : (layout.bucketAt .daily resume).start ≤ resume :=
      EpochRange.start_aligned_le (layout.width_pos .daily) resume
    cases latest with
    | some range =>
      obtain ⟨progress, ordered⟩ := Rolled.resume folded headIs latestIs.symm
      exact (((DayProgress.foldWalk years orderly).keeps_foldThrough _).weaken (fun _ => id)
        (fun _ => id) fun _ => finish (Nat.le_trans (before _) ordered)) progress ends
    | none =>
      have empty := Tables.eq_nil_of_no_latestBounds latestIs.symm
      exact (((DayProgress.foldWalk years orderly).keeps_foldThrough _).weaken (fun _ => id)
        (fun _ => id) fun _ => finish (before _)) (Rolled.begin folded headIs empty) ends

end

end EpochRollup
