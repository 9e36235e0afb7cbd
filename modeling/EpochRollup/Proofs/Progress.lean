/-
This file gives two consequences of the advance of the tables. Runs do not go back: the latest
hour and the latest day that can be read never vanish and never decrease. And what is finished is
immutable: neither late epochs nor rows that replace old ones change a bucket that is closed or
was passed, only the drop of its partition does, which takes all its rows at once.

Both hold whatever arrives, whatever fails and whatever the retention is.
-/

import Mathlib.Data.List.Chain
import EpochRollup.Proofs.AdvanceRun

namespace EpochRollup

/-! ### The latest bucket -/

section

variable {regime : Regime} {granularity : Granularity} {log : Chronicle}

/-- The latest bucket, as the store answers it: its start and the end of what it covers. -/
def Tables.latest? (tables : Tables) : Granularity → Option EpochRange
  | .hourly => tables.lastHourly?.map EmbeddedStore.boundsOfStored
  | .daily => tables.lastDaily?.map EmbeddedStore.boundsOfStored

/-- The latest bucket is where a row stands whose place no other row is behind. -/
theorem Tables.exists_row_of_latest {tables : Tables} {range : EpochRange}
    (latestIs : tables.latest? granularity = some range) :
    ∃ row, tables.Holds row ∧ row.granularity = granularity ∧
      range = ⟨row.start.toNat, row.stop.toNat⟩ ∧
      ∀ other, tables.Holds other → other.granularity = granularity → other.place ≤ row.place := by
  cases granularity with
  | hourly =>
    obtain ⟨row, member, rangeIs, most⟩ := exists_row_of_latestBounds latestIs
    refine ⟨.hourly row, member, rfl, rangeIs, fun other held ofTable => ?_⟩
    cases other with
    | hourly other => exact PartitionedRow.place_le_iff.mpr (most other held)
    | daily other => cases ofTable
  | daily =>
    obtain ⟨row, member, rangeIs, most⟩ := exists_row_of_latestBounds latestIs
    refine ⟨.daily row, member, rfl, rangeIs, fun other held ofTable => ?_⟩
    cases other with
    | hourly other => cases ofTable
    | daily other => exact PartitionedRow.place_le_iff.mpr (most other held)

theorem Tables.exists_latest {tables : Tables} {row : PartitionedRow} (held : tables.Holds row) :
    ∃ range, tables.latest? row.granularity = some range := by
  refine Option.ne_none_iff_exists'.mp fun missing => ?_
  cases row with
  | hourly row =>
    exact List.ne_nil_of_mem held (eq_nil_of_no_latestBounds missing)
  | daily row =>
    exact List.ne_nil_of_mem held (eq_nil_of_no_latestBounds missing)

/-- Progress is monotone. Whatever arrives, whatever fails and whatever the retention is, the
latest hour and the latest day that the store answers at some moment of a run are answered at
each later moment too, and they are no smaller in the lexicographic order of the start and the
end of the coverage. -/
theorem Runs.latest_mono {final : Chronicle} (years : regime.layout.clock.FromYearZero)
    (begun : Runs regime .start log)
    (goesOn : Runs regime log final) {range : EpochRange}
    (latestIs : log.now.latest? granularity = some range) :
    ∃ later, final.now.latest? granularity = some later ∧
      toLex (range.start, range.stop) ≤ toLex (later.start, later.stop) := by
  have advanced := (begun.trans goesOn).advanced years
  have member : log.now ∈ final.now :: final.past := by
    have ever : final.Ever fun tables => tables = log.now := goesOn.ever (Or.inl rfl)
    rcases ever with here | ⟨tables, there, same⟩
    · exact List.mem_cons.mpr (Or.inl here.symm)
    · exact List.mem_cons.mpr (Or.inr (same ▸ there))
  obtain ⟨row, held, ofTable, rfl, -⟩ := Tables.exists_row_of_latest latestIs
  obtain ⟨kept, keptHeld, keptOfTable, upTo⟩ :=
    Tables.reaches_of_mem advanced member ⟨row, held, ofTable, le_refl row.place⟩
  obtain ⟨later, laterIs⟩ := Tables.exists_latest keptHeld
  rw [keptOfTable] at laterIs
  obtain ⟨last, -, -, rfl, most⟩ := Tables.exists_row_of_latest laterIs
  have reached := le_trans upTo (most kept keptHeld keptOfTable)
  have nonneg := (begun.sound.rows row held).2.start_nonneg
  refine ⟨_, laterIs, Prod.Lex.toLex_le_toLex.mpr ?_⟩
  rcases PartitionedRow.place_le_iff.mp reached with after | ⟨same, covers⟩
  · exact Or.inl (by dsimp only; omega)
  · exact Or.inr ⟨by dsimp only; omega, by dsimp only; omega⟩

end

namespace LateAndFailing

/-- A chain with three epochs to a day, and partitions of single buckets. -/
def layout : BucketLayout :=
  .ofNumbers ⟨1704067200, 0⟩ 900 32 1 1 1 (by decide)

/-- Hours and days are kept for one epoch. -/
def retention : RetentionPolicy := ⟨1, some 1⟩

/-- A pass drops the hours of the first day, and the day. -/
def begun : EmbeddedStore × Chronicle :=
  Act.playAll layout retention [.supply ([0, 1, 2, 3, 4].map fun epoch => ⟨epoch, 7, .none⟩), .fold,
    .pass] (.fresh, .start)

/-- Rows arrive that are late, and the epoch after a gap. The next pass folds the second day again,
without the late rows, and fails at the third one. -/
def ended : EmbeddedStore × Chronicle :=
  Act.playAll layout retention [.supply [⟨0, 8, .none⟩, ⟨3, 8, .none⟩, ⟨6, 8, .none⟩], .fold,
    .place [⟨.rows .daily, .insert, some 6⟩], .pass] begun

theorem runs_begun : Runs (.free layout) .start begun.2 ∧ begun.2.now = begun.1.tables :=
  Act.runs_playAll trivial .none rfl ⟨trivial, trivial⟩

theorem runs_ended : Runs (.free layout) begun.2 ended.2 ∧ ended.2.now = ended.1.tables :=
  Act.runs_playAll trivial .none runs_begun.2 ⟨trivial, trivial⟩

theorem evaluated :
    begun.2.now.latest? .hourly = some ⟨4, 5⟩ ∧ begun.2.now.latest? .daily = some ⟨3, 5⟩ ∧
      begun.2.now.oldest? .hourly = some 3 ∧ ended.2.now.latest? .hourly = some ⟨6, 7⟩ ∧
      ended.2.now.latest? .daily = some ⟨3, 5⟩ := by
  decide +kernel

end LateAndFailing

open LateAndFailing in
/-- The latest hour goes on and the latest day stays where it is. -/
theorem Runs.latest_mono_late_and_failing :
    Runs (.free layout) .start begun.2 ∧ Runs (.free layout) begun.2 ended.2 ∧
      (begun.2.now.latest? .hourly = some ⟨4, 5⟩ ∧ ended.2.now.latest? .hourly = some ⟨6, 7⟩) ∧
      begun.2.now.latest? .daily = some ⟨3, 5⟩ ∧
      (∃ later, ended.2.now.latest? .hourly = some later ∧
        toLex (4, 5) ≤ toLex (later.start, later.stop)) ∧
      ∃ later, ended.2.now.latest? .daily = some later ∧
        toLex (3, 5) ≤ toLex (later.start, later.stop) := by
  have years : (Regime.free layout).layout.clock.FromYearZero := by show (0 : Int) ≤ _; decide
  obtain ⟨hourly, daily, -, laterHourly, -⟩ := evaluated
  exact ⟨runs_begun.1, runs_ended.1, ⟨hourly, laterHourly⟩, daily,
    Runs.latest_mono years runs_begun.1 runs_ended.1 hourly,
    Runs.latest_mono years runs_begun.1 runs_ended.1 daily⟩

/-! ### Finished buckets -/

/-- Finished buckets are immutable. Once a bucket is closed, since a row of it covers all that the
bucket can cover, or was passed, since a later bucket has rows, no step of a run changes its
rows, except that they are all deleted by the step that drops their partition. -/
theorem Runs.finished_bucket {regime : Regime} {final : Chronicle}
    (years : regime.layout.clock.FromYearZero)
    (runs : Runs regime .start final) {after before earlier : Tables} {older : List Tables}
    (follows : after :: before :: older <:+ final.now :: final.past)
    (member : earlier ∈ before :: older) {granularity : Granularity} {epoch : Nat}
    (finished : earlier.Finished regime.layout granularity epoch) :
    (∀ row : PartitionedRow, row.IsOf regime.layout granularity epoch →
        (after.Holds row ↔ before.Holds row)) ∨
      after = before.drop (regime.layout.partitionAt granularity epoch) ∧
        ∀ row : PartitionedRow, row.IsOf regime.layout granularity epoch → ¬after.Holds row := by
  have advanced : (after :: before :: older).IsChain fun after before =>
      before.Advances regime.layout after := (runs.advanced years).suffix follows
  obtain ⟨advances, rest⟩ := List.isChain_cons_cons.mp advanced
  have reached := Tables.reaches_of_mem rest member (Tables.finished_iff_reaches.mp finished)
  exact advances.keeps granularity epoch (Tables.finished_iff_reaches.mpr reached)

namespace Overwritten

/-- A chain with three epochs to a day, and partitions of two buckets. -/
def layout : BucketLayout :=
  .ofNumbers ⟨1704067200, 0⟩ 900 32 1 2 2 (by decide)

/-- Hours are kept for one epoch and days for ever. -/
def retention : RetentionPolicy := ⟨1, none⟩

/-- Two hours are folded. -/
def begun : EmbeddedStore × Chronicle :=
  Act.playAll layout retention [.supply [⟨0, 7, .none⟩, ⟨1, 7, .none⟩], .fold] (.fresh, .start)

/-- A row of the first hour is replaced, another one comes late, and a later epoch arrives. The
pass after the next fold ends with the drop of the partition of both hours. -/
def ended : EmbeddedStore × Chronicle :=
  Act.playAll layout retention [.supply [⟨0, 7, { Metrics.none with slashed := true }⟩,
    ⟨0, 8, .none⟩, ⟨4, 7, .none⟩], .fold, .pass] begun

theorem runs_begun : Runs (.free layout) .start begun.2 ∧ begun.2.now = begun.1.tables :=
  Act.runs_playAll trivial .none rfl ⟨trivial, trivial⟩

theorem runs_ended : Runs (.free layout) .start ended.2 ∧ ended.2.now = ended.1.tables :=
  Act.runs_playAll trivial runs_begun.1 runs_begun.2 ⟨trivial, trivial⟩

/-- The tables before the last step. -/
def before : Tables := ended.2.past.headD .empty

/-- The first hour, as it was folded. -/
def hour : HourlyRow := ⟨0, 1, 7, .none⟩

theorem evaluated :
    ended.2.past = before :: ended.2.past.tail ∧ begun.2.now ∈ ended.2.past.tail ∧
      hour ∈ begun.2.now.hourly ∧ hour ∈ before.hourly ∧ hour ∉ ended.2.now.hourly ∧
      ended.2.now.hourly.map (fun row => (row.start, row.validator)) = [(4, 7)] := by
  decide +kernel

end Overwritten

open Overwritten in
/-- An hour keeps its row while its epoch is replaced, until its partition is dropped. -/
theorem Runs.finished_bucket_overwritten :
    begun.2.now.Finished layout .hourly 0 ∧ hour ∈ begun.2.now.hourly ∧ hour ∈ before.hourly ∧
      ended.2.now = before.drop (layout.partitionAt .hourly 0) ∧
      ∀ row : PartitionedRow, row.IsOf layout .hourly 0 → ¬ended.2.now.Holds row := by
  have years : (Regime.free layout).layout.clock.FromYearZero := by show (0 : Int) ≤ _; decide
  obtain ⟨history, member, folded, kept, gone, -⟩ := evaluated
  have finished : begun.2.now.Finished layout .hourly 0 :=
    ⟨.hourly hour, folded, rfl, Or.inr ⟨rfl, by decide⟩⟩
  have follows : ended.2.now :: before :: ended.2.past.tail <:+ ended.2.now :: ended.2.past :=
    ⟨[], by rw [List.nil_append, ← history]⟩
  rcases Runs.finished_bucket years runs_ended.1 follows
    (List.mem_cons_of_mem _ member) finished with same | dropped
  · exact absurd ((same (.hourly hour) ⟨rfl, rfl⟩).mpr kept) gone
  · exact ⟨finished, folded, kept, dropped⟩

end EpochRollup
