/-
This file proves what is true of the tables at every moment of every run, whatever rows
arrive, whatever fails and however short the retention is. Rows are in order, they are rows
of buckets of the layout, a catalogued partition covers each of them, and the catalogue
holds partitions of the layout only.
-/

import EpochRollup.Proofs.Days
import EpochRollup.Proofs.Footprint
import EpochRollup.Proofs.Partitioned

namespace EpochRollup

/-! ### Soundness -/

/-- Tables that the engine can have made under a layout. -/
structure Tables.Sound (layout : BucketLayout) (tables : Tables) : Prop where
  /-- Hours are in order. -/
  hourlyKeyed : Keyed HourlyRow.key tables.hourly
  /-- Days are in order. -/
  dailyKeyed : Keyed DailyRow.key tables.daily
  /-- The catalogue holds partitions of the layout. -/
  partitions : ∀ partition ∈ tables.catalogue,
    ∃ epoch, partition = layout.partitionAt partition.granularity epoch
  /-- Rows are rows of buckets, and covered. -/
  rows : ∀ row, tables.Holds row → tables.Covered row ∧ layout.Writes row

namespace Tables.Sound

variable {layout : BucketLayout} {tables after : Tables}

/-- Hours are rows of covered buckets. -/
theorem hours (sound : tables.Sound layout) (row : HourlyRow) (member : row ∈ tables.hourly) :
    tables.admitsHour row.start = true ∧
      ∃ epoch, row.start = (layout.bucketAt .hourly epoch).start :=
  (sound.rows (.hourly row) member).imp_left covered_hourly_iff.mp

/-- Days are rows of covered buckets and carry their date. -/
theorem days (sound : tables.Sound layout) (row : DailyRow) (member : row ∈ tables.daily) :
    tables.admitsDay row.day = true ∧
      ∃ epoch, row.start = (layout.bucketAt .daily epoch).start ∧
        row.day = layout.clock.dayOf (layout.bucketAt .daily epoch).start :=
  (sound.rows (.daily row) member).imp_left covered_daily_iff.mp

theorem empty : Tables.empty.Sound layout where
  hourlyKeyed := List.Pairwise.nil
  dailyKeyed := List.Pairwise.nil
  partitions := fun _ member => absurd member List.not_mem_nil
  rows := fun row held => absurd held (not_holds_empty row)

/-- Soundness does not look at the epochs and the trailing window. -/
theorem of_same (sound : tables.Sound layout) (hourly : after.hourly = tables.hourly)
    (daily : after.daily = tables.daily) (catalogue : after.catalogue = tables.catalogue) :
    after.Sound layout where
  hourlyKeyed := hourly ▸ sound.hourlyKeyed
  dailyKeyed := daily ▸ sound.dailyKeyed
  partitions := catalogue ▸ sound.partitions
  rows := by
    intro row held
    obtain ⟨covered, writes⟩ := sound.rows row ((holds_congr hourly daily).mp held)
    exact ⟨covered.mono (catalogue ▸ List.Subset.refl _), writes⟩

theorem ensure (sound : tables.Sound layout) (granularity : Granularity) (epoch : Nat) :
    (tables.ensure (layout.partitionAt granularity epoch)).Sound layout where
  hourlyKeyed := by rw [hourly_ensure]; exact sound.hourlyKeyed
  dailyKeyed := by rw [daily_ensure]; exact sound.dailyKeyed
  partitions := by
    intro partition member
    rcases mem_catalogue_ensure.mp member with old | ⟨rfl, -⟩
    · exact sound.partitions partition old
    · exact ⟨epoch, by cases granularity <;> rfl⟩
  rows := by
    intro row held
    obtain ⟨covered, writes⟩ := sound.rows row (holds_ensure_iff.mp held)
    exact ⟨covered.mono (catalogue_subset_ensure _ _), writes⟩

/-- A drop takes rows and partitions away, and only the rows that its partition covers. -/
theorem drop (sound : tables.Sound layout) (partition : Partition) :
    (tables.drop partition).Sound layout where
  hourlyKeyed := by
    cases partition with
    | hourly range => exact sound.hourlyKeyed.filter _
    | daily range days => exact sound.hourlyKeyed
  dailyKeyed := by
    cases partition with
    | hourly range => exact sound.dailyKeyed
    | daily range days => exact sound.dailyKeyed.filter _
  partitions := fun other member => sound.partitions other (mem_catalogue_drop.mp member).1
  rows := by
    intro row held
    obtain ⟨old, apart⟩ := holds_drop_iff_not_covers.mp held
    obtain ⟨covered, writes⟩ := sound.rows row old
    exact ⟨covered.drop apart, writes⟩

theorem foldHour (sound : tables.Sound layout) (epoch : Nat) {count : Nat}
    (given : Given tables (.foldHour (layout.bucketAt .hourly epoch)) count after) :
    after.Sound layout := by
  rcases given.foldHour with ⟨-, -, rfl⟩ | ⟨last, rows, -, admitted, -, written, -, rfl⟩
  · exact sound
  · refine ⟨sound.hourlyKeyed.putRows HourlyRow.orderedBy_key rows, sound.dailyKeyed,
      sound.partitions, fun row held => ?_⟩
    rcases holds_of_putHours held with old | ⟨new, member, rfl⟩
    · exact sound.rows row old
    · refine ⟨covered_hourly_iff.mpr ?_, epoch, (written new member).1.1⟩
      rw [(written new member).1.1]
      exact admitted

theorem foldDay (sound : tables.Sound layout) (epoch : Nat) {count : Nat}
    (given : Given tables (.foldDay (layout.bucketAt .daily epoch)
      (layout.clock.dayOf (layout.bucketAt .daily epoch).start)) count after) :
    after.Sound layout := by
  rcases given.foldDay with
    ⟨-, -, rfl⟩ | ⟨first, last, rows, -, -, admitted, -, written, -, rfl⟩
  · exact sound
  · refine ⟨sound.hourlyKeyed, sound.dailyKeyed.putRows DailyRow.orderedBy_key rows,
      sound.partitions, fun row held => ?_⟩
    rcases holds_of_putDays held with old | ⟨new, member, rfl⟩
    · exact sound.rows row old
    · refine ⟨covered_daily_iff.mpr ?_, epoch, (written new member).1.2.1,
        (written new member).1.1⟩
      rw [(written new member).1.1]
      exact admitted

/-- Every call of the engine keeps soundness. -/
theorem issued (sound : tables.Sound layout) {call : StoreCall} (issues : layout.Issues call)
    {answer : call.Answer} (given : Given tables call answer after) : after.Sound layout := by
  cases issues with
  | refresh refreshes =>
    obtain ⟨rolling, rfl⟩ := given.of_refreshes refreshes
    exact sound.of_same rfl rfl rfl
  | @fold granularity folds =>
    cases folds with
    | look looks =>
      rw [given.of_looks looks]
      exact sound
    | ensure epoch =>
      rw [given.ensurePartition.2]
      exact sound.ensure granularity epoch
    | fold epoch =>
      cases granularity with
      | hourly => exact sound.foldHour epoch given
      | daily => exact sound.foldDay epoch given
  | reclaim reclaims =>
    cases reclaims with
    | look looks =>
      rw [given.of_looks looks]
      exact sound
    | drop epoch =>
      rw [given.dropPartition.2]
      exact sound.drop _

end Tables.Sound

theorem Regime.stable_sound (regime : Regime) :
    regime.Stable fun log => log.now.Sound regime.layout := by
  intro log rows after sound _ given
  obtain ⟨stored, -, rfl⟩ := given.upsertEpochs
  rw [Chronicle.now_record]
  exact sound.of_same rfl rfl rfl

theorem Tables.Sound.record {layout : BucketLayout} {call : StoreCall}
    (issues : layout.Issues call) (log : Chronicle) (answer : call.Answer) (after : Tables)
    (sound : log.now.Sound layout) (given : Given log.now call answer after) :
    (log.record after).now.Sound layout := by
  rw [Chronicle.now_record]
  exact sound.issued issues given

/-- The tables are sound at every moment of every run. -/
theorem Runs.sound {regime : Regime} {final : Chronicle} (runs : Runs regime .start final) :
    final.now.Sound regime.layout :=
  runs.invariant regime.stable_sound (fun _ => Tables.Sound.record) Tables.Sound.empty

/-- A pass leaves sound tables, whatever its retention. -/
theorem Tables.Sound.runPass {regime : Regime} {retention : RetentionPolicy}
    {before after : Chronicle} {report : PassReport} (sound : before.now.Sound regime.layout)
    (pass : (Coordinator.ofStore regime.layout retention).runPass.Ends regime before (.ok report)
      after) : after.now.Sound regime.layout :=
  Coordinator.asks_runPass.keeps regime.stable_sound (fun _ => Tables.Sound.record) sound pass

/-! ### Stored days -/

/-- A row that is stored lies in a partition that covers it. -/
theorem Tables.Sound.covered {layout : BucketLayout} {tables : Tables}
    (years : layout.clock.FromYearZero) (sound : tables.Sound layout) {row : DailyRow}
    (member : row ∈ tables.daily) :
    ∃ epoch, row.start = (layout.bucketAt .daily epoch).start ∧
      row.day = layout.clock.dayOf (layout.bucketAt .daily epoch).start ∧
      row.day.number < CalendarDay.last.number := by
  obtain ⟨admitted, epoch, start, day⟩ := sound.days row member
  refine ⟨epoch, start, day, ?_⟩
  obtain ⟨range, days, listed, -, before⟩ := Tables.admitsDay_iff.mp admitted
  obtain ⟨other, same⟩ := sound.partitions _ listed
  cases same
  rw [day] at before ⊢
  exact BucketLayout.number_lt_last_of_covered years before

/-- A row of a day lies in a partition of the layout that is there. -/
theorem Tables.Sound.listed_daily {layout : BucketLayout} {tables : Tables}
    (years : layout.clock.FromYearZero) (sound : tables.Sound layout) {row : DailyRow}
    (member : row ∈ tables.daily) {epoch : Nat}
    (startIs : row.start = (layout.bucketAt .daily epoch).start) :
    layout.partitionAt .daily epoch ∈ tables.catalogue := by
  obtain ⟨other, rowStart, day, beforeLast⟩ := sound.covered years member
  obtain ⟨range, days, listed, covers⟩ := Tables.admitsDay_iff.mp (sound.days row member).1
  obtain ⟨holder, same⟩ := sound.partitions _ listed
  cases same
  have here : layout.bucketAt .daily other = layout.bucketAt .daily epoch :=
    layout.bucketAt_eq_of_start (by omega)
  rw [here] at day
  rw [day] at covers beforeLast
  have inside := layout.partitionAt_eq_iff.mpr
    ((BucketLayout.covers_dayOf_iff years beforeLast).mp covers)
  rw [layout.partitionAt_start] at inside
  rwa [inside]

/-- A validator has at most one row of a day. -/
theorem Tables.Sound.filter_daily_eq_singleton {layout : BucketLayout} {tables : Tables}
    (sound : tables.Sound layout) {row : DailyRow} (member : row ∈ tables.daily)
    {start validator : Int} (startIs : row.start = start)
    (validatorIs : row.validator = validator) :
    tables.daily.filter (fun row : DailyRow => row.start = start ∧ row.validator = validator) =
      [row] := by
  refine sound.dailyKeyed.filter_eq_singleton member (decide_eq_true ⟨startIs, validatorIs⟩)
    fun other otherMember kept => ?_
  obtain ⟨otherStart, otherValidator⟩ := of_decide_eq_true kept
  -- Rows with one start carry one date.
  obtain ⟨-, first, firstStart, firstDay⟩ := sound.days row member
  obtain ⟨-, second, secondStart, secondDay⟩ := sound.days other otherMember
  have same : (layout.bucketAt .daily second).start = (layout.bucketAt .daily first).start := by
    omega
  refine (DailyRow.key_eq_iff other row).mpr ⟨?_, otherValidator.trans validatorIs.symm⟩
  rw [firstDay, secondDay, same]

end EpochRollup
