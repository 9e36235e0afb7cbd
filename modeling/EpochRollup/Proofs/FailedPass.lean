/-
This file proves that a pass whose store fails stops cleanly. Any call of the pass may be the one
that fails. The pass then makes no other call, its error names the step that the call was made
in, and what is left of the tables is known step by step: nothing has changed, or the window is
fresh and a first part of the days that are due is folded, or all of them are and some
partitions are gone as a whole.
-/

import EpochRollup.Proofs.DueDays
import EpochRollup.Proofs.Window

namespace EpochRollup

/-! ### What the steps leave -/

namespace BucketLayout

variable {layout : BucketLayout} {granularity : Granularity} {boundary epoch : Nat}
  {tables left : Tables}

/-- A partition is as it was, with all its rows. -/
def Intact (layout : BucketLayout) (partition : Partition) (tables left : Tables) : Prop :=
  (∀ row, layout.partitionOf row = partition → (left.Holds row ↔ tables.Holds row)) ∧
    ∀ entry, entry.name = partition.name → (entry ∈ left.catalogue ↔ entry ∈ tables.catalogue)

/-- A partition is gone, with all its rows. -/
def Gone (layout : BucketLayout) (partition : Partition) (left : Tables) : Prop :=
  (∀ row, left.Holds row → layout.partitionOf row ≠ partition) ∧
    ∀ entry ∈ left.catalogue, entry.name ≠ partition.name

namespace Reclaimed

/-- Reclaiming takes whole partitions. -/
theorem intact_or_gone (reclaimed : layout.Reclaimed granularity boundary tables left)
    (dated : layout.DatedUpTo granularity (layout.partitionRangeAt granularity epoch).stop) :
    layout.Intact (layout.partitionAt granularity epoch) tables left ∨
      layout.Gone (layout.partitionAt granularity epoch) left := by
  rcases Nat.lt_or_ge boundary (layout.partitionRangeAt granularity epoch).stop with late | ended
  · -- What is gone had ended by the boundary.
    refine Or.inl ⟨fun row here => ⟨reclaimed.oldRows row, fun held => ?_⟩, fun entry named =>
      ⟨fun member => reclaimed.oldEntries.subset member, fun member => ?_⟩⟩
    · by_contra lost
      have expired := (reclaimed.removed row held lost).2
      rw [here, range_partitionAt] at expired
      omega
    · by_contra lost
      obtain ⟨other, same, expired⟩ := reclaimed.removedEntries entry member lost
      have equal := partitionAt_eq_of_name dated (dated.of_le (by omega)) (same.symm.trans named)
      have ranges := congrArg Partition.range equal
      rw [range_partitionAt, range_partitionAt] at ranges
      rw [ranges] at expired
      omega
  · exact reclaimed.together epoch ended

/-- And leaves those of the other granularity as they are. -/
theorem intact_of_ne (reclaimed : layout.Reclaimed granularity boundary tables left)
    {other : Granularity} (apart : other ≠ granularity) (epoch : Nat) :
    layout.Intact (layout.partitionAt other epoch) tables left := by
  refine ⟨fun row here => ⟨reclaimed.oldRows row, fun held => ?_⟩, fun entry named =>
    ⟨fun member => reclaimed.oldEntries.subset member, fun member => ?_⟩⟩
  · by_contra lost
    have granularities := congrArg Partition.granularity here
    rw [partitionOf, granularity_partitionAt, granularity_partitionAt] at granularities
    exact apart (granularities.symm.trans (reclaimed.removed row held lost).1)
  · have inside : entry ∈ tables.catalogue.filter (·.granularity ≠ granularity) := by
      rw [List.mem_filter, decide_eq_true_eq, granularity_eq_of_name named]
      exact ⟨member, apart⟩
    rw [← reclaimed.otherEntries] at inside
    exact (List.mem_filter.mp inside).1

theorem wrote (reclaimed : layout.Reclaimed granularity boundary tables left)
    (wrote : layout.Wrote tables) : layout.Wrote left where
  rows := fun row held => wrote.rows row (reclaimed.oldRows row held)
  names := wrote.names.sublist (reclaimed.oldEntries.map _)

end Reclaimed

end BucketLayout

/-- What a reclaim of a granularity may leave. -/
structure RetentionPolicy.Leaves (retention : RetentionPolicy) (layout : BucketLayout)
    (granularity : Granularity) (tables left : Tables) : Prop where
  /-- A partition of another granularity is as it was. -/
  others : ∀ other epoch, other ≠ granularity →
    layout.Intact (layout.partitionAt other epoch) tables left
  /-- A partition of this one is as it was or gone, if its dates are in the calendar. -/
  whole : ∀ epoch,
    layout.DatedUpTo granularity (layout.partitionRangeAt granularity epoch).stop →
      layout.Intact (layout.partitionAt granularity epoch) tables left ∨
        layout.Gone (layout.partitionAt granularity epoch) left
  /-- What is gone had ended by the head less the horizon. -/
  reclaimed : left = tables ∨ ∃ horizon head, retention.horizon granularity = some horizon ∧
    tables.head? = some head ∧ horizon ≤ head ∧
    layout.Reclaimed granularity (head - horizon) tables left

/-- The window of the tables is fresh, and otherwise they are as they were. -/
structure FreshWindow (clock : ChainClock) (report : WindowReport) (tables left : Tables) :
    Prop where
  /-- The window is the snapshot of the hours. -/
  refreshed : Refreshed clock tables.hourly report left.rolling
  /-- Nothing else has changed. -/
  others : left = { tables with rolling := left.rolling }

section

variable {regime : Regime} {layout : BucketLayout} {retention : RetentionPolicy}
  {granularity : Granularity} {tables left : Tables}

namespace FreshWindow

variable {clock : ChainClock} {report : WindowReport}

theorem hourly (fresh : FreshWindow clock report tables left) : left.hourly = tables.hourly := by
  rw [fresh.others]

theorem daily (fresh : FreshWindow clock report tables left) : left.daily = tables.daily := by
  rw [fresh.others]

theorem catalogue (fresh : FreshWindow clock report tables left) :
    left.catalogue = tables.catalogue := by
  rw [fresh.others]

theorem sound (fresh : FreshWindow clock report tables left) (sound : tables.Sound layout) :
    left.Sound layout := sound.of_same fresh.hourly fresh.daily fresh.catalogue

end FreshWindow

namespace RetentionPolicy.Leaves

theorem refl (tables : Tables) : retention.Leaves layout granularity tables tables where
  others := fun _ _ _ => ⟨fun _ _ => Iff.rfl, fun _ _ => Iff.rfl⟩
  whole := fun _ _ => Or.inl ⟨fun _ _ => Iff.rfl, fun _ _ => Iff.rfl⟩
  reclaimed := Or.inl rfl

theorem of_reclaimed {horizon head : Nat} (horizonIs : retention.horizon granularity = some horizon)
    (headIs : tables.head? = some head) (upTo : horizon ≤ head)
    (reclaimed : layout.Reclaimed granularity (head - horizon) tables left) :
    retention.Leaves layout granularity tables left where
  others := fun _ epoch apart => reclaimed.intact_of_ne apart epoch
  whole := fun _ dated => reclaimed.intact_or_gone dated
  reclaimed := Or.inr ⟨horizon, head, horizonIs, headIs, upTo, reclaimed⟩

theorem wrote (leaves : retention.Leaves layout granularity tables left)
    (wrote : layout.Wrote tables) : layout.Wrote left := by
  rcases leaves.reclaimed with rfl | ⟨_, _, -, -, -, reclaimed⟩
  · exact wrote
  · exact reclaimed.wrote wrote

/-- No row is new. -/
theorem oldRows (leaves : retention.Leaves layout granularity tables left) {row : PartitionedRow}
    (held : left.Holds row) : tables.Holds row := by
  rcases leaves.reclaimed with rfl | ⟨_, _, -, -, -, reclaimed⟩
  · exact held
  · exact reclaimed.oldRows row held

theorem hourly_subset (leaves : retention.Leaves layout granularity tables left) :
    left.hourly ⊆ tables.hourly :=
  fun row member => leaves.oldRows (show left.Holds (.hourly row) from member)

end RetentionPolicy.Leaves

/-- The head is the first epoch of an hour. -/
theorem Tables.exists_hour_of_head {head : Nat} (headIs : tables.head? = some head) :
    ∃ hour ∈ tables.hourly, hour.start.toNat = head := by
  obtain ⟨most, mostIs, rfl⟩ := Option.map_eq_some_iff.mp headIs
  obtain ⟨hour, member, rfl⟩ := List.mem_map.mp (List.max?_mem mostIs)
  exact ⟨hour, member, rfl⟩

/-- A reclaim leaves this, also when it stops. -/
theorem Coordinator.keeps_reclaim_leaves (wrote : layout.Wrote tables)
    (dated : ∀ hour ∈ tables.hourly, layout.DatedUpTo granularity hour.start.toNat) :
    ((ofStore layout retention).reclaim granularity).Keeps regime.quiet
      (fun log => retention.Leaves layout granularity tables log.now)
      (fun log => log.now = tables)
      fun _ log => retention.Leaves layout granularity tables log.now := by
  have idle {log : Chronicle} (same : log.now = tables) :
      retention.Leaves layout granularity tables log.now := same.symm ▸ .refl tables
  refine keeps_reclaim granularity (regime.stable_quiet _) (fun _ => idle)
    (fun _ same _ => idle same) fun horizon head oldest horizonIs upTo => ?_
  refine Procedure.Keeps.knowing (fun log held => show tables.head? = some head from
    held.1.1 ▸ held.1.2) fun headIs => ?_
  obtain ⟨hour, member, rfl⟩ := Tables.exists_hour_of_head headIs
  have within := (dated hour member).of_le (Nat.sub_le hour.start.toNat horizon)
  refine (BucketLayout.keeps_countedOut_reclaimFrom wrote within oldest
    (hour.start.toNat - horizon) [] 0).weaken ?_ ?_ ?_
  · rintro log ⟨gone, without⟩
    exact .of_reclaimed horizonIs headIs upTo (without.reclaimed within)
  · rintro log ⟨⟨rfl, -⟩, -⟩
    exact ⟨⟨[], .refl _⟩, Nat.zero_add _⟩
  · rintro count log ⟨⟨gone, without⟩, -⟩
    exact .of_reclaimed horizonIs headIs upTo (without.reclaimed within)

/-- A refresh makes the window fresh, and one that stops changes nothing. -/
theorem keeps_refreshWindow_fresh {clock : ChainClock}
    (nonneg : ∀ row ∈ tables.hourly, 0 ≤ row.start ∧ 0 ≤ row.stop) :
    (refreshWindow (storedBounds clock)).Keeps regime.quiet (fun log => log.now = tables)
      (fun log => log.now = tables) fun report log => FreshWindow clock report tables log.now := by
  have others : (refreshWindow (storedBounds clock)).Keeps regime.quiet
      (fun log => ∃ rolling, log.now = { tables with rolling })
      (fun log => ∃ rolling, log.now = { tables with rolling })
      fun _ log => ∃ rolling, log.now = { tables with rolling } := by
    refine (asks_refreshWindow clock).keeps (regime.stable_quiet _) ?_
    rintro call refreshes log answer after ⟨earlier, same⟩ given
    obtain ⟨rolling, rfl⟩ := given.of_refreshes refreshes
    exact ⟨rolling, by rw [Chronicle.now_record, same]⟩
  refine (others.and (keeps_refreshWindow_snapshot clock nonneg)).weaken ?_ ?_ ?_
  · rintro log ⟨⟨rolling, same⟩, unrefreshed⟩
    rw [same]
    have old : rolling = tables.rolling := by
      have there := unrefreshed.rolling
      rwa [same] at there
    rw [old]
  · rintro log rfl
    exact ⟨⟨_, rfl⟩, rfl, rfl⟩
  · rintro report log ⟨⟨rolling, same⟩, refreshed⟩
    refine ⟨refreshed, ?_⟩
    rw [same]

end

/-! ### Passes that stop -/

section

variable (layout : BucketLayout) (retention : RetentionPolicy) (tables after : Tables)

/-- The refresh of the window has come back. -/
structure RefreshDone (window : WindowReport) : Prop where
  /-- It has been answered. -/
  returns : (refreshWindow (storedBounds layout.clock)).Returns tables window after
  /-- The window is fresh. -/
  fresh : FreshWindow layout.clock window tables after

/-- The fold of days has come back. -/
structure FoldDone (days : FoldReport) : Prop where
  /-- It has been answered. -/
  returns : (layout.foldDays (storedBounds layout.clock)).Returns tables days after
  /-- All days that are due are folded. -/
  folded : DaysLeft layout tables (tables.dueDays layout) [] after

/-- The reclaim of a granularity has come back. -/
structure ReclaimDone (granularity : Granularity) (dropped : Nat) : Prop where
  /-- It has been answered. -/
  returns :
    ((Coordinator.ofStore layout retention).reclaim granularity).Returns tables dropped after
  /-- Partitions that have ended are gone as a whole. -/
  leaves : retention.Leaves layout granularity tables after

/-- A pass stops in a step and leaves these tables: the steps before it have come back, and the
call that fails is one of its own. -/
inductive StoppedIn (call : StoreCall) (error : StoreError) (cause : RollupError) :
    PassStep → Prop where
  /-- The refresh of the window stops, and nothing has changed. -/
  | rolling
      (fails : (refreshWindow (storedBounds layout.clock)).FailsAt tables call error after cause)
      (unchanged : after = tables) : StoppedIn call error cause .rolling
  /-- The fold of days stops, and a first part of the days that are due is folded. -/
  | daily {window : WindowReport} {refreshed : Tables} {done rest : List EpochRange}
      (refresh : RefreshDone layout tables refreshed window)
      (fails : (layout.foldDays (storedBounds layout.clock)).FailsAt refreshed call error after
        cause)
      (partly : PartlyFolded layout refreshed call done rest after)
      (leaves : DaysLeft layout refreshed done rest after) : StoppedIn call error cause .daily
  /-- The reclaim of hours stops, and some partitions of hours are gone. -/
  | hourlyRetention {window : WindowReport} {days : FoldReport} {refreshed folded : Tables}
      (refresh : RefreshDone layout tables refreshed window)
      (fold : FoldDone layout refreshed folded days)
      (fails : ((Coordinator.ofStore layout retention).reclaim .hourly).FailsAt folded call error
        after cause)
      (leaves : retention.Leaves layout .hourly folded after) :
      StoppedIn call error cause .hourlyRetention
  /-- The reclaim of days stops, and some partitions of days are gone. -/
  | dailyRetention {window : WindowReport} {days : FoldReport} {dropped : Nat}
      {refreshed folded reclaimed : Tables}
      (refresh : RefreshDone layout tables refreshed window)
      (fold : FoldDone layout refreshed folded days)
      (reclaim : ReclaimDone layout retention folded reclaimed .hourly dropped)
      (fails : ((Coordinator.ofStore layout retention).reclaim .daily).FailsAt reclaimed call error
        after cause)
      (leaves : retention.Leaves layout .daily reclaimed after) :
      StoppedIn call error cause .dailyRetention

end

/-- A pass that fails stops cleanly at a named step. Whatever state a run has reached and
whichever call of the pass fails, no other call is made, and the error names the step that the
call was made in. A refresh that stops changes nothing. After it the window is fresh, and a fold
of days that stops has folded a first part of the days that are due and made at most the
partition of the next one. After that all of them are folded, and a reclaim that stops has
taken some partitions of its granularity, each with all its rows; when it is the one of days,
the one of hours has come back. -/
theorem Runs.pass_stops {regime : Regime} {retention : RetentionPolicy} {log : Chronicle}
    {call : StoreCall} {error : StoreError} {left : Tables}
    {rest : Dialogue StoreCall StoreCall.Reply (Except Failure PassReport)}
    (runs : Runs regime .start log)
    (dated : ∀ hour ∈ log.now.hourly, regime.layout.DatedUpTo .daily hour.start.toNat)
    (breaks : Breaks call error left rest
      (Coordinator.ofStore regime.layout retention).runPass.run log.now) :
    ∃ failure step cause, rest = .done (.error (.error failure)) ∧ failure.step? = some step ∧
      StoppedIn regime.layout retention log.now left call error cause step := by
  have refreshing := @keeps_refreshWindow_fresh regime log.now regime.layout.clock
    fun _ => runs.steady.hours_nonneg
  rcases Procedure.breaks_inStep_bind (halts_refreshWindow _) breaks with
    ⟨cause, fails, ended⟩ | ⟨window, refreshed, refresh, breaks⟩
  · obtain ⟨_, rfl, unchanged⟩ := refreshing.of_failsAt fails
    exact ⟨_, _, cause, ended, rfl, .rolling fails unchanged⟩
  obtain ⟨_, rfl, fresh⟩ := refreshing.of_returns refresh
  have names := fresh.catalogue.symm ▸ runs.nodup_names
  have sound := fresh.sound runs.sound
  rcases Procedure.breaks_inStep_bind BucketLayout.halts_foldDays breaks with
    ⟨cause, fails, ended⟩ | ⟨days, folded, fold, breaks⟩
  · obtain ⟨done, rest, partly⟩ := BucketLayout.failsAt_foldDays fails
    exact ⟨_, _, cause, ended, rfl, .daily ⟨refresh, fresh⟩ fails partly
      (partly.daysLeft sound)⟩
  have whole := BucketLayout.returns_foldDays fold
  have foldDone : FoldDone regime.layout _ _ days := ⟨fold, whole.daysLeft sound⟩
  have wrote := whole.wrote sound names
  have hours := @Coordinator.keeps_reclaim_leaves regime regime.layout retention .hourly _ wrote
    fun _ _ => nofun
  rcases Procedure.breaks_inStep_bind (Coordinator.halts_reclaim .hourly) breaks with
    ⟨cause, fails, ended⟩ | ⟨dropped, reclaimed, reclaim, breaks⟩
  · obtain ⟨_, rfl, leaves⟩ := hours.of_failsAt fails
    exact ⟨_, _, cause, ended, rfl, .hourlyRetention ⟨refresh, fresh⟩ foldDone fails leaves⟩
  obtain ⟨_, rfl, leaves⟩ := hours.of_returns reclaim
  have days := @Coordinator.keeps_reclaim_leaves regime regime.layout retention .daily _
    (leaves.wrote wrote) fun hour member => dated hour (fresh.hourly ▸ whole.same.2.1 ▸
      leaves.hourly_subset member)
  rcases Procedure.breaks_inStep_bind (Coordinator.halts_reclaim .daily) breaks with
    ⟨cause, fails, ended⟩ | ⟨_, _, _, breaks⟩
  · obtain ⟨_, rfl, left⟩ := days.of_failsAt fails
    exact ⟨_, _, cause, ended, rfl, .dailyRetention ⟨refresh, fresh⟩ foldDone ⟨reclaim, leaves⟩
      fails left⟩
  -- Nothing is asked after the last step.
  cases breaks

namespace SecondDay

/-- A chain with three epochs to a day and hours of one epoch. -/
def layout : BucketLayout :=
  .ofNumbers ⟨1704067200, 0⟩ 1200 24 1 2 1 (by decide)

/-- Hours are kept for a day and days for ever. -/
def retention : RetentionPolicy := ⟨3, none⟩

/-- Two days are due, the first one for the second time. No row of the second one can be
written. -/
def party : EmbeddedStore × Chronicle :=
  Act.playAll layout retention
    [.supply [⟨0, 7, .none⟩], .fold, .pass, .supply [⟨1, 7, .none⟩, ⟨2, 8, .none⟩, ⟨4, 7, .none⟩],
      .fold, .place [⟨.rows .daily, .insert, some 3⟩]] (.fresh, .start)

theorem runs_party : Runs (.free layout) .start party.2 ∧ party.2.now = party.1.tables :=
  Act.runs_playAll trivial .none rfl ⟨trivial, trivial, trivial⟩

/-- The pass. -/
def secondPass : Procedure PassReport := (Coordinator.ofStore layout retention).runPass

/-- The tables that it leaves. -/
def left : Tables := (secondPass.runWith EmbeddedStore.answer party.1).2.tables

/-- The fold of the second day. -/
abbrev secondFold : StoreCall := layout.foldCall .daily 3

/-- The pass makes up the first day and the partition of the second one. -/
theorem evaluated :
    secondPass.run.firstFailure party.1 =
        some (secondFold, .database .injected, { party.1 with tables := left }) ∧
      (secondPass.runWith EmbeddedStore.answer party.1).1 =
        .error (.error (.step .daily (.bucket "fold_day" ⟨3, 6⟩ (.database .injected)))) ∧
      party.1.tables.dueDays layout = [⟨0, 3⟩, ⟨3, 6⟩] ∧
      left.daily.map (fun row => (row.start, row.stop, row.validator)) = [(0, 3, 7), (0, 3, 8)] ∧
      ∀ hour ∈ party.1.tables.hourly, layout.clock.InCalendar hour.start.toNat := by
  decide +kernel

end SecondDay

open SecondDay in
/-- A pass that cannot write the second day has made up the first one. -/
theorem Runs.pass_stops_second_day :
    Runs (.free layout) .start party.2 ∧
      (∃ rest, Breaks secondFold (.database .injected) left rest secondPass.run party.2.now) ∧
      party.1.tables.dueDays layout = [⟨0, 3⟩, ⟨3, 6⟩] ∧
      left.daily.map (fun row => (row.start, row.stop, row.validator)) = [(0, 3, 7), (0, 3, 8)] ∧
      (secondPass.runWith EmbeddedStore.answer party.1).1 =
        .error (.error (.step .daily (.bucket "fold_day" ⟨3, 6⟩ (.database .injected)))) ∧
      ∃ cause, StoppedIn layout retention party.2.now left secondFold (.database .injected) cause
        .daily := by
  obtain ⟨runs, now⟩ := runs_party
  obtain ⟨failed, outcome, due, rows, calendar⟩ := evaluated
  obtain ⟨rest, breaks, same⟩ := Breaks.of_firstFailure failed
  have dated : ∀ hour ∈ party.2.now.hourly, layout.DatedUpTo .daily hour.start.toNat := by
    rw [now]
    exact fun hour member _ => ⟨by show (0 : Int) ≤ _; decide, calendar hour member⟩
  have here : Breaks secondFold (.database .injected) left rest secondPass.run party.2.now :=
    now ▸ breaks
  refine ⟨runs, ⟨rest, here⟩, due, rows, outcome, ?_⟩
  obtain ⟨failure, step, cause, ended, named, stopped⟩ := runs.pass_stops dated here
  -- The error of the pass is the one that was reported.
  rw [ended] at same
  have reported := (congrArg Prod.fst same).trans outcome
  cases reported
  cases named
  exact ⟨cause, stopped⟩

end EpochRollup
