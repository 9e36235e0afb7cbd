/-
This file proves that a pass is idempotent. A pass that has come back leaves tables on which
the same pass finds nothing to do: the hours that steer it start within a day before the head,
and with hours kept for a day or longer none of them is dropped; the day of the head is folded
or closed, and its rows are kept; and what the walks of its reclaims would come to is lacking.
So every call of a second pass leaves the store as it is.
-/

import EpochRollup.Proofs.FoldAgain
import EpochRollup.Proofs.ReclaimAgain

namespace EpochRollup

section

variable {layout : BucketLayout} {retention : RetentionPolicy} {granularity : Granularity}
  {tables left : Tables} {head : Nat}

/-! ### What a reclaim keeps -/

namespace RetentionPolicy.Leaves

theorem rolling (leaves : retention.Leaves layout granularity tables left) :
    left.rolling = tables.rolling := by
  rcases leaves.reclaimed with rfl | ⟨_, _, -, -, -, reclaimed⟩
  · rfl
  · exact reclaimed.rolling

theorem hourly (leaves : retention.Leaves layout .daily tables left) :
    left.hourly = tables.hourly := by
  rcases leaves.reclaimed with rfl | ⟨_, _, -, -, -, reclaimed⟩
  · rfl
  · exact reclaimed.otherRows.1 rfl

theorem daily (leaves : retention.Leaves layout .hourly tables left) :
    left.daily = tables.daily := by
  rcases leaves.reclaimed with rfl | ⟨_, _, -, -, -, reclaimed⟩
  · rfl
  · exact reclaimed.otherRows.2 rfl

/-- A row whose bucket reaches past the head is kept. -/
theorem unended (leaves : retention.Leaves layout granularity tables left)
    (headIs : tables.head? = some head) {row : PartitionedRow} (held : tables.Holds row)
    (late : head < (layout.bucketOf row).stop) : left.Holds row := by
  rcases leaves.reclaimed with rfl | ⟨horizon, other, -, otherIs, -, reclaimed⟩
  · exact held
  · rw [headIs] at otherIs
    cases otherIs
    exact reclaimed.unended row held (by omega)

/-- Hours within the horizon are kept. -/
theorem sameFrom (leaves : retention.Leaves layout .hourly tables left)
    (keyed : Keyed HourlyRow.key tables.hourly) (leftKeyed : Keyed HourlyRow.key left.hourly)
    (headIs : tables.head? = some head) :
    tables.SameFrom ((head : Int) - retention.hourly) left := by
  refine (leftKeyed.filter _).ext (keyed.filter _) fun row => ?_
  rw [List.mem_filter, List.mem_filter]
  refine and_congr_left fun late => ⟨fun member => leaves.hourly_subset member, fun member => ?_⟩
  have within := of_decide_eq_true late
  rcases leaves.reclaimed with rfl | ⟨horizon, other, horizonIs, otherIs, upTo, reclaimed⟩
  · exact member
  · rw [headIs] at otherIs
    cases otherIs
    cases horizonIs
    by_contra gone
    have ended : (layout.partitionAt .hourly row.start.toNat).range.stop ≤
        head - retention.hourly := (reclaimed.removed (.hourly row) member gone).2
    rw [BucketLayout.range_partitionAt] at ended
    have inside : row.start.toNat < (layout.partitionRangeAt .hourly row.start.toNat).stop :=
      EpochRange.lt_stop_aligned (layout.partitionSpan_pos .hourly) _
    omega

end RetentionPolicy.Leaves

/-! ### The day of the head -/

/-- No day starts after the head. -/
theorem Tables.Steady.latestDay_le_head (steady : tables.Steady layout)
    (headIs : tables.head? = some head) {latest : EpochRange}
    (latestIs : tables.lastDaily?.map EmbeddedStore.boundsOfStored = some latest) :
    latest.start ≤ head := by
  obtain ⟨row, member, rfl, -⟩ := Tables.exists_row_of_latestBounds latestIs
  obtain ⟨⟨hour, hourMember, before⟩, -⟩ := steady.days row member
  have within := (steady.latest_of_head headIs).most hour hourMember
  show row.start.toNat ≤ head
  omega

/-- Where the day of the head has a row, it is the latest one. -/
theorem Tables.Steady.exists_latestDay (steady : tables.Steady layout)
    (headIs : tables.head? = some head) {row : DailyRow} (member : row ∈ tables.daily)
    (startIs : row.start = (layout.bucketAt .daily head).start) :
    ∃ latest, tables.lastDaily?.map EmbeddedStore.boundsOfStored = some latest ∧
      latest.start = (layout.bucketAt .daily head).start ∧ row.stop.toNat ≤ latest.stop := by
  cases latestIs : tables.lastDaily?.map EmbeddedStore.boundsOfStored with
  | none =>
    have empty := Tables.eq_nil_of_no_latestBounds latestIs
    exact absurd empty (List.ne_nil_of_mem member)
  | some latest =>
    obtain ⟨last, lastMember, rfl, most⟩ := Tables.exists_row_of_latestBounds latestIs
    have upTo : last.start.toNat ≤ head := steady.latestDay_le_head headIs latestIs
    obtain ⟨-, epoch, lastStart, -⟩ := steady.sound.days last lastMember
    have behind := most row member
    -- A day that starts by the head is not after the day of the head.
    have mono := layout.start_bucketAt_mono .daily
      (show (layout.bucketAt .daily epoch).start ≤ head by omega)
    rw [layout.bucketAt_start] at mono
    refine ⟨_, rfl, ?_, ?_⟩
    · show last.start.toNat = _
      omega
    · show row.stop.toNat ≤ last.stop.toNat
      omega

end

/-! ### A pass that has come back -/

/-- A pass has come back: its steps have, one after the other. -/
structure PassDone (layout : BucketLayout) (retention : RetentionPolicy)
    (tables refreshed folded reclaimed after : Tables) (report : PassReport) : Prop where
  /-- The refresh of the window. -/
  refresh : RefreshDone layout tables refreshed report.rolling
  /-- The fold of days. -/
  fold : (layout.foldDays (storedBounds layout.clock)).Returns refreshed report.daily folded
  /-- The reclaim of hours. -/
  hours : ReclaimDone layout retention folded reclaimed .hourly report.hourlyDropped
  /-- The reclaim of days. -/
  days : ReclaimDone layout retention reclaimed after .daily report.dailyDropped

section

open Procedure

/-- The steps of a pass come back on tables that a run has left. -/
theorem Runs.passDone {regime : Regime} {retention : RetentionPolicy} {log : Chronicle}
    {report : PassReport} {after : Tables} (runs : Runs regime .start log)
    (dated : ∀ hour ∈ log.now.hourly, regime.layout.DatedUpTo .daily hour.start.toNat)
    (returns : (Coordinator.ofStore regime.layout retention).runPass.Returns log.now report
      after) :
    ∃ refreshed folded reclaimed,
      PassDone regime.layout retention log.now refreshed folded reclaimed after report := by
  obtain ⟨window, refreshed, refresh, returns⟩ := returns_bind returns
  have refresh := returns_inStep refresh
  obtain ⟨_, rfl, fresh⟩ := (@keeps_refreshWindow_fresh regime _ _
    fun _ => runs.steady.hours_nonneg).of_returns refresh
  obtain ⟨days, folded, fold, returns⟩ := returns_bind returns
  have fold := returns_inStep fold
  have whole := BucketLayout.returns_foldDays fold
  have wrote := whole.wrote (fresh.sound runs.sound) (fresh.catalogue.symm ▸ runs.nodup_names)
  obtain ⟨hoursDropped, reclaimed, hours, returns⟩ := returns_bind returns
  have hours := returns_inStep hours
  obtain ⟨_, rfl, hoursLeft⟩ := (@Coordinator.keeps_reclaim_leaves regime _ retention .hourly _
    wrote fun _ _ => nofun).of_returns hours
  obtain ⟨daysDropped, ended, days, returns⟩ := returns_bind returns
  have days := returns_inStep days
  obtain ⟨rfl, rfl⟩ := returns_pure returns
  obtain ⟨_, rfl, daysLeft⟩ := (@Coordinator.keeps_reclaim_leaves regime _ retention .daily _
    (hoursLeft.wrote wrote) fun hour member => dated hour (fresh.hourly ▸ whole.same.2.1 ▸
      hoursLeft.hourly_subset member)).of_returns days
  exact ⟨_, _, _, ⟨refresh, fresh⟩, fold, ⟨hours, hoursLeft⟩, ⟨days, daysLeft⟩⟩

end

namespace PassDone

section

variable {layout : BucketLayout} {retention : RetentionPolicy}
  {tables refreshed folded reclaimed after : Tables} {report : PassReport} {head : Nat}
  (done : PassDone layout retention tables refreshed folded reclaimed after report)

include done

theorem folds :
    DaysFolded layout refreshed (refreshed.dueDays layout) folded :=
  BucketLayout.returns_foldDays done.fold

theorem refreshed_steady (steady : tables.Steady layout) : refreshed.Steady layout := by
  rw [done.refresh.fresh.others]
  exact steady.refresh _

theorem folded_hourly : folded.hourly = tables.hourly :=
  done.folds.same.2.1.trans done.refresh.fresh.hourly

/-- No hour is new. -/
theorem hourly_subset : after.hourly ⊆ tables.hourly := by
  rw [done.days.leaves.hourly, ← done.folded_hourly]
  exact done.hours.leaves.hourly_subset

theorem rolling : after.rolling = refreshed.rolling :=
  done.days.leaves.rolling.trans (done.hours.leaves.rolling.trans done.folds.same.2.2)

/-- The hours within the horizon are those that were there. -/
theorem sameFrom (sound : tables.Sound layout) (left : after.Sound layout)
    (headIs : tables.head? = some head) :
    tables.SameFrom ((head : Int) - retention.hourly) after := by
  have hours := done.folded_hourly
  refine (Tables.SameFrom.of_hourly hours).trans
    ((done.hours.leaves.sameFrom (hours ▸ sound.hourlyKeyed) ?_ ?_).trans
      (.of_hourly done.days.leaves.hourly))
  · rw [← done.days.leaves.hourly]
    exact left.hourlyKeyed
  · rwa [Tables.head?_congr hours]

/-- The head stays where it is. -/
theorem latest (steady : tables.Steady layout) (left : after.Sound layout)
    (headIs : tables.head? = some head) :
    after.lastHourly? = some ((head : Int), tables.frontier) :=
  (done.sameFrom steady.sound left headIs).lastHourly? (steady.latest_of_head headIs).found
    (by dsimp only; omega)

theorem head?_eq (steady : tables.Steady layout) (left : after.Sound layout) :
    after.head? = tables.head? := by
  cases headIs : tables.head? with
  | none =>
    have none := Tables.head?_eq_none.mp headIs
    have fewer := done.hourly_subset
    rw [none] at fewer
    exact Tables.head?_eq_none.mpr (List.subset_nil.mp fewer)
  | some head =>
    have found : after.lastHourly?.map EmbeddedStore.boundsOfStored =
        some ⟨head, epochOfStored tables.frontier⟩ := by
      rw [done.latest steady left headIs]
      rfl
    exact Tables.head?_of_lastHourly? found

/-- The head fits a column. -/
theorem head_stored (headIs : tables.head? = some head) : head < storedLimit := by
  rcases returns_refreshWindow done.refresh.returns with ⟨none, -, -⟩ | ⟨bounds, count, found, -,
    given, -⟩
  · rw [Tables.head?_eq_none.mpr none] at headIs
    cases headIs
  · have read := Tables.head?_of_lastHourly?
      (congrArg (Option.map EmbeddedStore.boundsOfStored) found)
    rw [headIs] at read
    cases read
    exact given.replaceRolling_stored.2

/-- The rows of the day of the head are kept. -/
theorem day_kept (steady : tables.Steady layout) (left : after.Sound layout)
    (headIs : tables.head? = some head) {row : DailyRow} (member : row ∈ folded.daily)
    (startIs : row.start = (layout.bucketAt .daily head).start) :
    row ∈ after.daily := by
  have there : reclaimed.Holds (.daily row) := by
    show row ∈ reclaimed.daily
    rwa [done.hours.leaves.daily]
  have bucketIs : layout.bucketOf (.daily row) = layout.bucketAt .daily head := by
    show layout.bucketAt .daily row.start.toNat = _
    rw [startIs, Int.toNat_natCast, layout.bucketAt_start]
  have sameHead : reclaimed.head? = some head := by
    rw [← Tables.head?_congr done.days.leaves.hourly, done.head?_eq steady left, headIs]
  have late : head < (layout.bucketOf (.daily row)).stop := by
    rw [bucketIs]
    exact layout.lt_stop_bucketAt .daily head
  exact done.days.leaves.unended sameHead there late

end

/-! ### The pass once more -/

section

open Procedure

variable {layout : BucketLayout} {retention : RetentionPolicy}
  {tables refreshed folded reclaimed : Tables} {report : PassReport} {head : Nat}
  {store : EmbeddedStore}
  (done : PassDone layout retention tables refreshed folded reclaimed store.tables report)
  (healthy : store.Healthy) (steady : tables.Steady layout) (left : store.tables.Steady layout)

include done

/-- A fold of days that found the day of the head closed has changed nothing. -/
theorem folded_eq_of_closed (headIs : refreshed.head? = some head) {latest : EpochRange}
    (latestIs : refreshed.lastDaily?.map EmbeddedStore.boundsOfStored = some latest)
    (starts : latest.start = (layout.bucketAt .daily head).start)
    (reached : layout.closing head ≤ latest.stop) : folded = refreshed := by
  have none : refreshed.dueDays layout = [] := by
    have closed :
        isClosed (some latest) (layout.bucketAt .daily head) (layout.closing head) = true :=
      isClosed_iff.mpr ⟨latest, rfl, starts, reached⟩
    unfold Tables.dueDays
    rw [headIs]
    dsimp only
    rw [latestIs, Option.map_some, Option.getD_some, starts]
    exact layout.daysDue_of_closed _ head closed
  have folds := done.folds
  rw [none] at folds
  exact folds.eq_of_nil

include healthy steady left

/-- The second refresh writes the window that is there. -/
theorem replays_refresh (long : layout.clock.epochsPerDay ≤ retention.hourly) :
    (refreshWindow (storedBounds layout.clock)).Replays store report.rolling := by
  have none (empty : tables.hourly = []) : store.tables.hourly = [] := by
    rw [← Tables.head?_eq_none] at empty ⊢
    rw [done.head?_eq steady left.sound, empty]
  cases headIs : tables.head? with
  | none =>
    have empty := Tables.head?_eq_none.mp headIs
    have same : tables.SameFrom 0 store.tables := .of_hourly ((none empty).trans empty.symm)
    refine healthy.replays_refreshWindow done.refresh.returns same ?_ none done.rolling
    intro bounds found
    rw [Tables.lastHourly?_eq_none.mpr empty] at found
    cases found
  | some head =>
    have latest := steady.latest_of_head headIs
    refine healthy.replays_refreshWindow done.refresh.returns
      (done.sameFrom steady.sound left.sound headIs) ?_ none done.rolling
    intro bounds found
    rw [latest.found] at found
    cases found
    have before := latest.before
    unfold epochOfStored
    dsimp only
    omega

/-- A second fold of days comes to the day of the head only, if this day has a row. -/
theorem replays_days_of_row (headIs : tables.head? = some head)
    (bucketIs : layout.bucket .daily head = .ok (layout.bucketAt .daily head)) {closesAt : Nat}
    (closing : layout.closesAt .daily (layout.bucketAt .daily head) = .ok closesAt)
    {row : DailyRow} (member : row ∈ folded.daily)
    (startIs : row.start = (layout.bucketAt .daily head).start)
    (again : closesAt ≤ row.stop.toNat ∨ ∃ rows < wordLimit,
      (layout.aggregate .daily (layout.bucketAt .daily head)).Replays store (rows, false)) :
    store.ReplaysOneDay layout := by
  have kept := done.day_kept steady left.sound headIs member startIs
  have sameHead : store.tables.head? = some head := by rw [done.head?_eq steady left.sound, headIs]
  obtain ⟨latestDay, dayIs, starts, reaches⟩ := left.exists_latestDay sameHead kept startIs
  have hourIs : store.tables.lastHourly?.map EmbeddedStore.boundsOfStored =
      some ⟨head, epochOfStored tables.frontier⟩ := by
    rw [done.latest steady left.sound headIs]
    rfl
  refine healthy.replays_foldDays hourIs dayIs starts bucketIs closing
    (again.imp_left fun reached => ?_)
  exact isClosed_iff.mpr ⟨latestDay, rfl, starts, Nat.le_trans reached reaches⟩

/-- A day of the head that was closed is closed still. -/
theorem replays_days_closed (headIs : tables.head? = some head)
    (bucketIs : layout.bucket .daily head = .ok (layout.bucketAt .daily head)) {closesAt : Nat}
    (closing : layout.closesAt .daily (layout.bucketAt .daily head) = .ok closesAt)
    (closed : isClosed (refreshed.lastDaily?.map EmbeddedStore.boundsOfStored)
      (layout.bucketAt .daily head) closesAt = true) :
    store.ReplaysOneDay layout := by
  obtain ⟨latest, latestIs, starts, reached⟩ := isClosed_iff.mp closed
  obtain rfl := BucketLayout.closesAt_daily_eq_ok closing
  have refreshedHead := (Tables.head?_congr done.refresh.fresh.hourly).trans headIs
  obtain rfl := done.folded_eq_of_closed refreshedHead latestIs starts reached
  obtain ⟨row, member, rfl, -⟩ := Tables.exists_row_of_latestBounds latestIs
  obtain ⟨-, epoch, rowStart, -⟩ := (done.refreshed_steady steady).sound.days row member
  have startIs : row.start = (layout.bucketAt .daily head).start := by
    change row.start.toNat = _ at starts
    omega
  exact done.replays_days_of_row healthy steady left headIs bucketIs closing member startIs
    (Or.inl reached)

/-- A day of the head that was folded is folded once more, from the same hours. -/
theorem replays_days_folded (long : layout.clock.epochsPerDay ≤ retention.hourly)
    (years : layout.clock.FromYearZero) (headIs : tables.head? = some head)
    (bucketIs : layout.bucket .daily head = .ok (layout.bucketAt .daily head)) {closesAt : Nat}
    (closing : layout.closesAt .daily (layout.bucketAt .daily head) = .ok closesAt)
    {earlier : List EpochRange} {ready : Tables} {rows : Nat} (few : rows < wordLimit)
    (before : DaysFolded layout refreshed earlier ready)
    (found : layout.partitionFor .daily (layout.bucketAt .daily head).start =
      .ok (layout.partitionAt .daily head))
    (given : Given (ready.ensure (layout.partitionAt .daily head)) (layout.foldCall .daily head)
      rows folded) :
    store.ReplaysOneDay layout := by
  have hours : ready.hourly = tables.hourly := before.same.2.1.trans done.refresh.fresh.hourly
  have readySound := before.sound (done.refreshed_steady steady).sound
  obtain ⟨hour, hourMember, hourIs⟩ := (steady.latest_of_head headIs).held
  obtain ⟨row, member, startIs⟩ := BucketLayout.exists_row_of_foldCall readySound given
    (hours ▸ hourMember) hourIs
  have kept (row : DailyRow) (member : row ∈ folded.daily)
      (startIs : row.start = (layout.bucketAt .daily head).start) : row ∈ store.tables.daily :=
    done.day_kept steady left.sound headIs member startIs
  have same : ready.SameFrom ((head : Int) - retention.hourly) store.tables :=
    (Tables.SameFrom.of_hourly hours.symm).trans (done.sameFrom steady.sound left.sound headIs)
  -- The hours of the day of the head start less than a day before the head.
  have late : (head : Int) - retention.hourly ≤ (layout.bucketAt .daily head).start := by
    have within : head < (layout.bucketAt .daily head).start + layout.clock.epochsPerDay :=
      Nat.lt_of_lt_of_le (layout.lt_stop_bucketAt .daily head) (EpochRange.stop_aligned_le head)
    omega
  have answered := healthy.answer_foldCall left.sound readySound given same late kept
  have listed := left.sound.listed_daily years (kept row member startIs) startIs
  have there := Tables.hasPartition_iff.mpr ⟨_, listed, rfl⟩
  exact done.replays_days_of_row healthy steady left headIs bucketIs closing member startIs
    (Or.inr ⟨rows, few, healthy.replays_aggregate found there answered⟩)

/-- A second fold of days comes at most to the day of the head, and writes what is there. -/
theorem replays_days (long : layout.clock.epochsPerDay ≤ retention.hourly)
    (years : tables.hourly ≠ [] → layout.clock.FromYearZero) :
    ∃ again, (layout.foldDays (storedBounds layout.clock)).Replays store again ∧
      again.partitionsCreated = 0 ∧ again.bucketsFolded + again.bucketsSkipped ≤ 1 := by
  cases headIs : tables.head? with
  | none =>
    have missing : store.tables.lastHourly?.map EmbeddedStore.boundsOfStored = none := by
      rw [Tables.lastHourly?_eq_none.mpr (Tables.head?_eq_none.mp
        ((done.head?_eq steady left.sound).trans headIs))]
      rfl
    refine ⟨.idle, (healthy.replays_lastHourly layout.clock).bind ?_, rfl, Nat.zero_le _⟩
    rw [missing]
    exact replays_pure _
  | some head =>
    have nonempty : tables.hourly ≠ [] := fun empty => by
      rw [Tables.head?_eq_none.mpr empty] at headIs
      cases headIs
    have refreshedHead := (Tables.head?_congr done.refresh.fresh.hourly).trans headIs
    obtain ⟨bucketIs, ends⟩ := BucketLayout.endsWith_foldDays done.fold refreshedHead
      fun day => (done.refreshed_steady steady).latestDay_le_head refreshedHead
    suffices oneDay : store.ReplaysOneDay layout by
      obtain ⟨again, replays, none, one⟩ := oneDay
      exact ⟨again, replays, none, Nat.le_of_eq one⟩
    cases ends with
    | closed closing closed =>
      exact done.replays_days_closed healthy steady left headIs bucketIs closing closed
    | folded closing before found given counted =>
      have few := (Word.add_eq_ok_iff.mp counted).1
      exact done.replays_days_folded healthy steady left long (years nonempty) headIs bucketIs
        closing (by omega) before found given

/-- A second reclaim of hours has nothing to drop. -/
theorem replays_hours :
    ((Coordinator.ofStore layout retention).reclaim .hourly).Replays store 0 := by
  have sameHead := Tables.head?_congr done.folded_hourly
  refine healthy.replays_reclaim_again done.hours.returns
    ((done.head?_eq steady left.sound).trans sameHead.symm)
    (fun head headIs => done.head_stored (sameHead ▸ headIs)) ?_
    fun partition lacks => lacks.of_reclaim done.days.returns
  exact fun row _ held => done.hours.leaves.oldRows (done.days.leaves.oldRows held)

/-- Nor has a second reclaim of days. -/
theorem replays_dailyRetention :
    ((Coordinator.ofStore layout retention).reclaim .daily).Replays store 0 := by
  have sameHead := Tables.head?_congr done.days.leaves.hourly
  refine healthy.replays_reclaim_again done.days.returns sameHead
    (fun head headIs => done.head_stored ?_)
    (fun row _ held => done.days.leaves.oldRows held) fun _ => id
  rw [← done.head?_eq steady left.sound, sameHead, headIs]

end

end PassDone

open Procedure in
/-- A pass is idempotent, where hours are kept for a day or longer. Whatever run has led to the
tables and whatever failed in it: once a pass comes back, the same pass comes back again on a
store with the tables that it left and without faults, and leaves the store as it is. It
reports the same window, makes and drops no partition, and comes to one day at most. -/
theorem Runs.pass_idempotent {regime : Regime} {retention : RetentionPolicy}
    {log after : Chronicle} {report : PassReport} {store : EmbeddedStore}
    (runs : Runs regime .start log)
    (long : regime.layout.clock.epochsPerDay ≤ retention.hourly)
    (dated : ∀ hour ∈ log.now.hourly, regime.layout.DatedUpTo .daily hour.start.toNat)
    (ends : (Coordinator.ofStore regime.layout retention).runPass.Ends regime.quiet log
      (.ok report) after)
    (tables : store.tables = after.now) (healthy : store.Healthy) :
    ∃ again, (Coordinator.ofStore regime.layout retention).runPass.runWith EmbeddedStore.answer
        store = (.ok again, store) ∧
      again.rolling = report.rolling ∧ again.daily.partitionsCreated = 0 ∧
      again.hourlyDropped = 0 ∧ again.dailyDropped = 0 ∧
      again.daily.bucketsFolded + again.daily.bucketsSkipped ≤ 1 := by
  have steady := runs.steady
  have left : after.now.Steady regime.layout := (keeps_runPass_steady ⟨steady, trivial⟩ ends).1
  obtain ⟨refreshed, folded, reclaimed, done⟩ :=
    runs.passDone dated (ends.returns Coordinator.halts_runPass)
  rw [← tables] at done left
  have years (nonempty : log.now.hourly ≠ []) : regime.layout.clock.FromYearZero := by
    obtain ⟨hour, member⟩ := List.exists_mem_of_ne_nil _ nonempty
    exact (dated hour member rfl).1
  have refresh := done.replays_refresh healthy steady left long
  obtain ⟨again, days, none, one⟩ := done.replays_days healthy steady left long years
  have hours := done.replays_hours healthy steady left
  have expired := done.replays_dailyRetention healthy steady left
  refine ⟨⟨report.rolling, again, 0, 0⟩, ?_, rfl, none, rfl, rfl, one⟩
  exact (refresh.inStep .rolling).bind ((days.inStep .daily).bind
    ((hours.inStep .hourlyRetention).bind ((expired.inStep .dailyRetention).bind (replays_pure _))))

namespace TwoReclaims

/-- A chain with three epochs to a day and hours of one epoch. -/
def layout : BucketLayout :=
  .ofNumbers ⟨1704067200, 0⟩ 600 48 1 2 1 (by decide)

/-- Hours and days are kept for a day. -/
def retention : RetentionPolicy := ⟨3, some 3⟩

/-- A pass cannot write the first day and the next one can. Then two more days are seen. -/
def party : EmbeddedStore × Chronicle :=
  Act.playAll layout retention
    [.supply [⟨0, 7, .none⟩, ⟨2, 8, .none⟩], .fold, .place [⟨.rows .daily, .insert, none⟩], .pass,
      .place [], .pass, .supply [⟨4, 7, .none⟩, ⟨7, 8, .none⟩], .fold] (.fresh, .start)

theorem runs_party : Runs (.free layout) .start party.2 ∧ party.2.now = party.1.tables :=
  Act.runs_playAll trivial .none rfl ⟨trivial, trivial, trivial⟩

/-- The pass. -/
def thirdPass : Procedure PassReport := (Coordinator.ofStore layout retention).runPass

/-- What it reports. -/
def report : PassReport :=
  ⟨⟨some ⟨7, 8⟩, 1⟩, ⟨2, 1, 2, 2, some ⟨6, 9⟩⟩, 2, 1⟩

/-- The store that it leaves. -/
def left : EmbeddedStore := (thirdPass.runWith EmbeddedStore.answer party.1).2

/-- The pass folds both days and drops the hours and the day before them. -/
theorem evaluated :
    (thirdPass.runWith EmbeddedStore.answer party.1).1 = .ok report ∧
      left.faults = [] ∧ left.isClosed = false ∧
      ∀ hour ∈ party.1.tables.hourly, layout.clock.InCalendar hour.start.toNat := by
  decide +kernel

end TwoReclaims

open TwoReclaims in
/-- A pass that drops hourly partitions and a daily one drops none the next time. -/
theorem Runs.pass_idempotent_after_reclaims :
    Runs (.free layout) .start party.2 ∧ layout.clock.epochsPerDay ≤ retention.hourly ∧
      (∃ after, thirdPass.Ends (Regime.free layout).quiet party.2 (.ok report) after ∧
        left.tables = after.now) ∧
      left.Healthy ∧ report.hourlyDropped = 2 ∧ report.dailyDropped = 1 ∧
      ∃ again, thirdPass.runWith EmbeddedStore.answer left = (.ok again, left) ∧
        again.rolling = report.rolling ∧ again.daily.partitionsCreated = 0 ∧
        again.hourlyDropped = 0 ∧ again.dailyDropped = 0 ∧
        again.daily.bucketsFolded + again.daily.bucketsSkipped ≤ 1 := by
  obtain ⟨runs, now⟩ := runs_party
  obtain ⟨outcome, faults, opened, calendar⟩ := evaluated
  have long : layout.clock.epochsPerDay ≤ retention.hourly := by decide
  have dated : ∀ hour ∈ party.2.now.hourly, layout.DatedUpTo .daily hour.start.toNat := by
    rw [now]
    exact fun hour member _ => ⟨by show (0 : Int) ≤ _; decide, calendar hour member⟩
  have ran : thirdPass.runWith EmbeddedStore.answer party.1 = (.ok report, left) :=
    Prod.ext outcome rfl
  obtain ⟨after, ends, same⟩ := Procedure.exists_ends ran now
  have healthy : left.Healthy := ⟨faults, opened⟩
  exact ⟨runs, long, ⟨after, ends, same.symm⟩, healthy, rfl, rfl,
    runs.pass_idempotent long dated ends same.symm healthy⟩

end EpochRollup
