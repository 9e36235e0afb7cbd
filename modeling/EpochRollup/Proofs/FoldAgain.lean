/-
This file folds the latest day once more. A fold of days ends with the day of the hourly head,
which it leaves as it is when it is closed and folds otherwise. On tables that still have the
hours and the rows of that day the next fold comes to this day only: it leaves it as it is, or
writes the rows that are there.
-/

import EpochRollup.Proofs.LateHours

namespace EpochRollup

/-! ### The last day of a fold -/

namespace BucketLayout

open Procedure

variable {layout : BucketLayout} {tables between after : Tables} {latest : Option EpochRange}
  {head epoch remaining : Nat} {report result : FoldReport} {days : List EpochRange}

/-- What a fold of days has done about the day of the head: it was closed and nothing has changed,
or it was folded last. -/
inductive EndsWith (layout : BucketLayout) (tables : Tables) (latest : Option EpochRange)
    (head : Nat) (after : Tables) : Prop where
  /-- The day is closed. -/
  | closed {closesAt : Nat}
      (closing : layout.closesAt .daily (layout.bucketAt .daily head) = .ok closesAt)
      (closed : isClosed latest (layout.bucketAt .daily head) closesAt = true) :
      EndsWith layout tables latest head after
  /-- The day is folded. -/
  | folded {closesAt : Nat} {earlier : List EpochRange} {ready : Tables} {rows total sum : Nat}
      (closing : layout.closesAt .daily (layout.bucketAt .daily head) = .ok closesAt)
      (folded : DaysFolded layout tables earlier ready)
      (found : layout.partitionFor .daily (layout.bucketAt .daily head).start =
        .ok (layout.partitionAt .daily head))
      (given : Given (ready.ensure (layout.partitionAt .daily head))
        (layout.foldCall .daily head) rows after)
      (counted : Word.add total rows = .ok sum) : EndsWith layout tables latest head after

theorem endsWith_foldBuckets
    (counted : remaining + 1 = layout.bucketsBetween .daily epoch head)
    (returns : (layout.foldBuckets .daily latest (remaining + 1) epoch report).Returns between
      result after) (folded : DaysFolded layout tables days between) :
    EndsWith layout tables latest head after := by
  induction remaining generalizing epoch report between days with
  | zero =>
    have here : layout.bucketAt .daily epoch = layout.bucketAt .daily head := by
      have positive := layout.width_pos .daily
      have same : layout.bucketIndex .daily epoch = layout.bucketIndex .daily head := by
        unfold bucketsBetween at counted
        omega
      obtain ⟨after, before⟩ := (EpochRange.mem_aligned_iff positive head epoch).mpr same
      exact EpochRange.aligned_eq_of_mem positive after before
    obtain ⟨closesAt, closing, turn⟩ := returns_foldBuckets_succ returns
    rw [here] at closing turn
    rcases turn with ⟨closed, -⟩ | ⟨-, _, _, _, _, aggregated, counted, returns⟩
    · exact .closed closing closed
    · obtain ⟨found, given⟩ := returns_aggregate aggregated
      obtain ⟨-, rfl⟩ := returns_pure returns
      exact .folded closing folded found given counted
  | succ remaining inductionHypothesis =>
    obtain ⟨next, -⟩ := of_bucketsBetween_succ counted
    obtain ⟨_, -, ⟨-, returns⟩ | ⟨-, _, _, _, _, aggregated, -, returns⟩⟩ :=
      returns_foldBuckets_succ returns
    · exact inductionHypothesis next returns folded
    · exact inductionHypothesis next returns (folded.next epoch (returns_aggregate aggregated).2)

theorem endsWith_foldDays
    (returns : (layout.foldDays (storedBounds layout.clock)).Returns tables result after)
    (headIs : tables.head? = some head)
    (upTo : ∀ day, tables.lastDaily?.map EmbeddedStore.boundsOfStored = some day →
      day.start ≤ head) :
    layout.bucket .daily head = .ok (layout.bucketAt .daily head) ∧
      EndsWith layout tables (tables.lastDaily?.map EmbeddedStore.boundsOfStored) head after := by
  obtain ⟨latestHour, _, answered, returns⟩ := returns_bind returns
  obtain ⟨same, found⟩ := (returns_settle answered).look fun _ => rfl
  rw [same] at returns
  cases latestHour with
  | none =>
    rw [Tables.head?_of_lastHourly?_none found.symm] at headIs
    cases headIs
  | some latestHour =>
    rw [Tables.head?_of_lastHourly? found.symm] at headIs
    cases headIs
    obtain ⟨latest, _, answered, returns⟩ := returns_bind returns
    obtain ⟨same, rfl⟩ := (returns_settle answered).look fun _ => rfl
    obtain ⟨bucket, bucketIs, returns⟩ := returns_compute_bind returns
    obtain rfl := layout.bucket_eq_ok bucketIs
    rw [same] at returns
    refine ⟨bucketIs, ?_⟩
    generalize latestIs : tables.lastDaily?.map EmbeddedStore.boundsOfStored = latest at *
    have resumes : (latest.map (·.start)).getD latestHour.start ≤ latestHour.start := by
      cases latest with
      | none => exact Nat.le_refl _
      | some day => exact upTo day rfl
    generalize (latest.map (·.start)).getD latestHour.start = resume at *
    obtain ⟨remaining, counted⟩ : ∃ remaining,
        layout.bucketsBetween .daily resume latestHour.start = remaining + 1 := by
      have ordered :
          layout.bucketIndex .daily resume ≤ layout.bucketIndex .daily latestHour.start :=
        Nat.div_le_div_right (Nat.add_le_add_right resumes _)
      exact ⟨layout.bucketIndex .daily latestHour.start - layout.bucketIndex .daily resume, by
        unfold bucketsBetween
        omega⟩
    rw [counted] at returns
    exact endsWith_foldBuckets counted.symm returns .none

/-- The bucket of an epoch is found from its start as well. -/
theorem bucket_start {granularity : Granularity}
    (found : layout.bucket granularity epoch = .ok (layout.bucketAt granularity epoch)) :
    layout.bucket granularity (layout.bucketAt granularity epoch).start =
      .ok (layout.bucketAt granularity epoch) := by
  obtain ⟨shifted, ended, -⟩ := alignedRange_eq_ok_iff.mp found
  have within := layout.start_bucketAt_le granularity epoch
  have index := layout.bucketIndex_start granularity epoch
  refine alignedRange_eq_ok_iff.mpr ⟨by omega, ?_, (layout.bucketAt_start granularity epoch).symm⟩
  unfold bucketIndex at index
  rwa [index]

/-- A fold of the day of an hour leaves a row of this day. -/
theorem exists_row_of_foldCall {ready : Tables} {rows : Nat} (readySound : ready.Sound layout)
    (given : Given (ready.ensure (layout.partitionAt .daily head)) (layout.foldCall .daily head)
      rows after) {hour : HourlyRow} (member : hour ∈ ready.hourly) (hourIs : hour.start = head) :
    ∃ row ∈ after.daily, row.start = (layout.bucketAt .daily head).start := by
  have given : Given (ready.ensure (layout.partitionAt .daily head))
      (.foldDay (layout.bucketAt .daily head)
        (layout.clock.dayOf (layout.bucketAt .daily head).start)) rows after := given
  rcases given.foldDay_cases with ⟨-, empty⟩ | ⟨written, wrote, rfl⟩
  · have begins := layout.start_bucketAt_le .daily head
    have ends := layout.lt_stop_bucketAt .daily head
    have here := mem_hoursIn.mpr ⟨member, (by omega : ((layout.bucketAt .daily head).start : Int) ≤
      hour.start), (by omega : hour.start < (layout.bucketAt .daily head).stop)⟩
    rw [Tables.hourly_ensure] at empty
    rw [empty] at here
    cases here
  · obtain ⟨row, rowMember⟩ := List.exists_mem_of_ne_nil _ wrote.nonempty
    refine ⟨row, ?_, (wrote.written row rowMember).start⟩
    exact (mem_putRows DailyRow.orderedBy_key (readySound.ensure .daily head).dailyKeyed wrote.keyed
      row).mpr (Or.inl rowMember)

end BucketLayout

/-! ### The day once more -/

/-- A fold of days comes to one day, makes no partition and leaves the store as it is. -/
def EmbeddedStore.ReplaysOneDay (store : EmbeddedStore) (layout : BucketLayout) : Prop :=
  ∃ report, (layout.foldDays (storedBounds layout.clock)).Replays store report ∧
    report.partitionsCreated = 0 ∧ report.bucketsFolded + report.bucketsSkipped = 1

namespace EmbeddedStore.Healthy

open Procedure

variable {layout : BucketLayout} {store : EmbeddedStore} {ready after : Tables} {cutoff : Int}
  {head rows : Nat}

/-- A fold of a day writes nothing new where its hours and its rows are still there. -/
theorem answer_foldCall (healthy : store.Healthy) (sound : store.tables.Sound layout)
    (readySound : ready.Sound layout)
    (given : Given (ready.ensure (layout.partitionAt .daily head)) (layout.foldCall .daily head)
      rows after) (same : ready.SameFrom cutoff store.tables)
    (late : cutoff ≤ ((layout.bucketAt .daily head).start : Int))
    (kept : ∀ row ∈ after.daily, row.start = (layout.bucketAt .daily head).start →
      row ∈ store.tables.daily) :
    store.answer (layout.foldCall .daily head) = (.ok rows, store) := by
  have given : Given (ready.ensure (layout.partitionAt .daily head))
      (.foldDay (layout.bucketAt .daily head)
        (layout.clock.dayOf (layout.bucketAt .daily head).start)) rows after := given
  obtain ⟨startStored, stopStored⟩ := given.foldDay_stored
  have ensured : ready.SameFrom cutoff (ready.ensure (layout.partitionAt .daily head)) :=
    .of_hourly (Tables.hourly_ensure _ _)
  have same : (ready.ensure (layout.partitionAt .daily head)).SameFrom cutoff store.tables :=
    ensured.symm.trans same
  have samples : hourSamples store.tables.hourly (layout.bucketAt .daily head).start
      (layout.bucketAt .daily head).stop = _ := same.hourSamples_eq late
  rcases given.foldDay with ⟨empty, rfl, -⟩ | ⟨first, last, written, firstIs, lastIs, -, validators,
    shape, rfl, rfl⟩
  · rw [← samples] at empty
    exact EmbeddedStore.answer_foldDay healthy.opened startStored stopStored empty
  · have lastLate : cutoff ≤ last := by
      obtain ⟨sample, member, rfl⟩ := List.mem_map.mp (List.max?_mem lastIs)
      obtain ⟨hour, inside, rfl⟩ := List.mem_map.mp member
      have after := (mem_hoursIn.mp (show hour ∈ hoursIn _ (layout.bucketAt .daily head) from
        inside)).2.1
      exact Int.le_trans late after
    rw [← samples] at firstIs lastIs validators shape
    rw [← same.coverage_eq lastLate] at shape
    -- The rows that were written are still there.
    have keyed := DailyRow.keyed_of_validators (fun row member => (shape row member).1.1) validators
    have there (row : DailyRow) (member : row ∈ written) : row ∈ store.tables.daily := by
      refine kept row ?_ (shape row member).1.2.1
      exact (mem_putRows DailyRow.orderedBy_key (readySound.ensure .daily head).dailyKeyed keyed
        row).mpr (Or.inl member)
    have admitted : store.tables.admitsDay
        (layout.clock.dayOf (layout.bucketAt .daily head).start) = true := by
      obtain ⟨sample, member, -⟩ := List.mem_map.mp (List.max?_mem lastIs)
      have seen := (Sample.mem_validators _ _).mpr ⟨sample, member, rfl⟩
      rw [← validators] at seen
      obtain ⟨row, rowMember, -⟩ := List.mem_map.mp seen
      have stored := (sound.days row (there row rowMember)).1
      rwa [(shape row rowMember).1.1] at stored
    have answered := healthy.answer_foldDay startStored stopStored firstIs lastIs admitted
      validators shape
    rw [sound.dailyKeyed.putRows_of_subset DailyRow.orderedBy_key there] at answered
    exact answered

/-- A day is folded once more where its partition is there. -/
theorem replays_aggregate (healthy : store.Healthy)
    (found : layout.partitionFor .daily (layout.bucketAt .daily head).start =
      .ok (layout.partitionAt .daily head))
    (there : store.tables.hasPartition (layout.partitionAt .daily head).name = true)
    (folded : store.answer (layout.foldCall .daily head) = (.ok rows, store)) :
    (layout.aggregate .daily (layout.bucketAt .daily head)).Replays store (rows, false) := by
  have ensured : (layout.ensurePartitionFor .daily (layout.bucketAt .daily head).start).Replays
      store (layout.partitionAt .daily head, false) :=
    replays_compute_bind found (Replays.bind
      (replays_settle (healthy.answer_ensurePartition there)) (replays_pure _))
  exact ensured.bind (Replays.bind (replays_settle folded) (replays_pure _))

/-- A fold of days that begins on the day of the head does this day only. -/
theorem replays_foldDays (healthy : store.Healthy) {latestHour latestDay : EpochRange}
    (hourIs : store.tables.lastHourly?.map boundsOfStored = some latestHour)
    (dayIs : store.tables.lastDaily?.map boundsOfStored = some latestDay)
    (starts : latestDay.start = (layout.bucketAt .daily latestHour.start).start)
    (bucketIs : layout.bucket .daily latestHour.start =
      .ok (layout.bucketAt .daily latestHour.start)) {closesAt : Nat}
    (closing : layout.closesAt .daily (layout.bucketAt .daily latestHour.start) = .ok closesAt)
    (day : EpochRollup.isClosed (some latestDay) (layout.bucketAt .daily latestHour.start)
        closesAt = true ∨
      ∃ rows < wordLimit,
        (layout.aggregate .daily (layout.bucketAt .daily latestHour.start)).Replays store
          (rows, false)) :
    store.ReplaysOneDay layout := by
  have latest : (storedBounds layout.clock .lastDaily).Replays store (some latestDay) :=
    dayIs ▸ replays_settle (healthy.answer_look .lastDailyBounds (·.lastDaily?.map boundsOfStored)
      rfl)
  have one : layout.bucketsBetween .daily latestDay.start latestHour.start = 1 := by
    unfold BucketLayout.bucketsBetween
    rw [starts, layout.bucketIndex_start]
    omega
  have begins : layout.bucket .daily latestDay.start =
      .ok (layout.bucketAt .daily latestHour.start) := starts ▸ BucketLayout.bucket_start bucketIs
  -- The walk comes to one day.
  have whole {report : FoldReport} (walk : (layout.foldBuckets .daily (some latestDay) 1
      latestDay.start .idle).Replays store report) :
      (layout.foldDays (storedBounds layout.clock)).Replays store report := by
    refine Replays.bind (healthy.replays_lastHourly layout.clock) ?_
    rw [hourIs]
    refine Replays.bind latest (replays_compute_bind bucketIs ?_)
    show (layout.foldBuckets .daily (some latestDay)
      (layout.bucketsBetween .daily latestDay.start latestHour.start) latestDay.start .idle).Replays
        store report
    rwa [one]
  by_cases closed : EpochRollup.isClosed (some latestDay)
    (layout.bucketAt .daily latestHour.start) closesAt
  · refine ⟨{ FoldReport.idle with bucketsSkipped := 1 }, whole ?_, rfl, rfl⟩
    exact BucketLayout.runWith_foldBuckets_skip begins closing closed 0 .idle
  · obtain ⟨rows, few, folded⟩ := day.resolve_left closed
    refine ⟨_, whole (BucketLayout.runWith_foldBuckets_fold begins closing
      (Bool.eq_false_iff.mpr closed) folded 0 ?_), rfl, rfl⟩
    rwa [FoldReport.idle, Nat.zero_add]

end EmbeddedStore.Healthy

end EpochRollup
