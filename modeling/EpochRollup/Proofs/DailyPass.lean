/-
This file follows a pass through the daily table. The fold leaves every day done up to the day of
the hourly head (`UpToHead`). Dropping hours keeps that when hours are kept for a day at least,
because what is dropped ends before the day of the head. Dropping days keeps it too, since the
written dates are in order: a partition that is dropped takes no rows but its own.
-/

import EpochRollup.Proofs.DailyFold
import EpochRollup.Proofs.HourlyRows

namespace EpochRollup

section

variable {regime : Regime} {layout : BucketLayout} {log : Chronicle} {head : Nat}

/-! ### Steps that leave the days alone -/

/-- What leaves hours and days alone leaves the invariant. -/
theorem Rolled.of_same (folded : FoldedWith layout (Rolled layout) log) {after : Tables}
    (sameHours : log.now.SameHours after) (sameDays : log.now.SameDays after)
    (epochs : after.epochs = log.now.epochs) (sound : after.Sound layout) :
    FoldedWith layout (Rolled layout) (log.record after) := by
  obtain ⟨hours, frontier⟩ := folded.1.hours_of_sameHours sameHours
  refine ⟨folded.1.of_sameHours sameHours epochs sound,
    (HoursMove.of_hours folded.1 sameDays hours frontier ?_).rolled folded.2⟩
  rw [sameHours.1]
  exact fun _ _ member _ => member

/-- The days stay caught up while they, the hours and the head stay. -/
theorem CaughtUp.of_sameDays (caught : CaughtUp layout head log) {after : Tables}
    (same : log.now.SameDays after) (hours : (log.record after).hours = log.hours)
    (headIs : after.head? = some head) : CaughtUp layout head (log.record after) := by
  refine ⟨?_, fun epoch begun upTo => ?_, ?_⟩
  · rw [Chronicle.now_record]
    exact headIs
  · exact (caught.days epoch (begun.of_same same.1) upTo).of_sameDays same (by rw [hours])
  · rw [Chronicle.now_record, same.1]
    exact caught.level

theorem Regime.Orderly.stable_upToHead (orderly : regime.Orderly (-1)) :
    regime.Stable (UpToHead layout) := by
  intro log rows after held allowed given
  have folded := (Rolled.carries orderly).stable log rows after held.1 allowed given
  obtain ⟨stored, -, rfl⟩ := given.upsertEpochs
  obtain ⟨hours, -⟩ := held.1.1.hours_of_sameHours
    (⟨rfl, fun _ => Iff.rfl⟩ : log.now.SameHours
      { log.now with epochs := putRows EpochRow.before stored log.now.epochs })
  refine ⟨folded, fun head headIs => ?_⟩
  rw [Chronicle.now_record] at headIs
  exact (held.2 head headIs).of_sameDays ⟨rfl, fun _ _ => Iff.rfl⟩ hours headIs

/-! ### The reclaim of hours -/

/-- Hours that end a day before the head may be dropped. -/
theorem UpToHead.dropHours (held : UpToHead layout log) (headIs : log.now.head? = some head)
    {epoch : Nat} (expired : (layout.partitionRangeAt .hourly epoch).stop +
      layout.clock.epochsPerDay ≤ head) :
    UpToHead layout (log.record (log.now.drop (layout.partitionAt .hourly epoch))) ∧
      (log.now.drop (layout.partitionAt .hourly epoch)).head? = some head := by
  have folded := held.1.1
  have caught := held.2 head headIs
  obtain ⟨hour, member, hourStart, -⟩ := exists_head folded headIs
  obtain ⟨start, found, starts, -⟩ := folded.latest (List.ne_nil_of_mem member)
  have positive := starts.nonneg
  have startIs := (Tables.lastHourly?_eq_some.mp found).1
  have same : epochOfStored start = head := by
    rw [Tables.head?, startIs] at headIs
    exact Option.some.inj headIs
  have apart : ((layout.partitionRangeAt .hourly epoch).stop : Int) ≤ start := by
    unfold epochOfStored at same
    omega
  have kept : (log.now.drop (layout.partitionAt .hourly epoch)).lastHourly? =
      some (start, log.now.frontier) := Tables.lastHourly?_drop found apart
  have keptHead : (log.now.drop (layout.partitionAt .hourly epoch)).head? = some head := by
    rw [Tables.head?, (Tables.lastHourly?_eq_some.mp kept).1, ← same]
    rfl
  have frontier : (log.now.drop (layout.partitionAt .hourly epoch)).frontier =
      log.now.frontier := Tables.frontier_of_some kept
  have sameDays := log.now.sameDays_drop layout epoch
  have later := folded.drop found apart
  have hours : (log.record (log.now.drop (layout.partitionAt .hourly epoch))).hours =
      log.hours := by
    refine (Chronicle.keyed_hours _).ext log.keyed_hours fun row => ?_
    rw [later.archive, folded.archive, Chronicle.now_record, frontier, Tables.epochs_drop]
  refine ⟨⟨⟨later, (HoursMove.of_hours folded sameDays hours frontier ?_).rolled held.1.2⟩,
    fun other otherIs => ?_⟩, keptHead⟩
  · intro _ row rowMember behind
    obtain ⟨day, dayMember, dayStart⟩ := caught.level
    have after := behind day dayMember
    -- The day of the head starts less than a day before it.
    have near : head < (layout.bucketAt .daily head).stop :=
      EpochRange.lt_stop_aligned (layout.width_pos .daily) head
    have short : (layout.bucketAt .daily head).stop ≤
        (layout.bucketAt .daily head).start + layout.clock.epochsPerDay :=
      EpochRange.stop_aligned_le head
    exact Tables.mem_hourly_drop.mpr ⟨rowMember, fun inside => by omega⟩
  · rw [Chronicle.now_record, keptHead] at otherIs
    cases otherIs
    exact caught.of_sameDays sameDays hours keptHead

/-! ### The reclaim of days -/

/-- A daily partition is dropped that ends by the head. -/
structure DropsDay (layout : BucketLayout) (log : Chronicle) (head epoch : Nat) : Prop where
  /-- The written dates are in order. -/
  years : layout.clock.FromYearZero
  /-- What holds before. -/
  held : UpToHead layout log
  /-- The head. -/
  headIs : log.now.head? = some head
  /-- The partition ends by it. -/
  expired : (layout.partitionRangeAt .daily epoch).stop ≤ head

namespace DropsDay

variable {epoch : Nat} (drops : DropsDay layout log head epoch)

include drops

/-- The rows that stay are those of other partitions. -/
theorem mem_drop_iff (row : DailyRow) :
    row ∈ (log.now.drop (layout.partitionAt .daily epoch)).daily ↔
      row ∈ log.now.daily ∧
        layout.partitionAt .daily row.start.toNat ≠ layout.partitionAt .daily epoch := by
  have read : row ∈ (log.now.drop (layout.partitionAt .daily epoch)).daily ↔ _ :=
    Tables.mem_daily_drop
  rw [read]
  refine and_congr_right fun member => not_congr ?_
  obtain ⟨other, start, day, beforeLast⟩ := drops.held.1.1.sound.covered drops.years member
  rw [day] at beforeLast ⊢
  rw [start, Int.toNat_natCast, layout.partitionAt_eq_iff]
  exact BucketLayout.covers_dayOf_iff drops.years beforeLast

/-- The rows of the day of the head stay. -/
theorem exists_level : ∃ row ∈ (log.now.drop (layout.partitionAt .daily epoch)).daily,
    row.start = (layout.bucketAt .daily head).start ∧ row ∈ log.now.daily := by
  obtain ⟨row, member, start⟩ := (drops.held.2 head drops.headIs).level
  refine ⟨row, (drops.mem_drop_iff row).mpr ⟨member, fun same => ?_⟩, start, member⟩
  rw [start, Int.toNat_natCast, layout.partitionAt_start] at same
  have inside := (layout.partitionAt_eq_iff.mp same).2
  have expired := drops.expired
  omega

/-- A day that is done stays done. -/
theorem done {other : Nat} (done : DayDone layout log other) :
    DayDone layout (log.record (log.now.drop (layout.partitionAt .daily epoch))) other := by
  obtain ⟨hours, -⟩ := drops.held.1.1.hours_of_sameHours (log.now.sameHours_drop layout epoch)
  refine ⟨Chronicle.ever_record.mpr (Or.inr done.listed), fun present => ?_⟩
  rw [Chronicle.now_record] at present
  obtain ⟨old, apart⟩ := Tables.hasPartition_drop_iff.mp present
  obtain ⟨rows, complete⟩ := done.held old
  refine ⟨?_, ?_⟩ <;> rw [Chronicle.now_record, hours]
  · exact fun row member => rows row ((drops.mem_drop_iff row).mp member).1
  · intro hour member
    obtain ⟨row, rowMember, start, validator⟩ := complete hour member
    refine ⟨row, (drops.mem_drop_iff row).mpr ⟨rowMember, fun same => apart ?_⟩, start, validator⟩
    rw [← same, start, Int.toNat_natCast, layout.partitionAt_start]

theorem begun {other : Nat}
    (begun : (log.record (log.now.drop (layout.partitionAt .daily epoch))).Begun other) :
    log.Begun other :=
  begun.of_record fun row member _ => ((drops.mem_drop_iff row).mp member).1

/-- A partition of that name is the one that is dropped. -/
theorem eq_of_name {other : Nat}
    (same : (layout.partitionAt .daily other).name = (layout.partitionAt .daily epoch).name) :
    layout.partitionAt .daily other = layout.partitionAt .daily epoch := by
  refine BucketLayout.partitionAt_daily_eq_of_name ?_ same
  -- The day of the head has rows, so it is not the last one of the calendar.
  obtain ⟨row, -, start, member⟩ := drops.exists_level
  obtain ⟨day, rowStart, date, beforeLast⟩ :=
    drops.held.1.1.sound.covered drops.years member
  have ordered := BucketLayout.stop_partition_le_start drops.expired
  have same : (layout.bucketAt .daily day).start = (layout.bucketAt .daily head).start := by
    omega
  rw [date, same] at beforeLast
  have here := layout.clock.number_dayOf (layout.partitionRangeAt .daily epoch).stop
  have there := layout.clock.number_dayOf (layout.bucketAt .daily head).start
  have days : layout.clock.dayIndex (layout.partitionRangeAt .daily epoch).stop ≤
      layout.clock.dayIndex (layout.bucketAt .daily head).start :=
    Nat.div_le_div_right (Nat.add_le_add_right ordered _)
  omega

/-- The invariant holds after the drop. -/
theorem rolled : FoldedWith layout (Rolled layout)
    (log.record (log.now.drop (layout.partitionAt .daily epoch))) := by
  have sameHours := log.now.sameHours_drop layout epoch
  have folded := drops.held.1.1
  have rolled := drops.held.1.2
  obtain ⟨hours, frontier⟩ := folded.hours_of_sameHours sameHours
  obtain ⟨level, levelMember, levelStart, -⟩ := drops.exists_level
  have subset {row : DailyRow}
      (member : row ∈ (log.now.drop (layout.partitionAt .daily epoch)).daily) :
      row ∈ log.now.daily := ((drops.mem_drop_iff row).mp member).1
  refine ⟨folded.of_sameHours sameHours (Tables.epochs_drop _ _) (folded.sound.drop _),
    { kept := ?kept, behind := ?behind, covered := ?covered, begun := ?begun, gone := ?gone
      done := ?done }⟩ <;>
    rw [Chronicle.now_record]
  case kept =>
    rw [hours]
    intro hour member later
    refine rolled.kept hour member fun row rowMember => ?_
    have after := later level levelMember
    have upTo := rolled.start_le_head folded drops.headIs rowMember
    have day := folded.sound.start_bucketAt rowMember
    have ordered : (layout.bucketAt .daily row.start.toNat).start ≤
        (layout.bucketAt .daily head).start :=
      EpochRange.start_aligned_mono (layout.width_pos .daily) (by omega)
    omega
  case behind =>
    rw [hours]
    exact fun row member => rolled.behind row (subset member)
  case covered =>
    rw [frontier]
    exact fun row member => rolled.covered row (subset member)
  case begun => exact fun _ => List.ne_nil_of_mem levelMember
  case gone =>
    intro other ever missing
    have earlier := Chronicle.ever_hasPartition_of_missing ever missing
    by_cases same : (layout.partitionAt .daily other).name =
      (layout.partitionAt .daily epoch).name
    · have ranges := congrArg Partition.range (drops.eq_of_name same)
      rw [BucketLayout.range_partitionAt, BucketLayout.range_partitionAt] at ranges
      have ordered := BucketLayout.stop_partition_le_start drops.expired
      rw [ranges]
      exact ⟨level, levelMember, by omega⟩
    · have old : log.now.hasPartition (layout.partitionAt .daily other).name = false := by
        rw [← Bool.not_eq_true] at missing ⊢
        exact fun present => missing (Tables.hasPartition_drop_iff.mpr ⟨present, same⟩)
      obtain ⟨row, member, stop⟩ := rolled.gone other earlier old
      have upTo := rolled.start_le_head folded drops.headIs member
      have ordered : (layout.partitionRangeAt .daily other).stop ≤
          (layout.bucketAt .daily head).start :=
        BucketLayout.stop_partition_le_start (by omega)
      exact ⟨level, levelMember, by omega⟩
  case done =>
    rintro other begun ⟨row, member, passes⟩
    exact drops.done (rolled.done other (drops.begun begun) ⟨row, subset member, passes⟩)

theorem upToHead :
    UpToHead layout (log.record (log.now.drop (layout.partitionAt .daily epoch))) := by
  refine ⟨drops.rolled, fun other otherIs => ?_⟩
  have kept : (log.now.drop (layout.partitionAt .daily epoch)).head? = some head := drops.headIs
  rw [Chronicle.now_record, kept] at otherIs
  cases otherIs
  obtain ⟨level, levelMember, levelStart, -⟩ := drops.exists_level
  refine ⟨?_, fun day begun upTo => ?_, ?_⟩
  · rw [Chronicle.now_record]
    exact kept
  · exact drops.done ((drops.held.2 head drops.headIs).days day (drops.begun begun) upTo)
  · rw [Chronicle.now_record]
    exact ⟨level, levelMember, levelStart⟩

end DropsDay

/-! ### A pass -/

/-- A walk keeps what the drops of expired partitions keep. -/
theorem keeps_reclaimExpired_upToHead (orderly : regime.Orderly (-1)) {granularity : Granularity}
    {boundary oldest : Nat}
    (drop : ∀ log epoch, UpToHead layout log → log.now.head? = some head →
      (layout.partitionRangeAt granularity epoch).stop ≤ boundary →
        UpToHead layout (log.record (log.now.drop (layout.partitionAt granularity epoch))) ∧
          (log.now.drop (layout.partitionAt granularity epoch)).head? = some head) :
    (layout.reclaimExpired granularity boundary oldest).Keeps regime
      (FoldedWith layout (Rolled layout))
      (fun log => UpToHead layout log ∧ log.now.head? = some head) fun _ => UpToHead layout := by
  refine ((BucketLayout.asks_reclaimFrom boundary oldest boundary [] 0).keeps
    (orderly.stable_upToHead.and (regime.stable_besidesEpochs fun hourly _ _ =>
      (hourly.map (·.start)).max?.map epochOfStored = some head)) ?_).weaken
    (fun log held => held.1.1) (fun _ => id) fun _ log held => held.1
  intro call expires log answer after held given
  cases expires with
  | drop epoch _ expired =>
    have dropped := drop log epoch held.1 held.2 expired
    rw [given.dropPartition.2]
    refine ⟨dropped.1, ?_⟩
    rw [Chronicle.now_record]
    exact dropped.2

/-- A pass keeps the invariant when hours are kept for a day at least, and one that comes back
leaves the days caught up with the head. -/
theorem keeps_runPass_upToHead (years : layout.clock.FromYearZero) (orderly : regime.Orderly (-1))
    {retention : RetentionPolicy} (long : layout.clock.epochsPerDay ≤ retention.hourly) :
    (Coordinator.ofStore layout retention).runPass.Keeps regime (FoldedWith layout (Rolled layout))
      (FoldedWith layout (Rolled layout)) fun _ => UpToHead layout := by
  have stable : regime.Stable (FoldedWith layout (Rolled layout)) := (Rolled.carries orderly).stable
  refine Coordinator.keeps_runPass
    ((asks_refreshWindow layout.clock).keeps stable
      fun call refreshes log answer after held given => ?_)
    (keeps_foldDays years orderly)
    (Coordinator.keeps_reclaim .hourly orderly.stable_upToHead (fun log held => held.1)
      (fun log held _ => held) fun horizon head oldest horizonIs old => ?_)
    (Coordinator.keeps_reclaim .daily orderly.stable_upToHead (fun log held => held.1)
      (fun log held _ => held) fun horizon head oldest _ old => ?_)
  · have issues : layout.Issues call := .refresh refreshes
    exact Rolled.of_same held (given.sameHours_of_refreshes refreshes)
      (given.sameDays_of_refreshes refreshes) (given.epochs_of_issues issues)
      (held.1.sound.issued issues given)
  · cases horizonIs
    refine (keeps_reclaimExpired_upToHead orderly fun log epoch held headIs expired => ?_).weaken
      (fun _ => id) (fun log held => held.1) fun _ _ => id
    exact held.dropHours headIs (by omega)
  · refine (keeps_reclaimExpired_upToHead orderly fun log epoch held headIs expired => ?_).weaken
      (fun _ => id) (fun log held => held.1) fun _ _ => id
    have drops : DropsDay layout log head epoch := ⟨years, held, headIs, by omega⟩
    exact ⟨drops.upToHead, headIs⟩

end

end EpochRollup
