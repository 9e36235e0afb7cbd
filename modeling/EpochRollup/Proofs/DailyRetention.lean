/-
This file proves which expired days a pass leaves. The walk of a daily reclaim steps down by
whole days and stops below one day, but the first daily partition is cut at genesis. When
partitions hold a single day and the boundary lies late enough in its day, the last
candidate falls past that short partition, and the rows of the genesis day stay although
they have expired. Every other expired row is gone.
-/

import EpochRollup.Proofs.Pass

namespace EpochRollup

variable {regime : Regime}

namespace BucketLayout

variable {layout : BucketLayout}

/-! ### Where the walk ends -/

theorem lowestCandidate_lt {width : Nat} (positive : 0 < width) (boundary oldest : Nat) :
    lowestCandidate width boundary oldest < max oldest width := by
  unfold lowestCandidate
  split
  · assumption
  · have small := Nat.mod_lt (boundary - max oldest width) positive
    omega

/-- With rows from epoch 0 on, the walk ends at the remainder of the boundary. -/
theorem lowestCandidate_zero (width boundary : Nat) :
    lowestCandidate width boundary 0 = boundary % width := by
  rw [lowestCandidate, Nat.zero_max]
  split
  · rename_i below
    exact (Nat.mod_eq_of_lt below).symm
  · rename_i notBelow
    rw [Nat.add_sub_cancel_left, ← Nat.mod_eq_sub_mod (Nat.le_of_not_lt notBelow)]

/-- A daily partition that ends on the first day holds that day only. -/
theorem short_partition {epoch : Nat}
    (early : (layout.partitionRangeAt .daily epoch).stop < layout.clock.epochsPerDay) :
    layout.dailyPartitionBuckets = 1 ∧
      (layout.partitionRangeAt .daily epoch).stop =
        layout.clock.epochsPerDay - layout.clock.utcOffset := by
  have offset := layout.clock.utcOffset_lt
  have held := layout.dailyPartitionBuckets_pos
  have stop : (layout.partitionRangeAt .daily epoch).stop =
      (epoch + layout.clock.utcOffset) / layout.partitionSpan .daily *
        layout.partitionSpan .daily + layout.partitionSpan .daily - layout.clock.utcOffset := rfl
  have span : layout.partitionSpan .daily =
      layout.clock.epochsPerDay * layout.dailyPartitionBuckets := rfl
  have long : layout.clock.epochsPerDay ≤ layout.partitionSpan .daily :=
    Nat.le_mul_of_pos_right _ held
  rcases Nat.eq_zero_or_pos ((epoch + layout.clock.utcOffset) / layout.partitionSpan .daily)
    with zero | later
  · rw [zero, Nat.zero_mul, Nat.zero_add] at stop
    rcases Nat.lt_or_ge 1 layout.dailyPartitionBuckets with several | single
    · have longer : layout.clock.epochsPerDay * 2 ≤ layout.partitionSpan .daily :=
        Nat.mul_le_mul_left _ several
      omega
    · have one : layout.dailyPartitionBuckets = 1 := by omega
      rw [one, Nat.mul_one] at span
      rw [span] at stop
      exact ⟨one, stop⟩
  · have far : layout.partitionSpan .daily ≤ (epoch + layout.clock.utcOffset) /
        layout.partitionSpan .daily * layout.partitionSpan .daily :=
      Nat.le_mul_of_pos_left _ later
    omega

/-- The partition of a day ends by the boundary and below the walk only when it is the short
partition of the genesis day. -/
theorem stop_le_lowestCandidate_iff {epoch boundary oldest : Nat}
    (notBefore : oldest ≤ (layout.bucketAt .daily epoch).start) :
    ((layout.partitionRangeAt .daily (layout.bucketAt .daily epoch).start).stop ≤ boundary ∧
        (layout.partitionRangeAt .daily (layout.bucketAt .daily epoch).start).stop ≤
          lowestCandidate layout.clock.epochsPerDay boundary oldest) ↔
      layout.dailyPartitionBuckets = 1 ∧ (layout.bucketAt .daily epoch).start = 0 ∧
        layout.clock.epochsPerDay - layout.clock.utcOffset ≤
          boundary % layout.clock.epochsPerDay := by
  have offset := layout.clock.utcOffset_lt
  have positive := layout.clock.epochsPerDay_pos
  constructor
  · rintro ⟨expired, below⟩
    have past : (layout.bucketAt .daily epoch).start <
        (layout.partitionRangeAt .daily (layout.bucketAt .daily epoch).start).stop :=
      EpochRange.lt_stop_aligned (layout.partitionSpan_pos .daily) _
    have lowest := lowestCandidate_lt positive boundary oldest
    have early : (layout.partitionRangeAt .daily (layout.bucketAt .daily epoch).start).stop <
        layout.clock.epochsPerDay := by omega
    -- Only the partition of genesis is that short, and only when it holds one day.
    obtain ⟨single, stop⟩ := short_partition early
    have first : (layout.bucketAt .daily epoch).start = 0 := by
      rcases Nat.eq_zero_or_pos ((epoch + layout.clock.utcOffset) / layout.clock.epochsPerDay)
        with zero | later
      · show (epoch + layout.clock.utcOffset) / layout.clock.epochsPerDay *
          layout.clock.epochsPerDay - layout.clock.utcOffset = 0
        rw [zero, Nat.zero_mul, Nat.zero_sub]
      · have far : layout.clock.epochsPerDay ≤ (epoch + layout.clock.utcOffset) /
            layout.clock.epochsPerDay * layout.clock.epochsPerDay :=
          Nat.le_mul_of_pos_left _ later
        have start : (layout.bucketAt .daily epoch).start = (epoch + layout.clock.utcOffset) /
            layout.clock.epochsPerDay * layout.clock.epochsPerDay - layout.clock.utcOffset := rfl
        omega
    refine ⟨single, first, ?_⟩
    have none : oldest = 0 := by omega
    rw [none, lowestCandidate_zero] at below
    rwa [stop] at below
  · rintro ⟨single, first, late⟩
    have none : oldest = 0 := by omega
    have stop : (layout.partitionRangeAt .daily 0).stop =
        layout.clock.epochsPerDay - layout.clock.utcOffset := by
      show (0 + layout.clock.utcOffset) / (layout.clock.epochsPerDay *
          layout.dailyPartitionBuckets) * (layout.clock.epochsPerDay *
          layout.dailyPartitionBuckets) + layout.clock.epochsPerDay *
          layout.dailyPartitionBuckets - layout.clock.utcOffset = _
      rw [single, Nat.mul_one, Nat.zero_add, Nat.div_eq_of_lt offset, Nat.zero_mul, Nat.zero_add]
    rw [first, stop, none, lowestCandidate_zero]
    exact ⟨Nat.le_trans late (Nat.mod_le _ _), late⟩

end BucketLayout

/-! ### The rows that stay -/

/-- The rows of expired days are those of a genesis day that the walk cannot reach. -/
def Tables.ReclaimsDays (tables : Tables) (layout : BucketLayout) (boundary : Nat) : Prop :=
  ∀ row ∈ tables.daily, (layout.partitionRangeAt .daily row.start.toNat).stop ≤ boundary ↔
    layout.dailyPartitionBuckets = 1 ∧ row.start = 0 ∧
      layout.clock.epochsPerDay - layout.clock.utcOffset ≤ boundary % layout.clock.epochsPerDay

/-- Where every partition that the walk reaches is gone, only unreachable rows have expired. -/
theorem Tables.Sound.reclaimsDays {layout : BucketLayout} {tables : Tables}
    (years : layout.clock.FromYearZero) (sound : tables.Sound layout) {boundary oldest : Nat}
    (notBefore : ∀ row ∈ tables.daily, (oldest : Int) ≤ row.start)
    (cleared : layout.Cleared .daily boundary
      (BucketLayout.lowestCandidate layout.clock.epochsPerDay boundary oldest) tables) :
    tables.ReclaimsDays layout boundary := by
  intro row member
  obtain ⟨epoch, start, day, beforeLast⟩ := sound.covered years member
  have older := notBefore row member
  rw [start] at older ⊢
  rw [Int.toNat_natCast, Int.natCast_eq_zero,
    ← BucketLayout.stop_le_lowestCandidate_iff (Int.ofNat_le.mp older)]
  refine ⟨fun expired => ⟨expired, Nat.le_of_not_lt fun reached => ?_⟩, fun both => both.1⟩
  have lacks := cleared _ reached expired
  refine Tables.Lacks.not_covers_day lacks member ?_
  rw [day] at beforeLast ⊢
  exact (BucketLayout.covers_dayOf_iff years beforeLast).mpr
    ⟨EpochRange.start_aligned_le (layout.partitionSpan_pos .daily) _,
      EpochRange.lt_stop_aligned (layout.partitionSpan_pos .daily) _⟩

theorem keeps_reclaimExpired_daily {layout : BucketLayout} (layoutIs : regime.layout = layout)
    (years : layout.clock.FromYearZero) (boundary oldest head : Nat) :
    (layout.reclaimExpired .daily boundary oldest).Keeps regime (fun _ => True)
      (fun log => (log.now.Sound layout ∧ log.now.head? = some head) ∧
        log.now.oldest? .daily = some oldest)
      fun _ log => log.now.ReclaimsDays layout boundary ∧ log.now.head? = some head := by
  subst layoutIs
  have others : (regime.layout.reclaimExpired .daily boundary oldest).Keeps regime
      (fun log => log.now.Sound regime.layout ∧ log.now.head? = some head ∧
        ∀ row ∈ log.now.daily, (oldest : Int) ≤ row.start)
      (fun log => log.now.Sound regime.layout ∧ log.now.head? = some head ∧
        ∀ row ∈ log.now.daily, (oldest : Int) ≤ row.start)
      fun _ log => log.now.Sound regime.layout ∧ log.now.head? = some head ∧
        ∀ row ∈ log.now.daily, (oldest : Int) ≤ row.start := by
    refine (BucketLayout.asks_reclaimFrom boundary oldest boundary [] 0).keeps
      (regime.stable_sound.and (regime.stable_besidesEpochs fun hourly daily _ =>
        (hourly.map (·.start)).max?.map epochOfStored = some head ∧
          ∀ row ∈ daily, (oldest : Int) ≤ row.start)) ?_
    intro call expires log answer after held given
    cases expires with
    | drop epoch _ _ =>
      rw [Chronicle.now_record]
      refine ⟨held.1.issued (.reclaim (.drop epoch)) given, ?_⟩
      rw [given.dropPartition.2]
      exact ⟨held.2.1, fun row member => held.2.2 row (Tables.mem_daily_drop.mp member).1⟩
  refine ((BucketLayout.keeps_reclaimExpired boundary oldest).and others).weaken
    (fun _ _ => trivial) (fun log held => ⟨trivial, held.1.1, held.1.2, ?_⟩)
    fun _ log held => ⟨held.2.1.reclaimsDays years held.2.2.2 held.1, held.2.2.1⟩
  obtain ⟨first, firstIs, oldestIs⟩ := Option.map_eq_some_iff.mp held.2
  intro row member
  have least := (List.min?_eq_some_iff.mp firstIs).2 row.start
    (List.mem_map.mpr ⟨row, member, rfl⟩)
  obtain ⟨other, otherMember, otherStart⟩ := List.mem_map.mp (List.min?_mem firstIs)
  obtain ⟨-, epoch, start, -⟩ := held.1.1.days other otherMember
  unfold epochOfStored at oldestIs
  omega

/-- A pass that comes back leaves expired days only where the walk cannot reach them. -/
theorem keeps_runPass_daily (years : regime.layout.clock.FromYearZero)
    {retention : RetentionPolicy} {horizon : Nat} (horizonIs : retention.daily = some horizon) :
    (Coordinator.ofStore regime.layout retention).runPass.Keeps regime (fun _ => True)
      (fun log => log.now.Sound regime.layout)
      fun _ log => ∀ head, log.now.head? = some head → horizon ≤ head →
        log.now.ReclaimsDays regime.layout (head - horizon) := by
  have sound {Result : Type} {procedure : Procedure Result} {allowed : StoreCall → Prop}
      (asks : procedure.Asks allowed) (issued : ∀ call, allowed call → regime.layout.Issues call) :
      procedure.Keeps regime (fun _ => True) (fun log => log.now.Sound regime.layout)
        fun _ log => log.now.Sound regime.layout :=
    (asks.keeps regime.stable_sound fun call permitted =>
      Tables.Sound.record (issued call permitted)).weaken (fun _ _ => trivial) (fun _ => id)
      fun _ _ => id
  refine Coordinator.keeps_runPass
    (sound (asks_refreshWindow regime.layout.clock) fun _ refreshes => .refresh refreshes)
    (sound BucketLayout.asks_foldDays fun _ folds => .fold folds)
    (sound (Coordinator.asks_reclaim .hourly) fun _ reclaims => .reclaim reclaims)
    (Coordinator.keeps_reclaim .daily regime.stable_sound (fun _ _ => trivial) ?_ ?_)
  · intro log _ idle head headIs old row member
    have none := idle horizon head horizonIs headIs old
    rw [Tables.oldest?, Option.map_eq_none_iff, List.min?_eq_none_iff, List.map_eq_nil_iff] at none
    rw [none] at member
    cases member
  · intro other head oldest otherIs _
    rw [show retention.horizon .daily = some horizon from horizonIs] at otherIs
    cases otherIs
    refine (keeps_reclaimExpired_daily rfl years (head - horizon) oldest head).weaken
      (fun _ => id) (fun _ => id) fun _ log held found foundIs _ => ?_
    rw [held.2] at foundIs
    cases foundIs
    exact held.1

/-- After a pass that comes back, the partition of a stored day has expired exactly when
partitions hold single days, the day is the one of genesis, and the boundary lies so late in
its day that the walk steps over the part of a day that the chain began with. -/
theorem expired_daily_row_iff (years : regime.layout.clock.FromYearZero)
    {retention : RetentionPolicy} {before after : Chronicle} {report : PassReport}
    (runs : Runs regime .start before)
    (pass : (Coordinator.ofStore regime.layout retention).runPass.Ends regime before (.ok report)
      after) {head horizon : Nat} (headIs : after.now.head? = some head)
    (horizonIs : retention.daily = some horizon) (old : horizon ≤ head) {row : DailyRow}
    (member : row ∈ after.now.daily) :
    (regime.layout.partitionRangeAt .daily row.start.toNat).stop ≤ head - horizon ↔
      regime.layout.dailyPartitionBuckets = 1 ∧ row.start = 0 ∧
        regime.layout.clock.epochsPerDay - regime.layout.clock.utcOffset ≤
          (head - horizon) % regime.layout.clock.epochsPerDay :=
  keeps_runPass_daily years horizonIs runs.sound pass head headIs old row member

/-! ### A stranded genesis day -/

/-- Any rows arrive in any order, whatever the retention is. -/
def Regime.free (layout : BucketLayout) : Regime where
  layout := layout
  retains := fun _ => True
  supplies := fun _ _ => True

namespace StrandedDay

/-- A chain that begins at eight in the morning of 2024-01-01, with three epochs to a day. -/
def layout : BucketLayout :=
  .ofNumbers ⟨1704096000, 0⟩ 28800 1 1 24 1 (by decide)

/-- Days are kept for one epoch. -/
def retention : RetentionPolicy := ⟨100, some 1⟩

/-- A validator is seen in epoch 0, on the genesis day, and in epoch 3, on the day after. -/
def party : EmbeddedStore × Chronicle :=
  Act.playAll layout retention
    [.supply [⟨0, 7, .none⟩], .fold, .pass, .supply [⟨3, 7, .none⟩], .fold] (.fresh, .start)

theorem runs_party : Runs (.free layout) .start party.2 ∧ party.2.now = party.1.tables :=
  Act.runs_playAll trivial .none rfl ⟨trivial, trivial, trivial⟩

/-- What the last pass reports. -/
def report : PassReport where
  rolling := ⟨some ⟨3, 4⟩, 1⟩
  daily := ⟨2, 0, 2, 1, some ⟨2, 5⟩⟩
  hourlyDropped := 0
  dailyDropped := 0

/-- The outcome of the last pass, and the store after it. -/
def passing : Except Failure PassReport × EmbeddedStore × Chronicle :=
  (Coordinator.ofStore layout retention).runPass.runOn party.1 party.2

/-- The row of the genesis day. -/
def row : DailyRow := ⟨⟨19723⟩, 0, 1, 7, .none⟩

/-- Where the tables stand after the last pass, and how it ends. -/
theorem evaluated :
    passing.1 = .ok report ∧
      passing.2.2.now.head? = some 3 ∧ row ∈ passing.2.2.now.daily := by
  decide +kernel

theorem pass_ends :
    (Coordinator.ofStore layout retention).runPass.Ends (.free layout) party.2
      (.ok report) passing.2.2 := by
  have outcome := evaluated.1
  unfold passing at outcome ⊢
  exact Procedure.ends_runOn _ runs_party.2 outcome

end StrandedDay

/-- The genesis day has expired and the walk stepped over it. -/
theorem expired_daily_row_stranded :
    (StrandedDay.layout.partitionRangeAt .daily 0).stop ≤ 3 - 1 ↔
      StrandedDay.layout.dailyPartitionBuckets = 1 ∧ StrandedDay.row.start = 0 ∧
        StrandedDay.layout.clock.epochsPerDay - StrandedDay.layout.clock.utcOffset ≤
          (3 - 1) % StrandedDay.layout.clock.epochsPerDay :=
  expired_daily_row_iff (by show (0 : Int) ≤ _; decide) StrandedDay.runs_party.1
    StrandedDay.pass_ends StrandedDay.evaluated.2.1 rfl (by decide) StrandedDay.evaluated.2.2

/-- The row of the genesis day is still there after a pass that came back, although its
partition ended at the boundary. -/
theorem exists_expired_daily_row_after_pass :
    ∃ (before after : Chronicle) (report : PassReport) (head : Nat) (row : DailyRow),
      StrandedDay.layout.clock.FromYearZero ∧
      Runs (.free StrandedDay.layout) .start before ∧
      (Coordinator.ofStore StrandedDay.layout StrandedDay.retention).runPass.Ends
        (.free StrandedDay.layout) before (.ok report) after ∧
      after.now.head? = some head ∧ 1 ≤ head ∧ row ∈ after.now.daily ∧
      (StrandedDay.layout.partitionRangeAt .daily row.start.toNat).stop ≤ head - 1 :=
  ⟨StrandedDay.party.2, StrandedDay.passing.2.2, StrandedDay.report, 3, StrandedDay.row,
    by show (0 : Int) ≤ _; decide, StrandedDay.runs_party.1, StrandedDay.pass_ends,
    StrandedDay.evaluated.2.1, by decide, StrandedDay.evaluated.2.2, by decide⟩

end EpochRollup
