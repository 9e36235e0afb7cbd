/-
This file proves what a pass leaves of the expired hourly partitions. The walk of a reclaim
ends below the oldest hour that still has rows. A partition that was made for an hour
without rows can lie below that, and then no later walk gets there: the rows above it are
the oldest ones, and the oldest row only moves up. So an expired partition stays exactly
when it lies below the lowest candidate of the walk.
-/

import EpochRollup.Proofs.Pass

namespace EpochRollup

variable {regime : Regime}

/-- What is said of hourly rows and partitions is kept by a procedure that leaves them alone. -/
theorem keeps_of_sameHours {Result : Type} {procedure : Procedure Result}
    {allowed : StoreCall → Prop} {holds : Tables → Prop} (asks : procedure.Asks allowed)
    (same : ∀ call, allowed call → ∀ tables answer after, Given tables call answer after →
      tables.SameHours after)
    (reads : ∀ tables after, tables.SameHours after → holds tables → holds after) :
    procedure.Keeps regime (fun _ => True) (fun log => holds log.now)
      fun _ log => holds log.now := by
  have kept : procedure.Keeps regime (fun log => holds log.now) (fun log => holds log.now)
      fun _ log => holds log.now := by
    refine asks.keeps ?_ ?_
    · intro log rows after held _ given
      obtain ⟨stored, -, rfl⟩ := given.upsertEpochs
      rw [Chronicle.now_record]
      exact reads log.now _ ⟨rfl, fun _ => Iff.rfl⟩ held
    · intro call permitted log answer after held given
      rw [Chronicle.now_record]
      exact reads _ _ (same call permitted _ _ _ given) held
  exact kept.weaken (fun _ _ => trivial) (fun _ => id) fun _ _ => id

/-- Tables whose hourly partitions are those of others less the ones that a walk reaches. -/
def Tables.ReclaimsHours (tables : Tables) (layout : BucketLayout) (past boundary : Nat)
    (after : Tables) : Prop :=
  ∀ epoch, .hourly (layout.partitionRangeAt .hourly epoch) ∈ after.catalogue ↔
    .hourly (layout.partitionRangeAt .hourly epoch) ∈ tables.catalogue ∧
      ¬(past < (layout.partitionRangeAt .hourly epoch).stop ∧
        (layout.partitionRangeAt .hourly epoch).stop ≤ boundary)

/-- The walk over hourly partitions takes those that it reaches and no other. -/
theorem keeps_reclaimExpired_hourly {layout : BucketLayout} {tables : Tables}
    (boundary oldest : Nat) :
    (layout.reclaimExpired .hourly boundary oldest).Keeps regime (fun _ => True)
      (fun log => tables.SameHours log.now)
      fun _ log => tables.ReclaimsHours layout
        (BucketLayout.lowestCandidate layout.hourlyWidth boundary oldest) boundary log.now := by
  let past := BucketLayout.lowestCandidate layout.hourlyWidth boundary oldest
  -- A partition that is not reached is not among those that are dropped.
  have spared : (layout.reclaimExpired .hourly boundary oldest).Keeps regime
      (fun log => ∀ range : EpochRange, ¬(past < range.stop ∧ range.stop ≤ boundary) →
        (.hourly range ∈ log.now.catalogue ↔ .hourly range ∈ tables.catalogue)) _ fun _ log => _ :=
    (BucketLayout.asks_reclaimFrom boundary oldest boundary [] 0).keeps
      (regime.stable_besidesEpochs fun _ _ catalogue => ∀ range : EpochRange,
        ¬(past < range.stop ∧ range.stop ≤ boundary) →
          (.hourly range ∈ catalogue ↔ .hourly range ∈ tables.catalogue))
      fun call expires log answer after held given range outside => by
        cases expires with
        | drop epoch reached expired =>
          rw [Chronicle.now_record, given.dropPartition.2, Tables.mem_catalogue_drop,
            held range outside]
          refine and_iff_left fun sameName => outside ?_
          rw [Partition.hourly_name_inj.mp sameName]
          exact ⟨reached, expired⟩
  refine ((BucketLayout.keeps_reclaimExpired boundary oldest).and spared).weaken
    (fun _ _ => trivial) (fun log same => ⟨trivial, fun range _ => same.2 range⟩) ?_
  intro result log held epoch
  by_cases reached : past < (layout.partitionRangeAt .hourly epoch).stop ∧
    (layout.partitionRangeAt .hourly epoch).stop ≤ boundary
  · exact iff_of_false (held.1 epoch reached.1 reached.2).not_mem fun left => left.2 reached
  · rw [held.2 _ reached]
    exact (and_iff_left reached).symm

/-- A pass that comes back takes exactly the hourly partitions that its walk reaches. -/
theorem keeps_runPass_hourly {layout : BucketLayout} {retention : RetentionPolicy}
    {tables : Tables} {head oldest : Nat} (headIs : tables.head? = some head)
    (oldestIs : tables.oldest? .hourly = some oldest) (old : retention.hourly ≤ head) :
    (Coordinator.ofStore layout retention).runPass.Keeps regime (fun _ => True)
      (fun log => tables.SameHours log.now)
      fun _ log => tables.ReclaimsHours layout
        (BucketLayout.lowestCandidate layout.hourlyWidth (head - retention.hourly) oldest)
        (head - retention.hourly) log.now := by
  have reads (first second : Tables) (same : first.SameHours second)
      (held : tables.SameHours first) : tables.SameHours second := held.trans same
  have headSame {log : Chronicle} (same : tables.SameHours log.now) :
      log.now.head? = some head := by
    rw [Tables.head?, same.1]
    exact headIs
  have oldestSame {log : Chronicle} (same : tables.SameHours log.now) :
      log.now.oldest? .hourly = some oldest := by
    rw [Tables.oldest?, same.1]
    exact oldestIs
  refine Coordinator.keeps_runPass
    (keeps_of_sameHours (asks_refreshWindow layout.clock)
      (fun _ refreshes _ _ _ given => given.sameHours_of_refreshes refreshes) reads)
    (keeps_of_sameHours BucketLayout.asks_foldDays
      (fun _ folds _ _ _ given => given.sameHours_of_folds folds) reads)
    (Coordinator.keeps_reclaim .hourly ?_ (fun _ _ => trivial) ?_ ?_)
    (keeps_of_sameHours (Coordinator.asks_reclaim .daily)
      (fun _ reclaims _ _ _ given => given.sameHours_of_reclaims reclaims) ?_)
  · exact regime.stable_besidesEpochs fun hourly _ catalogue => hourly = tables.hourly ∧
      ∀ range, .hourly range ∈ catalogue ↔ .hourly range ∈ tables.catalogue
  · intro log same busy
    have none := busy retention.hourly head rfl (headSame same) old
    rw [oldestSame same] at none
    cases none
  · intro horizon other found horizonIs _ 
    cases horizonIs
    intro log outcome final held ends
    obtain ⟨⟨same, otherIs⟩, foundIs⟩ := held
    rw [headSame same] at otherIs
    rw [oldestSame same] at foundIs
    cases otherIs
    cases foundIs
    exact keeps_reclaimExpired_hourly _ _ same ends
  · intro first second same held epoch
    rw [same.2, held epoch]

/-- After a pass that comes back, an expired hourly partition is in the catalogue exactly when
it was there before and lies below the lowest candidate of the walk. -/
theorem expired_hourly_mem_catalogue_iff {retention : RetentionPolicy} {before after : Chronicle}
    {report : PassReport} (runs : Runs regime .start before)
    (pass : (Coordinator.ofStore regime.layout retention).runPass.Ends regime before (.ok report)
      after) {head oldest : Nat} (headIs : before.now.head? = some head)
    (oldestIs : before.now.oldest? .hourly = some oldest) (old : retention.hourly ≤ head)
    {range : EpochRange} (expired : range.stop ≤ head - retention.hourly) :
    .hourly range ∈ after.now.catalogue ↔
      .hourly range ∈ before.now.catalogue ∧
        range.stop ≤ BucketLayout.lowestCandidate regime.layout.hourlyWidth
          (head - retention.hourly) oldest := by
  have reclaimed := keeps_runPass_hourly headIs oldestIs old ⟨rfl, fun _ => Iff.rfl⟩ pass
  have sound := runs.sound
  -- Only partitions of the layout are in question on either side.
  have ofLayout {tables : Tables} (sound : tables.Sound regime.layout)
      (member : .hourly range ∈ tables.catalogue) :
      ∃ epoch, range = regime.layout.partitionRangeAt .hourly epoch := by
    obtain ⟨epoch, same⟩ := sound.partitions _ member
    exact ⟨epoch, congrArg Partition.range same⟩
  constructor
  · intro member
    obtain ⟨epoch, rfl⟩ := ofLayout (sound.runPass pass) member
    obtain ⟨was, outside⟩ := (reclaimed epoch).mp member
    exact ⟨was, Nat.le_of_not_lt fun reached => outside ⟨reached, expired⟩⟩
  · rintro ⟨was, below⟩
    obtain ⟨epoch, rfl⟩ := ofLayout sound was
    exact (reclaimed epoch).mpr ⟨was, fun reached => absurd reached.1 (Nat.not_lt.mpr below)⟩

/-! ### A stranded partition -/

/-- Rows of any epochs arrive in any order, and hours are kept for at least one epoch. -/
def Regime.unordered (layout : BucketLayout) : Regime where
  layout := layout
  retains := fun retention => 1 ≤ retention.hourly
  supplies := fun _ rows => ∀ row ∈ rows, 0 ≤ row.epoch

namespace Stranded

/-- Hours, partitions and days as small as they can be on a chain of hourly epochs. -/
def layout : BucketLayout :=
  .ofNumbers ⟨0, 0⟩ 3600 1 1 1 1 (by decide)

/-- Hours are kept for two epochs. -/
def retention : RetentionPolicy := ⟨2, none⟩

/-- A validator is seen in epochs 0, 5 and 7. The pass after epoch 5 drops the hours up to 3,
and the hour of epoch 5 is the oldest one that is left. -/
def party : EmbeddedStore × Chronicle :=
  Act.playAll layout retention
    [.supply [⟨0, 7, .none⟩, ⟨5, 7, .none⟩], .fold, .pass, .supply [⟨7, 7, .none⟩], .fold]
    (.fresh, .start)

theorem runs_party : Runs (.unordered layout) .start party.2 ∧ party.2.now = party.1.tables := by
  have retained : (Regime.unordered layout).retains retention := Nat.le_succ 1
  refine Act.runs_playAll retained .none rfl ⟨?_, ?_, trivial⟩
  · show ∀ row ∈ [_, _], _
    decide
  · show ∀ row ∈ [_], _
    decide

/-- What the last pass reports. -/
def report : PassReport where
  rolling := ⟨some ⟨5, 8⟩, 1⟩
  daily := ⟨1, 0, 1, 0, some ⟨0, 24⟩⟩
  hourlyDropped := 1
  dailyDropped := 0

/-- The outcome of the last pass, and the store after it. -/
def passing : Except Failure PassReport × EmbeddedStore × Chronicle :=
  (Coordinator.ofStore layout retention).runPass.runOn party.1 party.2

/-- Where the tables stand before and after the last pass, and how it ends. -/
theorem evaluated :
    passing.1 = .ok report ∧
      party.2.now.head? = some 7 ∧ party.2.now.oldest? .hourly = some 5 ∧
      passing.2.2.now.head? = some 7 ∧ .hourly ⟨3, 4⟩ ∈ passing.2.2.now.catalogue := by
  decide +kernel

theorem pass_ends :
    (Coordinator.ofStore layout retention).runPass.Ends (.unordered layout) party.2
      (.ok report) passing.2.2 := by
  have outcome := evaluated.1
  unfold passing at outcome ⊢
  exact Procedure.ends_runOn _ runs_party.2 outcome

end Stranded

/-- The partition of hour 3 has expired and lies below the walk, so it stays. -/
theorem expired_hourly_mem_catalogue_stranded :
    .hourly ⟨3, 4⟩ ∈ Stranded.passing.2.2.now.catalogue ↔
      .hourly ⟨3, 4⟩ ∈ Stranded.party.2.now.catalogue ∧
        4 ≤ BucketLayout.lowestCandidate 1 (7 - 2) 5 :=
  expired_hourly_mem_catalogue_iff Stranded.runs_party.1 Stranded.pass_ends
    Stranded.evaluated.2.1 Stranded.evaluated.2.2.1 (by decide) (by decide)

/-- An hourly partition that ended one epoch before the boundary is still there after a pass
that came back. -/
theorem exists_expired_hourly_partition_after_pass :
    ∃ (before after : Chronicle) (report : PassReport) (head : Nat) (range : EpochRange),
      Runs (.unordered Stranded.layout) .start before ∧
      (Coordinator.ofStore Stranded.layout Stranded.retention).runPass.Ends
        (.unordered Stranded.layout) before (.ok report) after ∧
      before.now.head? = some head ∧ after.now.head? = some head ∧
      Stranded.retention.hourly ≤ head ∧
      .hourly range ∈ after.now.catalogue ∧ range.stop ≤ head - Stranded.retention.hourly :=
  ⟨Stranded.party.2, Stranded.passing.2.2, Stranded.report, 7, ⟨3, 4⟩, Stranded.runs_party.1,
    Stranded.pass_ends, Stranded.evaluated.2.1, Stranded.evaluated.2.2.2.1, by decide,
    Stranded.evaluated.2.2.2.2, by decide⟩

end EpochRollup
