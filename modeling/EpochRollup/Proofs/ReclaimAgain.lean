/-
This file reclaims once more. A reclaim that has come back has cleared the partitions that its
walk came to, from its boundary down to the oldest bucket. On tables with the same head and no
more rows than before the next walk goes from the same boundary down to a bucket that is not
older, so it comes to partitions only that are lacking already.
-/

import EpochRollup.Proofs.FailedCall
import EpochRollup.Proofs.Replay

namespace EpochRollup

variable {layout : BucketLayout} {retention : RetentionPolicy} {granularity : Granularity}
  {tables between after : Tables} {boundary oldest later dropped : Nat}

/-! ### Where a walk begins and ends -/

/-- A walk down to a later bucket ends no lower. -/
theorem BucketLayout.lowestCandidate_mono {width : Nat} (positive : 0 < width)
    (before : oldest ≤ later) :
    lowestCandidate width boundary oldest ≤ lowestCandidate width boundary later := by
  induction boundary using Nat.strongRecOn with
  | ind boundary inductionHypothesis =>
    by_cases ends : boundary < later ∨ boundary < width
    · rw [lowestCandidate_of_end ends]
      exact lowestCandidate_le positive boundary oldest
    · rw [lowestCandidate_of_step positive ends,
        lowestCandidate_of_step positive (show ¬(boundary < oldest ∨ boundary < width) by omega)]
      exact inductionHypothesis _ (by omega)

/-- A least value is not above the least one of more values. -/
theorem exists_min?_le {values more : List Int} (included : values ⊆ more) {least : Int}
    (leastIs : values.min? = some least) : ∃ other, more.min? = some other ∧ other ≤ least := by
  have member := included (List.min?_mem leastIs)
  cases otherIs : more.min? with
  | none => exact absurd (List.min?_eq_none_iff.mp otherIs) (List.ne_nil_of_mem member)
  | some other => exact ⟨other, rfl, (List.min?_eq_some_iff.mp otherIs).2 _ member⟩

/-- Tables without new rows have no older ones. -/
theorem Tables.exists_oldest?_le
    (fewer : ∀ row, row.granularity = granularity → after.Holds row → tables.Holds row)
    (found : after.oldest? granularity = some later) :
    ∃ oldest, tables.oldest? granularity = some oldest ∧ oldest ≤ later := by
  have least {values more : List Int} (included : values ⊆ more)
      (leastIs : values.min?.map epochOfStored = some later) :
      ∃ oldest, more.min?.map epochOfStored = some oldest ∧ oldest ≤ later := by
    obtain ⟨least, valueIs, rfl⟩ := Option.map_eq_some_iff.mp leastIs
    obtain ⟨other, otherIs, le⟩ := exists_min?_le included valueIs
    exact ⟨_, Option.map_eq_some_iff.mpr ⟨other, otherIs, rfl⟩, Int.toNat_le_toNat le⟩
  cases granularity with
  | hourly => exact least (List.map_subset _ fun row => fewer (.hourly row) rfl) found
  | daily => exact least (List.map_subset _ fun row => fewer (.daily row) rfl) found

/-! ### A reclaim that has come back -/

section

open Procedure

/-- It has walked down from the head less the horizon. -/
theorem Coordinator.returns_reclaim
    (returns : ((ofStore layout retention).reclaim granularity).Returns tables dropped after)
    {horizon head : Nat} (horizonIs : retention.horizon granularity = some horizon)
    (headIs : tables.head? = some head) (upTo : horizon ≤ head)
    (oldestIs : tables.oldest? granularity = some oldest) :
    (layout.reclaimExpired granularity (head - horizon) oldest).Returns tables dropped after := by
  unfold reclaim at returns
  have kept : (ofStore layout retention).retention.horizon granularity = some horizon := horizonIs
  rw [kept] at returns
  obtain ⟨latest, _, answered, returns⟩ := returns_bind returns
  obtain ⟨same, found⟩ := (returns_settle answered).look fun _ => rfl
  rw [same] at returns
  cases latest with
  | none =>
    rw [Tables.head?_of_lastHourly?_none found.symm] at headIs
    cases headIs
  | some latest =>
    rw [Tables.head?_of_lastHourly? found.symm] at headIs
    cases headIs
    dsimp only at returns
    rw [if_neg (Nat.not_lt.mpr upTo)] at returns
    obtain ⟨first, read, answered, returns⟩ := returns_bind returns
    have read : read = tables ∧ first = tables.oldest? granularity := by
      cases granularity with
      | hourly => exact (returns_settle answered).look fun _ => rfl
      | daily => exact (returns_settle answered).look fun _ => rfl
    obtain ⟨rfl, rfl⟩ := read
    rwa [oldestIs] at returns

/-- Its walk has cleared what it came to. -/
theorem BucketLayout.cleared_of_returns
    (returns : (layout.reclaimExpired granularity boundary oldest).Returns tables dropped after) :
    layout.partitionFor granularity boundary = .ok (layout.partitionAt granularity boundary) ∧
      layout.Cleared granularity boundary
        (lowestCandidate (layout.width granularity) boundary oldest) after := by
  constructor
  · unfold reclaimExpired at returns
    rw [reclaimFrom] at returns
    obtain ⟨_, _, here, -⟩ := returns_bind returns
    obtain ⟨partition, found, -⟩ := returns_compute_bind here
    rw [found, layout.partitionFor_eq_ok found]
  · have walk := @keeps_reclaimExpired layout granularity (.free layout) boundary oldest
    obtain ⟨_, rfl, cleared⟩ := walk.of_returns_of (fun _ _ => trivial) returns
    exact cleared

/-- What is lacking before a reclaim is lacking after it. -/
theorem Tables.Lacks.of_reclaim {partition : Partition} (lacks : tables.Lacks partition)
    (returns : ((Coordinator.ofStore layout retention).reclaim granularity).Returns tables dropped
      after) : after.Lacks partition := by
  let regime := (Regime.free layout).quiet
  have keeps : ((Coordinator.ofStore layout retention).reclaim granularity).Keeps regime
      (fun log => log.now.Lacks partition) (fun log => log.now.Lacks partition)
      fun _ log => log.now.Lacks partition := by
    refine (Coordinator.asks_reclaim granularity).keeps ((Regime.free layout).stable_quiet _) ?_
    intro call reclaims log answer left held given
    rw [Chronicle.now_record]
    cases reclaims with
    | look looks => rwa [given.of_looks looks]
    | drop epoch =>
      rw [given.dropPartition.2]
      exact held.drop _
  obtain ⟨_, rfl, left⟩ := keeps.of_returns_of (fun log same => same ▸ lacks) returns
  exact left

/-- On tables with the same head, no other rows and no partition that was lacking, a reclaim has
nothing to drop once more. -/
theorem EmbeddedStore.Healthy.replays_reclaim_again {store : EmbeddedStore}
    (healthy : store.Healthy)
    (returns : ((Coordinator.ofStore layout retention).reclaim granularity).Returns tables dropped
      between)
    (sameHead : store.tables.head? = tables.head?)
    (stored : ∀ head, tables.head? = some head → head < storedLimit)
    (fewer : ∀ row, row.granularity = granularity → store.tables.Holds row → tables.Holds row)
    (lacking : ∀ partition, between.Lacks partition → store.tables.Lacks partition) :
    ((Coordinator.ofStore layout retention).reclaim granularity).Replays store 0 := by
  refine healthy.replays_reclaim fun horizon head later horizonIs headIs upTo laterIs => ?_
  rw [sameHead] at headIs
  obtain ⟨oldest, oldestIs, le⟩ := Tables.exists_oldest?_le fewer laterIs
  obtain ⟨found, cleared⟩ := BucketLayout.cleared_of_returns
    (Coordinator.returns_reclaim returns horizonIs headIs upTo oldestIs)
  refine BucketLayout.replays_reclaimFrom found [] fun epoch past expired => ?_
  have below := stored head headIs
  have shorter : (layout.partitionRangeAt granularity epoch).start <
      (layout.partitionRangeAt granularity epoch).stop :=
    EpochRange.start_aligned_lt_stop (layout.partitionSpan_pos granularity) epoch
  have notLower : BucketLayout.lowestCandidate (layout.width granularity) (head - horizon) oldest ≤
      BucketLayout.lowestCandidate (layout.width granularity) (head - horizon) later :=
    BucketLayout.lowestCandidate_mono (layout.width_pos granularity) le
  refine healthy.answer_dropPartition ?_ ?_ (lacking _ (cleared epoch (by omega) expired))
  · rw [BucketLayout.range_partitionAt]
    omega
  · rw [BucketLayout.range_partitionAt]
    omega

end

end EpochRollup
