/-
This file proves what a walk over expired partitions does. When it comes back, every
partition of the layout that reaches past its lowest candidate and ends by the boundary is
gone, with its rows, and no other partition was touched. The walk steps down by one bucket,
and a partition is at least one bucket long unless it is cut at epoch 0, so a candidate
falls into each of these partitions; the candidates below the lowest one are never tried.
-/

import EpochRollup.Proofs.Sound

namespace EpochRollup

/-! ### Lacking a partition -/

/-- The tables hold neither a partition of this name nor a row that it covers. -/
def Tables.Lacks (tables : Tables) (partition : Partition) : Prop :=
  tables.drop partition = tables

namespace Tables

theorem lacks_drop (tables : Tables) (partition : Partition) :
    (tables.drop partition).Lacks partition := by
  cases partition <;> simp [Lacks, drop, deleteCovered, List.filter_filter]

/-- What is lacking before a drop is lacking after it. -/
theorem Lacks.drop {tables : Tables} {partition : Partition} (lacks : tables.Lacks partition)
    (other : Partition) : (tables.drop other).Lacks partition := by
  unfold Lacks at lacks ⊢
  have comm : (tables.drop other).drop partition = (tables.drop partition).drop other := by
    cases partition <;> cases other <;>
      simp [Tables.drop, deleteCovered, List.filter_filter, Bool.and_comm]
  rw [comm, lacks]

theorem Lacks.of_epochs {tables : Tables} {partition : Partition}
    (lacks : tables.Lacks partition) (epochs : List EpochRow) :
    ({ tables with epochs } : Tables).Lacks partition := by
  have moved : ({ tables with epochs } : Tables).drop partition =
      { tables.drop partition with epochs } := by cases partition <;> rfl
  rw [Lacks, moved, lacks]

theorem Lacks.not_mem {tables : Tables} {partition : Partition} (lacks : tables.Lacks partition) :
    partition ∉ tables.catalogue := by
  intro member
  rw [← lacks] at member
  exact (mem_catalogue_drop.mp member).2 rfl

theorem Lacks.not_covers_day {tables : Tables} {range : EpochRange} {days : DayRange}
    (lacks : tables.Lacks (.daily range days)) {row : DailyRow} (member : row ∈ tables.daily) :
    ¬(days.start.textKey ≤ row.day.textKey ∧ row.day.textKey < days.stop.textKey) := by
  rw [← lacks] at member
  exact (mem_daily_drop.mp member).2

end Tables

/-! ### The walk -/

namespace BucketLayout

variable {layout : BucketLayout} {granularity : Granularity}

/-- The expired partitions that reach past a candidate are gone. -/
def Cleared (layout : BucketLayout) (granularity : Granularity) (boundary past : Nat)
    (tables : Tables) : Prop :=
  ∀ epoch, past < (layout.partitionRangeAt granularity epoch).stop →
    (layout.partitionRangeAt granularity epoch).stop ≤ boundary →
    tables.Lacks (layout.partitionAt granularity epoch)

/-- The partitions that were met are gone. -/
def MetGone (layout : BucketLayout) (granularity : Granularity) (met : List EpochRange)
    (tables : Tables) : Prop :=
  ∀ epoch, layout.partitionRangeAt granularity epoch ∈ met →
    tables.Lacks (layout.partitionAt granularity epoch)

theorem stable_cleared (regime : Regime) (boundary past : Nat) (met : List EpochRange) :
    regime.Stable fun log => layout.Cleared granularity boundary past log.now ∧
      layout.MetGone granularity met log.now := by
  intro log rows after held _ given
  obtain ⟨stored, -, rfl⟩ := given.upsertEpochs
  rw [Chronicle.now_record]
  exact ⟨fun epoch after expired => (held.1 epoch after expired).of_epochs _,
    fun epoch same => (held.2 epoch same).of_epochs _⟩

/-- A partition that reaches past a candidate, but not past the next one up, holds it. -/
theorem partitionAt_eq_of_candidate {candidate epoch : Nat}
    (after : candidate < (layout.partitionRangeAt granularity epoch).stop)
    (before : (layout.partitionRangeAt granularity epoch).stop ≤
      candidate + layout.width granularity) :
    layout.partitionAt granularity candidate = layout.partitionAt granularity epoch := by
  refine layout.partitionAt_eq_iff.mpr ⟨?_, after⟩
  rcases Nat.eq_zero_or_pos (layout.partitionRangeAt granularity epoch).start with zero | later
  · omega
  · have whole : (layout.partitionRangeAt granularity epoch).stop =
        (layout.partitionRangeAt granularity epoch).start + layout.partitionSpan granularity :=
      EpochRange.stop_aligned_of_pos later
    have long := layout.width_le_partitionSpan granularity
    omega

/-- Past a candidate there are its own partition and those past the candidate before it. -/
theorem Cleared.next {boundary candidate : Nat} {tables : Tables}
    (earlier : layout.Cleared granularity boundary (candidate + layout.width granularity) tables)
    (here : (layout.partitionRangeAt granularity candidate).stop ≤ boundary →
      tables.Lacks (layout.partitionAt granularity candidate)) :
    layout.Cleared granularity boundary candidate tables := by
  intro epoch after expired
  rcases Nat.lt_or_ge (candidate + layout.width granularity)
    (layout.partitionRangeAt granularity epoch).stop with farther | near
  · exact earlier epoch farther expired
  · have same := partitionAt_eq_of_candidate after near
    have ranges := congrArg Partition.range same
    rw [range_partitionAt, range_partitionAt] at ranges
    rw [← same]
    rw [← ranges] at expired
    exact here expired

/-- One step of the walk clears the partition of its candidate. -/
theorem keeps_reclaimAt {regime : Regime} (boundary candidate : Nat) (met : List EpochRange)
    (dropped : Nat) :
    (layout.reclaimAt granularity boundary candidate met dropped).Keeps regime (fun _ => True)
      (fun log =>
        layout.Cleared granularity boundary (candidate + layout.width granularity) log.now ∧
          layout.MetGone granularity met log.now)
      (fun result log => layout.Cleared granularity boundary candidate log.now ∧
        layout.MetGone granularity result.1 log.now) := by
  refine Procedure.keeps_compute_bind (fun _ _ => trivial) fun partition found => ?_
  obtain rfl := layout.partitionFor_eq_ok found
  rw [range_partitionAt]
  split
  · rename_i expired
    refine Procedure.keeps_bind
      (fun _ log => layout.Cleared granularity boundary candidate log.now ∧
        layout.MetGone granularity (layout.partitionRangeAt granularity candidate :: met) log.now)
      (Procedure.keeps_askFor (stable_cleared regime _ _ _) (fun _ _ => trivial) ?_)
      fun existed => ?_
    · intro log answer after held given
      rw [Chronicle.now_record, given.dropPartition.2]
      have gone := Tables.lacks_drop log.now (layout.partitionAt granularity candidate)
      refine ⟨.next (fun epoch after expired => (held.1 epoch after expired).drop _)
        fun _ => gone, fun epoch isMet => ?_⟩
      rcases List.mem_cons.mp isMet with same | earlier
      · rw [layout.partitionAt_eq_of_range_eq same]
        exact gone
      · exact (held.2 epoch earlier).drop _
    · cases existed <;> exact Procedure.keeps_pure fun _ held => held
  · rename_i kept
    refine Procedure.keeps_pure fun log held => ⟨held.1.next fun expired => ?_, held.2⟩
    refine held.2 candidate ?_
    rw [not_and, not_not] at kept
    exact kept expired

/-- A walk that comes back has cleared every expired partition past its lowest candidate. -/
theorem keeps_reclaimFrom {regime : Regime} (boundary oldest candidate : Nat)
    (met : List EpochRange) (dropped : Nat) :
    (layout.reclaimFrom granularity boundary oldest candidate met dropped).Keeps regime
      (fun _ => True)
      (fun log =>
        layout.Cleared granularity boundary (candidate + layout.width granularity) log.now ∧
          layout.MetGone granularity met log.now)
      (fun _ log => layout.Cleared granularity boundary
        (lowestCandidate (layout.width granularity) candidate oldest) log.now) := by
  have positive := layout.width_pos granularity
  induction candidate using Nat.strongRecOn generalizing met dropped with
  | ind candidate inductionHypothesis =>
    rw [reclaimFrom]
    refine Procedure.keeps_bind _ (keeps_reclaimAt boundary candidate met dropped) fun result => ?_
    obtain ⟨last, count⟩ := result
    dsimp only
    split
    · rename_i ends
      rw [lowestCandidate_of_end ends]
      exact Procedure.keeps_pure fun log held => held.1
    · rename_i goesOn
      rw [lowestCandidate_of_step positive goesOn]
      have back : candidate - layout.width granularity + layout.width granularity = candidate := by
        omega
      have rest := inductionHypothesis (candidate - layout.width granularity) (by omega) last count
      rwa [back] at rest

/-- A reclaim that comes back has cleared every expired partition past its lowest candidate. -/
theorem keeps_reclaimExpired {regime : Regime} (boundary oldest : Nat) :
    (layout.reclaimExpired granularity boundary oldest).Keeps regime (fun _ => True)
      (fun _ => True)
      (fun _ log => layout.Cleared granularity boundary
        (lowestCandidate (layout.width granularity) boundary oldest) log.now) :=
  (keeps_reclaimFrom boundary oldest boundary [] 0).weaken (fun _ => id)
    (fun _ _ => ⟨fun _ past expired => by omega, fun _ isMet => absurd isMet List.not_mem_nil⟩)
    fun _ _ => id

end BucketLayout

end EpochRollup
