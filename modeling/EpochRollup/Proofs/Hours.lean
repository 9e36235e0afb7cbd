/-
This file says what the hours of some epochs are when they are folded all at once. Each row
is determined by the epochs of its bucket, so rows of different buckets can be told apart by
their epochs alone, and rows of the epochs below a frontier stay what they are when the
frontier moves past the end of their bucket.

A chronicle also knows the latest version of every hour that was ever stored, the dropped
ones included.
-/

import EpochRollup.Proofs.Run

namespace EpochRollup

/-! ### Epochs below a frontier -/

/-- The rows of the epochs below a frontier. -/
def epochsBelow (epochs : List EpochRow) (frontier : Int) : List EpochRow :=
  epochs.filter (·.epoch < frontier)

theorem mem_epochsBelow {epochs : List EpochRow} {frontier : Int} {row : EpochRow} :
    row ∈ epochsBelow epochs frontier ↔ row ∈ epochs ∧ row.epoch < frontier := by
  simp [epochsBelow]

/-- Rows from the frontier on make no difference. -/
theorem epochsBelow_append {added : List EpochRow} {frontier : Int}
    (past : ∀ row ∈ added, frontier ≤ row.epoch) (epochs : List EpochRow) :
    epochsBelow (epochs ++ added) frontier = epochsBelow epochs frontier := by
  have none : added.filter (·.epoch < frontier) = [] :=
    List.filter_eq_nil_iff.mpr fun row member => by
      have after := past row member
      simpa using after
  rw [epochsBelow, List.filter_append, none, List.append_nil, epochsBelow]

theorem mem_epochSamples {epochs : List EpochRow} {start stop : Int} {sample : Sample} :
    sample ∈ epochSamples epochs start stop ↔
      ∃ row ∈ epochs, (start ≤ row.epoch ∧ row.epoch < stop) ∧ row.sample = sample := by
  simp [epochSamples, and_assoc]

/-- Some sample of a range is some row of its epochs. -/
theorem exists_mem_epochSamples {epochs : List EpochRow} {start stop : Int}
    (holds : Sample → Prop) :
    (∃ sample ∈ epochSamples epochs start stop, holds sample) ↔
      ∃ row ∈ epochs, (start ≤ row.epoch ∧ row.epoch < stop) ∧ holds row.sample := by
  constructor
  · rintro ⟨sample, member, held⟩
    obtain ⟨row, rowMember, inside, rfl⟩ := mem_epochSamples.mp member
    exact ⟨row, rowMember, inside, held⟩
  · rintro ⟨row, member, inside, held⟩
    exact ⟨row.sample, mem_epochSamples.mpr ⟨row, member, inside, rfl⟩, held⟩

theorem mem_map_key_epochSamples {epochs : List EpochRow} {start stop key : Int} :
    key ∈ (epochSamples epochs start stop).map (·.key) ↔
      ∃ row ∈ epochs, (start ≤ row.epoch ∧ row.epoch < stop) ∧ row.epoch = key :=
  List.mem_map.trans (exists_mem_epochSamples (·.key = key))

theorem mem_validators_epochSamples {epochs : List EpochRow} {start stop validator : Int} :
    validator ∈ Sample.validators (epochSamples epochs start stop) ↔
      ∃ row ∈ epochs, (start ≤ row.epoch ∧ row.epoch < stop) ∧ row.validator = validator :=
  (Sample.mem_validators _ _).trans (exists_mem_epochSamples (·.validator = validator))

/-- Two frontiers with the same epochs of a bucket below them have the same samples of it. -/
theorem epochSamples_below_congr {epochs : List EpochRow} {first second start stop : Int}
    (agree : ∀ row ∈ epochs, start ≤ row.epoch → row.epoch < stop →
      (row.epoch < first ↔ row.epoch < second)) :
    epochSamples (epochsBelow epochs first) start stop =
      epochSamples (epochsBelow epochs second) start stop := by
  unfold epochSamples epochsBelow
  rw [List.filter_filter, List.filter_filter]
  refine congrArg _ (List.filter_congr fun row member => ?_)
  by_cases inside : start ≤ row.epoch ∧ row.epoch < stop
  · simp [inside, agree row member inside.1 inside.2]
  · rcases not_and_or.mp inside with before | after
    · simp [before]
    · simp [after]

/-- A frontier past the epochs of a bucket leaves its samples as they are. -/
theorem epochSamples_below_of_lt {epochs : List EpochRow} {frontier start stop : Int}
    (all : ∀ row ∈ epochs, start ≤ row.epoch → row.epoch < stop → row.epoch < frontier) :
    epochSamples (epochsBelow epochs frontier) start stop = epochSamples epochs start stop := by
  unfold epochSamples epochsBelow
  rw [List.filter_filter]
  refine congrArg _ (List.filter_congr fun row member => ?_)
  by_cases inside : start ≤ row.epoch ∧ row.epoch < stop
  · simp [inside, all row member inside.1 inside.2]
  · rcases not_and_or.mp inside with before | after
    · simp [before]
    · simp [after]

/-! ### The hours of some epochs -/

/-- An epoch that starts an hourly bucket. -/
def IsHourStart (width : Nat) (start : Int) : Prop := ∃ index : Nat, start = (index * width : Nat)

theorem IsHourStart.nonneg {width : Nat} {start : Int} (starts : IsHourStart width start) :
    0 ≤ start := by
  obtain ⟨index, rfl⟩ := starts
  exact Int.natCast_nonneg _

/-- A bucket that starts before the end of another starts no later than it. -/
theorem IsHourStart.le_of_lt {width : Nat} {first second : Int}
    (firstStarts : IsHourStart width first) (secondStarts : IsHourStart width second)
    (before : first < second + width) : first ≤ second := by
  obtain ⟨left, rfl⟩ := firstStarts
  obtain ⟨right, rfl⟩ := secondStarts
  rcases Nat.lt_or_ge right left with later | ordered
  · have whole : (right + 1) * width ≤ left * width := Nat.mul_le_mul_right _ later
    rw [Nat.add_mul, Nat.one_mul] at whole
    omega
  · exact Int.ofNat_le.mpr (Nat.mul_le_mul_right _ ordered)

/-- A bucket that starts earlier ends by the start of a later one. -/
theorem IsHourStart.add_le_of_lt {width : Nat} {first second : Int}
    (firstStarts : IsHourStart width first) (secondStarts : IsHourStart width second)
    (before : first < second) : first + width ≤ second := by
  by_contra reached
  have back := secondStarts.le_of_lt firstStarts (by omega)
  omega

/-- A row of the hours of some epochs, all of them folded at once. -/
structure HourlyRow.FoldOf (width : Nat) (epochs : List EpochRow) (row : HourlyRow) : Prop where
  /-- The row is one of a bucket. -/
  starts : IsHourStart width row.start
  /-- It covers the bucket up to the last epoch present. -/
  last : ((epochSamples epochs row.start (row.start + width)).map (·.key)).max? =
    some (row.stop - 1)
  /-- The validator has a row in the bucket. -/
  seen : row.validator ∈ Sample.validators (epochSamples epochs row.start (row.start + width))
  /-- The metrics are those of the fold. -/
  metrics : Sample.stored? (epochSamples epochs row.start (row.start + width)) row.start
    (row.stop - 1) row.validator = some row.metrics

namespace HourlyRow.FoldOf

variable {width : Nat} {epochs others : List EpochRow} {row other : HourlyRow}

/-- Only the epochs of the bucket matter. -/
theorem congr (same : epochSamples epochs row.start (row.start + width) =
    epochSamples others row.start (row.start + width)) :
    row.FoldOf width epochs ↔ row.FoldOf width others := by
  constructor
  · rintro ⟨starts, last, seen, metrics⟩
    rw [same] at last seen metrics
    exact ⟨starts, last, seen, metrics⟩
  · rintro ⟨starts, last, seen, metrics⟩
    rw [← same] at last seen metrics
    exact ⟨starts, last, seen, metrics⟩

theorem stop_eq (fold : row.FoldOf width epochs) (otherFold : other.FoldOf width epochs)
    (same : row.start = other.start) : row.stop = other.stop := by
  have last := fold.last
  rw [same, otherFold.last, Option.some.injEq] at last
  omega

/-- A bucket and a validator have one row. -/
theorem eq_of_same (fold : row.FoldOf width epochs) (otherFold : other.FoldOf width epochs)
    (start : row.start = other.start) (validator : row.validator = other.validator) :
    row = other := by
  have stop := fold.stop_eq otherFold start
  have metrics := fold.metrics
  rw [start, stop, validator, otherFold.metrics, Option.some.injEq] at metrics
  obtain ⟨rowStart, rowStop, rowValidator, rowMetrics⟩ := row
  obtain ⟨otherStart, otherStop, otherValidator, otherMetrics⟩ := other
  simp only [HourlyRow.mk.injEq] at *
  exact ⟨start, stop, validator, metrics.symm⟩

/-- The last epoch that a row covers is present. -/
theorem exists_last (fold : row.FoldOf width epochs) :
    ∃ source ∈ epochs, (row.start ≤ source.epoch ∧ source.epoch < row.start + width) ∧
      source.epoch = row.stop - 1 :=
  mem_map_key_epochSamples.mp (List.max?_mem fold.last)

end HourlyRow.FoldOf

/-! ### All hours of a chronicle -/

namespace Chronicle

/-- The latest version of every hour that the store ever held. -/
def hours (log : Chronicle) : List HourlyRow :=
  (log.now :: log.past).foldr (fun tables hours => putRows HourlyRow.before tables.hourly hours) []

theorem keyed_hours (log : Chronicle) : Keyed HourlyRow.key log.hours := by
  unfold hours
  induction log.now :: log.past with
  | nil => exact List.Pairwise.nil
  | cons tables rest inductionHypothesis =>
    exact inductionHypothesis.putRows HourlyRow.orderedBy_key tables.hourly

/-- What is stored now is the latest version. -/
theorem hourly_subset_hours {log : Chronicle} (keyed : Keyed HourlyRow.key log.now.hourly) :
    log.now.hourly ⊆ log.hours := by
  intro row member
  have earlier : Keyed HourlyRow.key (log.past.foldr
      (fun tables hours => putRows HourlyRow.before tables.hourly hours) []) := by
    cases past : log.past with
    | nil => exact List.Pairwise.nil
    | cons tables rest => exact keyed_hours ⟨tables, rest⟩
  exact (mem_putRows HourlyRow.orderedBy_key earlier keyed row).mpr (Or.inl member)

/-- Once the store holds other tables, the hours stored there are the latest versions. -/
theorem mem_hours_record {log : Chronicle} {tables : Tables} {row : HourlyRow}
    (nowKeyed : Keyed HourlyRow.key log.now.hourly) (keyed : Keyed HourlyRow.key tables.hourly) :
    row ∈ (log.record tables).hours ↔
      row ∈ tables.hourly ∨ row ∈ log.hours ∧ ∀ other ∈ tables.hourly, row.key ≠ other.key := by
  unfold record
  split
  · rename_i same
    rw [same]
    have current := hourly_subset_hours nowKeyed
    constructor
    · intro member
      by_cases stored : ∃ other ∈ log.now.hourly, row.key = other.key
      · obtain ⟨other, otherMember, sameKey⟩ := stored
        rw [log.keyed_hours.eq_of_key_eq member (current otherMember) sameKey]
        exact Or.inl otherMember
      · exact Or.inr ⟨member, fun other otherMember sameKey =>
          stored ⟨other, otherMember, sameKey⟩⟩
    · rintro (stored | ⟨old, -⟩)
      · exact current stored
      · exact old
  · exact mem_putRows HourlyRow.orderedBy_key log.keyed_hours keyed row

/-- The hours of a chronicle stay what they are while no new version is stored. -/
theorem mem_hours_record_of_subset {log : Chronicle} {tables : Tables} {row : HourlyRow}
    (nowKeyed : Keyed HourlyRow.key log.now.hourly) (keyed : Keyed HourlyRow.key tables.hourly)
    (known : tables.hourly ⊆ log.hours) :
    row ∈ (log.record tables).hours ↔ row ∈ log.hours := by
  rw [mem_hours_record nowKeyed keyed]
  constructor
  · rintro (stored | ⟨old, -⟩)
    · exact known stored
    · exact old
  · intro member
    by_cases stored : ∃ other ∈ tables.hourly, row.key = other.key
    · obtain ⟨other, otherMember, sameKey⟩ := stored
      rw [log.keyed_hours.eq_of_key_eq member (known otherMember) sameKey]
      exact Or.inl otherMember
    · exact Or.inr ⟨member, fun other otherMember sameKey =>
        stored ⟨other, otherMember, sameKey⟩⟩

theorem hours_record_of_subset {log : Chronicle} {tables : Tables}
    (nowKeyed : Keyed HourlyRow.key log.now.hourly) (keyed : Keyed HourlyRow.key tables.hourly)
    (known : tables.hourly ⊆ log.hours) : (log.record tables).hours = log.hours :=
  (log.record tables).keyed_hours.ext log.keyed_hours fun _ =>
    mem_hours_record_of_subset nowKeyed keyed known

end Chronicle

end EpochRollup
