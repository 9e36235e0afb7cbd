/-
This file proves that buckets and partitions tile the epochs. Both are ranges of one shape,
`EpochRange.aligned`, and one fact about that shape carries all others: an epoch lies in the
range of another exactly when both have the same quotient by the width. Where the layout has a
bucket or a partition for an epoch at all, it is the range of this shape.
-/

import EpochRollup.Partition

namespace EpochRollup

namespace EpochRange

/-! ### Ranges of one width -/

/-- The range of the given width that holds an epoch, counted from `shift` epochs before epoch
0 and cut at epoch 0. -/
def aligned (shift width epoch : Nat) : EpochRange :=
  ⟨(epoch + shift) / width * width - shift, (epoch + shift) / width * width + width - shift⟩

variable {shift width : Nat}

/-- The epochs of a range are those with its quotient. -/
theorem mem_aligned_iff (positive : 0 < width) (epoch other : Nat) :
    ((EpochRange.aligned shift width epoch).start ≤ other ∧
      other < (EpochRange.aligned shift width epoch).stop) ↔
      (other + shift) / width = (epoch + shift) / width := by
  rw [Nat.div_eq_iff positive]
  unfold aligned
  dsimp only
  omega

theorem start_aligned_le (positive : 0 < width) (epoch : Nat) :
    (EpochRange.aligned shift width epoch).start ≤ epoch :=
  ((mem_aligned_iff positive epoch epoch).mpr rfl).1

theorem lt_stop_aligned (positive : 0 < width) (epoch : Nat) :
    epoch < (EpochRange.aligned shift width epoch).stop :=
  ((mem_aligned_iff positive epoch epoch).mpr rfl).2

/-- Every epoch of a range has that range. -/
theorem aligned_eq_of_mem (positive : 0 < width) {epoch other : Nat}
    (after : (EpochRange.aligned shift width epoch).start ≤ other)
    (before : other < (EpochRange.aligned shift width epoch).stop) :
    EpochRange.aligned shift width other = EpochRange.aligned shift width epoch := by
  have same := (mem_aligned_iff positive epoch other).mp ⟨after, before⟩
  unfold aligned
  rw [same]

theorem aligned_start (positive : 0 < width) (epoch : Nat) :
    EpochRange.aligned shift width (EpochRange.aligned shift width epoch).start =
      EpochRange.aligned shift width epoch :=
  aligned_eq_of_mem positive (Nat.le_refl _)
    (Nat.lt_of_le_of_lt (start_aligned_le positive epoch) (lt_stop_aligned positive epoch))

theorem start_aligned_lt_stop (positive : 0 < width) (epoch : Nat) :
    (EpochRange.aligned shift width epoch).start < (EpochRange.aligned shift width epoch).stop :=
  Nat.lt_of_le_of_lt (start_aligned_le positive epoch) (lt_stop_aligned positive epoch)

/-- A range is no longer than the width. -/
theorem stop_aligned_le (epoch : Nat) :
    (EpochRange.aligned shift width epoch).stop ≤
      (EpochRange.aligned shift width epoch).start + width := by
  unfold aligned
  dsimp only
  omega

/-- A range that does not start at epoch 0 is as long as the width. -/
theorem stop_aligned_of_pos {epoch : Nat}
    (later : 0 < (EpochRange.aligned shift width epoch).start) :
    (EpochRange.aligned shift width epoch).stop =
      (EpochRange.aligned shift width epoch).start + width := by
  unfold aligned at *
  dsimp only at *
  omega

/-- A range that starts after an epoch starts after the range of that epoch. -/
theorem stop_aligned_le_of_lt (positive : 0 < width) {epoch other : Nat}
    (before : epoch < (EpochRange.aligned shift width other).start) :
    (EpochRange.aligned shift width epoch).stop ≤ (EpochRange.aligned shift width other).start := by
  have quotient : (epoch + shift) / width < (other + shift) / width := by
    rw [Nat.div_lt_iff_lt_mul positive]
    unfold aligned at before
    dsimp only at before
    omega
  have whole : ((epoch + shift) / width + 1) * width ≤ (other + shift) / width * width :=
    Nat.mul_le_mul_right width quotient
  rw [Nat.add_mul, Nat.one_mul] at whole
  unfold aligned
  dsimp only
  omega

/-- A range that an epoch reaches past ends no later than the range of that epoch starts. -/
theorem stop_aligned_le_start_aligned (positive : 0 < width) {epoch other : Nat}
    (reached : (EpochRange.aligned shift width epoch).stop ≤ other) :
    (EpochRange.aligned shift width epoch).stop ≤ (EpochRange.aligned shift width other).start := by
  refine stop_aligned_le_of_lt positive ?_
  rcases Nat.lt_or_ge epoch (EpochRange.aligned shift width other).start with before | inside
  · exact before
  · have later : epoch < (EpochRange.aligned shift width epoch).stop :=
      lt_stop_aligned positive epoch
    have within : other < (EpochRange.aligned shift width other).stop :=
      lt_stop_aligned positive other
    rw [← aligned_eq_of_mem positive inside (by omega)] at within
    omega

theorem start_aligned_mono (positive : 0 < width) {epoch other : Nat} (le : epoch ≤ other) :
    (EpochRange.aligned shift width epoch).start ≤
      (EpochRange.aligned shift width other).start := by
  rcases Nat.lt_or_ge other (EpochRange.aligned shift width epoch).stop with inside | past
  · have after : (EpochRange.aligned shift width epoch).start ≤ other :=
      Nat.le_trans (start_aligned_le positive epoch) le
    exact Nat.le_of_eq (by rw [aligned_eq_of_mem positive after inside])
  · have apart := stop_aligned_le_start_aligned positive past
    have proper : (EpochRange.aligned shift width epoch).start <
      (EpochRange.aligned shift width epoch).stop := start_aligned_lt_stop positive epoch
    omega

theorem stop_aligned_mono (positive : 0 < width) {epoch other : Nat} (le : epoch ≤ other) :
    (EpochRange.aligned shift width epoch).stop ≤ (EpochRange.aligned shift width other).stop := by
  rcases Nat.lt_or_ge other (EpochRange.aligned shift width epoch).stop with inside | past
  · have after : (EpochRange.aligned shift width epoch).start ≤ other :=
      Nat.le_trans (start_aligned_le positive epoch) le
    exact Nat.le_of_eq (by rw [aligned_eq_of_mem positive after inside])
  · exact Nat.le_of_lt (Nat.lt_of_le_of_lt past (lt_stop_aligned positive other))

/-- The epoch after a range starts the next range. -/
theorem start_aligned_stop (positive : 0 < width) (epoch : Nat) :
    (EpochRange.aligned shift width (EpochRange.aligned shift width epoch).stop).start =
      (EpochRange.aligned shift width epoch).stop :=
  Nat.le_antisymm (start_aligned_le positive _)
    (stop_aligned_le_start_aligned positive (Nat.le_refl _))

/-- Counted from the shift, a range ends at a multiple of the width. -/
theorem stop_aligned_add (positive : 0 < width) (epoch : Nat) :
    (EpochRange.aligned shift width epoch).stop + shift =
      ((epoch + shift) / width + 1) * width := by
  have past : epoch + shift < (epoch + shift) / width * width + width :=
    Nat.lt_div_mul_add positive
  rw [Nat.add_mul, Nat.one_mul]
  unfold aligned
  dsimp only
  omega

/-- An epoch at a multiple of the width, counted from the shift, starts its range. -/
theorem start_aligned_of_dvd {epoch : Nat} (multiple : width ∣ epoch + shift) :
    (EpochRange.aligned shift width epoch).start = epoch := by
  unfold aligned
  dsimp only
  rw [Nat.div_mul_cancel multiple, Nat.add_sub_cancel]

/-- The range after a range has the next quotient. -/
theorem quotient_stop (positive : 0 < width) (epoch : Nat) :
    ((EpochRange.aligned shift width epoch).stop + shift) / width =
      (epoch + shift) / width + 1 := by
  rw [stop_aligned_add positive, Nat.mul_div_cancel _ positive]

/-- Epochs of one range have one wider range, when the wider width is a multiple. -/
theorem aligned_mul_eq (positive : 0 < width) (factor : Nat) {epoch other : Nat}
    (after : (EpochRange.aligned shift width epoch).start ≤ other)
    (before : other < (EpochRange.aligned shift width epoch).stop) :
    EpochRange.aligned shift (width * factor) other =
      EpochRange.aligned shift (width * factor) epoch := by
  have same := (mem_aligned_iff positive epoch other).mp ⟨after, before⟩
  unfold aligned
  rw [← Nat.div_div_eq_div_mul, ← Nat.div_div_eq_div_mul, same]

end EpochRange

namespace BucketLayout

variable (layout : BucketLayout)

/-- A range is there when its epoch and its end, counted from the shift, are words. -/
theorem alignedRange_eq_ok_iff {shift width epoch : Nat} {range : EpochRange} :
    alignedRange shift width epoch = .ok range ↔
      epoch + shift < wordLimit ∧ (epoch + shift) / width * width + width < wordLimit ∧
        range = EpochRange.aligned shift width epoch := by
  unfold alignedRange
  by_cases shifted : epoch + shift < wordLimit
  · rw [Word.add_eq_ok_iff.mpr ⟨shifted, rfl⟩]
    dsimp only [bind, Except.bind]
    by_cases ended : (epoch + shift) / width * width + width < wordLimit
    · rw [Word.add_eq_ok_iff.mpr ⟨ended, rfl⟩]
      simp [shifted, ended, EpochRange.aligned, pure, Except.pure, eq_comm]
    · simp [Word.add, ended]
  · simp [Word.add, shifted, bind, Except.bind]

theorem alignedRange_eq_ok {shift width epoch : Nat} {range : EpochRange}
    (ok : alignedRange shift width epoch = .ok range) :
    range = EpochRange.aligned shift width epoch :=
  (alignedRange_eq_ok_iff.mp ok).2.2

/-- A range is there when its end, counted from the shift, is a word. -/
theorem alignedRange_eq_ok_iff_stop {shift width epoch : Nat} {range : EpochRange}
    (positive : 0 < width) :
    alignedRange shift width epoch = .ok range ↔
      (EpochRange.aligned shift width epoch).stop + shift < wordLimit ∧
        range = EpochRange.aligned shift width epoch := by
  have past : epoch < (EpochRange.aligned shift width epoch).stop :=
    EpochRange.lt_stop_aligned positive epoch
  have whole : (EpochRange.aligned shift width epoch).stop + shift =
      (epoch + shift) / width * width + width := by
    rw [EpochRange.stop_aligned_add positive, Nat.add_mul, Nat.one_mul]
  rw [alignedRange_eq_ok_iff, ← whole]
  constructor
  · exact fun ⟨_, ended, same⟩ => ⟨ended, same⟩
  · exact fun ⟨ended, same⟩ => ⟨by omega, ended, same⟩

/-- Early epochs have their ranges. -/
theorem alignedRange_of_lt {shift width epoch : Nat} (early : epoch + shift + width < wordLimit) :
    alignedRange shift width epoch = .ok (EpochRange.aligned shift width epoch) := by
  have floored : (epoch + shift) / width * width ≤ epoch + shift := Nat.div_mul_le_self _ _
  exact alignedRange_eq_ok_iff.mpr ⟨by omega, by omega, rfl⟩

/-! ### Buckets -/

/-- The bucket of an epoch. -/
def bucketAt (granularity : Granularity) (epoch : Nat) : EpochRange :=
  .aligned (layout.shift granularity) (layout.width granularity) epoch

theorem bucket_eq_ok {granularity : Granularity} {epoch : Nat} {bucket : EpochRange}
    (ok : layout.bucket granularity epoch = .ok bucket) :
    bucket = layout.bucketAt granularity epoch := alignedRange_eq_ok ok

@[simp] theorem bucketAt_start (granularity : Granularity) (epoch : Nat) :
    layout.bucketAt granularity (layout.bucketAt granularity epoch).start =
      layout.bucketAt granularity epoch :=
  EpochRange.aligned_start (layout.width_pos granularity) epoch

/-- Buckets that start together are one bucket. -/
theorem bucketAt_eq_of_start {granularity : Granularity} {epoch other : Nat}
    (same : (layout.bucketAt granularity epoch).start =
      (layout.bucketAt granularity other).start) :
    layout.bucketAt granularity epoch = layout.bucketAt granularity other := by
  rw [← layout.bucketAt_start granularity epoch, same, layout.bucketAt_start]

theorem start_bucketAt_le (granularity : Granularity) (epoch : Nat) :
    (layout.bucketAt granularity epoch).start ≤ epoch :=
  EpochRange.start_aligned_le (layout.width_pos granularity) epoch

theorem lt_stop_bucketAt (granularity : Granularity) (epoch : Nat) :
    epoch < (layout.bucketAt granularity epoch).stop :=
  EpochRange.lt_stop_aligned (layout.width_pos granularity) epoch

theorem start_bucketAt_mono (granularity : Granularity) {epoch other : Nat} (le : epoch ≤ other) :
    (layout.bucketAt granularity epoch).start ≤ (layout.bucketAt granularity other).start :=
  EpochRange.start_aligned_mono (layout.width_pos granularity) le

/-- A bucket that starts before another one ends by the start of that one. -/
theorem stop_bucketAt_le_of_lt {granularity : Granularity} {epoch other : Nat}
    (before : (layout.bucketAt granularity epoch).start <
      (layout.bucketAt granularity other).start) :
    (layout.bucketAt granularity epoch).stop ≤ (layout.bucketAt granularity other).start := by
  rw [← layout.bucketAt_start granularity epoch]
  exact EpochRange.stop_aligned_le_of_lt (layout.width_pos granularity) before

/-! ### Partitions -/

/-- The width of a partition in epochs. -/
def partitionSpan (granularity : Granularity) : Nat :=
  layout.width granularity * layout.partitionBuckets granularity

theorem partitionSpan_pos (granularity : Granularity) : 0 < layout.partitionSpan granularity :=
  Nat.mul_pos (layout.width_pos granularity) (layout.partitionBuckets_pos granularity)

theorem width_le_partitionSpan (granularity : Granularity) :
    layout.width granularity ≤ layout.partitionSpan granularity :=
  Nat.le_mul_of_pos_right _ (layout.partitionBuckets_pos granularity)

theorem partitionWidth_eq_ok_iff {granularity : Granularity} {span : Nat} :
    layout.partitionWidth granularity = .ok span ↔
      layout.partitionSpan granularity < wordLimit ∧ span = layout.partitionSpan granularity :=
  Word.multiply_eq_ok_iff

/-- The epochs of the partition of an epoch. -/
def partitionRangeAt (granularity : Granularity) (epoch : Nat) : EpochRange :=
  .aligned (layout.shift granularity) (layout.partitionSpan granularity) epoch

/-- The partition of an epoch. -/
def partitionAt (granularity : Granularity) (epoch : Nat) : Partition :=
  match granularity with
  | .hourly => .hourly (layout.partitionRangeAt .hourly epoch)
  | .daily =>
    .daily (layout.partitionRangeAt .daily epoch)
      (layout.days (layout.partitionRangeAt .daily epoch))

theorem granularity_partitionAt (granularity : Granularity) (epoch : Nat) :
    (layout.partitionAt granularity epoch).granularity = granularity := by
  cases granularity <;> rfl

@[simp] theorem range_partitionAt (granularity : Granularity) (epoch : Nat) :
    (layout.partitionAt granularity epoch).range = layout.partitionRangeAt granularity epoch := by
  cases granularity <;> rfl

/-- A partition has a range when its width is a word and the flooring to that width answers. -/
theorem partitionRange_eq_ok_iff {granularity : Granularity} {epoch : Nat} {range : EpochRange} :
    layout.partitionRange granularity epoch = .ok range ↔
      layout.partitionSpan granularity < wordLimit ∧
        alignedRange (layout.shift granularity) (layout.partitionSpan granularity) epoch =
          .ok range := by
  unfold partitionRange
  cases wide : layout.partitionWidth granularity with
  | error cause =>
    have long : ¬layout.partitionSpan granularity < wordLimit := fun word => by
      rw [layout.partitionWidth_eq_ok_iff.mpr ⟨word, rfl⟩] at wide
      cases wide
    simp [bind, Except.bind, long]
  | ok span =>
    obtain ⟨word, rfl⟩ := layout.partitionWidth_eq_ok_iff.mp wide
    exact ⟨fun ok => ⟨word, ok⟩, fun ok => ok.2⟩

theorem partitionRange_eq_ok {granularity : Granularity} {epoch : Nat} {range : EpochRange}
    (ok : layout.partitionRange granularity epoch = .ok range) :
    range = layout.partitionRangeAt granularity epoch :=
  alignedRange_eq_ok (layout.partitionRange_eq_ok_iff.mp ok).2

theorem partitionFor_eq_ok {granularity : Granularity} {epoch : Nat} {partition : Partition}
    (ok : layout.partitionFor granularity epoch = .ok partition) :
    partition = layout.partitionAt granularity epoch := by
  unfold partitionFor at ok
  cases found : layout.partitionRange granularity epoch with
  | error cause => rw [found] at ok; cases ok
  | ok range =>
    rw [found] at ok
    obtain rfl := layout.partitionRange_eq_ok found
    cases granularity <;> (cases ok; rfl)

/-- Early epochs have their partitions. -/
theorem partitionFor_of_lt {granularity : Granularity} {epoch : Nat}
    (early : epoch + layout.shift granularity + layout.partitionSpan granularity < wordLimit) :
    layout.partitionFor granularity epoch = .ok (layout.partitionAt granularity epoch) := by
  have rangeIs : layout.partitionRange granularity epoch =
      .ok (layout.partitionRangeAt granularity epoch) :=
    layout.partitionRange_eq_ok_iff.mpr
      ⟨Nat.lt_of_le_of_lt (Nat.le_add_left _ _) early, alignedRange_of_lt early⟩
  unfold partitionFor
  rw [rangeIs]
  cases granularity <;> rfl

/-- Epochs of one partition have that partition. -/
theorem partitionAt_eq_of_range_eq {granularity : Granularity} {epoch other : Nat}
    (same : layout.partitionRangeAt granularity other =
      layout.partitionRangeAt granularity epoch) :
    layout.partitionAt granularity other = layout.partitionAt granularity epoch := by
  cases granularity <;> simp only [partitionAt, same]

/-- Partitions are known by their epochs. -/
theorem partitionAt_eq_iff {granularity : Granularity} {epoch other : Nat} :
    layout.partitionAt granularity other = layout.partitionAt granularity epoch ↔
      (layout.partitionRangeAt granularity epoch).start ≤ other ∧
        other < (layout.partitionRangeAt granularity epoch).stop := by
  have positive := layout.partitionSpan_pos granularity
  constructor
  · intro same
    have ranges := congrArg Partition.range same
    rw [range_partitionAt, range_partitionAt] at ranges
    rw [← ranges]
    exact ⟨EpochRange.start_aligned_le positive other, EpochRange.lt_stop_aligned positive other⟩
  · rintro ⟨after, before⟩
    exact layout.partitionAt_eq_of_range_eq (EpochRange.aligned_eq_of_mem positive after before)

/-- A bucket has one partition. -/
theorem partitionAt_eq_of_mem_bucket {granularity : Granularity} {epoch other : Nat}
    (after : (layout.bucketAt granularity epoch).start ≤ other)
    (before : other < (layout.bucketAt granularity epoch).stop) :
    layout.partitionAt granularity other = layout.partitionAt granularity epoch :=
  layout.partitionAt_eq_of_range_eq
    (EpochRange.aligned_mul_eq (layout.width_pos granularity) _ after before)

/-- A bucket ends no later than its partition. -/
theorem stop_bucketAt_le_stop_partition (granularity : Granularity) (epoch : Nat) :
    (layout.bucketAt granularity epoch).stop ≤
      (layout.partitionRangeAt granularity epoch).stop := by
  have positive := layout.width_pos granularity
  have order : (layout.bucketAt granularity epoch).start <
      (layout.bucketAt granularity epoch).stop :=
    EpochRange.start_aligned_lt_stop positive epoch
  have last : layout.partitionAt granularity ((layout.bucketAt granularity epoch).stop - 1) =
      layout.partitionAt granularity epoch :=
    layout.partitionAt_eq_of_mem_bucket (Nat.le_sub_one_of_lt order) (by omega)
  have within := (layout.partitionAt_eq_iff.mp last).2
  omega

theorem partitionAt_eq_of_bucketAt_eq {granularity : Granularity} {epoch other : Nat}
    (same : layout.bucketAt granularity other = layout.bucketAt granularity epoch) :
    layout.partitionAt granularity other = layout.partitionAt granularity epoch := by
  have positive := layout.width_pos granularity
  refine layout.partitionAt_eq_of_mem_bucket ?_ ?_
  · rw [← same]
    exact EpochRange.start_aligned_le positive other
  · rw [← same]
    exact EpochRange.lt_stop_aligned positive other

@[simp] theorem partitionAt_start (granularity : Granularity) (epoch : Nat) :
    layout.partitionAt granularity (layout.bucketAt granularity epoch).start =
      layout.partitionAt granularity epoch :=
  layout.partitionAt_eq_of_bucketAt_eq (layout.bucketAt_start granularity epoch)

end BucketLayout

/-! ### Layouts of given numbers -/

/-- The layout with these numbers: the genesis of the chain, the length of its slots and the slots
of its epochs, then the epochs of an hour, the hours of an hourly and the days of a daily
partition. -/
def BucketLayout.ofNumbers (genesis : Instant)
    (secondsPerSlot slotsPerEpoch hourlyWidth hourlyPartitionBuckets dailyPartitionBuckets : Nat)
    (accepted : genesis.InCalendar ∧
      (0 < secondsPerSlot * slotsPerEpoch ∧
        secondsPerDay % (secondsPerSlot * slotsPerEpoch) = 0) ∧
      (0 < hourlyWidth ∧ hourlyWidth ≤ secondsPerDay / (secondsPerSlot * slotsPerEpoch)) ∧
      0 < hourlyPartitionBuckets ∧ 0 < dailyPartitionBuckets) : BucketLayout where
  clock :=
    { genesis
      secondsPerSlot
      slotsPerEpoch
      genesis_inCalendar := accepted.1
      epoch_pos := accepted.2.1.1
      epoch_dvd_day := accepted.2.1.2 }
  hourlyWidth
  hourlyPartitionBuckets
  dailyPartitionBuckets
  hourlyWidth_pos := accepted.2.2.1.1
  hourlyWidth_le := accepted.2.2.1.2
  hourlyPartitionBuckets_pos := accepted.2.2.2.1
  dailyPartitionBuckets_pos := accepted.2.2.2.2

end EpochRollup
