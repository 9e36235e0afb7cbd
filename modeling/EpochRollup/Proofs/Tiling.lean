/-
This file proves that the ranges a layout answers with are the tiles of one tiling. A tile is
described by the function it was found with: asked for any of its epochs, the function answers
with that tile, and asked for the epoch it ends at, with a range that begins there. So nothing
here speaks of quotients, and a range that overflows for one of its epochs is no tile.
-/

import EpochRollup.Proofs.Days

namespace EpochRollup

/-- A range found for an epoch is a tile: it holds the epoch, every epoch in it finds the same
range, the range found at its end begins there, and it is as long as the width. Only a range at
epoch 0 is shorter, by the shift, and even that one is not empty. -/
structure IsTile (find : Nat → Except Abort EpochRange) (shift width epoch : Nat)
    (range : EpochRange) : Prop where
  /-- The epoch lies in its range. -/
  holds : range.contains epoch = true
  /-- The range is that of each of its epochs. -/
  whole : ∀ other, range.contains other = true → find other = .ok range
  /-- There is no gap between the range and the next one, and no overlap. -/
  next : ∀ after, find range.stop = .ok after → after.start = range.stop
  /-- The range is as long as the width, or begins at epoch 0 and misses the shift. -/
  length : range.length = if range.start = 0 then width - shift else width
  /-- The range is not empty. -/
  nonempty : 0 < range.length

namespace BucketLayout

section

variable {shift width epoch : Nat}

/-- A range at epoch 0 misses the shift, and no other does. -/
theorem length_aligned (inside : shift < width) :
    (EpochRange.aligned shift width epoch).length =
      if (EpochRange.aligned shift width epoch).start = 0 then width - shift else width := by
  unfold EpochRange.length
  split
  case isTrue first =>
    -- Only quotient 0 starts within the shift.
    rcases Nat.eq_zero_or_pos ((epoch + shift) / width) with zero | later
    · unfold EpochRange.aligned
      dsimp only
      rw [zero]
      omega
    · have past : width ≤ (epoch + shift) / width * width := Nat.le_mul_of_pos_left _ later
      unfold EpochRange.aligned at first
      dsimp only at first
      omega
  case isFalse later =>
    rw [EpochRange.stop_aligned_of_pos (Nat.pos_of_ne_zero later), Nat.add_sub_cancel_left]

theorem isTile_of_alignedRange_eq_ok {range : EpochRange} (inside : shift < width)
    (ok : alignedRange shift width epoch = .ok range) :
    IsTile (alignedRange shift width) shift width epoch range := by
  have positive : 0 < width := Nat.zero_lt_of_lt inside
  obtain ⟨ended, rfl⟩ := (alignedRange_eq_ok_iff_stop positive).mp ok
  have proper : (EpochRange.aligned shift width epoch).start <
      (EpochRange.aligned shift width epoch).stop := EpochRange.start_aligned_lt_stop positive epoch
  refine
    { holds := (EpochRange.contains_iff _ _).mpr
        ⟨EpochRange.start_aligned_le positive epoch, EpochRange.lt_stop_aligned positive epoch⟩
      whole := fun other member => ?whole
      next := fun after found => ?next
      length := length_aligned inside
      nonempty := Nat.sub_pos_of_lt proper }
  case whole =>
    obtain ⟨after, before⟩ := (EpochRange.contains_iff _ _).mp member
    have same := EpochRange.aligned_eq_of_mem positive after before
    exact (alignedRange_eq_ok_iff_stop positive).mpr ⟨by rw [same]; exact ended, same.symm⟩
  case next =>
    rw [alignedRange_eq_ok found, EpochRange.start_aligned_stop positive]

end

variable (layout : BucketLayout)

theorem shift_lt_width (granularity : Granularity) :
    layout.shift granularity < layout.width granularity := by
  cases granularity
  · exact layout.hourlyWidth_pos
  · exact layout.clock.utcOffset_lt

/-- A partition ends where a bucket ends, so that a bucket begins there. -/
theorem start_bucketAt_stop_partition (granularity : Granularity) (epoch : Nat) :
    (layout.bucketAt granularity (layout.partitionRangeAt granularity epoch).stop).start =
      (layout.partitionRangeAt granularity epoch).stop := by
  refine EpochRange.start_aligned_of_dvd ?_
  have stop : (layout.partitionRangeAt granularity epoch).stop + layout.shift granularity =
      ((epoch + layout.shift granularity) / layout.partitionSpan granularity + 1) *
        layout.partitionSpan granularity :=
    EpochRange.stop_aligned_add (layout.partitionSpan_pos granularity) epoch
  rw [stop]
  exact Nat.dvd_mul_left_of_dvd (Nat.dvd_mul_right _ _) _

theorem start_partition_le_start_bucketAt (granularity : Granularity) (epoch : Nat) :
    (layout.partitionRangeAt granularity epoch).start ≤
      (layout.bucketAt granularity epoch).start :=
  (layout.partitionAt_eq_iff.mp (layout.partitionAt_start granularity epoch)).1

variable {layout}

/-- An epoch that has a partition has a bucket. -/
theorem bucket_of_partitionRange_eq_ok {granularity : Granularity} {epoch : Nat}
    {partition : EpochRange} (ok : layout.partitionRange granularity epoch = .ok partition) :
    layout.bucket granularity epoch = .ok (layout.bucketAt granularity epoch) := by
  obtain ⟨-, found⟩ := layout.partitionRange_eq_ok_iff.mp ok
  obtain ⟨ended, -⟩ :=
    (alignedRange_eq_ok_iff_stop (layout.partitionSpan_pos granularity)).mp found
  have within := layout.stop_bucketAt_le_stop_partition granularity epoch
  refine (alignedRange_eq_ok_iff_stop (layout.width_pos granularity)).mpr ⟨?_, rfl⟩
  exact Nat.lt_of_le_of_lt (Nat.add_le_add_right within _) ended

/-- Buckets and partitions tile the epochs. The bucket of an epoch is a tile of the width of a
bucket, and its partition one of the width of a partition; the partition holds the whole
bucket, and the epoch it ends at begins a bucket as well as a partition. -/
theorem buckets_and_partitions_tile (layout : BucketLayout) (granularity : Granularity)
    (epoch : Nat) :
    (∀ bucket, layout.bucket granularity epoch = .ok bucket →
        IsTile (layout.bucket granularity) (layout.shift granularity) (layout.width granularity)
          epoch bucket) ∧
      ∀ partition, layout.partitionRange granularity epoch = .ok partition →
        (∃ span, layout.partitionWidth granularity = .ok span ∧
          IsTile (layout.partitionRange granularity) (layout.shift granularity) span epoch
            partition) ∧
        (∃ bucket, layout.bucket granularity epoch = .ok bucket ∧
          partition.start ≤ bucket.start ∧ bucket.stop ≤ partition.stop) ∧
        ∀ after, layout.bucket granularity partition.stop = .ok after →
          after.start = partition.stop := by
  refine ⟨fun bucket ok => isTile_of_alignedRange_eq_ok (layout.shift_lt_width granularity) ok,
    fun partition ok => ⟨?tile, ?holds, ?next⟩⟩
  case tile =>
    obtain ⟨word, found⟩ := layout.partitionRange_eq_ok_iff.mp ok
    have wide : layout.partitionWidth granularity = .ok (layout.partitionSpan granularity) :=
      layout.partitionWidth_eq_ok_iff.mpr ⟨word, rfl⟩
    have finds : layout.partitionRange granularity =
        alignedRange (layout.shift granularity) (layout.partitionSpan granularity) := by
      funext other
      unfold partitionRange
      rw [wide]
      rfl
    have inside : layout.shift granularity < layout.partitionSpan granularity :=
      Nat.lt_of_lt_of_le (layout.shift_lt_width granularity)
        (layout.width_le_partitionSpan granularity)
    refine ⟨layout.partitionSpan granularity, wide, ?_⟩
    rw [finds]
    exact isTile_of_alignedRange_eq_ok inside found
  case holds =>
    refine ⟨layout.bucketAt granularity epoch, bucket_of_partitionRange_eq_ok ok, ?_, ?_⟩
    all_goals rw [layout.partitionRange_eq_ok ok]
    · exact layout.start_partition_le_start_bucketAt granularity epoch
    · exact layout.stop_bucketAt_le_stop_partition granularity epoch
  case next =>
    intro after found
    rw [layout.partitionRange_eq_ok ok] at found ⊢
    rw [layout.bucket_eq_ok found, start_bucketAt_stop_partition]

end BucketLayout

namespace ShortFirstDay

/-- A chain that begins at six in the evening, with epochs of an hour: eighteen of the 24 epochs
of its first day are missing. Seven hours to a bucket do not divide the day. -/
def layout : BucketLayout :=
  .ofNumbers ⟨1704132000, 0⟩ 1200 3 7 2 2 (by decide)

end ShortFirstDay

open ShortFirstDay in
/-- The first day has six epochs, and its partition 18 epochs less than two days. -/
theorem buckets_and_partitions_tile_short_first_day :
    IsTile (layout.bucket .daily) 18 24 5 ⟨0, 6⟩ ∧
      (∃ span, layout.partitionWidth .daily = .ok span ∧
        IsTile (layout.partitionRange .daily) 18 span 5 ⟨0, 30⟩) ∧
      (⟨0, 6⟩ : EpochRange).length = 24 - 18 ∧
      layout.bucket .daily 30 = .ok ⟨30, 54⟩ := by
  obtain ⟨buckets, partitions⟩ := BucketLayout.buckets_and_partitions_tile layout .daily 5
  obtain ⟨tile, -, -⟩ := partitions ⟨0, 30⟩ rfl
  have bucket := buckets ⟨0, 6⟩ rfl
  exact ⟨bucket, tile, bucket.length, rfl⟩

end EpochRollup
