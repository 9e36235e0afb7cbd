/-
This file creates partitions ahead of writes and drops them when they have expired.

A partition has expired when it ends at or before a boundary. The walk over expired
partitions goes down from the boundary, one bucket at a time, and stops below the oldest
bucket that still has rows, or less than one bucket above epoch 0. A partition of several
buckets is met several times and dropped the first time. A partition that is shorter than
a bucket, as the first one can be, may be stepped over.
-/

import EpochRollup.Pass.Procedure

namespace EpochRollup

namespace Procedure

/-- Creates a partition unless it exists, and says whether it was created. -/
def ensurePartition (partition : Partition) : Procedure Bool :=
  .askFor "ensure_partition" partition.range (.ensurePartition partition)

/-- Drops a partition and its rows, and says whether it existed. -/
def dropPartition (partition : Partition) : Procedure Bool :=
  .askFor "drop_partition" partition.range (.dropPartition partition)

end Procedure

namespace BucketLayout

variable (layout : BucketLayout)

/-- Creates the partition that holds an epoch, unless it exists. -/
def ensurePartitionFor (granularity : Granularity) (epoch : Nat) :
    Procedure (Partition × Bool) := do
  let partition ← .compute (layout.partitionFor granularity epoch)
  let created ← Procedure.ensurePartition partition
  return (partition, created)

/-- Drops the partition that holds an epoch if it ends by the boundary and was not met
before. The result is the ranges that were met and how many partitions were dropped. -/
def reclaimAt (granularity : Granularity) (boundary candidate : Nat) (met : List EpochRange)
    (dropped : Nat) : Procedure (List EpochRange × Nat) := do
  let partition ← .compute (layout.partitionFor granularity candidate)
  if partition.range.stop ≤ boundary ∧ partition.range ∉ met then
    if ← Procedure.dropPartition partition then
      return (partition.range :: met, dropped + 1)
    else
      return (partition.range :: met, dropped)
  else
    return (met, dropped)

/-- The walk down from a candidate epoch. -/
def reclaimFrom (granularity : Granularity) (boundary oldest candidate : Nat)
    (met : List EpochRange) (dropped : Nat) : Procedure Nat := do
  let (met, dropped) ← layout.reclaimAt granularity boundary candidate met dropped
  if candidate < oldest ∨ candidate < layout.width granularity then
    return dropped
  else
    reclaimFrom granularity boundary oldest (candidate - layout.width granularity) met dropped
termination_by candidate
decreasing_by
  have positive := layout.width_pos granularity
  omega

/-- Drops every partition that ends at or before a boundary, down to the oldest bucket that
still has rows, and counts those that existed. -/
def reclaimExpired (granularity : Granularity) (boundary oldest : Nat) : Procedure Nat :=
  layout.reclaimFrom granularity boundary oldest boundary [] 0

end BucketLayout

end EpochRollup
