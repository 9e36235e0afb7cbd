/-
This file lays buckets and partitions over the epochs of a chain.

Hourly buckets are counted from genesis. Daily buckets are whole UTC days, so they
are counted from the UTC midnight before genesis; the first one is cut short where
the chain begins. A partition is a fixed number of consecutive buckets, counted from
the same point as the buckets it holds. All four are one construction, a flooring of
the epoch line shifted to its counting point (`alignedRange`), and differ only in
the shift and the width.

The line is a line of words: an epoch so late that its bucket would end past the
largest word has no bucket, and asking for it aborts.
-/

import EpochRollup.Chain
import EpochRollup.Range

namespace EpochRollup

/-- Rollup granularity backed by a partitioned table. -/
inductive Granularity where
  /-- Buckets counted from genesis. -/
  | hourly
  /-- UTC calendar days. -/
  | daily
deriving DecidableEq, Repr

/-- The word for a granularity. -/
def Granularity.name : Granularity → String
  | .hourly => "hourly"
  | .daily => "daily"

/-! ### Accepted layouts -/

/-- Why a layout is refused. -/
inductive LayoutFault where
  /-- An hourly bucket holds no epochs. -/
  | emptyHour
  /-- An hourly bucket is wider than a day. -/
  | hourWiderThanDay (hour day : Nat)
  /-- A partition holds no buckets. -/
  | emptyPartition
  /-- A fault reported by its text alone. -/
  | described (reason : String)
deriving DecidableEq, Repr

/-- The reason a fault gives. -/
def LayoutFault.reason : LayoutFault → String
  | .emptyHour => "hourly width must be > 0 epochs"
  | .hourWiderThanDay hour day =>
    "hourly width (" ++ toString hour ++ ") exceeds the daily width (" ++ toString day ++ ")"
  | .emptyPartition => "partitions must hold at least one bucket"
  | .described reason => reason

/-- Why a chain and its layout cannot be set up. -/
inductive SetupError where
  /-- The chain timing is refused. -/
  | chainTiming (fault : TimingFault)
  /-- The bucket layout is refused. -/
  | bucketLayout (fault : LayoutFault)
deriving DecidableEq, Repr

/-- The text of a set-up error. -/
def SetupError.message : SetupError → String
  | .chainTiming fault => "invalid chain timing: " ++ fault.reason
  | .bucketLayout fault => "invalid bucket layout: " ++ fault.reason

/-- Bucket widths, partition widths and calendar alignment for one chain. -/
structure BucketLayout where
  /-- The clock of the chain. -/
  clock : ChainClock
  /-- Epochs in one hourly bucket. -/
  hourlyWidth : Nat
  /-- Hourly buckets in one hourly partition. -/
  hourlyPartitionBuckets : Nat
  /-- Days in one daily partition. -/
  dailyPartitionBuckets : Nat
  /-- An hourly bucket holds an epoch. -/
  hourlyWidth_pos : 0 < hourlyWidth
  /-- An hourly bucket is no wider than a day. -/
  hourlyWidth_le : hourlyWidth ≤ clock.epochsPerDay
  /-- An hourly partition holds a bucket. -/
  hourlyPartitionBuckets_pos : 0 < hourlyPartitionBuckets
  /-- A daily partition holds a day. -/
  dailyPartitionBuckets_pos : 0 < dailyPartitionBuckets
deriving DecidableEq

namespace BucketLayout

/-- A layout from its widths. The first width that is refused is named. -/
def new (clock : ChainClock) (hourlyWidth hourlyPartitionBuckets dailyPartitionBuckets : Nat) :
    Except LayoutFault BucketLayout :=
  if emptyHour : hourlyWidth = 0 then
    .error .emptyHour
  else if wide : clock.epochsPerDay < hourlyWidth then
    .error (.hourWiderThanDay hourlyWidth clock.epochsPerDay)
  else if empty : hourlyPartitionBuckets = 0 ∨ dailyPartitionBuckets = 0 then
    .error .emptyPartition
  else
    .ok
      { clock
        hourlyWidth
        hourlyPartitionBuckets
        dailyPartitionBuckets
        hourlyWidth_pos := Nat.pos_of_ne_zero emptyHour
        hourlyWidth_le := Nat.le_of_not_lt wide
        hourlyPartitionBuckets_pos := Nat.pos_of_ne_zero fun none => empty (.inl none)
        dailyPartitionBuckets_pos := Nat.pos_of_ne_zero fun none => empty (.inr none) }

/-- The hourly width used when none is configured: a day in 24 parts, and at least one
epoch. -/
def defaultHourlyWidth (clock : ChainClock) : Nat := max (clock.epochsPerDay / 24) 1

/-! ### Widths and counting points -/

variable (layout : BucketLayout)

/-- Epochs in one UTC day. -/
def dailyWidth : Nat := layout.clock.epochsPerDay

/-- Whole epochs between the midnight before genesis and genesis. -/
def utcOffset : Nat := layout.clock.utcOffset

/-- Bucket width in epochs for a granularity. -/
def width : Granularity → Nat
  | .hourly => layout.hourlyWidth
  | .daily => layout.dailyWidth

/-- How many epochs before epoch 0 the buckets of a granularity are counted from. -/
def shift : Granularity → Nat
  | .hourly => 0
  | .daily => layout.utcOffset

/-- Buckets in one partition of a granularity. -/
def partitionBuckets : Granularity → Nat
  | .hourly => layout.hourlyPartitionBuckets
  | .daily => layout.dailyPartitionBuckets

/-- Partition width in epochs for a granularity. -/
def partitionWidth (granularity : Granularity) : Except Abort Nat :=
  Word.multiply (layout.width granularity) (layout.partitionBuckets granularity)

theorem width_pos (granularity : Granularity) : 0 < layout.width granularity := by
  cases granularity
  · exact layout.hourlyWidth_pos
  · exact layout.clock.epochsPerDay_pos

theorem partitionBuckets_pos (granularity : Granularity) :
    0 < layout.partitionBuckets granularity := by
  cases granularity
  · exact layout.hourlyPartitionBuckets_pos
  · exact layout.dailyPartitionBuckets_pos

/-! ### Aligned ranges -/

/-- The range of the given width that holds an epoch, among the consecutive ranges of
that width that start `shift` epochs before epoch 0. A range that would start before epoch
0 starts there. -/
def alignedRange (shift width epoch : Nat) : Except Abort EpochRange := do
  let shifted ← Word.add epoch shift
  let start := shifted / width * width
  let stop ← Word.add start width
  return ⟨start - shift, stop - shift⟩

/-- The bucket that holds an epoch. -/
def bucket (granularity : Granularity) (epoch : Nat) : Except Abort EpochRange :=
  alignedRange (layout.shift granularity) (layout.width granularity) epoch

/-- The range of the partition that holds an epoch. -/
def partitionRange (granularity : Granularity) (epoch : Nat) : Except Abort EpochRange := do
  let width ← layout.partitionWidth granularity
  alignedRange (layout.shift granularity) width epoch

/-- Calendar days covered by an epoch range whose ends fall on UTC days. -/
def days (range : EpochRange) : DayRange :=
  ⟨layout.clock.dayOf range.start, layout.clock.dayOf range.stop⟩

end BucketLayout

end EpochRollup
