/-
This file holds range partitions of the rollup tables. A partition is known to a
store by its name alone, and the name is made from the interval of keys the
partition covers: epochs for an hourly partition, calendar days for a daily one.
-/

import EpochRollup.Layout

namespace EpochRollup

/-- The tables of the engine. -/
inductive RollupTable where
  /-- Rows exported per epoch. -/
  | epoch
  /-- Hourly buckets, partitioned by their first epoch. -/
  | hourly
  /-- UTC days, partitioned by the day. -/
  | daily
  /-- The trailing window, replaced as a whole. -/
  | rolling
deriving DecidableEq, Repr

/-- The name of a table. -/
def RollupTable.name : RollupTable → String
  | .epoch => "validator_dashboard_data_epoch"
  | .hourly => "validator_dashboard_data_hourly"
  | .daily => "validator_dashboard_data_daily"
  | .rolling => "validator_dashboard_data_rolling_daily"

/-- The partitioned table of a granularity. -/
def Granularity.table : Granularity → RollupTable
  | .hourly => .hourly
  | .daily => .daily

/-- Range partition of a rollup table. A daily partition is keyed by its days and carries
its epochs only for reports. -/
inductive Partition where
  /-- Hourly buckets that start in a range of epochs. -/
  | hourly (range : EpochRange)
  /-- Days of a range of days. -/
  | daily (range : EpochRange) (days : DayRange)
deriving DecidableEq, Repr

namespace Partition

/-- The granularity of the table a partition belongs to. -/
def granularity : Partition → Granularity
  | .hourly _ => .hourly
  | .daily _ _ => .daily

/-- The epochs of a partition. -/
def range : Partition → EpochRange
  | .hourly range => range
  | .daily range _ => range

/-- The days of a daily partition. -/
def days? : Partition → Option DayRange
  | .hourly _ => none
  | .daily _ days => some days

/-- The table a partition belongs to. -/
def parent (partition : Partition) : RollupTable := partition.granularity.table

/-- The name of a partition: its table and the two ends of its keys. -/
def name : Partition → String
  | .hourly range =>
    RollupTable.hourly.name ++ "_" ++ toString range.start ++ "_" ++ toString range.stop
  | .daily _ days =>
    RollupTable.daily.name ++ "_" ++ days.start.compact ++ "_" ++ days.stop.compact

end Partition

/-- The partition that holds an epoch. -/
def BucketLayout.partitionFor (layout : BucketLayout) (granularity : Granularity) (epoch : Nat) :
    Except Abort Partition := do
  let range ← layout.partitionRange granularity epoch
  match granularity with
  | .hourly => return .hourly range
  | .daily => return .daily range (layout.days range)

end EpochRollup
