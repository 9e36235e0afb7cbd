/-
This file lists what can be asked of a rollup store and what each answer is. An
operation either answers or fails with a store error; which of the two, and what
becomes of the tables, is the store's affair.
-/

import EpochRollup.Dialogue
import EpochRollup.Partition
import EpochRollup.Metric.Row
import EpochRollup.Store.Error

namespace EpochRollup

/-- An operation of a rollup store. -/
inductive StoreCall where
  /-- Create the rollup tables that do not exist. -/
  | migrate
  /-- Check that the database answers. -/
  | health
  /-- Insert or overwrite rows of the epoch table, all or none. -/
  | upsertEpochs (rows : List EpochRow)
  /-- Lowest epoch with a row. -/
  | firstEpoch
  /-- Highest epoch with a row. -/
  | lastEpoch
  /-- Fold the epochs of a bucket into hourly rows, overwriting earlier folds. -/
  | foldHour (bucket : EpochRange)
  /-- Insert or overwrite rows of the hourly table, all or none. -/
  | upsertHourly (rows : List HourlyRow)
  /-- Latest hourly bucket and the end of its coverage. -/
  | lastHourlyBounds
  /-- Lowest start of an hourly bucket. -/
  | firstHourlyEpoch
  /-- Lowest start of an hourly bucket from an epoch on. -/
  | firstHourlyFrom (epoch : Nat)
  /-- Hourly rows of the buckets that start in a range, by bucket and validator. -/
  | hourlyRows (range : EpochRange)
  /-- Fold the hours that start in a range into the rows of a day. -/
  | foldDay (range : EpochRange) (day : CalendarDay)
  /-- Latest day bucket and the end of its coverage. -/
  | lastDailyBounds
  /-- Lowest start of a day bucket. -/
  | firstDailyEpoch
  /-- Rows of a day, by validator. -/
  | dailyRows (day : CalendarDay)
  /-- Days with rows, in their stored order. -/
  | dailyDays
  /-- Replace the rolling table by the fold of the hours from a start to the head. -/
  | replaceRolling (start head : Nat)
  /-- Empty the rolling table. -/
  | clearRolling
  /-- Rows of the rolling table, by validator. -/
  | rollingRows
  /-- Create a partition unless one of its name exists. -/
  | ensurePartition (partition : Partition)
  /-- Drop a partition and the rows in it. -/
  | dropPartition (partition : Partition)
  /-- Whether a partition of this name exists. -/
  | partitionExists (partition : Partition)
  /-- Names of the partitions of a table, in order. -/
  | listPartitions (granularity : Granularity)
deriving DecidableEq

/-- The operation writes, whatever the tables hold. -/
def StoreCall.writes : StoreCall → Bool
  | .upsertEpochs rows => !rows.isEmpty
  | .upsertHourly rows => !rows.isEmpty
  | .foldHour _ | .foldDay _ _ | .replaceRolling _ _ | .clearRolling | .ensurePartition _
  | .dropPartition _ => true
  | _ => false

/-- What an operation answers when it succeeds. -/
@[reducible] def StoreCall.Answer : StoreCall → Type
  | .migrate | .health | .upsertEpochs _ | .upsertHourly _ | .clearRolling => Unit
  | .firstEpoch | .lastEpoch | .firstHourlyEpoch | .firstHourlyFrom _ | .firstDailyEpoch =>
    Option Nat
  | .lastHourlyBounds | .lastDailyBounds => Option EpochRange
  | .foldHour _ | .foldDay _ _ | .replaceRolling _ _ => Nat
  | .hourlyRows _ => List HourlyRow
  | .dailyRows _ => List DailyRow
  | .rollingRows => List RollingRow
  | .dailyDays => List CalendarDay
  | .ensurePartition _ | .dropPartition _ | .partitionExists _ => Bool
  | .listPartitions _ => List String

/-- What an operation comes back with. -/
@[reducible] def StoreCall.Reply (call : StoreCall) : Type := Except StoreError call.Answer

end EpochRollup
