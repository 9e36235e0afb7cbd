/-
This file lists the statements that are sent to a database server and gives each its
text. Values never stand in a text: they are bound to parameters. Only the names and
bounds of partitions are written out, and these are made of numbers and days.
-/

import EpochRollup.Sql.Schema

namespace EpochRollup

/-- The bounds of a partition in its definition. -/
def Partition.bounds : Partition → String
  | .hourly range =>
    "FOR VALUES FROM (" ++ toString range.start ++ ") TO (" ++ toString range.stop ++ ")"
  | .daily _ days =>
    "FOR VALUES FROM ('" ++ days.start.iso ++ "') TO ('" ++ days.stop.iso ++ "')"

/-- A statement for a database server. -/
inductive ServerStatement where
  /-- A statement of the schema, by its number and text. -/
  | schema (index : Nat) (text : String)
  /-- Checks that the database answers. -/
  | health
  /-- Inserts or overwrites an epoch row. -/
  | upsertEpoch
  /-- Inserts or overwrites an hourly row. -/
  | upsertHourly
  /-- Folds epochs into an hour. -/
  | foldHour
  /-- Folds hours into a day. -/
  | foldDay
  /-- Folds hours into the rolling table. -/
  | insertRolling
  /-- Empties the rolling table. -/
  | clearRolling
  /-- The lowest epoch. -/
  | firstEpoch
  /-- The highest epoch. -/
  | lastEpoch
  /-- The latest bucket of a table and the end of its coverage. -/
  | lastBounds (granularity : Granularity)
  /-- The lowest bucket start of a table. -/
  | firstBucket (granularity : Granularity)
  /-- The lowest hourly bucket start from an epoch on. -/
  | firstHourlyFrom
  /-- The hourly rows of a range. -/
  | hourlyRows
  /-- The rows of a day. -/
  | dailyRows
  /-- The days with rows. -/
  | dailyDays
  /-- The rows of the rolling table. -/
  | rollingRows
  /-- Whether a partition exists. -/
  | partitionExists
  /-- Creates a partition. -/
  | createPartition (partition : Partition)
  /-- Drops a partition. -/
  | dropPartition (partition : Partition)
  /-- The names of the partitions of a table. -/
  | listPartitions
deriving DecidableEq, Repr

namespace ServerStatement

/-- The text of a statement. -/
def text : ServerStatement → String
  | .schema _ text => text
  | .health => "SELECT 1"
  | .upsertEpoch => upsertEpochQuery .postgres
  | .upsertHourly => upsertHourlyQuery .postgres
  | .foldHour => foldHourQuery .postgres
  | .foldDay => foldDayQuery .postgres
  | .insertRolling => insertRollingQuery .postgres
  | .clearRolling => "TRUNCATE " ++ RollupTable.rolling.name
  | .firstEpoch => "SELECT MIN(epoch) FROM " ++ RollupTable.epoch.name
  | .lastEpoch => "SELECT MAX(epoch) FROM " ++ RollupTable.epoch.name
  | .lastBounds granularity =>
    let table := granularity.table.name
    "SELECT epoch_start, MAX(epoch_end) FROM " ++ table ++
      " WHERE epoch_start = (SELECT MAX(epoch_start) FROM " ++ table ++ ") GROUP BY epoch_start"
  | .firstBucket granularity => "SELECT MIN(epoch_start) FROM " ++ granularity.table.name
  | .firstHourlyFrom =>
    "SELECT MIN(epoch_start) FROM " ++ RollupTable.hourly.name ++ " WHERE epoch_start >= $1"
  | .hourlyRows =>
    "SELECT * FROM " ++ RollupTable.hourly.name ++
      " WHERE epoch_start >= $1 AND epoch_start < $2 ORDER BY epoch_start, validator_index"
  | .dailyRows =>
    "SELECT * FROM " ++ RollupTable.daily.name ++ " WHERE day = $1 ORDER BY validator_index"
  | .dailyDays => "SELECT DISTINCT day FROM " ++ RollupTable.daily.name ++ " ORDER BY day"
  | .rollingRows => "SELECT * FROM " ++ RollupTable.rolling.name ++ " ORDER BY validator_index"
  | .partitionExists => "SELECT to_regclass($1) IS NOT NULL"
  | .createPartition partition =>
    "CREATE TABLE IF NOT EXISTS " ++ partition.name ++ " PARTITION OF " ++ partition.parent.name ++
      " " ++ partition.bounds
  | .dropPartition partition => "DROP TABLE IF EXISTS " ++ partition.name
  | .listPartitions =>
    "SELECT child.relname::TEXT FROM pg_inherits " ++
      "JOIN pg_class child ON child.oid = pg_inherits.inhrelid " ++
      "JOIN pg_class parent ON parent.oid = pg_inherits.inhparent " ++
      "JOIN pg_namespace ns ON ns.oid = parent.relnamespace " ++
      "WHERE parent.relname = $1 AND ns.nspname = current_schema() ORDER BY child.relname"

/-- The statements that create the tables, in order. -/
def migration : List ServerStatement :=
  (schemaStatements (schemaText .postgres)).mapIdx ServerStatement.schema

end ServerStatement

end EpochRollup
