/-
This file holds the rows of the embedded store: four tables whose rows stand in the
order of their keys, each key at most once, and the catalogue of partitions. The two
partitioned tables admit a row only where a catalogued partition covers its key.

The tables differ in few respects, and these are gathered in `RowKind`: what is written
into a table and deleted from it is said once, for a kind of rows.
-/

import EpochRollup.Partition
import EpochRollup.Metric.Row

namespace EpochRollup

/-! ### Rows in the order of their keys -/

/-- Writes a row into rows that stand in the order `before`. A row that stands neither
before nor after it has the same key and is overwritten. -/
def putRow {Row : Type} (before : Row → Row → Bool) (row : Row) : List Row → List Row
  | [] => [row]
  | head :: rest =>
    if before row head then row :: head :: rest
    else if before head row then head :: putRow before row rest
    else row :: rest

/-- Epoch rows stand by epoch and validator. -/
def EpochRow.before (left right : EpochRow) : Bool :=
  left.epoch < right.epoch || (left.epoch = right.epoch && left.validator < right.validator)

/-- Hourly rows stand by bucket and validator. -/
def HourlyRow.before (left right : HourlyRow) : Bool :=
  left.start < right.start || (left.start = right.start && left.validator < right.validator)

/-- Daily rows stand by written day and validator. -/
def DailyRow.before (left right : DailyRow) : Bool :=
  left.day.textKey < right.day.textKey ||
    (left.day.textKey = right.day.textKey && left.validator < right.validator)

/-- Rolling rows stand by validator. -/
def RollingRow.before (left right : RollingRow) : Bool := left.validator < right.validator

/-- The greatest start of rows, and the greatest stop of the rows that start there. -/
def latestBounds? {Row : Type} (start stop : Row → Int) (rows : List Row) : Option (Int × Int) := do
  let last ← (rows.map start).max?
  let covered ← ((rows.filter (start · = last)).map stop).max?
  return (last, covered)

/-! ### Tables -/

/-- The rows of the store. -/
structure Tables where
  /-- Rows per epoch. -/
  epochs : List EpochRow
  /-- Rows per hourly bucket. -/
  hourly : List HourlyRow
  /-- Rows per UTC day. -/
  daily : List DailyRow
  /-- Rows of the trailing window. -/
  rolling : List RollingRow
  /-- The partitions there are, each name once. -/
  catalogue : List Partition
deriving DecidableEq

namespace Tables

/-- A store without rows and partitions. -/
def empty : Tables := ⟨[], [], [], [], []⟩

/-- A catalogued hourly partition covers the start of a bucket. -/
def admitsHour (tables : Tables) (start : Int) : Bool :=
  tables.catalogue.any fun
    | .hourly range => (range.start : Int) ≤ start && start < range.stop
    | .daily _ _ => false

/-- A catalogued daily partition covers a day. Days are compared as they are written. -/
def admitsDay (tables : Tables) (day : CalendarDay) : Bool :=
  tables.catalogue.any fun
    | .hourly _ => false
    | .daily _ days =>
      days.start.textKey ≤ day.textKey && day.textKey < days.stop.textKey

/-- The catalogue holds a partition of this name. -/
def hasPartition (tables : Tables) (name : String) : Bool :=
  tables.catalogue.any (·.name = name)

/-- The latest hourly bucket and the end of its coverage. -/
def lastHourly? (tables : Tables) : Option (Int × Int) :=
  latestBounds? HourlyRow.start HourlyRow.stop tables.hourly

/-- The day bucket that starts last and the end of its coverage. -/
def lastDaily? (tables : Tables) : Option (Int × Int) :=
  latestBounds? DailyRow.start DailyRow.stop tables.daily

end Tables

/-! ### Kinds of rows -/

/-- How the rows of a table are kept. -/
structure RowKind (Row : Type) where
  /-- The table. -/
  table : RollupTable
  /-- What a fault on the table is placed by. -/
  faultKey : Row → Int
  /-- A catalogued partition covers the row, where the table has partitions. -/
  admits : Tables → Row → Bool
  /-- The order of the rows. -/
  before : Row → Row → Bool
  /-- The validator of a row. -/
  validator : Row → Int
  /-- The metrics of a row. -/
  metrics : Row → Metrics
  /-- A row with other metrics. -/
  withMetrics : Row → Metrics → Row
  /-- The rows of the table. -/
  rows : Tables → List Row
  /-- The tables with other rows in this one. -/
  withRows : Tables → List Row → Tables
  /-- The other rows are then the rows of the table. -/
  rows_withRows : ∀ tables kept, rows (withRows tables kept) = kept
  /-- A table can be given its own rows. -/
  withRows_rows : ∀ tables, withRows tables (rows tables) = tables
  /-- Of two changes the later one counts. -/
  withRows_withRows : ∀ tables earlier later,
    withRows (withRows tables earlier) later = withRows tables later
  /-- Rows do not decide which rows are covered. -/
  admits_withRows : ∀ tables kept row, admits (withRows tables kept) row = admits tables row

namespace RowKind

/-- Rows per epoch. -/
@[reducible]
def epoch : RowKind EpochRow where
  table := .epoch
  faultKey := EpochRow.epoch
  admits := fun _ _ => true
  before := EpochRow.before
  validator := EpochRow.validator
  metrics := EpochRow.metrics
  withMetrics := fun row metrics => { row with metrics }
  rows := Tables.epochs
  withRows := fun tables epochs => { tables with epochs }
  rows_withRows := fun _ _ => rfl
  withRows_rows := fun _ => rfl
  withRows_withRows := fun _ _ _ => rfl
  admits_withRows := fun _ _ _ => rfl

/-- Rows per hourly bucket. -/
@[reducible]
def hourly : RowKind HourlyRow where
  table := .hourly
  faultKey := HourlyRow.start
  admits := fun tables row => tables.admitsHour row.start
  before := HourlyRow.before
  validator := HourlyRow.validator
  metrics := HourlyRow.metrics
  withMetrics := fun row metrics => { row with metrics }
  rows := Tables.hourly
  withRows := fun tables hourly => { tables with hourly }
  rows_withRows := fun _ _ => rfl
  withRows_rows := fun _ => rfl
  withRows_withRows := fun _ _ _ => rfl
  admits_withRows := fun _ _ _ => rfl

/-- Rows per UTC day. -/
@[reducible]
def daily : RowKind DailyRow where
  table := .daily
  faultKey := DailyRow.start
  admits := fun tables row => tables.admitsDay row.day
  before := DailyRow.before
  validator := DailyRow.validator
  metrics := DailyRow.metrics
  withMetrics := fun row metrics => { row with metrics }
  rows := Tables.daily
  withRows := fun tables daily => { tables with daily }
  rows_withRows := fun _ _ => rfl
  withRows_rows := fun _ => rfl
  withRows_withRows := fun _ _ _ => rfl
  admits_withRows := fun _ _ _ => rfl

/-- Rows of the trailing window. -/
@[reducible]
def rolling : RowKind RollingRow where
  table := .rolling
  faultKey := RollingRow.validator
  admits := fun _ _ => true
  before := RollingRow.before
  validator := RollingRow.validator
  metrics := RollingRow.metrics
  withMetrics := fun row metrics => { row with metrics }
  rows := Tables.rolling
  withRows := fun tables rolling => { tables with rolling }
  rows_withRows := fun _ _ => rfl
  withRows_rows := fun _ => rfl
  withRows_withRows := fun _ _ _ => rfl
  admits_withRows := fun _ _ _ => rfl

end RowKind

end EpochRollup
