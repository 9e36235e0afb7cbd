/-
This file writes the statements that change rollup rows. A row is written with a
parameter for each of its columns, which is bound to a value of the row. A fold is one
statement: it names its sources in clauses, selects a row per validator, and overwrites
a row that is there already. Its metric columns follow the merge class of each column.
-/

import EpochRollup.Metric.Row
import EpochRollup.Partition
import EpochRollup.Sql.Dialect

namespace EpochRollup

/-- Lines joined to a text. -/
def joinLines (lines : List String) : String := "\n".intercalate lines

/-- Items of a comma list on one line. -/
def commaList (items : List String) : String := ", ".intercalate items

/-- The names of the metric columns. -/
def metricNames : List String := Column.all.map (·.name)

/-! ### Columns -/

/-- The columns that are no part of a key. -/
def columnsBeside (key columns : List String) : List String :=
  columns.filter fun column => !key.contains column

namespace EpochRow

/-- The key columns of the epoch table. -/
def keyColumns : List String := ["epoch", "validator_index"]

/-- The columns an epoch row is written to, in the order of its parameters. -/
def writtenColumns : List String := keyColumns ++ metricNames

/-- The values of an epoch row, in the order of its parameters. -/
def boundCells (row : EpochRow) : List Cell :=
  [.integer row.epoch, .integer row.validator] ++ row.metrics.cells

end EpochRow

namespace HourlyRow

/-- The key columns of the hourly table. -/
def keyColumns : List String := ["epoch_start", "validator_index"]

/-- The columns an hourly row is written to, in the order of its parameters. -/
def writtenColumns : List String := keyColumns ++ ["epoch_end"] ++ metricNames

/-- The columns that are overwritten in a row whose key is there. -/
def overwrittenColumns : List String := columnsBeside keyColumns writtenColumns

/-- The columns of the hourly table before the metrics. -/
def leadingColumns : List String := ["epoch_start", "epoch_end", "validator_index"]

/-- The columns of the hourly table, in the order in which a row is read. -/
def readColumns : List String := leadingColumns ++ metricNames

/-- The values of an hourly row, in the order of its parameters. -/
def boundCells (row : HourlyRow) : List Cell :=
  [.integer row.start, .integer row.validator, .integer row.stop] ++ row.metrics.cells

end HourlyRow

/-! ### Overwriting -/

/-- What is done with a row whose key is there: the other columns are overwritten. -/
def overwrite (key columns : List String) : String :=
  "ON CONFLICT (" ++ commaList key ++ ") DO UPDATE SET\n    " ++
    ",\n    ".intercalate ((columnsBeside key columns).map fun column =>
      column ++ " = excluded." ++ column)

/-- Inserts or overwrites one row, with a parameter for each column. -/
def upsertQuery (dialect : Dialect) (table : RollupTable) (key columns : List String) : String :=
  let parameters := (List.range columns.length).map fun index => dialect.parameter (index + 1)
  joinLines
    ["INSERT INTO " ++ table.name ++ " (" ++ commaList columns ++ ")",
      "VALUES (" ++ commaList parameters ++ ")",
      overwrite key columns]

/-- Inserts or overwrites an epoch row. -/
def upsertEpochQuery (dialect : Dialect) : String :=
  upsertQuery dialect .epoch EpochRow.keyColumns EpochRow.writtenColumns

/-- Inserts or overwrites an hourly row. -/
def upsertHourlyQuery (dialect : Dialect) : String :=
  upsertQuery dialect .hourly HourlyRow.keyColumns HourlyRow.writtenColumns

/-! ### Folds -/

/-- A named source of a fold. -/
structure FoldClause where
  /-- The name. -/
  name : String
  /-- The lines of its selection. -/
  lines : List String

/-- A fold of one table into another. -/
structure FoldQuery where
  /-- The sources, beside the totals of each validator. -/
  clauses : List FoldClause
  /-- The table the finer rows come from. -/
  source : RollupTable
  /-- Which finer rows belong to the fold. -/
  condition : String
  /-- The table the merged rows go to. -/
  target : RollupTable
  /-- The key and coverage columns, and the value of each. -/
  columns : List (String × String)
  /-- The key whose rows are overwritten, or none when the table has been emptied. -/
  conflict : Option (List String)

namespace FoldQuery

/-- A clause, indented. -/
def clauseText (clause : FoldClause) : String :=
  "    " ++ clause.name ++ " AS (\n" ++
    joinLines (clause.lines.map fun line => "        " ++ line) ++ "\n    )"

/-- How a column is folded over the rows of a validator. The balances are not: they come from
single rows. -/
def foldedColumn (dialect : Dialect) (column : Column) : Option String :=
  match column.mergeClass with
  | .additive => some ("SUM(" ++ column.name ++ ") AS " ++ column.name)
  | .booleanOr => some (dialect.anyTrue column.name ++ " AS " ++ column.name)
  | .boundaryStart | .boundaryEnd => none

/-- The totals of each validator. -/
def totals (dialect : Dialect) (query : FoldQuery) : FoldClause where
  name := "totals"
  lines :=
    ["SELECT validator_index,",
      "    " ++ ",\n            ".intercalate (Column.all.filterMap (foldedColumn dialect)),
      "FROM " ++ query.source.name,
      "WHERE " ++ query.condition,
      "GROUP BY validator_index"]

/-- Where the merged value of a column comes from. -/
def selectedColumn (column : Column) : String :=
  match column.mergeClass with
  | .additive | .booleanOr => "totals." ++ column.name
  | .boundaryStart => "balance_starts." ++ column.name
  | .boundaryEnd => "balance_ends." ++ column.name

/-- The rows of a boundary beside the totals. -/
def boundaryJoin (name : String) : String :=
  "LEFT JOIN " ++ name ++ " ON " ++ name ++ ".validator_index = totals.validator_index"

/-- The text of a fold. -/
def text (dialect : Dialect) (query : FoldQuery) : String :=
  let columns := query.columns.map (·.1) ++ metricNames
  joinLines
    (["WITH",
      ",\n".intercalate ((query.clauses ++ [query.totals dialect]).map clauseText),
      "INSERT INTO " ++ query.target.name ++ " (" ++ commaList columns ++ ")",
      "SELECT " ++ commaList (query.columns.map (·.2) ++ Column.all.map selectedColumn),
      "FROM totals",
      boundaryJoin "balance_starts",
      boundaryJoin "balance_ends"] ++
    match query.conflict with
    | some key => ["WHERE true", overwrite key columns]
    | none => [])

end FoldQuery

/-- The balance rows of a fold at a boundary. -/
def balanceClause (name : String) (column : Column) (source : RollupTable) (boundary : String) :
    FoldClause :=
  ⟨name, ["SELECT validator_index, " ++ column.name ++ " FROM " ++ source.name,
    "WHERE " ++ boundary]⟩

/-- The first or last hour of a fold, by an aggregate of the starts of its hours. -/
def hourClause (name aggregate condition : String) : FoldClause :=
  ⟨name, ["SELECT " ++ aggregate ++ "(epoch_start) AS epoch_start FROM " ++
    RollupTable.hourly.name ++ " WHERE " ++ condition]⟩

/-- The value of a column of a clause with one row. -/
def onlyValue (column clause : String) : String := "(SELECT " ++ column ++ " FROM " ++ clause ++ ")"

/-- Folds the epochs from the first parameter up to the second into the hour that starts at
the first. The row covers the epochs up to the last one present. -/
def foldHourQuery (dialect : Dialect) : String :=
  let start := dialect.parameter 1
  let condition := "epoch >= " ++ start ++ " AND epoch < " ++ dialect.parameter 2
  FoldQuery.text dialect
    { clauses :=
        [⟨"last_epoch", ["SELECT MAX(epoch) AS epoch FROM " ++ RollupTable.epoch.name,
            "WHERE " ++ condition]⟩,
          balanceClause "balance_starts" .balanceStart .epoch ("epoch = " ++ start),
          balanceClause "balance_ends" .balanceEnd .epoch
            ("epoch = " ++ onlyValue "epoch" "last_epoch")]
      source := .epoch
      condition
      target := .hourly
      columns :=
        [("epoch_start", start), ("epoch_end", onlyValue "epoch" "last_epoch" ++ " + 1"),
          ("validator_index", "totals.validator_index")]
      conflict := some HourlyRow.keyColumns }

/-- Folds the hours that start from the first parameter up to the second into the rows of the
day that is the third. The row covers what the latest of the hours covers. -/
def foldDayQuery (dialect : Dialect) : String :=
  let start := dialect.parameter 1
  let condition := "epoch_start >= " ++ start ++ " AND epoch_start < " ++ dialect.parameter 2
  FoldQuery.text dialect
    { clauses :=
        [hourClause "first_bucket" "MIN" condition,
          hourClause "last_bucket" "MAX" condition,
          ⟨"coverage", ["SELECT MAX(epoch_end) AS epoch_end FROM " ++ RollupTable.hourly.name,
            "WHERE epoch_start = " ++ onlyValue "epoch_start" "last_bucket"]⟩,
          balanceClause "balance_starts" .balanceStart .hourly
            ("epoch_start = " ++ onlyValue "epoch_start" "first_bucket"),
          balanceClause "balance_ends" .balanceEnd .hourly
            ("epoch_start = " ++ onlyValue "epoch_start" "last_bucket")]
      source := .hourly
      condition
      target := .daily
      columns :=
        [("day", dialect.parameter 3), ("epoch_start", start),
          ("epoch_end", onlyValue "epoch_end" "coverage"),
          ("validator_index", "totals.validator_index")]
      conflict := some ["day", "validator_index"] }

/-- Folds the hours that start from the first parameter to the second, which is the head, into
the rolling table. The table has to be empty. -/
def insertRollingQuery (dialect : Dialect) : String :=
  let start := dialect.parameter 1
  let head := dialect.parameter 2
  let condition := "epoch_start >= " ++ start ++ " AND epoch_start <= " ++ head
  FoldQuery.text dialect
    { clauses :=
        [hourClause "first_bucket" "MIN" condition,
          ⟨"coverage", ["SELECT MAX(epoch_end) AS epoch_end FROM " ++ RollupTable.hourly.name ++
            " WHERE epoch_start = " ++ head]⟩,
          balanceClause "balance_starts" .balanceStart .hourly
            ("epoch_start = " ++ onlyValue "epoch_start" "first_bucket"),
          balanceClause "balance_ends" .balanceEnd .hourly ("epoch_start = " ++ head)]
      source := .hourly
      condition
      target := .rolling
      columns :=
        [("validator_index", "totals.validator_index"), ("epoch_start", start),
          ("epoch_end", onlyValue "epoch_end" "coverage")]
      conflict := none }

end EpochRollup
