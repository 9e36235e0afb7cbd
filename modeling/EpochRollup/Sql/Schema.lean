/-
This file writes the definitions of the tables and splits a schema into statements. A
server partitions two of the tables itself; a file has a catalogue of partitions and a
trigger on each of the two tables that refuses rows no catalogued range covers.
-/

import EpochRollup.Sql.Query
import EpochRollup.Text.Blank

namespace EpochRollup

/-! ### Tables -/

/-- The definition of a table: what is said before it, its columns before and after the
metrics, and the column by whose ranges a server partitions it. -/
structure TableShape where
  /-- The line before the table. -/
  remark : String
  /-- The table. -/
  table : RollupTable
  /-- The key and coverage columns. -/
  columns : List String
  /-- The key, when it is more than one column. -/
  key : Option (List String)
  /-- The column of the partitions. -/
  partitionColumn : Option String

namespace TableShape

/-- The text of a table. -/
def text (dialect : Dialect) (shape : TableShape) : String :=
  let metrics := Column.all.map dialect.definition
  let key := shape.key.toList.map fun key => "PRIMARY KEY (" ++ commaList key ++ ")"
  let partitioning :=
    match dialect, shape.partitionColumn with
    | .postgres, some column => " PARTITION BY RANGE (" ++ column ++ ")"
    | _, _ => ""
  joinLines
    ["-- " ++ shape.remark,
      "CREATE TABLE IF NOT EXISTS " ++ shape.table.name ++ " (",
      ",\n".intercalate ((shape.columns ++ metrics ++ key).map fun line => "    " ++ line),
      ")" ++ partitioning ++ ";",
      ""]

end TableShape

/-- A column of integers that has to be given. -/
def integerColumn (dialect : Dialect) (name : String) : String :=
  name ++ " " ++ dialect.integerType ++ " NOT NULL"

/-- The tables, in the order in which they are defined. -/
def epochShape (dialect : Dialect) : TableShape where
  remark := "Per-epoch source rows"
  table := .epoch
  columns := EpochRow.keyColumns.map (integerColumn dialect)
  key := some EpochRow.keyColumns
  partitionColumn := none

/-- The hourly table. -/
def hourlyShape (dialect : Dialect) : TableShape where
  remark := "Hourly rollups"
  table := .hourly
  columns := HourlyRow.leadingColumns.map (integerColumn dialect)
  key := some HourlyRow.keyColumns
  partitionColumn := some "epoch_start"

/-- The daily table. -/
def dailyShape (dialect : Dialect) : TableShape where
  remark := "UTC day rollups"
  table := .daily
  columns := ("day " ++ dialect.dayType ++ " NOT NULL") ::
    ["epoch_start", "epoch_end", "validator_index"].map (integerColumn dialect)
  key := some ["day", "validator_index"]
  partitionColumn := some "day"

/-- The rolling table. -/
def rollingShape (dialect : Dialect) : TableShape where
  remark := "Rolling 24h window, replaced wholesale"
  table := .rolling
  columns := (integerColumn dialect "validator_index" ++ " PRIMARY KEY") ::
    ["epoch_start", "epoch_end"].map (integerColumn dialect)
  key := none
  partitionColumn := none

/-! ### Emulated partitions -/

/-- The table of the partitions there are. -/
def catalogueText : String :=
  joinLines
    ["",
      "-- Partition catalogue",
      "CREATE TABLE IF NOT EXISTS rollup_partitions (",
      "    partition_name TEXT PRIMARY KEY,",
      "    parent_table TEXT NOT NULL,",
      "    range_start NOT NULL,",
      "    range_end NOT NULL",
      ");",
      "CREATE INDEX IF NOT EXISTS idx_rollup_partitions_parent ON rollup_partitions " ++
        "(parent_table, range_start);",
      ""]

/-- The trigger that refuses a row of a table when no catalogued range covers its key. -/
def requiresPartitionText (table : RollupTable) (key : String) : String :=
  joinLines
    ["",
      "CREATE TRIGGER IF NOT EXISTS " ++ table.name ++ "_requires_partition",
      "BEFORE INSERT ON " ++ table.name,
      "WHEN NOT EXISTS (",
      "    SELECT 1 FROM rollup_partitions",
      "    WHERE parent_table = '" ++ table.name ++ "'",
      "      AND range_start <= NEW." ++ key,
      "      AND NEW." ++ key ++ " < range_end",
      ")",
      "BEGIN",
      "    SELECT RAISE(ABORT, 'no partition of relation " ++ table.name ++ " found for row');",
      "END;",
      ""]

/-- The definitions of every table. -/
def schemaText (dialect : Dialect) : String :=
  let index := "CREATE INDEX IF NOT EXISTS idx_daily_epoch_start ON " ++ RollupTable.daily.name ++
    " (epoch_start);\n"
  joinLines
      [(epochShape dialect).text dialect,
        (hourlyShape dialect).text dialect,
        (dailyShape dialect).text dialect ++ index,
        (rollingShape dialect).text dialect] ++
    match dialect with
    | .sqlite =>
      catalogueText ++ requiresPartitionText .hourly "epoch_start" ++
        requiresPartitionText .daily "day"
    | .postgres => ""

/-! ### Statements -/

/-- A line that says something: it is not blank and not a remark. -/
def isStatementLine (line : List Char) : Bool :=
  let trimmed := trimBlank line
  !trimmed.isEmpty && !("--".toList.isPrefixOf trimmed)

/-- The statement a piece between semicolons holds, when it holds one. -/
def statementOfPiece? (piece : List Char) : Option String :=
  let trimmed := trimBlank piece
  if (pieces '\n' trimmed).any isStatementLine then some (String.ofList trimmed) else none

/-- The statements of a schema, without the pieces that hold none. -/
def schemaStatements (schema : String) : List String :=
  (pieces ';' schema.toList).filterMap statementOfPiece?

end EpochRollup
