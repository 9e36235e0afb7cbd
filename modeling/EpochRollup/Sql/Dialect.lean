/-
This file says where the two dialects of SQL differ: in parameters, in the logical or
of a column, and in the types of columns.
-/

import EpochRollup.Metric.Column

namespace EpochRollup

/-- A dialect of SQL. -/
inductive Dialect where
  /-- The dialect of a database in a file. -/
  | sqlite
  /-- The dialect of a database server. -/
  | postgres
deriving DecidableEq, Repr

namespace Dialect

/-- The word for a dialect. -/
def name : Dialect → String
  | .sqlite => "sqlite"
  | .postgres => "postgres"

/-- The parameter of a number, from 1. -/
def parameter (dialect : Dialect) (number : Nat) : String :=
  match dialect with
  | .sqlite => "?" ++ toString number
  | .postgres => "$" ++ toString number

/-- Whether a column holds in any row. -/
def anyTrue (dialect : Dialect) (column : String) : String :=
  match dialect with
  | .sqlite => "MAX(" ++ column ++ ")"
  | .postgres => "bool_or(" ++ column ++ ")"

/-- The type of stored integers. -/
def integerType : Dialect → String
  | .sqlite => "INTEGER"
  | .postgres => "BIGINT"

/-- The type of stored doubles. -/
def doubleType : Dialect → String
  | .sqlite => "REAL"
  | .postgres => "DOUBLE PRECISION"

/-- The type of stored days. -/
def dayType : Dialect → String
  | .sqlite => "TEXT"
  | .postgres => "DATE"

/-- The type of the slashing mark and its default. -/
def markType : Dialect → String
  | .sqlite => "INTEGER NOT NULL DEFAULT 0"
  | .postgres => "BOOLEAN NOT NULL DEFAULT false"

/-- The definition of a metric column. A balance may be missing; all else is zero when it is
left out. -/
def definition (dialect : Dialect) (column : Column) : String :=
  column.name ++ " " ++
    match column with
    | .slashed => dialect.markType
    | .balanceStart | .balanceEnd => dialect.integerType
    | .syncChance | .blockChance => dialect.doubleType ++ " NOT NULL DEFAULT 0"
    | .integer _ => dialect.integerType ++ " NOT NULL DEFAULT 0"

end Dialect

end EpochRollup
