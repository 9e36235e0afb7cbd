/-
This file holds the values of the metric columns for one validator and the rows of
the four tables that carry them.
-/

import EpochRollup.Calendar
import EpochRollup.Double
import EpochRollup.Metric.Column

namespace EpochRollup

/-- One value for every metric column. -/
structure Metrics where
  /-- The additive integers, in the order of `integerColumnNames`. -/
  integers : Vector Int integerColumnCount
  /-- Expected share of sync committee duties. -/
  syncChance : Double
  /-- Expected share of block proposals. -/
  blockChance : Double
  /-- Whether the validator was slashed. -/
  slashed : Bool
  /-- Balance at the first epoch of the range, when that epoch has a row. -/
  balanceStart : Option Int
  /-- Balance at the last available epoch of the range. -/
  balanceEnd : Option Int
deriving DecidableEq

/-- The metrics of a validator that did nothing. -/
def Metrics.none : Metrics :=
  ⟨Vector.replicate integerColumnCount 0, .zero, .zero, false, Option.none, Option.none⟩

/-- A value in one place of a row. -/
inductive Cell where
  /-- An integer. -/
  | integer (value : Int)
  /-- A double. -/
  | double (value : Double)
  /-- A truth value. -/
  | boolean (value : Bool)
  /-- A text. -/
  | text (value : String)
  /-- A calendar day. -/
  | day (value : CalendarDay)
  /-- No value. -/
  | null
deriving DecidableEq

/-- An integer that may be missing. -/
def Cell.ofInteger? : Option Int → Cell
  | some value => .integer value
  | Option.none => .null

/-- The integer of a cell, when it holds one. -/
def Cell.integer? : Cell → Option Int
  | .integer value => some value
  | _ => Option.none

namespace Metrics

/-- The value of a column. -/
def cell (metrics : Metrics) : Column → Cell
  | .integer index => .integer (metrics.integers.get index)
  | .syncChance => .double metrics.syncChance
  | .blockChance => .double metrics.blockChance
  | .slashed => .boolean metrics.slashed
  | .balanceStart => .ofInteger? metrics.balanceStart
  | .balanceEnd => .ofInteger? metrics.balanceEnd

/-- Every value in the order of the columns. -/
def cells (metrics : Metrics) : List Cell := Column.all.map metrics.cell

/-- The metrics whose columns have the given values. A column without a value that fits
it is empty. -/
def ofCells (value : Column → Cell) : Metrics where
  integers := Vector.ofFn fun index => (value (.integer index)).integer?.getD 0
  syncChance := match value .syncChance with | .double chance => chance | _ => .zero
  blockChance := match value .blockChance with | .double chance => chance | _ => .zero
  slashed := match value .slashed with | .boolean mark => mark | _ => false
  balanceStart := (value .balanceStart).integer?
  balanceEnd := (value .balanceEnd).integer?

/-- Reading every column back gives the metrics. -/
theorem ofCells_cell (metrics : Metrics) : ofCells metrics.cell = metrics := by
  obtain ⟨integers, syncChance, blockChance, slashed, balanceStart, balanceEnd⟩ := metrics
  simp only [ofCells, cell, mk.injEq, true_and]
  refine ⟨?_, ?_, ?_⟩
  · ext index inside
    rw [Vector.getElem_ofFn]
    rfl
  · cases balanceStart <;> rfl
  · cases balanceEnd <;> rfl

end Metrics

/-! ### Rows -/

/-- What one validator did in one epoch. -/
structure EpochRow where
  /-- The epoch. -/
  epoch : Int
  /-- The validator. -/
  validator : Int
  /-- Its metrics. -/
  metrics : Metrics
deriving DecidableEq

/-- What one validator did in one hourly bucket. -/
structure HourlyRow where
  /-- First epoch of the bucket. -/
  start : Int
  /-- First epoch past those the row covers. -/
  stop : Int
  /-- The validator. -/
  validator : Int
  /-- Its metrics. -/
  metrics : Metrics
deriving DecidableEq

/-- What one validator did on one UTC day. -/
structure DailyRow where
  /-- The day. -/
  day : CalendarDay
  /-- First epoch of the day. -/
  start : Int
  /-- First epoch past those the row covers. -/
  stop : Int
  /-- The validator. -/
  validator : Int
  /-- Its metrics. -/
  metrics : Metrics
deriving DecidableEq

/-- What one validator did in the trailing window. -/
structure RollingRow where
  /-- The validator. -/
  validator : Int
  /-- First epoch of the window. -/
  start : Int
  /-- First epoch past those the row covers. -/
  stop : Int
  /-- Its metrics. -/
  metrics : Metrics
deriving DecidableEq

end EpochRollup
