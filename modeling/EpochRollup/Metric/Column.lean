/-
This file names the metric columns every rollup table shares and says how each is
merged when finer rows are folded into a coarser one: sums for the additive columns,
logical or for the slashing mark, and the first and last row of the range for the
two balances. The list `Column.all` is the order in which values are written.
-/

namespace EpochRollup

/-- How many additive columns hold integers. -/
abbrev integerColumnCount : Nat := 30

/-- The additive columns that hold integers. -/
def integerColumnNames : Vector String integerColumnCount :=
  #v["attestations_source_reward", "attestations_target_reward", "attestations_head_reward",
    "attestations_inactivity_reward", "attestations_inclusion_reward", "attestations_reward",
    "attestations_ideal_source_reward", "attestations_ideal_target_reward",
    "attestations_ideal_head_reward", "attestations_ideal_inactivity_reward",
    "attestations_ideal_inclusion_reward", "attestations_ideal_reward", "blocks_scheduled",
    "blocks_proposed", "blocks_cl_reward", "blocks_el_reward", "sync_scheduled",
    "sync_executed", "sync_rewards", "deposits_count", "deposits_amount", "withdrawals_count",
    "withdrawals_amount", "inclusion_delay_sum", "attestations_scheduled",
    "attestations_executed", "attestation_head_executed", "attestation_source_executed",
    "attestation_target_executed", "optimal_inclusion_delay_sum"]

/-- A metric column. -/
inductive Column where
  /-- An additive column of integers. -/
  | integer (index : Fin integerColumnCount)
  /-- Expected share of sync committee duties. -/
  | syncChance
  /-- Expected share of block proposals. -/
  | blockChance
  /-- Whether the validator was slashed. -/
  | slashed
  /-- Balance at the first epoch of the range. -/
  | balanceStart
  /-- Balance at the last available epoch of the range. -/
  | balanceEnd
deriving DecidableEq, Repr

/-- How a column is folded from finer rows into a coarser one. -/
inductive MergeClass where
  /-- By sum. -/
  | additive
  /-- By logical or. -/
  | booleanOr
  /-- By the row of the first epoch. -/
  | boundaryStart
  /-- By the row of the last epoch. -/
  | boundaryEnd
deriving DecidableEq, Repr

namespace Column

/-- The name of a column. -/
def name : Column → String
  | .integer index => integerColumnNames[index]
  | .syncChance => "sync_chance"
  | .blockChance => "block_chance"
  | .slashed => "slashed"
  | .balanceStart => "balance_start"
  | .balanceEnd => "balance_end"

/-- The name of a column in quotes. -/
def quotedName (column : Column) : String := "\"" ++ column.name ++ "\""

/-- How a column is merged. -/
def mergeClass : Column → MergeClass
  | .integer _ | .syncChance | .blockChance => .additive
  | .slashed => .booleanOr
  | .balanceStart => .boundaryStart
  | .balanceEnd => .boundaryEnd

/-- An additive column of doubles rather than integers. -/
def isDouble : Column → Bool
  | .syncChance | .blockChance => true
  | _ => false

/-- Every additive column: the two columns of doubles stand between the integers. -/
def additive : List Column :=
  let integers := (List.finRange integerColumnCount).map Column.integer
  integers.take 24 ++ [.syncChance, .blockChance] ++ integers.drop 24

/-- Every metric column, in the order in which values are written. -/
def all : List Column := additive ++ [.slashed, .balanceStart, .balanceEnd]

/-- The column of a name. Key and coverage columns are no metric columns. -/
def ofName? (name : String) : Option Column := all.find? (·.name = name)

theorem mem_all (column : Column) : column ∈ all := by
  cases column with
  | integer index => revert index; decide
  | syncChance => decide
  | blockChance => decide
  | slashed => decide
  | balanceStart => decide
  | balanceEnd => decide

end Column

end EpochRollup
