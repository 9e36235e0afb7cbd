/-
This file folds the finer rows of one range into one row per validator.

The rows come as samples: a key that orders them (an epoch, or the first epoch of an
hour), a validator and metrics. The validators of the range are those with a sample.
Sums run over the samples of the validator in the order of their keys, and a sum
whose running value leaves the stored integers has no result. The balances are read
at the ends of the whole range: a validator without a sample there has none.
-/

import EpochRollup.Word
import EpochRollup.Metric.Row

namespace EpochRollup

/-- One finer row of a fold. -/
structure Sample where
  /-- What orders the row among the rows of its validator. -/
  key : Int
  /-- The validator. -/
  validator : Int
  /-- Its metrics. -/
  metrics : Metrics
deriving DecidableEq

/-- A row of one epoch, keyed by the epoch. -/
def EpochRow.sample (row : EpochRow) : Sample := ⟨row.epoch, row.validator, row.metrics⟩

/-- A row of one hour, keyed by the first epoch of the hour. -/
def HourlyRow.sample (row : HourlyRow) : Sample := ⟨row.start, row.validator, row.metrics⟩

/-- The sum of integers, when every running sum is a stored integer. -/
def storedSum? (terms : List Int) : Option Int :=
  terms.foldlM (fun sum term => if IsStored (sum + term) then some (sum + term) else none) 0

/-- Insertion into a strictly ascending list; a value already there is not repeated. -/
def insertAscending (value : Int) : List Int → List Int
  | [] => [value]
  | head :: rest =>
    if value < head then value :: head :: rest
    else if value = head then head :: rest
    else head :: insertAscending value rest

namespace Sample

/-- The validators of some samples, each once, in ascending order. -/
def validators (samples : List Sample) : List Int :=
  samples.foldr (fun sample found => insertAscending sample.validator found) []

/-- The samples of one validator. -/
def ofValidator (samples : List Sample) (validator : Int) : List Sample :=
  samples.filter (·.validator = validator)

/-- The sample of one validator at one key. -/
def at? (samples : List Sample) (key validator : Int) : Option Sample :=
  samples.find? fun sample => sample.key = key ∧ sample.validator = validator

/-- The merged metrics of one validator over the samples of a range whose first and last
keys are given, or none when a sum of integers leaves the stored integers. -/
def merge? (samples : List Sample) (firstKey lastKey validator : Int) : Option Metrics :=
  let own := ofValidator samples validator
  let totals : Vector (Option Int) integerColumnCount :=
    Vector.ofFn fun index => storedSum? (own.map (·.metrics.integers.get index))
  if totals.all (·.isSome) then
    some
      { integers := totals.map (·.getD 0)
        syncChance := Double.sum (own.map (·.metrics.syncChance))
        blockChance := Double.sum (own.map (·.metrics.blockChance))
        slashed := own.any (·.metrics.slashed)
        balanceStart := (at? samples firstKey validator).bind (·.metrics.balanceStart)
        balanceEnd := (at? samples lastKey validator).bind (·.metrics.balanceEnd) }
  else
    none

end Sample

end EpochRollup
