/-
This file says where the tables stand: seven bounds, each of which may be missing
while its table is empty. The engine reads them through a service, so that they can
come from the store or be given.
-/

import EpochRollup.Chain
import EpochRollup.Pass.Procedure

namespace EpochRollup

/-- A bound of the tables. -/
inductive Bound where
  /-- Highest epoch with a row. -/
  | lastEpoch
  /-- Lowest epoch with a row. -/
  | firstEpoch
  /-- Latest hourly bucket and the end of its coverage. -/
  | lastHourly
  /-- Lowest start of an hourly bucket. -/
  | firstHourly
  /-- Lowest start of an hourly bucket in the day before the end of the hourly head. -/
  | dayOldHourly
  /-- Latest day bucket and the end of its coverage. -/
  | lastDaily
  /-- Lowest start of a day bucket. -/
  | firstDaily
deriving DecidableEq, Repr

namespace Bound

/-- What a bound is: the latest buckets are ranges, and all else is an epoch. -/
@[reducible] def Value : Bound → Type
  | .lastHourly | .lastDaily => EpochRange
  | .lastEpoch | .firstEpoch | .firstHourly | .dayOldHourly | .firstDaily => Nat

/-- The name of the operation that reads a bound. -/
def name : Bound → String
  | .lastEpoch => "last_exported_epoch"
  | .firstEpoch => "first_exported_epoch"
  | .lastHourly => "last_exported_hourly"
  | .firstHourly => "min_old_hourly_epoch"
  | .dayOldHourly => "twenty_four_hour_old_hourly"
  | .lastDaily => "last_exported_daily"
  | .firstDaily => "min_old_daily_epoch"

/-- Every bound. -/
def all : List Bound :=
  [.lastEpoch, .firstEpoch, .lastHourly, .firstHourly, .dayOldHourly, .lastDaily, .firstDaily]

end Bound

/-- A reader of each bound. -/
abbrev BoundsService := (bound : Bound) → Procedure (Option bound.Value)

/-- The bounds a store has. -/
def storedBounds (clock : ChainClock) : BoundsService
  | .lastEpoch => .ask Bound.lastEpoch.name .lastEpoch
  | .firstEpoch => .ask Bound.firstEpoch.name .firstEpoch
  | .lastHourly => .ask Bound.lastHourly.name .lastHourlyBounds
  | .firstHourly => .ask Bound.firstHourly.name .firstHourlyEpoch
  | .dayOldHourly => do
    match ← Procedure.ask Bound.lastHourly.name .lastHourlyBounds with
    | none => return none
    | some head =>
      .ask Bound.dayOldHourly.name (.firstHourlyFrom (head.stop - clock.epochsPerDay))
  | .lastDaily => .ask Bound.lastDaily.name .lastDailyBounds
  | .firstDaily => .ask Bound.firstDaily.name .firstDailyEpoch

/-- Bounds that are given: each is a value, missing, or an error that reading it gives. -/
def givenBounds (given : (bound : Bound) → Except StoreError (Option bound.Value)) :
    BoundsService := fun bound =>
  ExceptT.mk (pure (Procedure.settle (RollupError.store bound.name) (given bound)))

end EpochRollup
