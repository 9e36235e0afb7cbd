/-
This file says how an engine operation fails. An error names the operation, and the
epochs it worked on, around the store error that caused it; a pass adds its step. An
abort is no error: nothing inside the engine handles it.
-/

import EpochRollup.Layout
import EpochRollup.Store.Error

namespace EpochRollup

/-- A step of a pass. -/
inductive PassStep where
  /-- The trailing window is refreshed. -/
  | rolling
  /-- Hours are folded into days. -/
  | daily
  /-- Expired hourly partitions are dropped. -/
  | hourlyRetention
  /-- Expired daily partitions are dropped. -/
  | dailyRetention
deriving DecidableEq, Repr

/-- The word for a step. -/
def PassStep.name : PassStep → String
  | .rolling => "rolling"
  | .daily => "daily"
  | .hourlyRetention => "hourly_retention"
  | .dailyRetention => "daily_retention"

/-- Every step, in the order of a pass. -/
def PassStep.all : List PassStep := [.rolling, .daily, .hourlyRetention, .dailyRetention]

/-- How an engine operation fails. -/
inductive RollupError where
  /-- An operation on a range of epochs failed in the store. -/
  | bucket (operation : String) (range : EpochRange) (cause : StoreError)
  /-- An operation failed in the store. -/
  | store (operation : String) (cause : StoreError)
  /-- A step of a pass failed. -/
  | step (step : PassStep) (cause : RollupError)
  /-- The chain or its layout cannot be set up. -/
  | layout (cause : SetupError)
deriving DecidableEq, Repr

namespace RollupError

/-- The text of an engine error. -/
def message : RollupError → String
  | .bucket operation range cause =>
    operation ++ " failed for epochs " ++ range.text ++ ": " ++ cause.message
  | .store operation cause => operation ++ " failed: " ++ cause.message
  | .step failed cause => failed.name ++ " step failed: " ++ cause.message
  | .layout cause => "invalid layout: " ++ cause.message

/-- The step of the pass that failed, when the error came from a pass. -/
def step? : RollupError → Option PassStep
  | .step failed _ => some failed
  | _ => none

/-- At the root of the error is a write that no partition covers. -/
def isMissingPartition : RollupError → Bool
  | .bucket _ _ cause | .store _ cause => cause.isMissingPartition
  | .step _ cause => cause.isMissingPartition
  | .layout _ => false

end RollupError

/-- Why an engine operation ended without a result. -/
inductive Failure where
  /-- The operation reports an error. -/
  | error (cause : RollupError)
  /-- The operation was aborted. -/
  | abort (cause : Abort)
deriving DecidableEq, Repr

/-- The failure of a step of a pass. An abort is not of any step. -/
def Failure.inStep (step : PassStep) : Failure → Failure
  | .error cause => .error (.step step cause)
  | .abort cause => .abort cause

end EpochRollup
