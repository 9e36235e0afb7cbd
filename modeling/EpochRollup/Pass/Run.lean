/-
This file composes a pass: the rolling window is refreshed, hours are folded into
days, and expired partitions are dropped, each as a step of its own. A step that
fails ends the pass and is named in the error; what earlier steps did stays done.
-/

import EpochRollup.Pass.Fold
import EpochRollup.Pass.Window

namespace EpochRollup

/-- How far behind the hourly head partitions are kept, in epochs. -/
structure RetentionPolicy where
  /-- Epochs that hourly partitions are kept. -/
  hourly : Nat
  /-- Epochs that daily partitions are kept, or none when they are kept forever. -/
  daily : Option Nat
deriving DecidableEq, Repr

/-- How long partitions of a granularity are kept. -/
def RetentionPolicy.horizon (policy : RetentionPolicy) : Granularity → Option Nat
  | .hourly => some policy.hourly
  | .daily => policy.daily

/-- What a pass did. -/
structure PassReport where
  /-- The refresh of the rolling window. -/
  rolling : WindowReport
  /-- The fold of hours into days. -/
  daily : FoldReport
  /-- Hourly partitions dropped. -/
  hourlyDropped : Nat
  /-- Daily partitions dropped. -/
  dailyDropped : Nat
deriving DecidableEq, Repr

/-- A chain's layout, its retention and the bounds to work from. -/
structure Coordinator where
  /-- The layout. -/
  layout : BucketLayout
  /-- How long partitions are kept. -/
  retention : RetentionPolicy
  /-- Where the tables stand. -/
  bounds : BoundsService

namespace Coordinator

/-- A coordinator that works from the bounds a store has. -/
def ofStore (layout : BucketLayout) (retention : RetentionPolicy) : Coordinator :=
  ⟨layout, retention, storedBounds layout.clock⟩

variable (coordinator : Coordinator)

/-- The bound of the oldest bucket of a granularity. -/
def oldest : Granularity → Procedure (Option Nat)
  | .hourly => coordinator.bounds .firstHourly
  | .daily => coordinator.bounds .firstDaily

/-- Drops the expired partitions of a granularity. Both granularities are measured from the
hourly head, and nothing expires while the head is younger than the horizon. -/
def reclaim (granularity : Granularity) : Procedure Nat := do
  match coordinator.retention.horizon granularity with
  | none => return 0
  | some horizon =>
    match ← coordinator.bounds .lastHourly with
    | none => return 0
    | some head =>
      if head.start < horizon then
        return 0
      else
        match ← coordinator.oldest granularity with
        | none => return 0
        | some oldest =>
          coordinator.layout.reclaimExpired granularity (head.start - horizon) oldest

/-- Folds new epochs into hours. -/
def foldHourly : Procedure FoldReport := coordinator.layout.foldHours coordinator.bounds

/-- Runs one pass. -/
def runPass : Procedure PassReport := do
  let rolling ← (refreshWindow coordinator.bounds).inStep .rolling
  let daily ← (coordinator.layout.foldDays coordinator.bounds).inStep .daily
  let hourlyDropped ← (coordinator.reclaim .hourly).inStep .hourlyRetention
  let dailyDropped ← (coordinator.reclaim .daily).inStep .dailyRetention
  return ⟨rolling, daily, hourlyDropped, dailyDropped⟩

end Coordinator

end EpochRollup
