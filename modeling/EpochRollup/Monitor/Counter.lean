/-
This file counts what the engine does. Every outcome of a fold or a pass adds to some
counters; a tally is the list of these additions.
-/

import EpochRollup.Pass.Run

namespace EpochRollup

/-- A part of a pass whose duration is observed. -/
inductive TimedPart where
  /-- The refresh of the rolling window. -/
  | rolling
  /-- The fold of hours into days. -/
  | daily
  /-- The removal of expired partitions of both granularities. -/
  | retention
deriving DecidableEq, Repr

/-- The word for a part of a pass. -/
def TimedPart.name : TimedPart → String
  | .rolling => "rolling"
  | .daily => "daily"
  | .retention => "retention"

/-- What is counted. -/
inductive Counter where
  /-- Passes that completed every step. -/
  | passesCompleted
  /-- Hourly folds that stopped on an error. -/
  | hourlyFoldFailures
  /-- Passes ended by a step, which may be unknown. -/
  | passFailures (step : Option PassStep)
  /-- Buckets folded. -/
  | bucketsFolded (granularity : Granularity)
  /-- Partitions created ahead of writes. -/
  | partitionsCreated (granularity : Granularity)
  /-- Partitions dropped when they had expired. -/
  | partitionsDropped (granularity : Granularity)
  /-- Durations observed. -/
  | durationSamples (part : TimedPart)
deriving DecidableEq, Repr

/-- The word for the step a pass failed in. -/
def failedStepName (step : Option PassStep) : String := (step.map PassStep.name).getD "unknown"

/-- Additions to counters. -/
abbrev Tally := List (Counter × Nat)

/-- The additions that are not zero. -/
def Tally.moved (tally : Tally) : Tally := tally.filter (·.2 ≠ 0)

/-- What an hourly fold adds. -/
def FoldReport.tally (report : FoldReport) : Tally :=
  [(.bucketsFolded .hourly, report.bucketsFolded),
    (.partitionsCreated .hourly, report.partitionsCreated)]

/-- What a completed pass adds. -/
def PassReport.tally (report : PassReport) : Tally :=
  [(.passesCompleted, 1),
    (.bucketsFolded .daily, report.daily.bucketsFolded),
    (.partitionsCreated .daily, report.daily.partitionsCreated),
    (.partitionsDropped .hourly, report.hourlyDropped),
    (.partitionsDropped .daily, report.dailyDropped),
    (.durationSamples .rolling, 1),
    (.durationSamples .daily, 1),
    (.durationSamples .retention, 1)]

/-- What a failed pass adds. -/
def passFailureTally (step : Option PassStep) : Tally := [(.passFailures step, 1)]

/-- What a failed hourly fold adds. -/
def foldFailureTally : Tally := [(.hourlyFoldFailures, 1)]

/-- The gauge of the rows in the rolling snapshot, a signed word. -/
def PassReport.rollingRowsGauge (report : PassReport) : Int :=
  Int.bmod report.rolling.rowsWritten wordLimit

end EpochRollup
