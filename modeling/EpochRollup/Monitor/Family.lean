/-
This file describes the metric families the engine exposes.
-/

namespace EpochRollup

/-- What a metric family measures with. -/
inductive FamilyKind where
  /-- A count that only grows. -/
  | counter
  /-- A value that is set. -/
  | gauge
  /-- Observations sorted into buckets. -/
  | histogram
deriving DecidableEq, Repr

/-- The word for a kind of family. -/
def FamilyKind.name : FamilyKind → String
  | .counter => "COUNTER"
  | .gauge => "GAUGE"
  | .histogram => "HISTOGRAM"

/-- A metric family. -/
structure MetricFamily where
  /-- The name. -/
  name : String
  /-- What it says. -/
  help : String
  /-- The kind. -/
  kind : FamilyKind
deriving DecidableEq, Repr

/-- Every metric family, in the order of the names. -/
def metricFamilies : List MetricFamily :=
  [⟨"valdash_rollup_buckets_folded_total", "Buckets (re)computed, by granularity", .counter⟩,
    ⟨"valdash_rollup_hourly_fold_failures_total", "Hourly folds that stopped on an error",
      .counter⟩,
    ⟨"valdash_rollup_last_pass_timestamp_seconds", "Unix time of the last completed rollup pass",
      .gauge⟩,
    ⟨"valdash_rollup_partitions_created_total",
      "Partitions created ahead of writes, by granularity", .counter⟩,
    ⟨"valdash_rollup_partitions_dropped_total", "Partitions dropped by retention, by granularity",
      .counter⟩,
    ⟨"valdash_rollup_pass_failures_total", "Rollup passes aborted, by failing step", .counter⟩,
    ⟨"valdash_rollup_passes_completed_total",
      "Total number of rollup passes that completed every step", .counter⟩,
    ⟨"valdash_rollup_rolling_rows", "Rows in the latest rolling 24h snapshot", .gauge⟩,
    ⟨"valdash_rollup_step_duration_seconds", "Duration of each rollup pass step", .histogram⟩]

/-- The upper ends of the duration buckets, in seconds. -/
def durationBuckets : List String :=
  ["0.01", "0.05", "0.1", "0.5", "1", "5", "15", "60", "300", "900"]

end EpochRollup
