/-
This file writes what folds and passes report as documents.
-/

import EpochRollup.Document
import EpochRollup.Monitor.Counter

namespace EpochRollup

namespace Document

/-- The two ends of a range by name. -/
def ofRange (range : EpochRange) : Document :=
  .table [("start", .integer range.start), ("end", .integer range.stop)]

/-- A range that may be missing. -/
def ofRange? : Option EpochRange → Document
  | some range => ofRange range
  | none => .null

end Document

/-- What a fold did, as a document. -/
def FoldReport.document (report : FoldReport) : Document :=
  .table
    [("buckets_folded", .integer report.bucketsFolded),
      ("buckets_skipped", .integer report.bucketsSkipped),
      ("rows_written", .integer report.rowsWritten),
      ("partitions_created", .integer report.partitionsCreated),
      ("last_bucket", .ofRange? report.lastBucket)]

/-- What a refresh did, as a document. -/
def WindowReport.document (report : WindowReport) : Document :=
  .table
    [("window", .ofRange? report.window), ("rows_written", .integer report.rowsWritten)]

/-- What a pass did, as a document. -/
def PassReport.document (report : PassReport) : Document :=
  .table
    [("rolling", report.rolling.document),
      ("daily", report.daily.document),
      ("hourly_partitions_dropped", .integer report.hourlyDropped),
      ("daily_partitions_dropped", .integer report.dailyDropped)]

/-- The name of a counter. -/
def Counter.name : Counter → String
  | .passesCompleted => "passes_completed"
  | .hourlyFoldFailures => "hourly_fold_failures"
  | .passFailures step => "pass_failures." ++ failedStepName step
  | .bucketsFolded granularity => "buckets_folded." ++ granularity.name
  | .partitionsCreated granularity => "partitions_created." ++ granularity.name
  | .partitionsDropped granularity => "partitions_dropped." ++ granularity.name
  | .durationSamples part => "step_duration_samples." ++ part.name

/-- The counters that moved, and by how much, as a document. -/
def Tally.document (tally : Tally) : Document :=
  .table (tally.moved.map fun (counter, amount) => (counter.name, .integer amount))

end EpochRollup
