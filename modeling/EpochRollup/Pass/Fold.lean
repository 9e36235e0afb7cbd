/-
This file folds finer rows into buckets, forward from where the coarser table stands.

A fold resumes at the latest stored bucket and goes up to the bucket that holds the
head of the finer table. Every bucket on the way is folded, empty or not, except that
the latest one is skipped when it is closed: when its rows cover all that a fold of
it could ever cover. Hours are folded from epochs and days from hours; the two differ
only in where they resume and in when a bucket closes.
-/

import EpochRollup.Pass.Bounds
import EpochRollup.Pass.Expiry

namespace EpochRollup

/-- What a fold did. -/
structure FoldReport where
  /-- Buckets folded. -/
  bucketsFolded : Nat
  /-- Closed buckets left as they were. -/
  bucketsSkipped : Nat
  /-- Rows written over all folded buckets. -/
  rowsWritten : Nat
  /-- Partitions created ahead of the writes. -/
  partitionsCreated : Nat
  /-- The last bucket folded. -/
  lastBucket : Option EpochRange
deriving DecidableEq, Repr

/-- The report of a fold that found nothing to do. -/
def FoldReport.idle : FoldReport := ⟨0, 0, 0, 0, none⟩

/-- The stored latest bucket is this one and its coverage has reached the closing epoch. -/
def isClosed (latest : Option EpochRange) (bucket : EpochRange) (closesAt : Nat) : Bool :=
  latest.any fun latest => latest.start = bucket.start && closesAt ≤ latest.stop

namespace BucketLayout

variable (layout : BucketLayout)

/-- The number of a bucket among the buckets of a granularity. -/
def bucketIndex (granularity : Granularity) (epoch : Nat) : Nat :=
  (epoch + layout.shift granularity) / layout.width granularity

/-- How many buckets there are from the one of a first epoch to the one of a last epoch. -/
def bucketsBetween (granularity : Granularity) (first last : Nat) : Nat :=
  layout.bucketIndex granularity last + 1 - layout.bucketIndex granularity first

/-- The epoch that the coverage of a closed bucket has reached. A day closes with the hour
that holds its last epoch, even when that hour runs past midnight. -/
def closesAt (granularity : Granularity) (bucket : EpochRange) : Except Abort Nat :=
  match granularity with
  | .hourly => return bucket.stop
  | .daily => return (← layout.bucket .hourly (bucket.stop - 1)).stop

/-- Folds one bucket. The result is the number of rows written. -/
def foldBucket (granularity : Granularity) (bucket : EpochRange) : Procedure Nat :=
  match granularity with
  | .hourly => .askFor "fold_hour" bucket (.foldHour bucket)
  | .daily => .askFor "fold_day" bucket (.foldDay bucket (layout.clock.dayOf bucket.start))

/-- Folds one bucket after creating its partition. The result is the number of rows written
and whether a partition was created. -/
def aggregate (granularity : Granularity) (bucket : EpochRange) : Procedure (Nat × Bool) := do
  let (_, created) ← layout.ensurePartitionFor granularity bucket.start
  let rows ← layout.foldBucket granularity bucket
  return (rows, created)

/-- Folds the given number of consecutive buckets, of which the first holds a candidate
epoch, and adds what it did to a report. -/
def foldBuckets (granularity : Granularity) (latest : Option EpochRange) :
    Nat → Nat → FoldReport → Procedure FoldReport
  | 0, _, report => return report
  | remaining + 1, candidate, report => do
    let bucket ← .compute (layout.bucket granularity candidate)
    let closesAt ← .compute (layout.closesAt granularity bucket)
    if isClosed latest bucket closesAt then
      foldBuckets granularity latest remaining bucket.stop
        { report with bucketsSkipped := report.bucketsSkipped + 1 }
    else
      let (rows, created) ← layout.aggregate granularity bucket
      let rowsWritten ← .compute (Word.add report.rowsWritten rows)
      foldBuckets granularity latest remaining bucket.stop
        { report with
          bucketsFolded := report.bucketsFolded + 1
          rowsWritten
          partitionsCreated := report.partitionsCreated + created.toNat
          lastBucket := some bucket }

/-- Folds every bucket from a resume point to the bucket of the head. The bucket of the head
is looked up first, whether or not anything is left to fold. -/
def foldThrough (granularity : Granularity) (latest : Option EpochRange) (resume head : Nat) :
    Procedure FoldReport := do
  let _ ← .compute (layout.bucket granularity head)
  layout.foldBuckets granularity latest (layout.bucketsBetween granularity resume head) resume
    .idle

/-- Folds epochs into hours up to the last epoch, from the latest hour or, when there is
none, from the first epoch. -/
def foldHours (bounds : BoundsService) : Procedure FoldReport := do
  match ← bounds .lastEpoch with
  | none => return .idle
  | some head =>
    match ← bounds .lastHourly with
    | some latest => layout.foldThrough .hourly (some latest) latest.start head
    | none =>
      let first ← bounds .firstEpoch
      layout.foldThrough .hourly none (first.getD head) head

/-- Folds hours into days up to the day of the hourly head, from the latest day or, when
there is none, from that day. -/
def foldDays (bounds : BoundsService) : Procedure FoldReport := do
  match ← bounds .lastHourly with
  | none => return .idle
  | some head =>
    let latest ← bounds .lastDaily
    layout.foldThrough .daily latest ((latest.map (·.start)).getD head.start) head.start

end BucketLayout

end EpochRollup
