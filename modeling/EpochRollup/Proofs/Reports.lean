/-
This file proves that the report of a fold is true. A turn of the loop adds to the report what it
did: it skips the latest bucket, which is closed, or it creates at most one partition and writes a
row for each validator of the finer rows (`Adds.skip`, `Adds.fold`). Finer rows are never touched,
so the rows of all turns can be counted on the tables before the fold. Only the first bucket can
be the latest one, because the fold resumes there and buckets are visited in order.
-/

import Mathlib.Algebra.BigOperators.Group.List.Basic
import EpochRollup.Proofs.Advance
import EpochRollup.Proofs.Visits

namespace EpochRollup

/-! ### Finer rows -/

/-- The validators of the finer rows of a bucket: of its epochs for an hour, and of the hours that
start on it for a day. -/
def Tables.sources (tables : Tables) (granularity : Granularity) (bucket : EpochRange) :
    Finset Int :=
  match granularity with
  | .hourly =>
    ((tables.epochs.filter fun row =>
      (bucket.start : Int) ≤ row.epoch && row.epoch < (bucket.stop : Int)).map
        (·.validator)).toFinset
  | .daily => ((hoursIn tables.hourly bucket).map (·.validator)).toFinset

/-- Each validator of some samples is listed once. -/
theorem Sample.length_validators (samples : List Sample) :
    (validators samples).length = (samples.map (·.validator)).toFinset.card := by
  have distinct : (validators samples).Nodup :=
    (pairwise_validators samples).imp fun {_ _} less same => absurd same (ne_of_lt less)
  rw [← List.toFinset_card_of_nodup distinct]
  congr 1
  ext validator
  rw [List.mem_toFinset, List.mem_toFinset, mem_validators, List.mem_map]

namespace Tables

/-- A fold of an hour finds the validators of its epochs. -/
theorem card_sources_hourly (tables : Tables) (bucket : EpochRange) :
    (Sample.validators (epochSamples tables.epochs bucket.start bucket.stop)).length =
      (tables.sources .hourly bucket).card := by
  rw [Sample.length_validators, epochSamples, List.map_map]
  rfl

/-- A fold of a day finds the validators of its hours. -/
theorem card_sources_daily (tables : Tables) (bucket : EpochRange) :
    (Sample.validators (hourSamples tables.hourly bucket.start bucket.stop)).length =
      (tables.sources .daily bucket).card := by
  rw [Sample.length_validators, hourSamples, List.map_map]
  rfl

/-- A partition is added to the catalogue when it was not there. -/
theorem length_catalogue_ensure (tables : Tables) (partition : Partition) :
    (tables.ensure partition).catalogue.length =
      tables.catalogue.length + (!tables.hasPartition partition.name).toNat := by
  unfold ensure
  cases tables.hasPartition partition.name with
  | true => rfl
  | false => exact List.length_append

end Tables

/-! ### Procedures that came back -/

/-- A procedure that halts and came back with a result had every call answered. -/
theorem Procedure.returns_of_runWith {Result : Type} {procedure : Procedure Result}
    (halts : procedure.Halts) {store after : EmbeddedStore} {result : Result}
    (came : procedure.runWith EmbeddedStore.answer store = (.ok result, after)) :
    procedure.Returns store.tables result after.tables := by
  unfold Returns
  unfold Halts at halts
  unfold runWith at came
  generalize procedure.run = dialogue at halts came ⊢
  induction dialogue generalizing store with
  | done outcome =>
    cases came
    exact .done _ _
  | ask call resume inductionHypothesis =>
    have came : (resume (store.answer call).1).run EmbeddedStore.answer (store.answer call).2 =
        (.ok result, after) := came
    rcases store.answer_cases call with ⟨answer, replied, given⟩ | ⟨error, failed⟩
    · rw [replied] at came
      exact .ask given (inductionHypothesis _ (halts.2 answer) came)
    · obtain ⟨cause, same⟩ := halts.1 error
      rw [failed, same] at came
      cases came

namespace BucketLayout

open Procedure

variable {layout : BucketLayout} {granularity : Granularity} {tables between after : Tables}
  {latest : Option EpochRange} {report result : FoldReport} {head candidate : Nat}

theorem halts_foldHours : (layout.foldHours (storedBounds layout.clock)).Halts := by
  refine halts_bind (halts_storedBounds _ _) fun head => ?_
  cases head with
  | none => exact halts_pure _
  | some head =>
    refine halts_bind (halts_storedBounds _ _) fun latest => ?_
    cases latest with
    | some latest => exact halts_bind (halts_compute _) fun _ => halts_foldBuckets _ _ _ _
    | none =>
      exact halts_bind (halts_storedBounds _ _) fun _ =>
        halts_bind (halts_compute _) fun _ => halts_foldBuckets _ _ _ _

/-! ### One bucket -/

/-- What the fold of one bucket did: it wrote a row for each validator of the finer rows, created
at most one partition, and left the finer rows alone. -/
structure FoldsOne (granularity : Granularity) (bucket : EpochRange) (before : Tables)
    (rows : Nat) (created : Bool) (after : Tables) : Prop where
  rows : rows = (before.sources granularity bucket).card
  partitions : after.catalogue.length = before.catalogue.length + created.toNat
  sources : ∀ other, after.sources granularity other = before.sources granularity other

theorem foldsOne_foldBucket {bucket : EpochRange} {rows : Nat}
    (returns : (layout.foldBucket granularity bucket).Returns tables rows after) :
    FoldsOne granularity bucket tables rows false after := by
  cases granularity with
  | hourly =>
    have counted := tables.card_sources_hourly bucket
    rcases (returns_settle returns).foldHour with
      ⟨none, rfl, rfl⟩ | ⟨last, written, -, -, validators, -, rfl, rfl⟩
    · rw [none] at counted
      exact ⟨counted, rfl, fun _ => rfl⟩
    · rw [← validators, List.length_map] at counted
      exact ⟨counted, rfl, fun _ => rfl⟩
  | daily =>
    have counted := tables.card_sources_daily bucket
    rcases (returns_settle returns).foldDay with
      ⟨none, rfl, rfl⟩ | ⟨first, last, written, -, -, -, validators, -, rfl, rfl⟩
    · rw [none] at counted
      exact ⟨counted, rfl, fun _ => rfl⟩
    · rw [← validators, List.length_map] at counted
      exact ⟨counted, rfl, fun _ => rfl⟩

theorem foldsOne_aggregate {bucket : EpochRange} {rows : Nat} {created : Bool}
    (returns : (layout.aggregate granularity bucket).Returns tables (rows, created) after) :
    FoldsOne granularity bucket tables rows created after := by
  obtain ⟨_, between, ensured, returns⟩ := returns_bind returns
  obtain ⟨written, _, given, returns⟩ := returns_bind returns
  obtain ⟨partition, -, ensured⟩ := returns_compute_bind ensured
  obtain ⟨isNew, _, answered, ended⟩ := returns_bind ensured
  obtain ⟨rfl, rfl⟩ := returns_pure ended
  obtain ⟨same, rfl⟩ := returns_pure returns
  cases same
  obtain ⟨isNew, rfl⟩ := (returns_settle answered).ensurePartition
  have folds := foldsOne_foldBucket given
  have same (other : EpochRange) :
      (tables.ensure partition).sources granularity other = tables.sources granularity other := by
    unfold Tables.sources
    rw [Tables.epochs_ensure, Tables.hourly_ensure]
  refine ⟨folds.rows.trans (congrArg Finset.card (same bucket)), ?_,
    fun other => (folds.sources other).trans (same other)⟩
  rw [folds.partitions, tables.length_catalogue_ensure, isNew]
  rfl

/-! ### The loop -/

/-- A bucket is left as it is: it is the latest one that has rows, and closed. -/
def leaves (layout : BucketLayout) (granularity : Granularity) (latest : Option EpochRange)
    (bucket : EpochRange) : Bool :=
  isClosed latest bucket (layout.closesBy granularity bucket.start)

/-- What turns that skip some buckets and fold others add to a report. -/
structure Adds (granularity : Granularity) (before : Tables) (skipped folded : List EpochRange)
    (report result : FoldReport) (after : Tables) : Prop where
  bucketsSkipped : result.bucketsSkipped = report.bucketsSkipped + skipped.length
  bucketsFolded : result.bucketsFolded = report.bucketsFolded + folded.length
  rowsWritten : result.rowsWritten =
    report.rowsWritten + (folded.map fun bucket => (before.sources granularity bucket).card).sum
  partitionsCreated : before.catalogue.length + result.partitionsCreated =
    after.catalogue.length + report.partitionsCreated
  lastBucket : result.lastBucket = folded.getLast?.or report.lastBucket
  sources : ∀ bucket, after.sources granularity bucket = before.sources granularity bucket

namespace Adds

variable {bucket : EpochRange} {skipped folded : List EpochRange}

theorem nothing : Adds granularity tables [] [] report report tables :=
  ⟨rfl, rfl, rfl, rfl, rfl, fun _ => rfl⟩

/-- A turn that skips a bucket, and what follows it. -/
theorem skip (adds : Adds granularity tables skipped folded
      { report with bucketsSkipped := report.bucketsSkipped + 1 } result after) :
    Adds granularity tables (bucket :: skipped) folded report result after where
  bucketsSkipped := adds.bucketsSkipped.trans (Nat.add_right_comm _ 1 _)
  bucketsFolded := adds.bucketsFolded
  rowsWritten := adds.rowsWritten
  partitionsCreated := adds.partitionsCreated
  lastBucket := adds.lastBucket
  sources := adds.sources

/-- A turn that folds a bucket, and what follows it. The finer rows of later buckets are those
that were there before the turn. -/
theorem fold {rows : Nat} {created : Bool}
    (folds : FoldsOne granularity bucket tables rows created between)
    (adds : Adds granularity between skipped folded
      { report with
        bucketsFolded := report.bucketsFolded + 1
        rowsWritten := report.rowsWritten + rows
        partitionsCreated := report.partitionsCreated + created.toNat
        lastBucket := some bucket } result after) :
    Adds granularity tables skipped (bucket :: folded) report result after where
  bucketsSkipped := adds.bucketsSkipped
  bucketsFolded := adds.bucketsFolded.trans (Nat.add_right_comm _ 1 _)
  rowsWritten := by
    have same : (folded.map fun bucket => (between.sources granularity bucket).card) =
        folded.map fun bucket => (tables.sources granularity bucket).card :=
      List.map_congr_left fun other _ => congrArg Finset.card (folds.sources other)
    rw [adds.rowsWritten, same, folds.rows, List.map_cons, List.sum_cons, Nat.add_assoc]
  partitionsCreated := by
    have total := adds.partitionsCreated
    rw [folds.partitions] at total
    dsimp only at total
    omega
  lastBucket := by
    rw [adds.lastBucket, List.getLast?_cons, Option.some_or]
    cases folded.getLast? <;> rfl
  sources := fun other => (adds.sources other).trans (folds.sources other)

end Adds

/-- The loop skips the buckets that are left as they are, and folds all others. -/
theorem adds_foldBuckets {visited : List EpochRange}
    (visits : layout.Visits granularity (layout.bucketAt granularity head).stop candidate visited)
    (returns : (layout.foldBuckets granularity latest
      (layout.bucketsBetween granularity candidate head) candidate report).Returns tables result
        after) :
    Adds granularity tables (visited.filter (layout.leaves granularity latest))
      (visited.filter fun bucket => !layout.leaves granularity latest bucket) report result
      after := by
  induction visits generalizing report tables with
  | past reached =>
    rw [layout.foldBuckets_turn, if_neg (Nat.not_lt.mpr reached)] at returns
    obtain ⟨rfl, rfl⟩ := returns_pure returns
    exact .nothing
  | @next candidate visited before rest inductionHypothesis =>
    rw [layout.foldBuckets_turn, if_pos before] at returns
    obtain ⟨bucket, found, returns⟩ := returns_compute_bind returns
    obtain rfl := layout.bucket_eq_ok found
    obtain ⟨closesAt, closing, returns⟩ := returns_compute_bind returns
    obtain rfl := layout.closesAt_eq_ok closing
    rw [layout.closesBy_congr (layout.bucketAt_start granularity candidate).symm] at returns
    split at returns
    · rename_i closed
      have closed : layout.leaves granularity latest (layout.bucketAt granularity candidate) =
        true := closed
      rw [List.filter_cons_of_pos closed, List.filter_cons_of_neg (by simp [closed])]
      exact (inductionHypothesis returns).skip
    · rename_i notClosed
      have isOpen : layout.leaves granularity latest (layout.bucketAt granularity candidate) =
        false := eq_false_of_ne_true notClosed
      obtain ⟨⟨rows, created⟩, between, aggregated, returns⟩ := returns_bind returns
      obtain ⟨written, total, returns⟩ := returns_compute_bind returns
      obtain rfl := (Word.add_eq_ok_iff.mp total).2
      rw [List.filter_cons_of_neg (by simp [isOpen]), List.filter_cons_of_pos (by simp [isOpen])]
      exact .fold (foldsOne_aggregate aggregated) (inductionHypothesis returns)

/-- A loop that resumes at the latest bucket can only skip the first one. -/
theorem Visits.leaves_first {stop : Nat} {visited : List EpochRange}
    (visits : layout.Visits granularity stop candidate visited)
    (resumes : ∀ bounds, latest = some bounds → candidate = bounds.start) :
    visited.filter (layout.leaves granularity latest) ++
        visited.filter (fun bucket => !layout.leaves granularity latest bucket) = visited ∧
      (visited.filter (layout.leaves granularity latest)).length ≤ 1 := by
  cases visits with
  | past reached => exact ⟨rfl, Nat.zero_le 1⟩
  | @next _ visited before rest =>
    have isOpen : ∀ bucket ∈ visited, layout.leaves granularity latest bucket = false := by
      intro bucket member
      cases latest with
      | none => rfl
      | some bounds =>
        have later := rest.le_start bucket member
        rw [layout.start_bucketAt_stop] at later
        have inside := layout.lt_stop_bucketAt granularity candidate
        have apart : bounds.start ≠ bucket.start := by
          rw [← resumes bounds rfl]
          omega
        simp [leaves, isClosed, apart]
    have none : visited.filter (layout.leaves granularity latest) = [] :=
      List.filter_eq_nil_iff.mpr fun bucket member => by simp [isOpen bucket member]
    have all : (visited.filter fun bucket => !layout.leaves granularity latest bucket) = visited :=
      List.filter_eq_self.mpr fun bucket member => by simp [isOpen bucket member]
    rw [List.filter_cons, List.filter_cons, none, all]
    cases layout.leaves granularity latest (layout.bucketAt granularity candidate) with
    | true => exact ⟨rfl, Nat.le_refl 1⟩
    | false => exact ⟨rfl, Nat.zero_le 1⟩

/-- A fold towards some granularity. -/
def foldForward (layout : BucketLayout) (granularity : Granularity) (bounds : BoundsService) :
    Procedure FoldReport :=
  match granularity with
  | .hourly => layout.foldHours bounds
  | .daily => layout.foldDays bounds

theorem halts_foldForward :
    (layout.foldForward granularity (storedBounds layout.clock)).Halts := by
  cases granularity with
  | hourly => exact halts_foldHours
  | daily => exact halts_foldDays

end BucketLayout

/-! ### Where a fold goes -/

/-- What a fold finds before its loop. -/
structure FoldSpan where
  /-- The latest bucket that has rows. -/
  latest : Option EpochRange
  /-- The epoch whose bucket comes first. -/
  resume : Nat
  /-- The epoch whose bucket comes last. -/
  head : Nat
deriving DecidableEq, Repr

namespace Tables

open EmbeddedStore

/-- Hours are folded from the latest one, or else from the first epoch, to the last epoch. Days
are folded from the latest one to the day of the latest hour, or else this day alone. -/
def span? (tables : Tables) : Granularity → Option FoldSpan
  | .hourly => do
    let head ← (tables.epochs.map (·.epoch)).max?.map epochOfStored
    let latest := tables.lastHourly?.map boundsOfStored
    let first := (tables.epochs.map (·.epoch)).min?.map epochOfStored
    return ⟨latest, (latest.map (·.start)).getD (first.getD head), head⟩
  | .daily => do
    let head ← tables.lastHourly?.map boundsOfStored
    let latest := tables.lastDaily?.map boundsOfStored
    return ⟨latest, (latest.map (·.start)).getD head.start, head.start⟩

/-- A fold resumes at the latest bucket. -/
theorem resume_of_span? {tables : Tables} {granularity : Granularity} {span : FoldSpan}
    (spans : tables.span? granularity = some span) :
    ∀ bounds, span.latest = some bounds → span.resume = bounds.start := by
  intro bounds latest
  cases granularity with
  | hourly =>
    obtain ⟨head, -, same⟩ := Option.bind_eq_some_iff.mp spans
    cases same
    dsimp only at latest ⊢
    rw [latest]
    rfl
  | daily =>
    obtain ⟨head, -, same⟩ := Option.bind_eq_some_iff.mp spans
    cases same
    dsimp only at latest ⊢
    rw [latest]
    rfl

end Tables

namespace BucketLayout

open Procedure

variable {layout : BucketLayout} {granularity : Granularity} {tables after : Tables}
  {result : FoldReport}

/-- A fold that comes back has nothing to do, or has gone through its loop. -/
theorem returns_foldForward
    (returns : (layout.foldForward granularity (storedBounds layout.clock)).Returns tables result
      after) :
    match tables.span? granularity with
    | none => result = .idle ∧ after = tables
    | some span =>
      (layout.foldBuckets granularity span.latest
        (layout.bucketsBetween granularity span.resume span.head) span.resume .idle).Returns tables
          result after := by
  cases granularity with
  | hourly =>
    obtain ⟨head, _, answered, returns⟩ := returns_bind returns
    obtain ⟨rfl, headIs⟩ := (returns_settle answered).look fun _ => rfl
    unfold Tables.span?
    rw [← headIs]
    cases head with
    | none => exact returns_pure returns
    | some head =>
      obtain ⟨latest, _, answered, returns⟩ := returns_bind returns
      obtain ⟨rfl, rfl⟩ := (returns_settle answered).look fun _ => rfl
      cases latestIs : Tables.lastHourly? _ with
      | some latest =>
        rw [latestIs] at returns
        obtain ⟨_, -, returns⟩ := returns_compute_bind returns
        exact returns
      | none =>
        rw [latestIs] at returns
        obtain ⟨first, _, answered, returns⟩ := returns_bind returns
        obtain ⟨rfl, rfl⟩ := (returns_settle answered).look fun _ => rfl
        obtain ⟨_, -, returns⟩ := returns_compute_bind returns
        exact returns
  | daily =>
    obtain ⟨head, _, answered, returns⟩ := returns_bind returns
    obtain ⟨rfl, headIs⟩ := (returns_settle answered).look fun _ => rfl
    unfold Tables.span?
    rw [← headIs]
    cases head with
    | none => exact returns_pure returns
    | some head =>
      obtain ⟨latest, _, answered, returns⟩ := returns_bind returns
      obtain ⟨rfl, rfl⟩ := (returns_settle answered).look fun _ => rfl
      obtain ⟨_, -, returns⟩ := returns_compute_bind returns
      exact returns

end BucketLayout

/-! ### Reports -/

/-- A report tells the truth about a fold that has skipped some buckets and folded others. -/
structure FoldReport.Tells (report : FoldReport) (layout : BucketLayout)
    (granularity : Granularity) (span : FoldSpan) (before after : Tables)
    (skipped folded : List EpochRange) : Prop where
  /-- Together they are all buckets from the resume point to the head, the skipped ones first. -/
  visited : layout.Visits granularity (layout.bucketAt granularity span.head).stop span.resume
    (skipped ++ folded)
  /-- No bucket is skipped but the first one. -/
  first : skipped.length ≤ 1
  /-- A skipped bucket is the latest one, and closed. -/
  closed : ∀ bucket ∈ skipped, layout.leaves granularity span.latest bucket = true
  /-- A folded bucket is not. -/
  opened : ∀ bucket ∈ folded, layout.leaves granularity span.latest bucket = false
  bucketsSkipped : report.bucketsSkipped = skipped.length
  bucketsFolded : report.bucketsFolded = folded.length
  /-- Every bucket counts, from that of the resume point to that of the head. -/
  buckets : report.bucketsFolded + report.bucketsSkipped =
    ((Finset.Icc (layout.bucketAt granularity span.resume).start span.head).image
      (layout.bucketAt granularity)).card
  /-- So many partitions are new. -/
  partitionsCreated : before.catalogue.length + report.partitionsCreated = after.catalogue.length
  /-- Finer rows are left alone. -/
  sources : ∀ bucket, after.sources granularity bucket = before.sources granularity bucket
  /-- A folded bucket has a row for each validator of its finer rows. -/
  rowsWritten : report.rowsWritten =
    (folded.map fun bucket => (before.sources granularity bucket).card).sum
  /-- What is folded last is the bucket of the head. -/
  lastBucket : report.lastBucket =
    if folded = [] then none else some (layout.bucketAt granularity span.head)

open BucketLayout in
/-- The report of a fold that comes back tells the truth, whatever the tables hold and whatever
faults are placed on them. The loop comes to an end wherever it resumes, however many buckets
lie before the head. -/
theorem BucketLayout.foldForward_tells (layout : BucketLayout) (granularity : Granularity)
    (store after : EmbeddedStore) (report : FoldReport)
    (came : (layout.foldForward granularity (storedBounds layout.clock)).runWith
      EmbeddedStore.answer store = (.ok report, after)) :
    (∀ stop resume, ∃ visited, layout.Visits granularity stop resume visited) ∧
      match store.tables.span? granularity with
      | none => report = .idle ∧ after.tables = store.tables
      | some span => ∃ skipped folded,
          report.Tells layout granularity span store.tables after.tables skipped folded := by
  refine ⟨layout.exists_visits granularity, ?_⟩
  have returns := returns_foldForward (Procedure.returns_of_runWith halts_foldForward came)
  cases spans : store.tables.span? granularity with
  | none =>
    rw [spans] at returns
    exact returns
  | some span =>
    rw [spans] at returns
    obtain ⟨visited, visits⟩ := layout.exists_visits granularity
      (layout.bucketAt granularity span.head).stop span.resume
    have adds := adds_foldBuckets visits returns
    obtain ⟨split, first⟩ := visits.leaves_first (Tables.resume_of_span? spans)
    have skipped := adds.bucketsSkipped.trans (Nat.zero_add _)
    have folded := adds.bucketsFolded.trans (Nat.zero_add _)
    refine ⟨_, _,
      { visited := split.symm ▸ visits
        first
        closed := fun bucket member => (List.mem_filter.mp member).2
        opened := fun bucket member => by simpa using (List.mem_filter.mp member).2
        bucketsSkipped := skipped
        bucketsFolded := folded
        buckets := ?_
        partitionsCreated := adds.partitionsCreated
        sources := adds.sources
        rowsWritten := adds.rowsWritten.trans (Nat.zero_add _)
        lastBucket := ?_ }⟩
    · rw [skipped, folded, Nat.add_comm, ← List.length_append, split, visits.length_eq]
    · rw [adds.lastBucket]
      split
      · rename_i none
        rw [none]
        rfl
      · rename_i some
        -- The last folded bucket is the last visited one.
        have last := visits.getLast?_eq
          (split ▸ List.append_ne_nil_of_right_ne_nil _ some)
        rw [← split, List.getLast?_append_of_ne_nil _ some] at last
        rw [last]
        rfl

namespace FoldOverGap

/-- Hours of two epochs, and two of them to a partition. -/
def layout : BucketLayout :=
  .ofNumbers ⟨1704067200, 0⟩ 600 12 2 2 1 (by decide)

/-- The first hour has been folded as a whole, and then only the tenth epoch is seen. -/
def store : EmbeddedStore :=
  (Act.playAll layout ⟨100, none⟩ [.supply [⟨0, 7, .none⟩, ⟨1, 8, .none⟩], .fold,
    .supply [⟨9, 7, .none⟩, ⟨9, 8, .none⟩]] (.fresh, .start)).1

/-- What a fold of hours reports. -/
def report : FoldReport := ⟨4, 1, 2, 2, some ⟨8, 10⟩⟩

/-- The store that it leaves. -/
def left : EmbeddedStore :=
  ((layout.foldForward .hourly (storedBounds layout.clock)).runWith EmbeddedStore.answer store).2

theorem reported :
    ((layout.foldForward .hourly (storedBounds layout.clock)).runWith EmbeddedStore.answer
        store).1 = .ok report ∧
      store.tables.span? .hourly = some ⟨some ⟨0, 2⟩, 0, 9⟩ := by
  decide +kernel

end FoldOverGap

open FoldOverGap in
/-- The closed hour is skipped, and the three empty ones are folded like the last one. -/
theorem BucketLayout.foldForward_tells_gap :
    (layout.foldForward .hourly (storedBounds layout.clock)).runWith EmbeddedStore.answer store =
        (.ok report, left) ∧
      store.tables.span? .hourly = some ⟨some ⟨0, 2⟩, 0, 9⟩ ∧
      ∃ skipped folded, report.Tells layout .hourly ⟨some ⟨0, 2⟩, 0, 9⟩ store.tables left.tables
        skipped folded := by
  obtain ⟨outcome, spans⟩ := reported
  have came : (layout.foldForward .hourly (storedBounds layout.clock)).runWith
      EmbeddedStore.answer store = (.ok report, left) := Prod.ext outcome rfl
  have tells := (layout.foldForward_tells .hourly store left report came).2
  rw [spans] at tells
  exact ⟨came, spans, tells⟩

end EpochRollup
