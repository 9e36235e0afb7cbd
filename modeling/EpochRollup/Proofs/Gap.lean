/-
This file follows a fold over a gap: consecutive buckets of one partition in which no finer row
starts. Every bucket of the gap is folded like any other, but all that comes of it is that the
partition is there afterwards (`runWith_foldBuckets_gap`). So a fold over a gap of any length
can be followed without a look at its buckets.
-/

import EpochRollup.Pass.Fold
import EpochRollup.Proofs.Call
import EpochRollup.Proofs.Layout

namespace EpochRollup

/-! ### Running procedures -/

namespace Procedure

variable {Result Next Party : Type} {answer : (call : StoreCall) → Party → call.Reply × Party}
variable {procedure : Procedure Result} {party between : Party}

/-- A procedure whose first part comes back goes on with the second. -/
theorem runWith_bind {next : Result → Procedure Next} {result : Result}
    (ran : procedure.runWith answer party = (.ok result, between)) :
    (procedure >>= next).runWith answer party = (next result).runWith answer between := by
  refine (Dialogue.run_bind answer procedure.run _ party).trans ?_
  unfold runWith at ran
  rw [ran]
  rfl

/-- A procedure whose first part fails has failed. -/
theorem runWith_bind_error {next : Result → Procedure Next} {failure : Failure}
    (ran : procedure.runWith answer party = (.error failure, between)) :
    (procedure >>= next).runWith answer party = (.error failure, between) := by
  refine (Dialogue.run_bind answer procedure.run _ party).trans ?_
  unfold runWith at ran
  rw [ran]
  rfl

theorem runWith_compute {computed : Except Abort Result} {result : Result}
    (ok : computed = .ok result) :
    (compute computed).runWith answer party = (.ok result, party) := by
  rw [ok]
  rfl

theorem runWith_askFor {operation : String} {range : EpochRange} {call : StoreCall}
    {result : call.Answer} (answered : answer call party = (.ok result, between)) :
    (askFor operation range call).runWith answer party = (.ok result, between) := by
  show (settle _ (answer call party).1, (answer call party).2) = _
  rw [answered]
  rfl

theorem runWith_inStep (step : PassStep) {outcome : Except Failure Result}
    (ran : procedure.runWith answer party = (outcome, between)) :
    (procedure.inStep step).runWith answer party =
      (outcome.mapError fun failure => failure.inStep step, between) := by
  refine (Dialogue.run_bind answer procedure.run _ party).trans ?_
  unfold runWith at ran
  rw [ran]
  cases outcome <;> rfl

end Procedure

/-! ### Calls that leave a store as it is -/

namespace EmbeddedStore

variable {store : EmbeddedStore}

theorem answer_of_run {call : StoreCall} {result : call.Answer} {after : Tables}
    (ran : (store.statement call).run store.tables = .ok (result, after)) :
    store.answer call = (.ok result, { store with tables := after }) := by
  unfold answer
  rw [ran]

theorem answer_of_run_error {call : StoreCall} {error : StoreError}
    (failed : (store.statement call).run store.tables = .error error) :
    store.answer call = (.error error, store) := by
  unfold answer
  rw [failed]

theorem run_checkOpen (opened : store.isClosed = false) (tables : Tables) :
    store.checkOpen.run tables = .ok ((), tables) := by
  unfold checkOpen
  rw [opened]
  rfl

theorem run_storedEpoch {epoch : Nat} (stored : epoch < storedLimit) (tables : Tables) :
    (liftM (storedEpoch epoch) : Statement Int).run tables = .ok (epoch, tables) := by
  rw [storedEpoch_eq_ok_iff.mpr ⟨stored, rfl⟩]
  rfl

/-- A statement on the two epochs of a range runs on them while the store is open. -/
theorem run_of_range {Result : Type} (opened : store.isClosed = false) {range : EpochRange}
    (start : range.start < storedLimit) (stop : range.stop < storedLimit)
    (work : Int → Int → Statement Result) (tables : Tables) :
    (do
      let start ← storedEpoch range.start
      let stop ← storedEpoch range.stop
      store.checkOpen
      work start stop : Statement Result).run tables = (work range.start range.stop).run tables :=
  (run_bind_of_ok (run_storedEpoch start tables)).trans <|
    (run_bind_of_ok (run_storedEpoch stop tables)).trans <|
      run_bind_of_ok (run_checkOpen opened tables)

/-- The store once a partition is there. -/
def ensure (store : EmbeddedStore) (partition : Partition) : EmbeddedStore :=
  { store with tables := store.tables.ensure partition }

/-- A partition that was ensured is there. -/
theorem ensure_ensure (store : EmbeddedStore) (partition : Partition) :
    (store.ensure partition).ensure partition = store.ensure partition := by
  have present := store.tables.hasPartition_ensure partition
  unfold ensure
  dsimp only
  rw [Tables.ensure, if_pos present]

/-- A partition can be ensured while the store is open and the catalogue has no fault. -/
theorem answer_ensurePartition (opened : store.isClosed = false)
    (free : store.hits .catalogue .insert 0 = false) {partition : Partition}
    (start : partition.range.start < storedLimit) (stop : partition.range.stop < storedLimit) :
    store.answer (.ensurePartition partition) =
      (.ok (!store.tables.hasPartition partition.name), store.ensure partition) := by
  have checked : (store.checkFault .catalogue .insert 0).run store.tables =
      .ok ((), store.tables) := by
    unfold checkFault
    rw [free]
    rfl
  have ensured : (store.ensurePartition partition).run store.tables =
      .ok (!store.tables.hasPartition partition.name, store.tables.ensure partition) := by
    refine run_bind_eq_ok.mpr ⟨(), store.tables, checked,
      run_bind_eq_ok.mpr ⟨store.tables, store.tables, rfl, ?_⟩⟩
    unfold Tables.ensure
    cases store.tables.hasPartition partition.name <;> rfl
  refine answer_of_run ?_
  cases partition with
  | hourly range =>
    exact (run_of_range opened start stop (fun _ _ => store.ensurePartition (.hourly range))
      store.tables).trans ensured
  | daily range days => exact (run_bind_of_ok (run_checkOpen opened store.tables)).trans ensured

/-- An hour without epochs is folded into nothing. -/
theorem answer_foldHour (opened : store.isClosed = false) {bucket : EpochRange}
    (start : bucket.start < storedLimit) (stop : bucket.stop < storedLimit)
    (empty : epochSamples store.tables.epochs bucket.start bucket.stop = []) :
    store.answer (.foldHour bucket) = (.ok 0, store) := by
  have folded : (store.foldHour bucket.start bucket.stop).run store.tables =
      .ok (0, store.tables) := by
    refine run_bind_eq_ok.mpr ⟨store.tables, store.tables, rfl, ?_⟩
    dsimp only
    unfold epochSamples at empty
    rw [empty]
    rfl
  exact answer_of_run ((run_of_range opened start stop store.foldHour store.tables).trans folded)

/-- A day without hours is folded into nothing. -/
theorem answer_foldDay (opened : store.isClosed = false) {range : EpochRange} {day : CalendarDay}
    (start : range.start < storedLimit) (stop : range.stop < storedLimit)
    (empty : hourSamples store.tables.hourly range.start range.stop = []) :
    store.answer (.foldDay range day) = (.ok 0, store) := by
  have folded : (store.foldDay range.start range.stop day).run store.tables =
      .ok (0, store.tables) := by
    refine run_bind_eq_ok.mpr ⟨store.tables, store.tables, rfl, ?_⟩
    dsimp only
    unfold hourSamples at empty
    rw [empty]
    rfl
  exact answer_of_run ((run_of_range opened start stop (store.foldDay · · day)
    store.tables).trans folded)

end EmbeddedStore

/-! ### Folding one bucket -/

/-- The first epochs of the rows that are folded into the buckets of a granularity. -/
def Tables.sourceKeys (tables : Tables) : Granularity → List Int
  | .hourly => tables.epochs.map (·.epoch)
  | .daily => tables.hourly.map (·.start)

@[simp] theorem Tables.sourceKeys_ensure (tables : Tables) (partition : Partition)
    (granularity : Granularity) :
    (tables.ensure partition).sourceKeys granularity = tables.sourceKeys granularity := by
  cases granularity
  · exact congrArg (List.map (·.epoch)) (tables.epochs_ensure partition)
  · exact congrArg (List.map (·.start)) (tables.hourly_ensure partition)

namespace BucketLayout

section

variable {layout : BucketLayout} {granularity : Granularity} {latest : Option EpochRange}
variable {Party : Type} {answer : (call : StoreCall) → Party → call.Reply × Party}
variable {party between : Party} {candidate closesAt : Nat} {bucket : EpochRange}

/-- A bucket that is closed is passed over. -/
theorem runWith_foldBuckets_skip (bucketIs : layout.bucket granularity candidate = .ok bucket)
    (closesIs : layout.closesAt granularity bucket = .ok closesAt)
    (closed : isClosed latest bucket closesAt = true) (remaining : Nat) (report : FoldReport) :
    (layout.foldBuckets granularity latest (remaining + 1) candidate report).runWith answer party =
      (layout.foldBuckets granularity latest remaining bucket.stop
        { report with bucketsSkipped := report.bucketsSkipped + 1 }).runWith answer party := by
  rw [foldBuckets, Procedure.runWith_bind (Procedure.runWith_compute bucketIs),
    Procedure.runWith_bind (Procedure.runWith_compute closesIs), if_pos closed]

/-- A bucket that is open is folded before the others. -/
theorem runWith_foldBuckets_fold (bucketIs : layout.bucket granularity candidate = .ok bucket)
    (closesIs : layout.closesAt granularity bucket = .ok closesAt)
    (opens : isClosed latest bucket closesAt = false) {rows : Nat} {created : Bool}
    (aggregated : (layout.aggregate granularity bucket).runWith answer party =
      (.ok (rows, created), between)) (remaining : Nat) {report : FoldReport}
    (written : report.rowsWritten + rows < wordLimit) :
    (layout.foldBuckets granularity latest (remaining + 1) candidate report).runWith answer party =
      (layout.foldBuckets granularity latest remaining bucket.stop
        { report with
          bucketsFolded := report.bucketsFolded + 1
          rowsWritten := report.rowsWritten + rows
          partitionsCreated := report.partitionsCreated + created.toNat
          lastBucket := some bucket }).runWith answer between := by
  have opens : ¬isClosed latest bucket closesAt = true := by
    rw [opens]
    exact Bool.false_ne_true
  rw [foldBuckets, Procedure.runWith_bind (Procedure.runWith_compute bucketIs),
    Procedure.runWith_bind (Procedure.runWith_compute closesIs), if_neg opens,
    Procedure.runWith_bind aggregated,
    Procedure.runWith_bind (Procedure.runWith_compute (Word.add_eq_ok_iff.mpr ⟨written, rfl⟩))]

end

/-! ### Gaps -/

/-- Consecutive buckets that belong to one partition and have no rows to fold. The first of
them starts at a given epoch. -/
structure Gap (layout : BucketLayout) (granularity : Granularity) (store : EmbeddedStore)
    (start count : Nat) : Prop where
  /-- The store answers. -/
  opened : store.isClosed = false
  /-- Partitions can be created. -/
  free : store.hits .catalogue .insert 0 = false
  /-- There is something before the gap. -/
  positive : 0 < start
  /-- A bucket starts there. -/
  begins : (layout.bucketAt granularity start).start = start
  /-- The partition of this bucket goes on up to the end of the gap. -/
  inside : start + count * layout.width granularity ≤
    (layout.partitionRangeAt granularity start).stop
  /-- All epochs are early enough for every computation. -/
  early : start + count * layout.width granularity + layout.shift granularity +
    layout.partitionSpan granularity < storedLimit
  /-- No row that would be folded starts in the gap. -/
  empty : ∀ key ∈ store.tables.sourceKeys granularity,
    key < start ∨ (start + count * layout.width granularity : Nat) ≤ key

instance (layout : BucketLayout) (granularity : Granularity) (store : EmbeddedStore)
    (start count : Nat) : Decidable (layout.Gap granularity store start count) :=
  decidable_of_iff
    (store.isClosed = false ∧ store.hits .catalogue .insert 0 = false ∧ 0 < start ∧
      (layout.bucketAt granularity start).start = start ∧
      start + count * layout.width granularity ≤
        (layout.partitionRangeAt granularity start).stop ∧
      start + count * layout.width granularity + layout.shift granularity +
        layout.partitionSpan granularity < storedLimit ∧
      ∀ key ∈ store.tables.sourceKeys granularity,
        key < start ∨ (start + count * layout.width granularity : Nat) ≤ key)
    ⟨fun ⟨opened, free, positive, begins, inside, early, empty⟩ =>
        ⟨opened, free, positive, begins, inside, early, empty⟩,
      fun gap => ⟨gap.opened, gap.free, gap.positive, gap.begins, gap.inside, gap.early, gap.empty⟩⟩

namespace Gap

variable {layout : BucketLayout} {granularity : Granularity} {store : EmbeddedStore}
variable {start count : Nat} (gap : layout.Gap granularity store start (count + 1))

include gap

theorem bucketAt_eq : layout.bucketAt granularity start =
    ⟨start, start + layout.width granularity⟩ := by
  have begins := gap.begins
  have stop : (layout.bucketAt granularity start).stop =
      (layout.bucketAt granularity start).start + layout.width granularity :=
    EpochRange.stop_aligned_of_pos (begins.symm ▸ gap.positive)
  rw [begins] at stop
  show EpochRange.mk _ _ = _
  exact congrArg₂ EpochRange.mk begins stop

theorem bucket_eq : layout.bucket granularity start =
    .ok ⟨start, start + layout.width granularity⟩ := by
  have early := gap.early
  have limits : storedLimit < wordLimit := by decide
  have width := layout.width_le_partitionSpan granularity
  rw [← gap.bucketAt_eq]
  exact alignedRange_of_lt (by omega)

theorem closesAt_eq : ∃ closesAt, layout.closesAt granularity
    ⟨start, start + layout.width granularity⟩ = .ok closesAt := by
  cases granularity with
  | hourly => exact ⟨_, rfl⟩
  | daily =>
    have early := gap.early
    have limits : storedLimit < wordLimit := by decide
    have width := layout.width_le_partitionSpan .daily
    have shorter : layout.width .hourly ≤ layout.width .daily := layout.hourlyWidth_le
    have bucketIs : layout.bucket .hourly (start + layout.width .daily - 1) =
        .ok (layout.bucketAt .hourly (start + layout.width .daily - 1)) :=
      alignedRange_of_lt (by
        show _ + 0 + layout.width .hourly < _
        rw [Nat.succ_mul] at early
        omega)
    refine ⟨(layout.bucketAt .hourly (start + layout.width .daily - 1)).stop, ?_⟩
    unfold closesAt
    dsimp only
    rw [bucketIs]
    rfl

/-- No row starts in the first bucket. -/
theorem not_mem_first {key : Int} (member : key ∈ store.tables.sourceKeys granularity) :
    ¬((start : Int) ≤ key ∧ key < (start + layout.width granularity : Nat)) := by
  have apart := gap.empty key member
  have first : layout.width granularity ≤ (count + 1) * layout.width granularity :=
    Nat.le_mul_of_pos_left _ (Nat.succ_pos count)
  omega

/-- Nothing is written for the first bucket. -/
theorem foldBucket_eq :
    (layout.foldBucket granularity ⟨start, start + layout.width granularity⟩).runWith
        EmbeddedStore.answer store = (.ok 0, store) := by
  have early := gap.early
  rw [Nat.succ_mul] at early
  have startStored : start < storedLimit := by omega
  have stopStored : start + layout.width granularity < storedLimit := by omega
  cases granularity with
  | hourly =>
    refine Procedure.runWith_askFor
      (EmbeddedStore.answer_foldHour gap.opened startStored stopStored ?_)
    refine List.map_eq_nil_iff.mpr (List.filter_eq_nil_iff.mpr fun row member inside => ?_)
    rw [Bool.and_eq_true, decide_eq_true_eq, decide_eq_true_eq] at inside
    exact gap.not_mem_first (List.mem_map_of_mem member) inside
  | daily =>
    refine Procedure.runWith_askFor
      (EmbeddedStore.answer_foldDay gap.opened startStored stopStored ?_)
    refine List.map_eq_nil_iff.mpr (List.filter_eq_nil_iff.mpr fun row member inside => ?_)
    rw [Bool.and_eq_true, decide_eq_true_eq, decide_eq_true_eq] at inside
    exact gap.not_mem_first (List.mem_map_of_mem member) inside

/-- The gap is still there once its partition is. -/
theorem ensure : layout.Gap granularity (store.ensure (layout.partitionAt granularity start))
    start (count + 1) :=
  { gap with empty := fun key member =>
      gap.empty key (store.tables.sourceKeys_ensure _ granularity ▸ member) }

/-- All that comes of the first bucket is its partition. -/
theorem aggregate_eq :
    (layout.aggregate granularity ⟨start, start + layout.width granularity⟩).runWith
        EmbeddedStore.answer store =
      (.ok (0, !store.tables.hasPartition (layout.partitionAt granularity start).name),
        store.ensure (layout.partitionAt granularity start)) := by
  have early := gap.early
  have limits : storedLimit < wordLimit := by decide
  have partitionIs : layout.partitionFor granularity start =
      .ok (layout.partitionAt granularity start) := layout.partitionFor_of_lt (by omega)
  have first : (layout.partitionRangeAt granularity start).start ≤ start :=
    EpochRange.start_aligned_le (layout.partitionSpan_pos granularity) start
  have last : (layout.partitionRangeAt granularity start).stop ≤
      (layout.partitionRangeAt granularity start).start + layout.partitionSpan granularity :=
    EpochRange.stop_aligned_le start
  have startStored : (layout.partitionAt granularity start).range.start < storedLimit := by
    rw [layout.range_partitionAt]
    omega
  have stopStored : (layout.partitionAt granularity start).range.stop < storedLimit := by
    rw [layout.range_partitionAt]
    omega
  have created : (layout.ensurePartitionFor granularity start).runWith EmbeddedStore.answer store =
      (.ok (layout.partitionAt granularity start,
          !store.tables.hasPartition (layout.partitionAt granularity start).name),
        store.ensure (layout.partitionAt granularity start)) := by
    unfold ensurePartitionFor
    rw [Procedure.runWith_bind (Procedure.runWith_compute partitionIs)]
    exact Procedure.runWith_bind (Procedure.runWith_askFor
      (EmbeddedStore.answer_ensurePartition gap.opened gap.free startStored stopStored))
  unfold aggregate
  rw [Procedure.runWith_bind created]
  exact Procedure.runWith_bind gap.ensure.foldBucket_eq

/-- The rest of the gap lies in the same partition. -/
theorem range_rest (more : 0 < count) :
    layout.partitionRangeAt granularity (start + layout.width granularity) =
      layout.partitionRangeAt granularity start := by
  have inside := gap.inside
  rw [Nat.succ_mul] at inside
  have positive : 0 < count * layout.width granularity :=
    Nat.mul_pos more (layout.width_pos granularity)
  have first : (layout.partitionRangeAt granularity start).start ≤ start :=
    EpochRange.start_aligned_le (layout.partitionSpan_pos granularity) start
  exact EpochRange.aligned_eq_of_mem (layout.partitionSpan_pos granularity)
    (Nat.le_add_right_of_le first) (by
      show _ < (layout.partitionRangeAt granularity start).stop
      omega)

theorem partitionAt_rest (more : 0 < count) :
    layout.partitionAt granularity (start + layout.width granularity) =
      layout.partitionAt granularity start :=
  layout.partitionAt_eq_of_range_eq (gap.range_rest more)

/-- What is left of a gap after its first bucket. -/
theorem rest (more : 0 < count) :
    layout.Gap granularity (store.ensure (layout.partitionAt granularity start))
      (start + layout.width granularity) count := by
  have begins : (layout.bucketAt granularity (layout.bucketAt granularity start).stop).start =
      (layout.bucketAt granularity start).stop :=
    EpochRange.start_aligned_stop (layout.width_pos granularity) start
  have inside := gap.inside
  have early := gap.early
  rw [gap.bucketAt_eq] at begins
  rw [Nat.succ_mul] at inside early
  refine ⟨gap.opened, gap.free, Nat.add_pos_left gap.positive _, begins, ?_, by omega,
    fun key member => ?_⟩
  · rw [gap.range_rest more]
    omega
  · rw [show (store.ensure _).tables.sourceKeys granularity = _ from
      store.tables.sourceKeys_ensure _ granularity] at member
    have apart := gap.empty key member
    rw [Nat.succ_mul] at apart
    omega

end Gap

/-- A report of a fold over a gap of so many buckets. -/
def overGap (layout : BucketLayout) (granularity : Granularity) (store : EmbeddedStore)
    (start count : Nat) (report : FoldReport) : FoldReport :=
  { report with
    bucketsFolded := report.bucketsFolded + count
    partitionsCreated := report.partitionsCreated +
      (!store.tables.hasPartition (layout.partitionAt granularity start).name).toNat
    lastBucket := some ⟨start + (count - 1) * layout.width granularity,
      start + count * layout.width granularity⟩ }

section

variable {layout : BucketLayout} {granularity : Granularity} {latest : Option EpochRange}
variable {store : EmbeddedStore} {start count : Nat} {report : FoldReport}

/-- The report of a gap is that of its first bucket and then that of the rest. -/
theorem overGap_overGap (gap : layout.Gap granularity store start (count + 1)) (more : 0 < count) :
    layout.overGap granularity (store.ensure (layout.partitionAt granularity start))
        (start + layout.width granularity) count (layout.overGap granularity store start 1 report) =
      layout.overGap granularity store start (count + 1) report := by
  have present : (store.ensure (layout.partitionAt granularity start)).tables.hasPartition
      (layout.partitionAt granularity start).name = true := Tables.hasPartition_ensure _ _
  obtain ⟨fewer, rfl⟩ := Nat.exists_eq_add_one.mpr more
  unfold overGap
  rw [gap.partitionAt_rest more, present]
  simp only [Nat.succ_mul, Nat.add_sub_cancel, Bool.not_true, Bool.toNat_false, Nat.add_zero,
    FoldReport.mk.injEq, Option.some.injEq, EpochRange.mk.injEq, true_and]
  omega

/-- The first bucket of a gap is folded into nothing. -/
theorem runWith_foldBuckets_first (gap : layout.Gap granularity store start (count + 1))
    (passed : ∀ bucket, latest = some bucket → bucket.start < start)
    (written : report.rowsWritten < wordLimit) (remaining : Nat) :
    (layout.foldBuckets granularity latest (remaining + 1) start report).runWith
        EmbeddedStore.answer store =
      (layout.foldBuckets granularity latest remaining (start + layout.width granularity)
          (layout.overGap granularity store start 1 report)).runWith
        EmbeddedStore.answer (store.ensure (layout.partitionAt granularity start)) := by
  obtain ⟨closesAt, closesIs⟩ := gap.closesAt_eq
  have opens : isClosed latest ⟨start, start + layout.width granularity⟩ closesAt = false := by
    cases latest with
    | none => rfl
    | some bucket =>
      have before := passed bucket rfl
      have apart : decide (bucket.start = start) = false := decide_eq_false (by omega)
      show (decide (bucket.start = start) && _) = false
      rw [apart, Bool.false_and]
  rw [runWith_foldBuckets_fold gap.bucket_eq closesIs opens gap.aggregate_eq remaining written]
  unfold overGap
  simp only [Nat.sub_self, Nat.zero_mul, Nat.one_mul, Nat.add_zero]

/-- All that comes of a fold over a gap is the partition of the gap. -/
theorem runWith_foldBuckets_gap (gap : layout.Gap granularity store start (count + 1))
    (passed : ∀ bucket, latest = some bucket → bucket.start < start)
    (written : report.rowsWritten < wordLimit) (remaining : Nat) :
    (layout.foldBuckets granularity latest (remaining + (count + 1)) start report).runWith
        EmbeddedStore.answer store =
      (layout.foldBuckets granularity latest remaining
          (start + (count + 1) * layout.width granularity)
          (layout.overGap granularity store start (count + 1) report)).runWith
        EmbeddedStore.answer (store.ensure (layout.partitionAt granularity start)) := by
  induction count generalizing store start report with
  | zero =>
    rw [Nat.zero_add, Nat.one_mul]
    exact runWith_foldBuckets_first gap passed written remaining
  | succ count inductionHypothesis =>
    have more := Nat.succ_pos count
    have later : ∀ bucket, latest = some bucket →
        bucket.start < start + layout.width granularity :=
      fun bucket is => Nat.lt_of_lt_of_le (passed bucket is) (Nat.le_add_right _ _)
    have last : start + layout.width granularity + (count + 1) * layout.width granularity =
        start + (count + 1 + 1) * layout.width granularity := by
      rw [Nat.succ_mul (count + 1)]
      omega
    have writtenFirst : (layout.overGap granularity store start 1 report).rowsWritten < wordLimit :=
      written
    rw [← Nat.add_assoc, runWith_foldBuckets_first gap passed written,
      inductionHypothesis (gap.rest more) later writtenFirst, overGap_overGap gap more,
      gap.partitionAt_rest more, EmbeddedStore.ensure_ensure, last]

end

end BucketLayout

end EpochRollup
