/-
This file says what an open store without faults answers. The laws of statements say what a
statement has done when it succeeded, whatever faults there were; here they are turned round: on
a store that is sound, a statement succeeds wherever the rows that its law speaks of are found.
A call whose answer leaves such a store as it is can be made again and again, and so can a
procedure of such calls.
-/

import EpochRollup.Proofs.Gap
import EpochRollup.Proofs.Reclaim

namespace EpochRollup

namespace EmbeddedStore

/-- The store is open and has no faults. -/
structure Healthy (store : EmbeddedStore) : Prop where
  /-- No fault is placed on it. -/
  faults : store.faults = []
  /-- It is open. -/
  opened : store.isClosed = false

/-! ### Statements that succeed -/

section

variable {store : EmbeddedStore}

theorem Healthy.run_checkFault (healthy : store.Healthy) (site : FaultSite) (event : RowEvent)
    (key : Int) (tables : Tables) :
    (store.checkFault site event key).run tables = .ok ((), tables) := by
  unfold checkFault hits
  rw [healthy.faults]
  rfl

theorem Healthy.forM_checkFault (healthy : store.Healthy) {Row : Type} (site : FaultSite)
    (event : RowEvent) (key : Row → Int) (rows : List Row) (tables : Tables) :
    (rows.forM fun row => store.checkFault site event (key row)).run tables =
      .ok ((), tables) := by
  induction rows with
  | nil => rfl
  | cons row rest inductionHypothesis =>
    rw [List.forM_eq_forM, List.forM_cons]
    exact run_bind_eq_ok.mpr ⟨(), tables, healthy.run_checkFault _ _ _ _, inductionHypothesis⟩

theorem run_checkMetrics {table : RollupTable} {metrics stored : Metrics}
    (kept : storedMetrics metrics = .ok stored) (tables : Tables) :
    (checkMetrics table metrics).run tables = .ok (stored, tables) := by
  unfold checkMetrics
  rw [kept]
  rfl

theorem run_mergeValidator {samples : List Sample} {firstKey lastKey validator : Int}
    {merged : Metrics} (found : Sample.merge? samples firstKey lastKey validator = some merged)
    (tables : Tables) :
    (mergeValidator samples firstKey lastKey validator).run tables = .ok (merged, tables) := by
  unfold mergeValidator
  rw [found]
  rfl

section

variable {Row : Type} {kind : RowKind Row}

/-- A row that is admitted and has stored metrics is written. -/
theorem Healthy.run_put (healthy : store.Healthy) {row kept : Row} {tables : Tables}
    (admitted : kind.admits tables row = true) (keeps : Keeps kind row kept) :
    (store.put kind row).run tables =
      .ok ((), kind.withRows tables (putRow kind.before kept (kind.rows tables))) := by
  obtain ⟨metrics, stored, rfl⟩ := keeps
  refine run_bind_eq_ok.mpr ⟨(), tables, healthy.run_checkFault _ _ _ _, ?_⟩
  refine run_bind_eq_ok.mpr ⟨tables, tables, rfl, ?_⟩
  rw [admitted]
  refine run_bind_eq_ok.mpr ⟨(), tables, rfl, ?_⟩
  exact run_bind_eq_ok.mpr ⟨metrics, tables, run_checkMetrics stored tables, rfl⟩

/-- Rows that are made of some items are written one after the other. -/
theorem Healthy.forM_put (healthy : store.Healthy) {Item : Type} {rowOf : Item → Row}
    {items : List Item} {rows : List Row} {tables : Tables}
    (admitted : ∀ item ∈ items, kind.admits tables (rowOf item) = true)
    (kept : List.Forall₂ (fun item row => Keeps kind (rowOf item) row) items rows) :
    (items.forM fun item => store.put kind (rowOf item)).run tables =
      .ok ((), kind.withRows tables (putRows kind.before rows (kind.rows tables))) := by
  induction kept generalizing tables with
  | nil => exact congrArg (fun after => Except.ok ((), after)) (kind.withRows_rows tables).symm
  | @cons item row items rows keeps _ inductionHypothesis =>
    obtain ⟨first, others⟩ := List.forall_mem_cons.mp admitted
    have put := healthy.run_put first keeps
    have rest := @inductionHypothesis
      (kind.withRows tables (putRow kind.before row (kind.rows tables)))
      fun other member => (kind.admits_withRows _ _ _).trans (others other member)
    rw [kind.withRows_withRows, kind.rows_withRows] at rest
    rw [List.forM_eq_forM, List.forM_cons]
    exact run_bind_eq_ok.mpr ⟨(), _, put, rest⟩

/-- Rows are deleted, whichever there are. -/
theorem Healthy.run_deleteRows (healthy : store.Healthy) (kind : RowKind Row) (inside : Row → Bool)
    (tables : Tables) :
    (store.deleteRows kind inside).run tables =
      .ok ((), kind.withRows tables ((kind.rows tables).filter fun row => !inside row)) :=
  run_bind_eq_ok.mpr ⟨tables, tables, rfl, run_bind_eq_ok.mpr
    ⟨(), tables, healthy.forM_checkFault _ _ kind.faultKey _ tables, rfl⟩⟩

/-- Merging the validators of some rows finds what can be stored as the metrics of the rows. -/
theorem run_mergeAll {samples : List Sample} {firstKey lastKey : Int} {rows : List Row}
    (stored : ∀ row ∈ rows, Sample.stored? samples firstKey lastKey (kind.validator row) =
      some (kind.metrics row)) (tables : Tables) :
    ∃ merged : List (Int × Metrics),
      ((rows.map kind.validator).mapM (m := Statement) fun validator => do
        return (validator, ← mergeValidator samples firstKey lastKey validator)).run tables =
          .ok (merged, tables) ∧
        List.Forall₂ (fun row pair => pair.1 = kind.validator row ∧
          storedMetrics pair.2 = .ok (kind.metrics row)) rows merged := by
  induction rows with
  | nil => exact ⟨[], rfl, .nil⟩
  | cons row rest inductionHypothesis =>
    obtain ⟨tail, tailRan, related⟩ := inductionHypothesis fun other member =>
      stored other (List.mem_cons_of_mem _ member)
    obtain ⟨merged, found, kept⟩ := Sample.exists_merge_of_stored (stored row List.mem_cons_self)
    refine ⟨(kind.validator row, merged) :: tail, ?_, .cons ⟨rfl, kept⟩ related⟩
    rw [List.map_cons, List.mapM_cons]
    exact run_bind_eq_ok.mpr ⟨_, tables, run_bind_eq_ok.mpr
      ⟨merged, tables, run_mergeValidator found tables, rfl⟩,
        run_bind_eq_ok.mpr ⟨tail, tables, tailRan, rfl⟩⟩

/-- Merged rows that are made and admitted are written. -/
theorem Healthy.run_writeMerged (healthy : store.Healthy) {rowOf : Int → Metrics → Row}
    (makes : Makes kind rowOf) {samples : List Sample} {firstKey lastKey : Int} {rows : List Row}
    {tables : Tables}
    (admitted : ∀ validator metrics, kind.admits tables (rowOf validator metrics) = true)
    (validators : rows.map kind.validator = Sample.validators samples)
    (made : ∀ row ∈ rows, row = rowOf (kind.validator row) (kind.metrics row))
    (stored : ∀ row ∈ rows, Sample.stored? samples firstKey lastKey (kind.validator row) =
      some (kind.metrics row)) :
    (store.writeMerged kind samples firstKey lastKey rowOf).run tables =
      .ok (rows.length, kind.withRows tables (putRows kind.before rows (kind.rows tables))) := by
  obtain ⟨merged, merging, related⟩ := run_mergeAll stored tables
  rw [validators] at merging
  have keeps : List.Forall₂ (fun pair row => Keeps kind (rowOf pair.1 pair.2) row) merged rows := by
    refine (((List.forall₂_and_left _ _).mpr ⟨made, related⟩).imp fun row pair both => ?_).flip
    obtain ⟨rowIs, validator, kept⟩ := both
    refine ⟨kind.metrics row, by rwa [makes.metrics], ?_⟩
    rw [makes.withMetrics, validator]
    exact rowIs
  refine (run_bind_of_ok merging).trans ?_
  rw [related.length_eq]
  exact run_bind_of_ok (healthy.forM_put (fun _ _ => admitted _ _) keeps)

end

/-- Validators of the window are merged and written one after the other. -/
theorem Healthy.forM_putRolling (healthy : store.Healthy) {samples : List Sample}
    {firstKey lastKey start : Int} {covered : Option Int} {rows : List RollingRow}
    {tables : Tables}
    (written : ∀ row ∈ rows, (row.start = start ∧ covered = some row.stop) ∧
      Sample.stored? samples firstKey lastKey row.validator = some row.metrics) :
    ((rows.map (·.validator)).forM (m := Statement) fun validator => do
        let metrics ← mergeValidator samples firstKey lastKey validator
        store.putRolling validator start covered metrics).run tables =
      .ok ((), { tables with rolling := putRows RollingRow.before rows tables.rolling }) := by
  induction rows generalizing tables with
  | nil => rfl
  | cons row rest inductionHypothesis =>
    obtain ⟨⟨rfl, rfl⟩, stored⟩ := written row List.mem_cons_self
    obtain ⟨merged, found, kept⟩ := Sample.exists_merge_of_stored stored
    have put : (store.putRolling row.validator row.start (some row.stop) merged).run tables =
        .ok ((), { tables with rolling := putRow RollingRow.before row tables.rolling }) :=
      healthy.run_put rfl ⟨row.metrics, kept, rfl⟩
    rw [List.map_cons, List.forM_eq_forM, List.forM_cons]
    exact run_bind_eq_ok.mpr ⟨(), _, run_bind_eq_ok.mpr
      ⟨merged, tables, run_mergeValidator found tables, put⟩, inductionHypothesis
        fun other member => written other (List.mem_cons_of_mem _ member)⟩

/-! ### Calls that are answered -/

/-- A store whose window is replaced by itself. -/
theorem withRolling_eq {rolling : List RollingRow} (same : store.tables.rolling = rolling) :
    { store with tables := { store.tables with rolling } } = store := by
  rw [← same]

theorem Healthy.run_clearRolling (healthy : store.Healthy) (tables : Tables) :
    store.clearRolling.run tables = .ok ((), { tables with rolling := [] }) := by
  rw [clearRolling, healthy.run_deleteRows]
  simp

theorem Healthy.answer_look (healthy : store.Healthy) (call : StoreCall)
    (view : Tables → call.Answer)
    (looks : store.statement call = do store.checkOpen; return view (← get)) :
    store.answer call = (.ok (view store.tables), store) := by
  refine answer_of_run ?_
  rw [looks]
  exact run_bind_eq_ok.mpr ⟨(), store.tables, run_checkOpen healthy.opened _, rfl⟩

theorem Healthy.answer_firstHourlyFrom (healthy : store.Healthy) {epoch : Nat}
    (stored : epoch < storedLimit) :
    store.answer (.firstHourlyFrom epoch) =
      (.ok (((store.tables.hourly.map (·.start)).filter ((epoch : Int) ≤ ·)).min?.map
        epochOfStored), store) :=
  answer_of_run (run_bind_eq_ok.mpr ⟨_, _, run_storedEpoch stored _,
    run_bind_eq_ok.mpr ⟨(), store.tables, run_checkOpen healthy.opened _, rfl⟩⟩)

theorem Healthy.answer_clearRolling (healthy : store.Healthy) :
    store.answer .clearRolling =
      (.ok (), { store with tables := { store.tables with rolling := [] } }) :=
  answer_of_run (run_bind_eq_ok.mpr ⟨(), store.tables, run_checkOpen healthy.opened _,
    healthy.run_clearRolling _⟩)

/-- Replacing the window empties it and inserts into it. -/
theorem Healthy.run_statement_replaceRolling (healthy : store.Healthy) {start head : Nat}
    (startStored : start < storedLimit) (headStored : head < storedLimit) :
    (store.statement (.replaceRolling start head)).run store.tables =
      (store.insertRolling start head).run { store.tables with rolling := [] } :=
  (run_bind_of_ok (run_checkOpen healthy.opened _)).trans <|
    (run_bind_of_ok (healthy.run_clearRolling _)).trans <|
      (run_bind_of_ok (run_storedEpoch startStored _)).trans <|
        run_bind_of_ok (run_storedEpoch headStored _)

/-- A window with hours is inserted one validator after the other. -/
theorem Healthy.run_insertRolling_of_some (healthy : store.Healthy) (tables : Tables)
    {start head first : Int}
    (firstIs : ((windowSamples tables.hourly start head).map (·.key)).min? = some first) :
    (store.insertRolling start head).run tables =
      (do
        (Sample.validators (windowSamples tables.hourly start head)).forM fun validator => do
          let metrics ← mergeValidator (windowSamples tables.hourly start head) first head validator
          store.putRolling validator start (coverage tables head) metrics
        return (Sample.validators (windowSamples tables.hourly start head)).length :
          Statement Nat).run tables := by
  refine (run_bind_of_ok rfl).trans ?_
  dsimp only
  rw [← windowSamples, firstIs, healthy.faults]
  rfl

/-- A day is what its hours are folded into. -/
theorem Healthy.run_statement_foldDay (healthy : store.Healthy) {range : EpochRange}
    (startStored : range.start < storedLimit) (stopStored : range.stop < storedLimit)
    {day : CalendarDay} :
    (store.statement (.foldDay range day)).run store.tables =
      (store.foldDay range.start range.stop day).run store.tables :=
  run_of_range healthy.opened startStored stopStored (store.foldDay · · day) store.tables

/-- A day with hours is merged for all its validators and then written. -/
theorem run_foldDay_of_some {start stop first last : Int} {day : CalendarDay} {tables : Tables}
    (firstIs : ((hourSamples tables.hourly start stop).map (·.key)).min? = some first)
    (lastIs : ((hourSamples tables.hourly start stop).map (·.key)).max? = some last) :
    (store.foldDay start stop day).run tables =
      (store.writeMerged .daily (hourSamples tables.hourly start stop) first last
        fun validator metrics =>
          ⟨day, start, (coverage tables last).getD last, validator, metrics⟩).run tables := by
  refine (run_bind_of_ok rfl).trans ?_
  dsimp only
  rw [← hourSamples, firstIs, lastIs]

/-- A window without hours is left empty. -/
theorem Healthy.answer_replaceRolling_none (healthy : store.Healthy) {start head : Nat}
    (startStored : start < storedLimit) (headStored : head < storedLimit)
    (empty : windowSamples store.tables.hourly start head = []) :
    store.answer (.replaceRolling start head) =
      (.ok 0, { store with tables := { store.tables with rolling := [] } }) := by
  refine answer_of_run ((healthy.run_statement_replaceRolling startStored headStored).trans ?_)
  refine (run_bind_of_ok rfl).trans ?_
  dsimp only
  rw [← windowSamples, empty]
  rfl

/-- The window is replaced by the rows of its law. -/
theorem Healthy.answer_replaceRolling (healthy : store.Healthy) {start head : Nat}
    (startStored : start < storedLimit) (headStored : head < storedLimit) {first : Int}
    {rows : List RollingRow}
    (firstIs : ((windowSamples store.tables.hourly start head).map (·.key)).min? = some first)
    (validators : rows.map (·.validator) =
      Sample.validators (windowSamples store.tables.hourly start head))
    (written : ∀ row ∈ rows,
      (row.start = start ∧ coverage store.tables head = some row.stop) ∧
        Sample.stored? (windowSamples store.tables.hourly start head) first head row.validator =
          some row.metrics) :
    store.answer (.replaceRolling start head) = (.ok rows.length, { store with
      tables := { store.tables with rolling := putRows RollingRow.before rows [] } }) := by
  refine answer_of_run ((healthy.run_statement_replaceRolling startStored headStored).trans ?_)
  refine (healthy.run_insertRolling_of_some { store.tables with rolling := [] } firstIs).trans ?_
  dsimp only
  rw [← validators, List.length_map]
  exact run_bind_of_ok (healthy.forM_putRolling written)

/-- A day is folded into the rows of its law. -/
theorem Healthy.answer_foldDay (healthy : store.Healthy) {range : EpochRange}
    (startStored : range.start < storedLimit) (stopStored : range.stop < storedLimit)
    {day : CalendarDay} {first last : Int} {rows : List DailyRow}
    (firstIs : ((hourSamples store.tables.hourly range.start range.stop).map (·.key)).min? =
      some first)
    (lastIs : ((hourSamples store.tables.hourly range.start range.stop).map (·.key)).max? =
      some last)
    (admitted : store.tables.admitsDay day = true)
    (validators : rows.map (·.validator) =
      Sample.validators (hourSamples store.tables.hourly range.start range.stop))
    (written : ∀ row ∈ rows, (row.day = day ∧ row.start = range.start ∧
        row.stop = (coverage store.tables last).getD last) ∧
      Sample.stored? (hourSamples store.tables.hourly range.start range.stop) first last
        row.validator = some row.metrics) :
    store.answer (.foldDay range day) = (.ok rows.length, { store with
      tables := { store.tables with
        daily := putRows DailyRow.before rows store.tables.daily } }) := by
  refine answer_of_run ((healthy.run_statement_foldDay startStored stopStored).trans ?_)
  rw [run_foldDay_of_some firstIs lastIs]
  refine healthy.run_writeMerged (makes_daily day range.start _)
    (fun _ _ => admitted) validators (fun row member => ?_) fun row member =>
      (written row member).2
  obtain ⟨⟨day, start, stop⟩, -⟩ := written row member
  rw [← day, ← start, ← stop]

/-- A daily partition that is there is not made again. -/
theorem Healthy.answer_ensurePartition (healthy : store.Healthy) {range : EpochRange}
    {days : DayRange}
    (there : store.tables.hasPartition (Partition.daily range days).name = true) :
    store.answer (.ensurePartition (.daily range days)) = (.ok false, store) := by
  have ensured : (store.ensurePartition (.daily range days)).run store.tables =
      .ok (false, store.tables) := by
    refine run_bind_eq_ok.mpr ⟨(), store.tables, healthy.run_checkFault _ _ _ _,
      run_bind_eq_ok.mpr ⟨store.tables, store.tables, rfl, ?_⟩⟩
    rw [there]
    rfl
  exact answer_of_run (run_bind_eq_ok.mpr ⟨(), store.tables, run_checkOpen healthy.opened _,
    ensured⟩)

/-- A drop of what is not there drops nothing. -/
theorem Healthy.answer_dropPartition (healthy : store.Healthy) {partition : Partition}
    (startStored : partition.range.start < storedLimit)
    (stopStored : partition.range.stop < storedLimit) (lacks : store.tables.Lacks partition) :
    store.answer (.dropPartition partition) = (.ok false, store) := by
  have missing : store.tables.hasPartition partition.name = false := by
    rw [Bool.eq_false_iff]
    intro there
    obtain ⟨entry, member, same⟩ := Tables.hasPartition_iff.mp there
    rw [← lacks] at member
    exact (Tables.mem_catalogue_drop.mp member).2 same
  have unlisted : (store.deletePartition partition.name).run store.tables =
      .ok (false, store.tables) := by
    refine run_bind_eq_ok.mpr ⟨store.tables, store.tables, rfl, ?_⟩
    rw [missing]
    rfl
  cases partition with
  | hourly range =>
    have hours := healthy.run_deleteRows .hourly (fun row =>
      (range.start : Int) ≤ row.start && row.start < range.stop) store.tables
    rw [show store.tables.hourly.filter _ = store.tables.hourly from congrArg Tables.hourly lacks]
      at hours
    exact answer_of_run (run_bind_eq_ok.mpr ⟨(), _, run_checkOpen healthy.opened _,
      run_bind_eq_ok.mpr ⟨_, _, run_storedEpoch startStored _,
        run_bind_eq_ok.mpr ⟨_, _, run_storedEpoch stopStored _,
          run_bind_eq_ok.mpr ⟨(), _, hours, unlisted⟩⟩⟩⟩)
  | daily range days =>
    have gone := healthy.run_deleteRows .daily (fun row =>
      days.start.textKey ≤ row.day.textKey && row.day.textKey < days.stop.textKey) store.tables
    rw [show store.tables.daily.filter _ = store.tables.daily from congrArg Tables.daily lacks]
      at gone
    exact answer_of_run (run_bind_eq_ok.mpr ⟨(), _, run_checkOpen healthy.opened _,
      run_bind_eq_ok.mpr ⟨(), _, gone, unlisted⟩⟩)

end

end EmbeddedStore

/-! ### Procedures that change nothing -/

namespace Procedure

variable {First Result : Type} {store : EmbeddedStore}

/-- A procedure comes back on a store and leaves it as it is. -/
def Replays (procedure : Procedure Result) (store : EmbeddedStore) (result : Result) : Prop :=
  procedure.runWith EmbeddedStore.answer store = (.ok result, store)

theorem replays_pure (result : Result) : (pure result : Procedure Result).Replays store result :=
  rfl

theorem Replays.bind {procedure : Procedure First} {next : First → Procedure Result}
    {first : First} {result : Result} (begun : procedure.Replays store first)
    (rest : (next first).Replays store result) : (procedure >>= next).Replays store result :=
  (runWith_bind begun).trans rest

theorem replays_compute_bind {computed : Except Abort First} {next : First → Procedure Result}
    {first : First} {result : Result} (found : computed = .ok first)
    (rest : (next first).Replays store result) : (compute computed >>= next).Replays store result :=
  (runWith_bind (runWith_compute found)).trans rest

theorem replays_settle {call : StoreCall} {blame : StoreError → RollupError}
    {answer : call.Answer} (answered : store.answer call = (.ok answer, store)) :
    Replays (ExceptT.mk do return settle blame (← Dialogue.call call)) store answer := by
  show (settle blame (store.answer call).1, (store.answer call).2) = _
  rw [answered]
  rfl

theorem Replays.inStep {procedure : Procedure Result} {result : Result}
    (replays : procedure.Replays store result) (step : PassStep) :
    (procedure.inStep step).Replays store result := runWith_inStep step replays

end Procedure

open Procedure

section

variable {store : EmbeddedStore} {layout : BucketLayout} {granularity : Granularity}

theorem EmbeddedStore.Healthy.replays_lastHourly (healthy : store.Healthy) (clock : ChainClock) :
    (storedBounds clock .lastHourly).Replays store (store.tables.lastHourly?.map boundsOfStored) :=
  replays_settle (healthy.answer_look .lastHourlyBounds (·.lastHourly?.map boundsOfStored) rfl)

/-! ### Reclaims with nothing to drop -/

namespace BucketLayout

theorem replays_reclaimAt {boundary candidate : Nat} {partition : Partition}
    (found : layout.partitionFor granularity candidate = .ok partition)
    (met : List EpochRange)
    (lacking : (layout.partitionRangeAt granularity candidate).stop ≤ boundary →
      store.answer (.dropPartition (layout.partitionAt granularity candidate)) =
        (.ok false, store)) :
    ∃ after, (layout.reclaimAt granularity boundary candidate met 0).Replays store (after, 0) := by
  obtain rfl := layout.partitionFor_eq_ok found
  by_cases expired : (layout.partitionAt granularity candidate).range.stop ≤ boundary ∧
    (layout.partitionAt granularity candidate).range ∉ met
  · rw [range_partitionAt] at expired
    refine ⟨layout.partitionRangeAt granularity candidate :: met,
      replays_compute_bind found ?_⟩
    rw [range_partitionAt, if_pos expired]
    exact Replays.bind (replays_settle (lacking expired.1)) (replays_pure _)
  · refine ⟨met, replays_compute_bind found ?_⟩
    rw [if_neg expired]
    exact replays_pure _

/-- A walk drops nothing where the partitions that it comes to are lacking. -/
theorem replays_reclaimFrom {boundary oldest candidate : Nat} {partition : Partition}
    (found : layout.partitionFor granularity candidate = .ok partition)
    (met : List EpochRange)
    (lacking : ∀ epoch, lowestCandidate (layout.width granularity) candidate oldest <
        (layout.partitionRangeAt granularity epoch).stop →
      (layout.partitionRangeAt granularity epoch).stop ≤ boundary →
        store.answer (.dropPartition (layout.partitionAt granularity epoch)) =
          (.ok false, store)) :
    (layout.reclaimFrom granularity boundary oldest candidate met 0).Replays store 0 := by
  have positive := layout.width_pos granularity
  induction candidate using Nat.strongRecOn generalizing met partition with
  | ind candidate inductionHypothesis =>
    have above := lowestCandidate_le positive candidate oldest
    have within : candidate < (layout.partitionRangeAt granularity candidate).stop :=
      EpochRange.lt_stop_aligned (layout.partitionSpan_pos granularity) candidate
    obtain ⟨after, here⟩ := replays_reclaimAt found met (lacking candidate (by omega))
    rw [reclaimFrom]
    refine here.bind ?_
    dsimp only
    split
    · exact replays_pure 0
    · rename_i goesOn
      rw [lowestCandidate_of_step positive goesOn] at lacking
      exact inductionHypothesis _ (by omega) (partitionFor_ok_of_le found (by omega)) after lacking

end BucketLayout

/-- A reclaim drops nothing where its walk would drop nothing. -/
theorem EmbeddedStore.Healthy.replays_reclaim (healthy : store.Healthy)
    {retention : RetentionPolicy}
    (walk : ∀ horizon head oldest, retention.horizon granularity = some horizon →
      store.tables.head? = some head → horizon ≤ head →
      store.tables.oldest? granularity = some oldest →
        (layout.reclaimExpired granularity (head - horizon) oldest).Replays store 0) :
    ((Coordinator.ofStore layout retention).reclaim granularity).Replays store 0 := by
  unfold Coordinator.reclaim
  split
  · exact replays_pure 0
  · rename_i horizon horizonIs
    refine (healthy.replays_lastHourly layout.clock).bind ?_
    cases latestIs : store.tables.lastHourly?.map boundsOfStored with
    | none => exact replays_pure 0
    | some latest =>
      dsimp only
      split
      · exact replays_pure 0
      · rename_i old
        have oldest : ((Coordinator.ofStore layout retention).oldest granularity).Replays store
            (store.tables.oldest? granularity) := by
          cases granularity with
          | hourly =>
            exact replays_settle (healthy.answer_look .firstHourlyEpoch (·.oldest? .hourly) rfl)
          | daily =>
            exact replays_settle (healthy.answer_look .firstDailyEpoch (·.oldest? .daily) rfl)
        refine oldest.bind ?_
        cases oldestIs : store.tables.oldest? granularity with
        | none => exact replays_pure 0
        | some oldest =>
          exact walk horizon latest.start oldest horizonIs (Tables.head?_of_lastHourly? latestIs)
            (by omega) oldestIs

end

end EpochRollup
