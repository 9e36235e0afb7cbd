/-
This file says what a statement of the embedded store did when it succeeded. Every
statement has one law: from "it came back with this result and these tables" follows
which tables changed and how. Later proofs use these laws and never look inside a
statement. A statement that fails changes nothing, so nothing is said about it.

The laws hold for every store that has the tables, whatever faults are placed on it:
a fault can only make a statement fail.
-/

import Mathlib.Data.List.Forall2
import EpochRollup.Proofs.Merge
import EpochRollup.Proofs.Rows

namespace EpochRollup

/-- The samples of the epochs in a range. -/
def epochSamples (epochs : List EpochRow) (start stop : Int) : List Sample :=
  (epochs.filter fun row => start ≤ row.epoch && row.epoch < stop).map EpochRow.sample

/-- The samples of the hours that start in a range. -/
def hourSamples (hours : List HourlyRow) (start stop : Int) : List Sample :=
  (hours.filter fun row => start ≤ row.start && row.start < stop).map HourlyRow.sample

/-- The samples of the hours that start between two epochs, both included. -/
def windowSamples (hours : List HourlyRow) (start head : Int) : List Sample :=
  (hours.filter fun row => start ≤ row.start && row.start ≤ head).map HourlyRow.sample

namespace EmbeddedStore

/-! ### Running statements -/

/-- A statement followed by another succeeds when both do. -/
theorem run_bind_eq_ok {First Result : Type} {first : Statement First}
    {next : First → Statement Result} {tables after : Tables} {result : Result} :
    (first >>= next).run tables = .ok (result, after) ↔
      ∃ found between, first.run tables = .ok (found, between) ∧
        (next found).run between = .ok (result, after) := by
  rw [StateT.run_bind]
  cases first.run tables with
  | error failure => simp [bind, Except.bind]
  | ok pair =>
    constructor
    · intro ok
      exact ⟨pair.1, pair.2, rfl, ok⟩
    · rintro ⟨found, between, equal, ok⟩
      cases equal
      exact ok

theorem run_bind_of_ok {First Result : Type} {first : Statement First}
    {next : First → Statement Result} {tables between : Tables} {found : First}
    (ran : first.run tables = .ok (found, between)) :
    (first >>= next).run tables = (next found).run between := by
  rw [StateT.run_bind, ran]
  rfl

theorem run_bind_of_error {First Result : Type} {first : Statement First}
    {next : First → Statement Result} {tables : Tables} {error : StoreError}
    (failed : first.run tables = .error error) :
    (first >>= next).run tables = .error error := by
  rw [StateT.run_bind, failed]
  rfl

theorem run_lift_eq_ok {Result : Type} {computed : Except StoreError Result}
    {tables after : Tables} {result : Result}
    (ok : (liftM computed : Statement Result).run tables = .ok (result, after)) :
    computed = .ok result ∧ after = tables := by
  cases computed with
  | error failure => cases ok
  | ok value =>
    cases ok
    exact ⟨rfl, rfl⟩

theorem checkFault_eq_ok {store : EmbeddedStore} {site : FaultSite} {event : RowEvent} {key : Int}
    {tables after : Tables} {result : Unit}
    (ok : (store.checkFault site event key).run tables = .ok (result, after)) :
    after = tables := by
  unfold checkFault at ok
  split at ok
  · cases ok
  · cases ok
    rfl

theorem checkOpen_eq_ok {store : EmbeddedStore} {tables after : Tables} {result : Unit}
    (ok : store.checkOpen.run tables = .ok (result, after)) : after = tables := by
  unfold checkOpen at ok
  split at ok
  · cases ok
  · cases ok
    rfl

theorem checkAdmitted_eq_ok {table : RollupTable} {admitted : Bool} {tables after : Tables}
    {result : Unit} (ok : (checkAdmitted table admitted).run tables = .ok (result, after)) :
    admitted = true ∧ after = tables := by
  unfold checkAdmitted at ok
  split at ok
  · rename_i admitted
    cases ok
    exact ⟨admitted, rfl⟩
  · cases ok

theorem checkMetrics_eq_ok {table : RollupTable} {metrics stored : Metrics}
    {tables after : Tables}
    (ok : (checkMetrics table metrics).run tables = .ok (stored, after)) :
    storedMetrics metrics = .ok stored ∧ after = tables := by
  unfold checkMetrics at ok
  split at ok
  · rename_i value outcome
    cases ok
    exact ⟨outcome, rfl⟩
  · cases ok

/-- Statements that leave a view of the tables alone do so one after the other. -/
theorem forM_preserves {Item View : Type} (view : Tables → View) {act : Item → Statement Unit}
    {items : List Item}
    (each : ∀ item ∈ items, ∀ tables after result,
      (act item).run tables = .ok (result, after) → view after = view tables)
    {tables after : Tables} {result : Unit}
    (ok : (items.forM act).run tables = .ok (result, after)) : view after = view tables := by
  induction items generalizing tables with
  | nil =>
    cases ok
    rfl
  | cons item rest inductionHypothesis =>
    rw [List.forM_eq_forM, List.forM_cons] at ok
    obtain ⟨_, between, first, others⟩ := run_bind_eq_ok.mp ok
    rw [inductionHypothesis (fun other member => each other (List.mem_cons_of_mem _ member)) others]
    exact each item List.mem_cons_self _ _ _ first

/-- Checking faults for several rows changes nothing. -/
theorem forM_checkFault_eq_ok {Row : Type} {store : EmbeddedStore} {site : FaultSite}
    {event : RowEvent} {key : Row → Int} {rows : List Row} {tables after : Tables} {result : Unit}
    (ok : (rows.forM fun row => store.checkFault site event (key row)).run tables =
      .ok (result, after)) : after = tables :=
  forM_preserves id (fun _ _ _ _ _ checked => checkFault_eq_ok checked) ok

/-! ### Writing rows -/

section

variable {Row : Type} {kind : RowKind Row} {store : EmbeddedStore} {tables after : Tables}

/-- What a table keeps of a row that is written: the row, with its metrics as the columns hold
them. -/
def Keeps (kind : RowKind Row) (row kept : Row) : Prop :=
  ∃ metrics, storedMetrics (kind.metrics row) = .ok metrics ∧ kept = kind.withMetrics row metrics

theorem put_eq_ok {row : Row} {result : Unit}
    (ok : (store.put kind row).run tables = .ok (result, after)) :
    kind.admits tables row = true ∧ ∃ kept, Keeps kind row kept ∧
      after = kind.withRows tables (putRow kind.before kept (kind.rows tables)) := by
  obtain ⟨_, unfaulted, fault, gets⟩ := run_bind_eq_ok.mp ok
  obtain ⟨read, got, get, admits⟩ := run_bind_eq_ok.mp gets
  obtain ⟨_, passed, admission, rest⟩ := run_bind_eq_ok.mp admits
  obtain ⟨metrics, checked, check, written⟩ := run_bind_eq_ok.mp rest
  obtain ⟨stored, rfl⟩ := checkMetrics_eq_ok check
  obtain ⟨admitted, rfl⟩ := checkAdmitted_eq_ok admission
  cases get
  cases checkFault_eq_ok fault
  cases written
  exact ⟨admitted, _, ⟨metrics, stored, rfl⟩, rfl⟩

/-- Writing a row for each item keeps each of them in its place, and a partition covers each where
the table has partitions. -/
theorem forM_put_eq_ok {Item : Type} {rowOf : Item → Row} {items : List Item} {result : Unit}
    (ok : (items.forM fun item => store.put kind (rowOf item)).run tables = .ok (result, after)) :
    (∀ item ∈ items, kind.admits tables (rowOf item) = true) ∧
      ∃ rows, List.Forall₂ (fun item kept => Keeps kind (rowOf item) kept) items rows ∧
        after = kind.withRows tables (putRows kind.before rows (kind.rows tables)) := by
  induction items generalizing tables with
  | nil =>
    cases ok
    exact ⟨fun _ member => absurd member List.not_mem_nil, [], .nil,
      (kind.withRows_rows after).symm⟩
  | cons item rest inductionHypothesis =>
    rw [List.forM_eq_forM, List.forM_cons] at ok
    obtain ⟨_, between, first, others⟩ := run_bind_eq_ok.mp ok
    obtain ⟨admitted, kept, keeps, rfl⟩ := put_eq_ok first
    obtain ⟨covered, rows, related, rfl⟩ := inductionHypothesis others
    simp only [kind.admits_withRows] at covered
    rw [kind.withRows_withRows, kind.rows_withRows]
    exact ⟨List.forall_mem_cons.mpr ⟨admitted, covered⟩, kept :: rows, .cons keeps related, rfl⟩

/-- Deleting rows leaves the others. -/
theorem deleteRows_eq_ok {inside : Row → Bool} {result : Unit}
    (ok : (store.deleteRows kind inside).run tables = .ok (result, after)) :
    after = kind.withRows tables ((kind.rows tables).filter fun row => !inside row) := by
  obtain ⟨read, got, get, rest⟩ := run_bind_eq_ok.mp ok
  obtain ⟨_, unfaulted, faults, written⟩ := run_bind_eq_ok.mp rest
  cases get
  cases forM_checkFault_eq_ok faults
  cases written
  rfl

end

/-- Writing epoch rows keeps each of them in its place. -/
theorem forM_putEpoch_eq_ok {store : EmbeddedStore} {rows : List EpochRow} {tables after : Tables}
    {result : Unit} (ok : (rows.forM (store.put .epoch)).run tables = .ok (result, after)) :
    ∃ stored : List EpochRow, stored.map (·.epoch) = rows.map (·.epoch) ∧
      after = { tables with epochs := putRows EpochRow.before stored tables.epochs } := by
  obtain ⟨-, stored, related, rfl⟩ := forM_put_eq_ok ok
  refine ⟨stored, ?_, rfl⟩
  rw [eq_comm, ← List.forall₂_eq_eq_eq, List.forall₂_map_left_iff, List.forall₂_map_right_iff]
  refine related.imp fun row kept keeps => ?_
  obtain ⟨metrics, -, rfl⟩ := keeps
  rfl

/-- Writing hourly rows keeps each of them in its place, and a partition covers each. -/
theorem forM_putHours_eq_ok {store : EmbeddedStore} {rows : List HourlyRow}
    {tables after : Tables} {result : Unit}
    (ok : (rows.forM (store.put .hourly)).run tables = .ok (result, after)) :
    ∃ stored : List HourlyRow, (∀ row ∈ stored, tables.admitsHour row.start = true) ∧
      after = { tables with hourly := putRows HourlyRow.before stored tables.hourly } := by
  obtain ⟨covered, stored, related, rfl⟩ := forM_put_eq_ok ok
  have admitted : List.Forall₂ (fun (kept row : HourlyRow) =>
      tables.admitsHour kept.start = true ∧ True) stored rows := by
    refine (((List.forall₂_and_left _ _).mpr ⟨covered, related⟩).imp fun row kept keeps => ?_).flip
    obtain ⟨admitted, metrics, -, rfl⟩ := keeps
    exact ⟨admitted, trivial⟩
  exact ⟨stored, ((List.forall₂_and_left _ _).mp admitted).1, rfl⟩

/-! ### Folds -/

theorem mergeValidator_eq_ok {samples : List Sample} {firstKey lastKey validator : Int}
    {tables after : Tables} {metrics : Metrics}
    (ok : (mergeValidator samples firstKey lastKey validator).run tables = .ok (metrics, after)) :
    Sample.merge? samples firstKey lastKey validator = some metrics ∧ after = tables := by
  unfold mergeValidator at ok
  split at ok
  · rename_i found
    cases ok
    exact ⟨found, rfl⟩
  · cases ok

/-- A merge of several validators leaves the tables alone and finds the merged metrics of
each. -/
theorem mapM_merge_eq_ok {samples : List Sample} {firstKey lastKey : Int}
    {validators : List Int} {merged : List (Int × Metrics)} {tables after : Tables}
    (ok : (validators.mapM (m := Statement) fun validator => do
        return (validator, ← mergeValidator samples firstKey lastKey validator)).run tables =
      .ok (merged, after)) :
    after = tables ∧ List.Forall₂ (fun validator pair => pair.1 = validator ∧
      Sample.merge? samples firstKey lastKey validator = some pair.2) validators merged := by
  induction validators generalizing tables merged with
  | nil =>
    cases ok
    exact ⟨rfl, List.Forall₂.nil⟩
  | cons validator rest inductionHypothesis =>
    rw [List.mapM_cons] at ok
    obtain ⟨pair, between, first, others⟩ := run_bind_eq_ok.mp ok
    obtain ⟨metrics, inner, found, returned⟩ := run_bind_eq_ok.mp first
    obtain ⟨mergedIs, rfl⟩ := mergeValidator_eq_ok found
    cases returned
    obtain ⟨tail, last, tailOk, returned⟩ := run_bind_eq_ok.mp others
    cases returned
    obtain ⟨rfl, related⟩ := inductionHypothesis tailOk
    exact ⟨rfl, List.Forall₂.cons ⟨rfl, mergedIs⟩ related⟩

/-- Merged metrics that could be stored are the stored metrics of the fold. -/
theorem stored?_of_merge {samples : List Sample} {firstKey lastKey validator : Int}
    {merged metrics : Metrics}
    (mergedIs : Sample.merge? samples firstKey lastKey validator = some merged)
    (stored : storedMetrics merged = .ok metrics) :
    Sample.stored? samples firstKey lastKey validator = some metrics := by
  rw [Sample.stored?, mergedIs, Option.bind_some, stored]
  rfl

/-- Rows are made from a validator and its metrics, which are found in them again. -/
structure Makes {Row : Type} (kind : RowKind Row) (rowOf : Int → Metrics → Row) : Prop where
  /-- The validator of a row is the one it is made from. -/
  validator : ∀ validator metrics, kind.validator (rowOf validator metrics) = validator
  /-- The metrics of a row are those it is made from. -/
  metrics : ∀ validator metrics, kind.metrics (rowOf validator metrics) = metrics
  /-- With other metrics a row is one that is made from these. -/
  withMetrics : ∀ validator metrics stored,
    kind.withMetrics (rowOf validator metrics) stored = rowOf validator stored

theorem makes_hourly (start stop : Int) :
    Makes .hourly fun validator metrics => ⟨start, stop, validator, metrics⟩ :=
  ⟨fun _ _ => rfl, fun _ _ => rfl, fun _ _ _ => rfl⟩

theorem makes_daily (day : CalendarDay) (start stop : Int) :
    Makes .daily fun validator metrics => ⟨day, start, stop, validator, metrics⟩ :=
  ⟨fun _ _ => rfl, fun _ _ => rfl, fun _ _ _ => rfl⟩

theorem makes_rolling (start stop : Int) :
    Makes .rolling fun validator metrics => ⟨validator, start, stop, metrics⟩ :=
  ⟨fun _ _ => rfl, fun _ _ => rfl, fun _ _ _ => rfl⟩

/-- Rows written for the merged validators of a fold: one per validator, in their order, with
the stored metrics of the fold. -/
theorem forall₂_written {Row : Type} {kind : RowKind Row} {rowOf : Int → Metrics → Row}
    {samples : List Sample} {firstKey lastKey : Int} {validators : List Int}
    {merged : List (Int × Metrics)} {rows : List Row} (makes : Makes kind rowOf)
    (mergedIs : List.Forall₂ (fun validator pair => pair.1 = validator ∧
      Sample.merge? samples firstKey lastKey validator = some pair.2) validators merged)
    (written : List.Forall₂ (fun pair row => Keeps kind (rowOf pair.1 pair.2) row) merged rows) :
    rows.map kind.validator = validators ∧ ∀ row ∈ rows, ∃ metrics,
      Sample.stored? samples firstKey lastKey (kind.validator row) = some metrics ∧
        row = rowOf (kind.validator row) metrics := by
  induction mergedIs generalizing rows with
  | nil =>
    cases written
    exact ⟨rfl, fun _ member => absurd member List.not_mem_nil⟩
  | cons first _ inductionHypothesis =>
    cases written with
    | cons head tail =>
      obtain ⟨rfl, found⟩ := first
      obtain ⟨metrics, stored, rfl⟩ := head
      rw [makes.metrics] at stored
      rw [makes.withMetrics]
      obtain ⟨validators, others⟩ := inductionHypothesis tail
      refine ⟨by rw [List.map_cons, makes.validator, validators],
        List.forall_mem_cons.mpr ⟨?_, others⟩⟩
      rw [makes.validator]
      exact ⟨metrics, stored?_of_merge found stored, rfl⟩

/-- Where a fold has samples, it merges a validator. -/
theorem exists_merged {samples : List Sample} {firstKey lastKey key : Int}
    {merged : List (Int × Metrics)} (keyIs : key ∈ samples.map (·.key))
    (mergedIs : List.Forall₂ (fun validator pair => pair.1 = validator ∧
      Sample.merge? samples firstKey lastKey validator = some pair.2)
      (Sample.validators samples) merged) : ∃ pair, pair ∈ merged := by
  obtain ⟨sample, member, -⟩ := List.mem_map.mp keyIs
  have validator := (Sample.mem_validators _ _).mpr ⟨sample, member, rfl⟩
  refine List.exists_mem_of_ne_nil merged ?_
  rintro rfl
  rw [List.forall₂_nil_right_iff.mp mergedIs] at validator
  exact List.not_mem_nil validator

/-- A fold that writes its merged metrics writes a row for each validator of its samples, and a
partition covers the rows where the table has partitions. -/
theorem writeMerged_eq_ok {Row : Type} {kind : RowKind Row} {store : EmbeddedStore}
    {rowOf : Int → Metrics → Row} {samples : List Sample} {firstKey lastKey key : Int}
    {tables after : Tables} {count : Nat} (makes : Makes kind rowOf)
    (keyIs : key ∈ samples.map (·.key))
    (ok : (store.writeMerged kind samples firstKey lastKey rowOf).run tables =
      .ok (count, after)) :
    ∃ rows, (∃ validator metrics, kind.admits tables (rowOf validator metrics) = true) ∧
      rows.map kind.validator = Sample.validators samples ∧
      (∀ row ∈ rows, ∃ metrics,
        Sample.stored? samples firstKey lastKey (kind.validator row) = some metrics ∧
          row = rowOf (kind.validator row) metrics) ∧
      count = rows.length ∧
      after = kind.withRows tables (putRows kind.before rows (kind.rows tables)) := by
  obtain ⟨merged, between, merging, rest⟩ := run_bind_eq_ok.mp ok
  obtain ⟨_, wrote, writing, returned⟩ := run_bind_eq_ok.mp rest
  cases returned
  obtain ⟨rfl, mergedIs⟩ := mapM_merge_eq_ok merging
  obtain ⟨admitted, rows, written, rfl⟩ := forM_put_eq_ok writing
  obtain ⟨pair, member⟩ := exists_merged keyIs mergedIs
  obtain ⟨validators, stored⟩ := forall₂_written makes mergedIs written
  exact ⟨rows, ⟨_, _, admitted pair member⟩, validators, stored, written.length_eq, rfl⟩

/-- A fold of an hour writes nothing when its epochs have no rows. Otherwise it writes a row
for each validator of the epochs, which covers the epochs up to the last one present. -/
theorem foldHour_eq_ok {store : EmbeddedStore} {start stop : Int} {tables after : Tables}
    {count : Nat} (ok : (store.foldHour start stop).run tables = .ok (count, after)) :
    (epochSamples tables.epochs start stop = [] ∧ count = 0 ∧ after = tables) ∨
      ∃ (last : Int) (rows : List HourlyRow),
        ((epochSamples tables.epochs start stop).map (·.key)).max? = some last ∧
        tables.admitsHour start = true ∧
        rows.map (·.validator) = Sample.validators (epochSamples tables.epochs start stop) ∧
        (∀ row ∈ rows, (row.start = start ∧ row.stop = last + 1) ∧
          Sample.stored? (epochSamples tables.epochs start stop) start last row.validator =
            some row.metrics) ∧
        count = rows.length ∧
        after = { tables with hourly := putRows HourlyRow.before rows tables.hourly } := by
  obtain ⟨read, got, get, rest⟩ := run_bind_eq_ok.mp ok
  cases get
  dsimp only at rest
  rw [← epochSamples] at rest
  split at rest
  · rename_i none
    cases rest
    rw [List.max?_eq_none_iff, List.map_eq_nil_iff] at none
    exact Or.inl ⟨none, rfl, rfl⟩
  · rename_i last lastIs
    obtain ⟨rows, ⟨_, _, admitted⟩, validators, stored, counted, rfl⟩ :=
      writeMerged_eq_ok (makes_hourly start (last + 1)) (List.max?_mem lastIs) rest
    refine Or.inr ⟨last, rows, lastIs, admitted, validators, fun row member => ?_, counted, rfl⟩
    obtain ⟨metrics, found, rowIs⟩ := stored row member
    rw [rowIs]
    exact ⟨⟨rfl, rfl⟩, found⟩

/-- A fold of a day writes nothing when no hour starts in it. Otherwise it writes a row for
each validator of the hours, which covers what the latest of the hours covers. -/
theorem foldDay_eq_ok {store : EmbeddedStore} {start stop : Int} {day : CalendarDay}
    {tables after : Tables} {count : Nat}
    (ok : (store.foldDay start stop day).run tables = .ok (count, after)) :
    (hourSamples tables.hourly start stop = [] ∧ count = 0 ∧ after = tables) ∨
      ∃ (first last : Int) (rows : List DailyRow),
        ((hourSamples tables.hourly start stop).map (·.key)).min? = some first ∧
        ((hourSamples tables.hourly start stop).map (·.key)).max? = some last ∧
        tables.admitsDay day = true ∧
        rows.map (·.validator) = Sample.validators (hourSamples tables.hourly start stop) ∧
        (∀ row ∈ rows, (row.day = day ∧ row.start = start ∧
            row.stop = (coverage tables last).getD last) ∧
          Sample.stored? (hourSamples tables.hourly start stop) first last row.validator =
            some row.metrics) ∧
        count = rows.length ∧
        after = { tables with daily := putRows DailyRow.before rows tables.daily } := by
  obtain ⟨read, got, get, rest⟩ := run_bind_eq_ok.mp ok
  cases get
  dsimp only at rest
  rw [← hourSamples] at rest
  split at rest
  · rename_i first last firstIs lastIs
    obtain ⟨rows, ⟨_, _, admitted⟩, validators, stored, counted, rfl⟩ :=
      writeMerged_eq_ok (makes_daily day start _) (List.max?_mem lastIs) rest
    refine Or.inr ⟨first, last, rows, firstIs, lastIs, admitted, validators,
      fun row member => ?_, counted, rfl⟩
    obtain ⟨metrics, found, rowIs⟩ := stored row member
    rw [rowIs]
    exact ⟨⟨rfl, rfl, rfl⟩, found⟩
  · rename_i missing
    cases rest
    refine Or.inl ⟨?_, rfl, rfl⟩
    cases samples : hourSamples tables.hourly start stop with
    | nil => rfl
    | cons sample others =>
      rw [samples] at missing
      exact absurd rfl (missing _ _ rfl)

/-! ### The trailing window -/

/-- A statement that merges each validator before it writes it does what it would do if every
validator were merged before the first is written: a write leaves alone what is merged. -/
theorem forM_mergeRolling_eq_ok {store : EmbeddedStore} {samples : List Sample}
    {firstKey lastKey start : Int} {covered : Option Int} {validators : List Int}
    {tables after : Tables} {result : Unit}
    (ok : (validators.forM (m := Statement) fun validator => do
        let metrics ← mergeValidator samples firstKey lastKey validator
        store.putRolling validator start covered metrics).run tables = .ok (result, after)) :
    ∃ merged : List (Int × Metrics),
      List.Forall₂ (fun validator pair => pair.1 = validator ∧
        Sample.merge? samples firstKey lastKey validator = some pair.2) validators merged ∧
      (merged.forM fun pair => store.putRolling pair.1 start covered pair.2).run tables =
        .ok (result, after) := by
  induction validators generalizing tables with
  | nil => exact ⟨[], List.Forall₂.nil, ok⟩
  | cons validator rest inductionHypothesis =>
    rw [List.forM_eq_forM, List.forM_cons] at ok
    obtain ⟨_, between, first, others⟩ := run_bind_eq_ok.mp ok
    obtain ⟨metrics, unchanged, merging, put⟩ := run_bind_eq_ok.mp first
    obtain ⟨mergedIs, rfl⟩ := mergeValidator_eq_ok merging
    obtain ⟨merged, related, writing⟩ := inductionHypothesis others
    refine ⟨(validator, metrics) :: merged, List.Forall₂.cons ⟨rfl, mergedIs⟩ related, ?_⟩
    rw [List.forM_eq_forM, List.forM_cons]
    exact run_bind_eq_ok.mpr ⟨_, between, put, writing⟩

/-- Rolling rows are written with the coverage of the head, and there is one. -/
theorem forM_putRolling_eq_ok {store : EmbeddedStore} {start : Int} {covered : Option Int}
    {merged : List (Int × Metrics)} {tables after : Tables} {result : Unit}
    (nonempty : ∃ pair, pair ∈ merged)
    (ok : (merged.forM fun pair => store.putRolling pair.1 start covered pair.2).run tables =
      .ok (result, after)) :
    ∃ stop, covered = some stop ∧ ∃ rows : List RollingRow,
      List.Forall₂ (fun pair row => Keeps .rolling ⟨pair.1, start, stop, pair.2⟩ row) merged rows ∧
        after = { tables with rolling := putRows RollingRow.before rows tables.rolling } := by
  cases covered with
  | some stop => exact ⟨stop, rfl, (forM_put_eq_ok ok).2⟩
  | none =>
    obtain ⟨pair, member⟩ := nonempty
    cases merged with
    | nil => cases member
    | cons first rest =>
      rw [List.forM_eq_forM, List.forM_cons] at ok
      obtain ⟨_, between, put, -⟩ := run_bind_eq_ok.mp ok
      obtain ⟨_, unfaulted, -, thrown⟩ := run_bind_eq_ok.mp put
      cases thrown

/-- Filling the trailing window writes nothing when no hour starts in it. Otherwise it writes
a row for each validator of its hours, all with the coverage of the head. -/
theorem insertRolling_eq_ok {store : EmbeddedStore} {start head : Int} {tables after : Tables}
    {count : Nat} (ok : (store.insertRolling start head).run tables = .ok (count, after)) :
    (windowSamples tables.hourly start head = [] ∧ count = 0 ∧ after = tables) ∨
      ∃ (first : Int) (rows : List RollingRow),
        ((windowSamples tables.hourly start head).map (·.key)).min? = some first ∧
        rows.map (·.validator) = Sample.validators (windowSamples tables.hourly start head) ∧
        (∀ row ∈ rows, (row.start = start ∧ coverage tables head = some row.stop) ∧
          Sample.stored? (windowSamples tables.hourly start head) first head row.validator =
            some row.metrics) ∧
        count = rows.length ∧
        after = { tables with rolling := putRows RollingRow.before rows tables.rolling } := by
  obtain ⟨read, got, get, rest⟩ := run_bind_eq_ok.mp ok
  cases get
  dsimp only at rest
  rw [← windowSamples] at rest
  split at rest
  · rename_i none
    cases rest
    rw [List.min?_eq_none_iff, List.map_eq_nil_iff] at none
    exact Or.inl ⟨none, rfl, rfl⟩
  · rename_i first firstIs
    -- Both ways of writing write the same rows.
    obtain ⟨merged, mergedIs, ⟨_, wrote, writing, returned⟩⟩ :
        ∃ merged : List (Int × Metrics),
          List.Forall₂ (fun validator pair => pair.1 = validator ∧
            Sample.merge? (windowSamples tables.hourly start head) first head validator =
              some pair.2) (Sample.validators (windowSamples tables.hourly start head)) merged ∧
          ∃ written wrote, (merged.forM fun pair =>
              store.putRolling pair.1 start (coverage tables head) pair.2).run tables =
                .ok (written, wrote) ∧
            (pure (Sample.validators (windowSamples tables.hourly start head)).length :
              Statement Nat).run wrote = .ok (count, after) := by
      split at rest
      · obtain ⟨merged, between, merging, rest⟩ := run_bind_eq_ok.mp rest
        obtain ⟨_, wrote, writing, returned⟩ := run_bind_eq_ok.mp rest
        obtain ⟨rfl, mergedIs⟩ := mapM_merge_eq_ok merging
        exact ⟨merged, mergedIs, (), wrote, writing, returned⟩
      · obtain ⟨_, wrote, writing, returned⟩ := run_bind_eq_ok.mp rest
        obtain ⟨merged, mergedIs, writing⟩ := forM_mergeRolling_eq_ok writing
        exact ⟨merged, mergedIs, (), wrote, writing, returned⟩
    cases returned
    obtain ⟨stop, covered, rows, written, rfl⟩ := forM_putRolling_eq_ok
      (exists_merged (List.min?_mem firstIs) mergedIs) writing
    obtain ⟨validators, stored⟩ := forall₂_written (makes_rolling start stop) mergedIs written
    refine Or.inr ⟨first, rows, firstIs, validators, fun row member => ?_, ?_, rfl⟩
    · obtain ⟨metrics, found, rowIs⟩ := stored row member
      rw [rowIs]
      exact ⟨⟨rfl, covered⟩, found⟩
    · rw [← validators, List.length_map]

/-! ### Removal and partitions -/

theorem clearRolling_eq_ok {store : EmbeddedStore} {tables after : Tables} {result : Unit}
    (ok : store.clearRolling.run tables = .ok (result, after)) :
    after = { tables with rolling := [] } := by
  rw [deleteRows_eq_ok ok]
  simp

theorem ensurePartition_eq_ok {store : EmbeddedStore} {partition : Partition}
    {tables after : Tables} {created : Bool}
    (ok : (store.ensurePartition partition).run tables = .ok (created, after)) :
    created = !tables.hasPartition partition.name ∧
      after = if tables.hasPartition partition.name then tables
        else { tables with catalogue := tables.catalogue ++ [partition] } := by
  obtain ⟨_, unfaulted, fault, gets⟩ := run_bind_eq_ok.mp ok
  obtain ⟨read, got, get, rest⟩ := run_bind_eq_ok.mp gets
  cases get
  cases checkFault_eq_ok fault
  split at rest
  · rename_i present
    cases rest
    rw [present]
    exact ⟨rfl, rfl⟩
  · rename_i absent
    cases rest
    rw [if_neg absent, Bool.not_eq_true] at *
    rw [absent]
    exact ⟨rfl, rfl⟩

/-- Deleting a name takes the partitions of that name out of the catalogue, whether there are
any or not. -/
theorem deletePartition_eq_ok {store : EmbeddedStore} {name : String} {tables after : Tables}
    {existed : Bool} (ok : (store.deletePartition name).run tables = .ok (existed, after)) :
    existed = tables.hasPartition name ∧
      after = { tables with catalogue := tables.catalogue.filter (·.name ≠ name) } := by
  obtain ⟨read, got, get, rest⟩ := run_bind_eq_ok.mp ok
  cases get
  split at rest
  · rename_i present
    obtain ⟨_, unfaulted, fault, written⟩ := run_bind_eq_ok.mp rest
    cases checkFault_eq_ok fault
    cases written
    exact ⟨present.symm, rfl⟩
  · rename_i absent
    cases rest
    rw [Bool.not_eq_true] at absent
    refine ⟨absent.symm, ?_⟩
    have kept : tables.catalogue.filter (·.name ≠ name) = tables.catalogue := by
      refine List.filter_eq_self.mpr fun partition member => ?_
      have other := List.any_eq_false.mp absent partition member
      simpa using other
    rw [kept]

end EmbeddedStore

end EpochRollup
