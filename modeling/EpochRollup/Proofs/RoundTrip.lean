/-
This file follows hourly rows into the hourly table and out of it again. Rows may repeat a key,
and then the last of them is the one that is kept (`mem_putRows_of_repeated`). A row without a
partition fails the whole call, wherever it stands, so either every row is written or none.

A row travels in columns. It is bound to parameters in one order and read in another, and what is
overwritten in a row of a known key is listed apart from both (`HourlyRow.ofCells_overwritten`).
-/

import Mathlib.Data.List.Induction
import EpochRollup.Proofs.Covered
import EpochRollup.Proofs.DayHours
import EpochRollup.Proofs.Replay
import EpochRollup.Store.Server

namespace EpochRollup

/-! ### Writing rows with repeated keys -/

section Repeated

variable {Row Key : Type} [LinearOrder Key] {before : Row → Row → Bool} {key : Row → Key}

/-- The last row of a key in a list. -/
def lastOf? (key : Row → Key) (rows : List Row) (place : Key) : Option Row :=
  rows.reverse.find? (key · = place)

theorem lastOf?_append_singleton (rows : List Row) (row : Row) (place : Key) :
    lastOf? key (rows ++ [row]) place =
      if key row = place then some row else lastOf? key rows place := by
  unfold lastOf?
  rw [List.reverse_append, List.reverse_singleton, List.singleton_append, List.find?_cons]
  split <;> simp_all

theorem lastOf?_map {write : Row → Row} (same : ∀ row, key (write row) = key row)
    (rows : List Row) (place : Key) :
    lastOf? key (rows.map write) place = (lastOf? key rows place).map write := by
  unfold lastOf?
  rw [← List.map_reverse, List.find?_map]
  congr 2
  funext row
  simp [same]

theorem key_of_lastOf? {rows : List Row} {row : Row} {place : Key}
    (found : lastOf? key rows place = some row) : key row = place ∧ row ∈ rows :=
  ⟨by simpa using List.find?_some found, List.mem_reverse.mp (List.mem_of_find?_eq_some found)⟩

theorem lastOf?_eq_none_iff {rows : List Row} {place : Key} :
    lastOf? key rows place = none ↔ ∀ row ∈ rows, key row ≠ place := by
  simp [lastOf?]

/-- After rows are written, the table holds the last of each key, and the old rows with other
keys. -/
theorem mem_putRows_of_repeated (ordered : OrderedBy before key) {rows : List Row}
    (keyed : Keyed key rows) (written : List Row) (other : Row) :
    other ∈ putRows before written rows ↔
      lastOf? key written (key other) = some other ∨
        other ∈ rows ∧ lastOf? key written (key other) = none := by
  induction written using List.reverseRecOn with
  | nil => simp [putRows, lastOf?]
  | append_singleton earlier row inductionHypothesis =>
    have step : putRows before (earlier ++ [row]) rows =
        putRow before row (putRows before earlier rows) := List.foldl_append
    rw [step, mem_putRow ordered (keyed.putRows ordered earlier), inductionHypothesis,
      lastOf?_append_singleton]
    by_cases same : key row = key other
    · rw [if_pos same, Option.some_inj]
      constructor
      · rintro (rfl | ⟨-, different⟩)
        · exact Or.inl rfl
        · exact absurd same.symm different
      · rintro (rfl | ⟨-, missing⟩)
        · exact Or.inl rfl
        · cases missing
    · rw [if_neg same]
      constructor
      · rintro (rfl | ⟨earlier, -⟩)
        · exact absurd rfl same
        · exact earlier
      · exact fun earlier => Or.inr ⟨earlier, Ne.symm same⟩

end Repeated

/-! ### Rows as the hourly table keeps them -/

/-- A number as a column keeps it. Zero has one sign there. -/
def Double.kept (number : Double) : Double := if number.magnitude = 0 then zero else number

/-- The chances of some metrics are numbers. -/
structure Metrics.Defined (metrics : Metrics) : Prop where
  /-- The share of sync committee duties is a number. -/
  syncChance : metrics.syncChance.isNaN = false
  /-- The share of block proposals is a number. -/
  blockChance : metrics.blockChance.isNaN = false

/-- Metrics as a table keeps them. -/
def Metrics.kept (metrics : Metrics) : Metrics :=
  { metrics with syncChance := metrics.syncChance.kept, blockChance := metrics.blockChance.kept }

/-- A row as the hourly table keeps it. -/
def HourlyRow.kept (row : HourlyRow) : HourlyRow := { row with metrics := row.metrics.kept }

theorem Double.stored?_of_defined {number : Double} (defined : number.isNaN = false) :
    number.stored? = some number.kept := by
  unfold stored? kept
  rw [defined, if_neg Bool.false_ne_true]
  split <;> rfl

theorem Metrics.Defined.stored {metrics : Metrics} (defined : metrics.Defined) :
    EmbeddedStore.storedMetrics metrics = .ok metrics.kept := by
  unfold EmbeddedStore.storedMetrics
  rw [Double.stored?_of_defined defined.syncChance, Double.stored?_of_defined defined.blockChance]
  rfl

/-- Every column that does not hold doubles is kept as it was written. -/
theorem Metrics.cell_kept (metrics : Metrics) {column : Column}
    (exactly : column.isDouble = false) : metrics.kept.cell column = metrics.cell column := by
  cases column <;> first | rfl | cases exactly

namespace EmbeddedStore

variable {store : EmbeddedStore} {rows : List HourlyRow}

/-- The failure of a write without a partition. -/
def missingRow (table : RollupTable) : StoreError :=
  .missingPartition ("no partition of relation " ++ table.name ++ " found for row")

/-- The tables once hours are written. -/
def withHours (rows : List HourlyRow) (tables : Tables) : Tables :=
  { tables with hourly := putRows HourlyRow.before (rows.map HourlyRow.kept) tables.hourly }

theorem Healthy.run_put_of_missing (healthy : store.Healthy) {Row : Type} {kind : RowKind Row}
    {row : Row} {tables : Tables} (missing : kind.admits tables row = false) :
    (store.put kind row).run tables = .error (missingRow kind.table) := by
  have looked : (get : Statement Tables).run tables = .ok (tables, tables) := rfl
  refine (run_bind_of_ok (healthy.run_checkFault _ _ _ _)).trans <|
    (run_bind_of_ok looked).trans ?_
  rw [missing]
  rfl

/-- Rows of which one has no partition are not written, wherever it stands. -/
theorem Healthy.forM_put_of_missing (healthy : store.Healthy) {Row : Type} {kind : RowKind Row}
    {rows : List Row} (keeps : ∀ row ∈ rows, ∃ kept, Keeps kind row kept) {tables : Tables}
    (missing : ∃ row ∈ rows, kind.admits tables row = false) :
    (rows.forM (store.put kind)).run tables = .error (missingRow kind.table) := by
  induction rows generalizing tables with
  | nil => exact absurd missing (by simp)
  | cons row rest inductionHypothesis =>
    obtain ⟨⟨kept, firstKept⟩, othersKept⟩ := List.forall_mem_cons.mp keeps
    rw [List.forM_eq_forM, List.forM_cons]
    cases first : kind.admits tables row with
    | false => exact run_bind_of_error (healthy.run_put_of_missing first)
    | true =>
      refine (run_bind_of_ok (healthy.run_put first firstKept)).trans ?_
      refine inductionHypothesis othersKept ?_
      obtain ⟨other, member, refused⟩ := missing
      rcases List.mem_cons.mp member with rfl | member
      · rw [first] at refused
        cases refused
      · exact ⟨other, member, (kind.admits_withRows _ _ _).trans refused⟩

/-- Hours that all have a partition are written. -/
theorem Healthy.forM_putHours (healthy : store.Healthy)
    (defined : ∀ row ∈ rows, row.metrics.Defined) {tables : Tables}
    (admitted : ∀ row ∈ rows, tables.admitsHour row.start = true) :
    (rows.forM (store.put .hourly)).run tables = .ok ((), withHours rows tables) := by
  refine healthy.forM_put admitted ?_
  rw [List.forall₂_map_right_iff, List.forall₂_same]
  exact fun row member => ⟨_, (defined row member).stored, rfl⟩

theorem Healthy.answer_upsertHourly (healthy : store.Healthy)
    (defined : ∀ row ∈ rows, row.metrics.Defined)
    (covered : ∀ row ∈ rows, store.tables.Covered (.hourly row)) :
    store.answer (.upsertHourly rows) =
      (.ok (), { store with tables := withHours rows store.tables }) :=
  answer_of_run <| run_bind_eq_ok.mpr ⟨(), _, run_checkOpen healthy.opened _,
    healthy.forM_putHours defined fun row member =>
      Tables.covered_hourly_iff.mp (covered row member)⟩

theorem Healthy.answer_upsertHourly_of_missing (healthy : store.Healthy)
    (defined : ∀ row ∈ rows, row.metrics.Defined)
    (missing : ∃ row ∈ rows, ¬store.tables.Covered (.hourly row)) :
    store.answer (.upsertHourly rows) = (.error (missingRow .hourly), store) := by
  refine answer_of_run_error ((run_bind_of_ok (run_checkOpen healthy.opened _)).trans ?_)
  obtain ⟨row, member, uncovered⟩ := missing
  have refused : store.tables.admitsHour row.start = false :=
    Bool.eq_false_iff.mpr fun admitted => uncovered (Tables.covered_hourly_iff.mpr admitted)
  exact healthy.forM_put_of_missing (fun row member => ⟨_, _, (defined row member).stored, rfl⟩)
    ⟨row, member, refused⟩

theorem Healthy.answer_hourlyRows (healthy : store.Healthy) {range : EpochRange}
    (start : range.start < storedLimit) (stop : range.stop < storedLimit) :
    store.answer (.hourlyRows range) = (.ok (hoursIn store.tables.hourly range), store) := by
  let work (first last : Int) : Statement (List HourlyRow) := do
    return (← get).hourly.filter fun row => first ≤ row.start && row.start < last
  have ran : (store.statement (.hourlyRows range)).run store.tables =
      (work range.start range.stop).run store.tables :=
    run_of_range healthy.opened start stop work store.tables
  exact answer_of_run (ran.trans rfl)

end EmbeddedStore

/-! ### Reading rows back -/

/-- The key of a row lies in a range. -/
def HourlyRow.StartsIn (row : HourlyRow) (range : EpochRange) : Prop :=
  (range.start : Int) ≤ row.start ∧ row.start < range.stop

/-- What is found in a range of a table once rows were written over the earlier ones. -/
structure ReadBack (written earlier : List HourlyRow) (range : EpochRange)
    (found : List HourlyRow) : Prop where
  /-- Rows are found in the strict order of bucket and validator. -/
  ordered : found.Pairwise fun left right =>
    left.start < right.start ∨ left.start = right.start ∧ left.validator < right.validator
  /-- They start in the range. -/
  inside : ∀ row ∈ found, row.StartsIn range
  /-- Each key of the range that was written or there before is found once. -/
  once : ∀ row, row ∈ written ∨ row ∈ earlier → row.StartsIn range →
    ∃! held, held ∈ found ∧ held.key = row.key
  /-- What is found for a written key is the last row that was written for it. -/
  last : ∀ held ∈ found, ∀ row, lastOf? HourlyRow.key written held.key = some row →
    held = row.kept ∧ held.stop = row.stop ∧
      ∀ column, column.isDouble = false → held.metrics.cell column = row.metrics.cell column
  /-- What is found for another key was there before. -/
  untouched : ∀ held ∈ found, (∀ row ∈ written, row.key ≠ held.key) → held ∈ earlier

theorem HourlyRow.key_kept (row : HourlyRow) : row.kept.key = row.key := rfl

theorem mem_putHours {earlier : List HourlyRow} (keyed : Keyed HourlyRow.key earlier)
    (written : List HourlyRow) (held : HourlyRow) :
    held ∈ putRows HourlyRow.before (written.map HourlyRow.kept) earlier ↔
      (∃ row, lastOf? HourlyRow.key written held.key = some row ∧ row.kept = held) ∨
        held ∈ earlier ∧ ∀ row ∈ written, row.key ≠ held.key := by
  rw [mem_putRows_of_repeated HourlyRow.orderedBy_key keyed, lastOf?_map HourlyRow.key_kept,
    Option.map_eq_some_iff, Option.map_eq_none_iff, lastOf?_eq_none_iff]

/-- A written table is read back. -/
theorem readBack_putRows {earlier : List HourlyRow} (keyed : Keyed HourlyRow.key earlier)
    (written : List HourlyRow) (range : EpochRange) :
    ReadBack written earlier range
      (hoursIn (putRows HourlyRow.before (written.map HourlyRow.kept) earlier) range) := by
  have table := keyed.putRows HourlyRow.orderedBy_key (written.map HourlyRow.kept)
  have found := keyed_hoursIn table range
  refine ⟨found.imp fun {left right} before => ?_, fun row member => (mem_hoursIn.mp member).2,
    fun row known inside => ?_, fun held member row last => ?_, fun held member other => ?_⟩
  · have less := (HourlyRow.orderedBy_key left right).mpr before
    simpa [HourlyRow.before] using less
  · have exists_held : ∃ held ∈ putRows HourlyRow.before (written.map HourlyRow.kept) earlier,
        held.key = row.key := by
      cases last : lastOf? HourlyRow.key written row.key with
      | some other =>
        obtain ⟨same, -⟩ := key_of_lastOf? last
        refine ⟨other.kept, (mem_putHours keyed written _).mpr (.inl ⟨other, ?_, rfl⟩), same⟩
        rw [HourlyRow.key_kept, same, last]
      | none =>
        have apart := lastOf?_eq_none_iff.mp last
        have old : row ∈ earlier := known.resolve_left fun member => apart row member rfl
        exact ⟨row, (mem_putHours keyed written row).mpr (.inr ⟨old, apart⟩), rfl⟩
    obtain ⟨held, member, same⟩ := exists_held
    have start := ((HourlyRow.key_eq_iff held row).mp same).1
    have inRange : held ∈ hoursIn (putRows HourlyRow.before (written.map HourlyRow.kept) earlier)
        range := mem_hoursIn.mpr ⟨member, by rw [start]; exact inside⟩
    refine ⟨held, ⟨inRange, same⟩, fun other also => ?_⟩
    exact found.eq_of_key_eq also.1 inRange (also.2.trans same.symm)
  · rcases (mem_putHours keyed written held).mp (mem_hoursIn.mp member).1 with
      ⟨other, otherLast, rfl⟩ | ⟨-, apart⟩
    · rw [last] at otherLast
      cases otherLast
      exact ⟨rfl, rfl, fun column exactly => row.metrics.cell_kept exactly⟩
    · obtain ⟨same, member⟩ := key_of_lastOf? last
      exact absurd same (apart row member)
  · rcases (mem_putHours keyed written held).mp (mem_hoursIn.mp member).1 with
      ⟨row, last, rfl⟩ | ⟨old, -⟩
    · obtain ⟨same, member⟩ := key_of_lastOf? last
      exact absurd same (other row member)
    · exact old

/-! ### Columns -/

namespace Metrics

/-- Only a balance may be missing from a row. -/
theorem needMetric_cell (metrics : Metrics) (column : Column) :
    (metrics.cell column).needMetric column = .ok (metrics.cell column) := by
  cases column <;> rfl

/-- Metrics are read from their cells. -/
theorem ofRow_cells (metrics : Metrics) : ofRow metrics.cells = .ok metrics := by
  have read (columns : List Column) :
      (columns.map fun column => (column, metrics.cell column)).mapM
        (fun (pair : Column × Cell) => do
          return (pair.1, ← pair.2.needMetric pair.1) : _ → Except DatabaseError _) =
        .ok (columns.map fun column => (column, metrics.cell column)) := by
    induction columns with
    | nil => rfl
    | cons column rest inductionHypothesis =>
      rw [List.map_cons, List.mapM_cons, inductionHypothesis, needMetric_cell]
      rfl
  unfold ofRow cells
  rw [← List.map_prod_left_eq_zip, read]
  show Except.ok (ofCells _) = _
  conv_rhs => rw [← ofCells_cell metrics]
  congr 2
  funext column
  have found : Column.all.find? (fun other => decide (other = column)) = some column := by
    cases sought : Column.all.find? (fun other => decide (other = column)) with
    | none => simpa using List.find?_eq_none.mp sought column (Column.mem_all column)
    | some other => simpa using List.find?_some sought
  rw [List.find?_map]
  show ((Option.map _ (Column.all.find? fun other => decide (other = column))).map _).getD _ = _
  rw [found]
  rfl

end Metrics

/-- Values that are written under names of their own are found under them. -/
theorem map_lookup_zip {names : List String} (distinct : names.Nodup) {values : List Cell}
    (same : names.length = values.length) :
    names.map (fun name => ((names.zip values).lookup name).getD .null) = values := by
  induction names generalizing values with
  | nil => exact (List.length_eq_zero_iff.mp same.symm).symm
  | cons name rest inductionHypothesis =>
    cases values with
    | nil => cases same
    | cons value others =>
      obtain ⟨new, distinct⟩ := List.nodup_cons.mp distinct
      rw [List.map_cons, List.zip_cons_cons, List.lookup_cons_self]
      refine congrArg _ ((List.map_congr_left fun other member => ?_).trans
        (inductionHypothesis distinct (Nat.succ.inj same)))
      have apart : (other == name) = false := beq_false_of_ne fun equal => new (equal ▸ member)
      rw [List.lookup_cons, apart]

namespace HourlyRow

/-- What an hourly row puts into each column. -/
def columns (row : HourlyRow) (column : String) : Cell :=
  ((writtenColumns.zip row.boundCells).lookup column).getD .null

/-- What is in each column once a later row is written over an earlier one. -/
def overwritten (earlier later : HourlyRow) (column : String) : Cell :=
  if column ∈ overwrittenColumns then later.columns column else earlier.columns column

/-- Each value is found in its own column. -/
theorem columns_eq (row : HourlyRow) :
    row.columns "epoch_start" = .integer row.start ∧
      row.columns "validator_index" = .integer row.validator ∧
      row.columns "epoch_end" = .integer row.stop ∧
      metricNames.map row.columns = row.metrics.cells := by
  have distinct : writtenColumns.Nodup := by decide +kernel
  have length : writtenColumns.length = row.boundCells.length := by
    simp [writtenColumns, keyColumns, boundCells, metricNames, Metrics.cells]
  have found : row.columns "epoch_start" :: row.columns "validator_index" ::
      row.columns "epoch_end" :: metricNames.map row.columns =
        .integer row.start :: .integer row.validator :: .integer row.stop :: row.metrics.cells :=
    map_lookup_zip distinct length
  obtain ⟨start, found⟩ := List.cons_eq_cons.mp found
  obtain ⟨validator, found⟩ := List.cons_eq_cons.mp found
  obtain ⟨stop, metrics⟩ := List.cons_eq_cons.mp found
  exact ⟨start, validator, stop, metrics⟩

/-- A row that is written column by column and read column by column is the same row. -/
theorem ofCells_columns (row : HourlyRow) : ofCells (readColumns.map row.columns) = .ok row := by
  obtain ⟨start, validator, stop, metrics⟩ := row.columns_eq
  show ofCells (row.columns "epoch_start" :: row.columns "epoch_end" ::
    row.columns "validator_index" :: metricNames.map row.columns) = .ok row
  rw [start, stop, validator, metrics, ofCells, Metrics.ofRow_cells]
  rfl

/-- Nothing is left of an earlier row of the same key. -/
theorem ofCells_overwritten {earlier later : HourlyRow} (same : earlier.key = later.key) :
    ofCells (readColumns.map (overwritten earlier later)) = .ok later := by
  have others : ∀ column ∈ readColumns, column ∉ overwrittenColumns →
      column = "epoch_start" ∨ column = "validator_index" := by
    decide +kernel
  rw [← later.ofCells_columns]
  refine congrArg ofCells (List.map_congr_left fun column member => ?_)
  unfold overwritten
  split
  · rfl
  · rename_i kept
    obtain ⟨start, validator⟩ := (key_eq_iff earlier later).mp same
    rcases others column member kept with rfl | rfl
    · rw [earlier.columns_eq.1, later.columns_eq.1, start]
    · rw [earlier.columns_eq.2.1, later.columns_eq.2.1, validator]

end HourlyRow

/-! ### Upserts -/

/-- Every answer keeps the hourly rows in the order of their keys. -/
theorem Given.keyed_hourly {tables after : Tables} {call : StoreCall} {answer : call.Answer}
    (given : Given tables call answer after) (keyed : Keyed HourlyRow.key tables.hourly) :
    Keyed HourlyRow.key after.hourly := by
  cases call with
  | upsertEpochs rows =>
    obtain ⟨stored, -, rfl⟩ := given.upsertEpochs
    exact keyed
  | foldHour bucket =>
    rcases given.foldHour with ⟨-, -, rfl⟩ | ⟨last, rows, -, -, -, -, -, rfl⟩
    · exact keyed
    · exact keyed.putRows HourlyRow.orderedBy_key rows
  | upsertHourly rows =>
    obtain ⟨stored, -, rfl⟩ := given.upsertHourly
    exact keyed.putRows HourlyRow.orderedBy_key stored
  | foldDay range day =>
    rcases given.foldDay with ⟨-, -, rfl⟩ | ⟨first, last, rows, -, -, -, -, -, -, rfl⟩
    · exact keyed
    · exact keyed
  | replaceRolling start head =>
    obtain ⟨rolling, rfl⟩ := given.of_refreshes (.replace start head)
    exact keyed
  | clearRolling =>
    rw [given.clearRolling]
    exact keyed
  | ensurePartition partition =>
    rw [given.ensurePartition.2, Tables.hourly_ensure]
    exact keyed
  | dropPartition partition =>
    rw [given.dropPartition.2]
    cases partition with
    | hourly range => exact keyed.filter _
    | daily range days => exact keyed
  | _ => exact given.of_reads rfl ▸ keyed

namespace EmbeddedStore

/-- Hourly rows stand in the order of their keys in every store that has answered calls. -/
theorem Served.keyed_hourly {ensures : Partition → Prop} {store : EmbeddedStore}
    (served : Served ensures store) : Keyed HourlyRow.key store.tables.hourly := by
  induction served with
  | fresh => exact List.Pairwise.nil
  | @call store earlier call allowed inductionHypothesis =>
    rcases store.answer_cases call with ⟨answer, -, given⟩ | ⟨error, failed⟩
    · exact given.keyed_hourly inductionHypothesis
    · rw [failed]
      exact inductionHypothesis
  | fault earlier faults inductionHypothesis => exact inductionHypothesis
  | close earlier inductionHypothesis => exact inductionHypothesis

/-- Hourly rows are written all or none, and are read back. On an open store without faults,
whose hourly rows are known by their keys, a write of rows without undefined numbers succeeds
exactly when a catalogued partition covers each row. Otherwise it fails for want of a partition
and the store is as it was. After a write that succeeds nothing but the hourly table is changed,
and every range finds the last row that was written for a key and the earlier rows of other
keys. In both dialects the statement that writes a row has a parameter for each written column,
knows a row by the key columns and overwrites all others. Column by column, a row is read as it
was written, also over an earlier one of its key. -/
theorem Healthy.upsertHourly_readBack {store : EmbeddedStore} (healthy : store.Healthy)
    (keyed : Keyed HourlyRow.key store.tables.hourly) {rows : List HourlyRow}
    (defined : ∀ row ∈ rows, row.metrics.Defined) :
    ((store.answer (.upsertHourly rows)).1 = .ok () ↔
        ∀ row ∈ rows, ∃ partition ∈ store.tables.catalogue, partition.Covers (.hourly row)) ∧
      ((store.answer (.upsertHourly rows)).1 ≠ .ok () →
        ∃ text, store.answer (.upsertHourly rows) = (.error (.missingPartition text), store)) ∧
      (∀ after, store.answer (.upsertHourly rows) = (.ok (), after) →
        (∃ hourly, after = { store with tables := { store.tables with hourly } }) ∧
          ∀ range : EpochRange, range.start < storedLimit → range.stop < storedLimit →
            ∃ found, after.answer (.hourlyRows range) = (.ok found, after) ∧
              ReadBack rows store.tables.hourly range found) ∧
      (∀ dialect : Dialect, upsertHourlyQuery dialect = joinLines
        ["INSERT INTO " ++ RollupTable.hourly.name ++ " (" ++
            commaList HourlyRow.writtenColumns ++ ")",
          "VALUES (" ++ commaList ((List.range HourlyRow.writtenColumns.length).map fun index =>
            dialect.parameter (index + 1)) ++ ")",
          "ON CONFLICT (" ++ commaList HourlyRow.keyColumns ++ ") DO UPDATE SET\n    " ++
            ",\n    ".intercalate (HourlyRow.overwrittenColumns.map fun column =>
              column ++ " = excluded." ++ column)]) ∧
      (∀ row : HourlyRow, HourlyRow.ofCells (HourlyRow.readColumns.map row.columns) = .ok row) ∧
      ∀ earlier later : HourlyRow, earlier.key = later.key →
        HourlyRow.ofCells (HourlyRow.readColumns.map (earlier.overwritten later)) = .ok later := by
  by_cases covered : ∀ row ∈ rows, store.tables.Covered (.hourly row)
  · have written := healthy.answer_upsertHourly defined covered
    rw [written]
    refine ⟨iff_of_true rfl covered, fun failed => absurd rfl failed, fun after same => ?_,
      fun _ => rfl, HourlyRow.ofCells_columns, fun _ _ => HourlyRow.ofCells_overwritten⟩
    cases same
    refine ⟨⟨_, rfl⟩, fun range start stop => ?_⟩
    have left : { store with tables := withHours rows store.tables }.Healthy :=
      ⟨healthy.faults, healthy.opened⟩
    exact ⟨_, left.answer_hourlyRows start stop, readBack_putRows keyed rows range⟩
  · have refused : ∃ row ∈ rows, ¬store.tables.Covered (.hourly row) := by
      simpa only [not_forall, exists_prop] using covered
    rw [healthy.answer_upsertHourly_of_missing defined refused]
    refine ⟨iff_of_false (fun same => nomatch same) covered, fun _ => ⟨_, rfl⟩, ?_,
      fun _ => rfl, HourlyRow.ofCells_columns, fun _ _ => HourlyRow.ofCells_overwritten⟩
    intro after same
    cases same

end EmbeddedStore

namespace RepeatedHours

/-- A store with two hours of one validator in one partition. -/
def store : EmbeddedStore :=
  [.ensurePartition (.hourly ⟨0, 10⟩),
    .upsertHourly [⟨0, 1, 7, .none⟩, ⟨2, 3, 7, .none⟩]].foldl
      (fun store call => (store.answer call).2) .fresh

/-- Two rows of an hour that is there, and one of an hour that is not. -/
def rows : List HourlyRow := [⟨0, 1, 7, .none⟩, ⟨4, 5, 9, .none⟩, ⟨0, 2, 7, .none⟩]

/-- The rows, and one without a partition behind them. -/
def refused : List HourlyRow := rows ++ [⟨10, 11, 7, .none⟩]

theorem served : EmbeddedStore.Served (fun _ => True) store :=
  EmbeddedStore.Served.fresh.calls ⟨trivial, trivial⟩

theorem healthy : store.Healthy := ⟨by decide +kernel, by decide +kernel⟩

theorem defined (row : HourlyRow) (member : row ∈ refused) : row.metrics.Defined := by
  have plain : row.metrics = .none := by
    revert member
    revert row
    decide +kernel
  rw [plain]
  exact ⟨by decide, by decide⟩

/-- The rows have partitions, and with the last one they do not. -/
theorem evaluated :
    (∀ row ∈ rows, ∃ partition ∈ store.tables.catalogue, partition.Covers (.hourly row)) ∧
      ¬∀ row ∈ refused, ∃ partition ∈ store.tables.catalogue, partition.Covers (.hourly row) := by
  decide +kernel

end RepeatedHours

open RepeatedHours in
/-- Rows with a repeated key are written and read back, and with a row that has no partition
none of them is. -/
theorem EmbeddedStore.Healthy.upsertHourly_readBack_repeated :
    (∃ after found, store.answer (.upsertHourly rows) = (.ok (), after) ∧
      after.answer (.hourlyRows ⟨0, 3⟩) = (.ok found, after) ∧
      ReadBack rows store.tables.hourly ⟨0, 3⟩ found) ∧
    ∃ text, store.answer (.upsertHourly refused) = (.error (.missingPartition text), store) := by
  have keyed := served.keyed_hourly
  obtain ⟨succeeds, -, reads, -⟩ := healthy.upsertHourly_readBack keyed
    fun row member => defined row (List.mem_append_left _ member)
  obtain ⟨fails, unchanged, -⟩ := healthy.upsertHourly_readBack keyed defined
  refine ⟨?_, unchanged fun ok => evaluated.2 (fails.mp ok)⟩
  have written : store.answer (.upsertHourly rows) = (.ok (), _) :=
    Prod.ext (succeeds.mpr evaluated.1) rfl
  obtain ⟨found, read, back⟩ := (reads _ written).2 ⟨0, 3⟩ (by decide) (by decide)
  exact ⟨_, found, written, read, back⟩

end EpochRollup
