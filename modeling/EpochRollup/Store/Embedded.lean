/-
This file is the embedded store: it answers store calls from tables it holds itself.

Partitions are emulated. A catalogue records their ranges, an insert looks for a
range that covers its key, and dropping a partition deletes the rows of its range.
An operation is one transaction: it works on the tables, and when any part of it
fails the tables stay as they were (`EmbeddedStore.answer_error`).

Faults can be placed on the tables. A row about to be inserted into or deleted from
a table with a matching fault fails the operation.
-/

import EpochRollup.Metric.Merge
import EpochRollup.Store.Call
import EpochRollup.Store.Table

namespace EpochRollup

/-! ### Faults -/

/-- What a row operation does to a table. -/
inductive RowEvent where
  /-- A row is written. -/
  | insert
  /-- A row is removed. -/
  | delete
deriving DecidableEq, Repr

/-- Where a fault sits. -/
inductive FaultSite where
  /-- On the rows of a table. -/
  | rows (table : RollupTable)
  /-- On the entries of the partition catalogue. -/
  | catalogue
deriving DecidableEq, Repr

/-- A fault placed on a table. -/
structure Fault where
  /-- The table. -/
  site : FaultSite
  /-- The row operation that fails. -/
  event : RowEvent
  /-- The least key that fails, or none when every row fails. -/
  threshold : Option Int
deriving DecidableEq, Repr

/-- A store that keeps its tables in one place. -/
structure EmbeddedStore where
  /-- The rows. -/
  tables : Tables
  /-- The faults placed on the tables. -/
  faults : List Fault
  /-- A closed store answers nothing. -/
  isClosed : Bool
deriving DecidableEq

namespace EmbeddedStore

/-- A store that has just been created. -/
def fresh : EmbeddedStore := ⟨Tables.empty, [], false⟩

/-- Places a fault. -/
def place (store : EmbeddedStore) (fault : Fault) : EmbeddedStore :=
  { store with faults := store.faults ++ [fault] }

/-- Removes every fault of a table. -/
def clear (store : EmbeddedStore) (site : FaultSite) : EmbeddedStore :=
  { store with faults := store.faults.filter (·.site ≠ site) }

/-- Closes the store. -/
def close (store : EmbeddedStore) : EmbeddedStore := { store with isClosed := true }

/-- A row operation on a key hits a fault. -/
def hits (store : EmbeddedStore) (site : FaultSite) (event : RowEvent) (key : Int) : Bool :=
  store.faults.any fun fault =>
    fault.site = site && fault.event = event && fault.threshold.all (· ≤ key)

/-! ### Row operations -/

/-- A piece of an operation: it reads and changes the tables, or fails. -/
abbrev Statement := StateT Tables (Except StoreError)

/-- Fails when a row operation hits a fault. -/
def checkFault (store : EmbeddedStore) (site : FaultSite) (event : RowEvent) (key : Int) :
    Statement Unit :=
  if store.hits site event key then throw (.database .injected) else pure ()

/-- Fails when the store is closed. -/
def checkOpen (store : EmbeddedStore) : Statement Unit :=
  if store.isClosed then throw (.database .closed) else pure ()

/-- Metrics as the columns hold them, or the first column that has no value for its
number. -/
def storedMetrics (metrics : Metrics) : Except Column Metrics :=
  match metrics.syncChance.stored?, metrics.blockChance.stored? with
  | none, _ => .error .syncChance
  | some _, none => .error .blockChance
  | some syncChance, some blockChance => .ok { metrics with syncChance, blockChance }

/-- Metrics as a table holds them. -/
def checkMetrics (table : RollupTable) (metrics : Metrics) : Statement Metrics :=
  match storedMetrics metrics with
  | .ok stored => pure stored
  | .error column => throw (.database (.missingValue table.name column.name))

/-- Fails when no partition of a table covers a row. -/
def checkAdmitted (table : RollupTable) (admitted : Bool) : Statement Unit :=
  if admitted then
    pure ()
  else
    throw (.missingPartition ("no partition of relation " ++ table.name ++ " found for row"))

/-- Writes a row. -/
def put {Row : Type} (store : EmbeddedStore) (kind : RowKind Row) (row : Row) :
    Statement Unit := do
  store.checkFault (.rows kind.table) .insert (kind.faultKey row)
  checkAdmitted kind.table (kind.admits (← get) row)
  let metrics ← checkMetrics kind.table (kind.metrics row)
  modify fun tables =>
    kind.withRows tables (putRow kind.before (kind.withMetrics row metrics) (kind.rows tables))

/-- Writes a rolling row whose coverage may be unknown. -/
def putRolling (store : EmbeddedStore) (validator start : Int) (coverage : Option Int)
    (metrics : Metrics) : Statement Unit :=
  match coverage with
  | some stop => store.put .rolling ⟨validator, start, stop, metrics⟩
  | none => do
    store.checkFault (.rows .rolling) .insert validator
    throw (.database (.missingValue RollupTable.rolling.name "epoch_end"))

/-- Deletes the rows of a class. -/
def deleteRows {Row : Type} (store : EmbeddedStore) (kind : RowKind Row) (inside : Row → Bool) :
    Statement Unit := do
  ((kind.rows (← get)).filter inside).forM fun row =>
    store.checkFault (.rows kind.table) .delete (kind.faultKey row)
  modify fun tables => kind.withRows tables ((kind.rows tables).filter fun row => !inside row)

/-! ### Folds -/

/-- The merged metrics of one validator of a fold. -/
def mergeValidator (samples : List Sample) (firstKey lastKey validator : Int) :
    Statement Metrics :=
  match Sample.merge? samples firstKey lastKey validator with
  | some metrics => pure metrics
  | none => throw (.database .sumOverflow)

/-- The merged metrics of every validator of a fold, in the order of the validators. -/
def mergeAll (samples : List Sample) (firstKey lastKey : Int) :
    Statement (List (Int × Metrics)) :=
  (Sample.validators samples).mapM fun validator => do
    return (validator, ← mergeValidator samples firstKey lastKey validator)

/-- Merges the samples of every validator of a fold, and then writes a row for each. -/
def writeMerged {Row : Type} (store : EmbeddedStore) (kind : RowKind Row) (samples : List Sample)
    (firstKey lastKey : Int) (row : Int → Metrics → Row) : Statement Nat := do
  let merged ← mergeAll samples firstKey lastKey
  merged.forM fun pair => store.put kind (row pair.1 pair.2)
  return merged.length

/-- Folds the epochs of a bucket into its hourly rows. The row covers the epochs up to the
last one present. -/
def foldHour (store : EmbeddedStore) (start stop : Int) : Statement Nat := do
  let samples := ((← get).epochs.filter fun row => start ≤ row.epoch && row.epoch < stop).map
    EpochRow.sample
  match (samples.map (·.key)).max? with
  | none => return 0
  | some last =>
    store.writeMerged .hourly samples start last fun validator metrics =>
      ⟨start, last + 1, validator, metrics⟩

/-- The end of the coverage of an hourly bucket. -/
def coverage (tables : Tables) (bucket : Int) : Option Int :=
  ((tables.hourly.filter (·.start = bucket)).map (·.stop)).max?

/-- Folds the hours that start in a range into the rows of a day. The row covers what the
latest of the hours covers. -/
def foldDay (store : EmbeddedStore) (start stop : Int) (day : CalendarDay) : Statement Nat := do
  let tables ← get
  let samples := (tables.hourly.filter fun row => start ≤ row.start && row.start < stop).map
    HourlyRow.sample
  match (samples.map (·.key)).min?, (samples.map (·.key)).max? with
  | some first, some last =>
    let covered := (coverage tables last).getD last
    store.writeMerged .daily samples first last fun validator metrics =>
      ⟨day, start, covered, validator, metrics⟩
  | _, _ => return 0

/-- Writes the fold of the hours from a start to the head, both included, into the rolling
table. Each validator is merged and written before the next one is merged, except that a
fault on writes makes the table collect every merged row first. -/
def insertRolling (store : EmbeddedStore) (start head : Int) : Statement Nat := do
  let tables ← get
  let samples := (tables.hourly.filter fun row => start ≤ row.start && row.start ≤ head).map
    HourlyRow.sample
  match (samples.map (·.key)).min? with
  | none => return 0
  | some first =>
    let covered := coverage tables head
    let validators := Sample.validators samples
    if store.faults.any fun fault => fault.site = .rows .rolling && fault.event = .insert then
      let merged ← mergeAll samples first head
      merged.forM fun pair => store.putRolling pair.1 start covered pair.2
    else
      validators.forM fun validator => do
        let metrics ← mergeValidator samples first head validator
        store.putRolling validator start covered metrics
    return validators.length

/-! ### Removal -/

/-- Empties the rolling table. -/
def clearRolling (store : EmbeddedStore) : Statement Unit :=
  store.deleteRows .rolling fun _ => true

/-- Adds a partition to the catalogue unless it holds one of the same name. -/
def ensurePartition (store : EmbeddedStore) (partition : Partition) : Statement Bool := do
  store.checkFault .catalogue .insert 0
  if (← get).hasPartition partition.name then
    return false
  else
    modify fun tables => { tables with catalogue := tables.catalogue ++ [partition] }
    return true

/-- Deletes the catalogue entry of a name, if there is one. -/
def deletePartition (store : EmbeddedStore) (name : String) : Statement Bool := do
  if (← get).hasPartition name then
    store.checkFault .catalogue .delete 0
    modify fun tables => { tables with catalogue := tables.catalogue.filter (·.name ≠ name) }
    return true
  else
    return false

/-! ### Answers -/

/-- A range of two stored integers as epochs. -/
def boundsOfStored (bounds : Int × Int) : EpochRange :=
  ⟨epochOfStored bounds.1, epochOfStored bounds.2⟩

/-- The work of a store call on the tables. Where an epoch is too large for a column and
the store is also closed, an operation that opens a transaction reports the store, and any
other the epoch. -/
def statement (store : EmbeddedStore) : (call : StoreCall) → Statement call.Answer
  | .migrate | .health => store.checkOpen
  | .upsertEpochs rows => do
    store.checkOpen
    rows.forM (store.put .epoch)
  | .firstEpoch => do
    store.checkOpen
    return ((← get).epochs.map (·.epoch)).min?.map epochOfStored
  | .lastEpoch => do
    store.checkOpen
    return ((← get).epochs.map (·.epoch)).max?.map epochOfStored
  | .foldHour bucket => do
    let start ← storedEpoch bucket.start
    let stop ← storedEpoch bucket.stop
    store.checkOpen
    store.foldHour start stop
  | .upsertHourly rows => do
    store.checkOpen
    rows.forM (store.put .hourly)
  | .lastHourlyBounds => do
    store.checkOpen
    return (← get).lastHourly?.map boundsOfStored
  | .firstHourlyEpoch => do
    store.checkOpen
    return ((← get).hourly.map (·.start)).min?.map epochOfStored
  | .firstHourlyFrom epoch => do
    let cutoff ← storedEpoch epoch
    store.checkOpen
    return (((← get).hourly.map (·.start)).filter (cutoff ≤ ·)).min?.map epochOfStored
  | .hourlyRows range => do
    let start ← storedEpoch range.start
    let stop ← storedEpoch range.stop
    store.checkOpen
    return (← get).hourly.filter fun row => start ≤ row.start && row.start < stop
  | .foldDay range day => do
    let start ← storedEpoch range.start
    let stop ← storedEpoch range.stop
    store.checkOpen
    store.foldDay start stop day
  | .lastDailyBounds => do
    store.checkOpen
    return (← get).lastDaily?.map boundsOfStored
  | .firstDailyEpoch => do
    store.checkOpen
    return ((← get).daily.map (·.start)).min?.map epochOfStored
  | .dailyRows day => do
    store.checkOpen
    return (← get).daily.filter (·.day = day)
  | .dailyDays => do
    store.checkOpen
    return ((← get).daily.map (·.day)).eraseDups
  | .replaceRolling start head => do
    store.checkOpen
    store.clearRolling
    let start ← storedEpoch start
    let head ← storedEpoch head
    store.insertRolling start head
  | .clearRolling => do
    store.checkOpen
    store.clearRolling
  | .rollingRows => do
    store.checkOpen
    return (← get).rolling
  | .ensurePartition partition => do
    match partition with
    | .hourly range =>
      let _ ← storedEpoch range.start
      let _ ← storedEpoch range.stop
    | .daily _ _ => pure ()
    store.checkOpen
    store.ensurePartition partition
  | .dropPartition partition => do
    store.checkOpen
    match partition with
    | .hourly range =>
      let start ← storedEpoch range.start
      let stop ← storedEpoch range.stop
      store.deleteRows .hourly fun row => start ≤ row.start && row.start < stop
    -- Days are compared as they are written.
    | .daily _ days => store.deleteRows .daily fun row =>
      days.start.textKey ≤ row.day.textKey && row.day.textKey < days.stop.textKey
    store.deletePartition partition.name
  | .partitionExists partition => do
    store.checkOpen
    return (← get).hasPartition partition.name
  | .listPartitions granularity => do
    store.checkOpen
    return (((← get).catalogue.filter (·.granularity = granularity)).map (·.name)).mergeSort
      fun left right => decide (left ≤ right)

/-- The answer to a store call and the store after it. A call that fails leaves the store
as it was. -/
def answer (call : StoreCall) (store : EmbeddedStore) : call.Reply × EmbeddedStore :=
  match (store.statement call).run store.tables with
  | .ok (result, tables) => (.ok result, { store with tables })
  | .error error => (.error error, store)

/-- A call that fails leaves the store as it was. -/
theorem answer_error {call : StoreCall} {store : EmbeddedStore} {error : StoreError}
    (failed : (store.answer call).1 = .error error) : (store.answer call).2 = store := by
  unfold answer at failed ⊢
  split <;> simp_all

end EmbeddedStore

end EpochRollup
