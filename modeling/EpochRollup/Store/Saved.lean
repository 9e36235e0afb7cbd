/-
This file writes the tables of an embedded store as a document and reads them back, so
that a store outlives the run that filled it. Its faults are kept, because they belong
to its tables; whether it was closed is not. Reading back what was written gives the
store (`EmbeddedStore.ofDocument?_document`).
-/

import EpochRollup.Document.Json
import EpochRollup.Store.Embedded

namespace EpochRollup

/-! ### Sequences -/

namespace Document

/-- A sequence, an item for each value. -/
def ofList {Value : Type} (write : Value → Document) (values : List Value) : Document :=
  .list (values.map write)

/-- The values of a sequence. -/
def list? {Value : Type} (read : Document → Option Value) : Document → Option (List Value)
  | .list items => items.mapM read
  | _ => none

theorem list?_ofList {Value : Type} {write : Value → Document} {read : Document → Option Value}
    (law : ∀ value, read (write value) = some value) (values : List Value) :
    list? read (ofList write values) = some values := by
  simp only [list?, ofList]
  induction values with
  | nil => rfl
  | cons value rest inductionHypothesis => simp [law, inductionHypothesis]

/-- An integer. -/
def integer? : Document → Option Int
  | .integer value => some value
  | _ => none

theorem list?_integer? (values : List Int) :
    list? integer? (ofList integer values) = some values :=
  @list?_ofList Int integer integer? (fun _ => rfl) values

end Document

/-! ### Metrics -/

namespace Double

/-- A double as its bits, which no reading rounds. -/
def document (number : Double) : Document := .integer number.bits.toNat

/-- The double of some bits. -/
def ofDocument? : Document → Option Double
  | .integer bits => some ⟨UInt64.ofNat bits.toNat⟩
  | _ => none

theorem ofDocument?_document (number : Double) : ofDocument? number.document = some number := by
  simp [ofDocument?, document]

end Double

namespace Metrics

/-- Metrics as a sequence: first their integers, then what is not an additive integer. -/
def document (metrics : Metrics) : Document :=
  .list
    [.ofList .integer metrics.integers.toList,
      metrics.syncChance.document,
      metrics.blockChance.document,
      .boolean metrics.slashed,
      .ofList .integer metrics.balanceStart.toList,
      .ofList .integer metrics.balanceEnd.toList]

/-- The metrics of a sequence. -/
def ofDocument? : Document → Option Metrics
  | .list [integers, syncChance, blockChance, .boolean slashed, balanceStart, balanceEnd] => do
    let integers ← integers.list? Document.integer?
    if sized : integers.toArray.size = integerColumnCount then
      return {
        integers := ⟨integers.toArray, sized⟩
        syncChance := ← Double.ofDocument? syncChance
        blockChance := ← Double.ofDocument? blockChance
        slashed
        balanceStart := (← balanceStart.list? Document.integer?).head?
        balanceEnd := (← balanceEnd.list? Document.integer?).head? }
    else
      none
  | _ => none

theorem ofDocument?_document (metrics : Metrics) :
    ofDocument? metrics.document = some metrics := by
  obtain ⟨⟨integers, sized⟩, syncChance, blockChance, slashed, balanceStart, balanceEnd⟩ := metrics
  simp [ofDocument?, document, Document.list?_integer?, Double.ofDocument?_document, sized]

end Metrics

/-! ### Rows -/

namespace EpochRow

/-- An epoch row as a sequence. -/
def document (row : EpochRow) : Document :=
  .list [.integer row.epoch, .integer row.validator, row.metrics.document]

/-- The epoch row of a sequence. -/
def ofDocument? : Document → Option EpochRow
  | .list [.integer epoch, .integer validator, metrics] => do
    return ⟨epoch, validator, ← Metrics.ofDocument? metrics⟩
  | _ => none

theorem ofDocument?_document (row : EpochRow) : ofDocument? row.document = some row := by
  simp [ofDocument?, document, Metrics.ofDocument?_document]

end EpochRow

namespace HourlyRow

/-- An hourly row as a sequence. -/
def document (row : HourlyRow) : Document :=
  .list [.integer row.start, .integer row.stop, .integer row.validator, row.metrics.document]

/-- The hourly row of a sequence. -/
def ofDocument? : Document → Option HourlyRow
  | .list [.integer start, .integer stop, .integer validator, metrics] => do
    return ⟨start, stop, validator, ← Metrics.ofDocument? metrics⟩
  | _ => none

theorem ofDocument?_document (row : HourlyRow) : ofDocument? row.document = some row := by
  simp [ofDocument?, document, Metrics.ofDocument?_document]

end HourlyRow

namespace DailyRow

/-- A daily row as a sequence. -/
def document (row : DailyRow) : Document :=
  .list
    [.integer row.day.number, .integer row.start, .integer row.stop, .integer row.validator,
      row.metrics.document]

/-- The daily row of a sequence. -/
def ofDocument? : Document → Option DailyRow
  | .list [.integer day, .integer start, .integer stop, .integer validator, metrics] => do
    return ⟨⟨day⟩, start, stop, validator, ← Metrics.ofDocument? metrics⟩
  | _ => none

theorem ofDocument?_document (row : DailyRow) : ofDocument? row.document = some row := by
  simp [ofDocument?, document, Metrics.ofDocument?_document]

end DailyRow

namespace RollingRow

/-- A rolling row as a sequence. -/
def document (row : RollingRow) : Document :=
  .list [.integer row.validator, .integer row.start, .integer row.stop, row.metrics.document]

/-- The rolling row of a sequence. -/
def ofDocument? : Document → Option RollingRow
  | .list [.integer validator, .integer start, .integer stop, metrics] => do
    return ⟨validator, start, stop, ← Metrics.ofDocument? metrics⟩
  | _ => none

theorem ofDocument?_document (row : RollingRow) : ofDocument? row.document = some row := by
  simp [ofDocument?, document, Metrics.ofDocument?_document]

end RollingRow

/-! ### Partitions and faults -/

namespace Partition

/-- A partition as the sequence of its ends. -/
def document : Partition → Document
  | .hourly range => .list [.integer range.start, .integer range.stop]
  | .daily range days =>
    .list
      [.integer range.start, .integer range.stop, .integer days.start.number,
        .integer days.stop.number]

/-- The partition of a sequence of ends. -/
def ofDocument? : Document → Option Partition
  | .list [.integer start, .integer stop] => some (.hourly ⟨start.toNat, stop.toNat⟩)
  | .list [.integer start, .integer stop, .integer firstDay, .integer stopDay] =>
    some (.daily ⟨start.toNat, stop.toNat⟩ ⟨⟨firstDay⟩, ⟨stopDay⟩⟩)
  | _ => none

theorem ofDocument?_document (partition : Partition) :
    ofDocument? partition.document = some partition := by
  cases partition <;> rfl

end Partition

namespace FaultSite

/-- Every place of a fault. -/
def all : List FaultSite :=
  [.rows .epoch, .rows .hourly, .rows .daily, .rows .rolling, .catalogue]

/-- The word for a place. -/
def name : FaultSite → String
  | .rows table => table.name
  | .catalogue => "rollup_partitions"

/-- The place of a word. -/
def ofName? (word : String) : Option FaultSite := all.find? (·.name = word)

theorem ofName?_name (site : FaultSite) : ofName? site.name = some site := by
  cases site with
  | rows table => cases table <;> decide
  | catalogue => decide

end FaultSite

namespace Fault

/-- A fault as a sequence. -/
def document (fault : Fault) : Document :=
  .list
    [.text fault.site.name, .boolean (fault.event = .delete),
      .ofList .integer fault.threshold.toList]

/-- The fault of a sequence. -/
def ofDocument? : Document → Option Fault
  | .list [.text site, .boolean deletes, threshold] => do
    return {
      site := ← FaultSite.ofName? site
      event := if deletes then .delete else .insert
      threshold := (← threshold.list? Document.integer?).head? }
  | _ => none

theorem ofDocument?_document (fault : Fault) : ofDocument? fault.document = some fault := by
  obtain ⟨site, event, threshold⟩ := fault
  cases event <;>
    simp [ofDocument?, document, FaultSite.ofName?_name, Document.list?_integer?]

end Fault

/-! ### Stores -/

namespace EmbeddedStore

/-- The tables of a store and their faults as a sequence. -/
def document (store : EmbeddedStore) : Document :=
  .list
    [.ofList EpochRow.document store.tables.epochs,
      .ofList HourlyRow.document store.tables.hourly,
      .ofList DailyRow.document store.tables.daily,
      .ofList RollingRow.document store.tables.rolling,
      .ofList Partition.document store.tables.catalogue,
      .ofList Fault.document store.faults]

/-- The open store of a sequence. -/
def ofDocument? : Document → Option EmbeddedStore
  | .list [epochs, hourly, daily, rolling, catalogue, faults] => do
    return {
      tables := {
        epochs := ← epochs.list? EpochRow.ofDocument?
        hourly := ← hourly.list? HourlyRow.ofDocument?
        daily := ← daily.list? DailyRow.ofDocument?
        rolling := ← rolling.list? RollingRow.ofDocument?
        catalogue := ← catalogue.list? Partition.ofDocument? }
      faults := ← faults.list? Fault.ofDocument?
      isClosed := false }
  | _ => none

/-- A store that was written down reads back as it was, and open. -/
theorem ofDocument?_document (store : EmbeddedStore) :
    ofDocument? store.document = some { store with isClosed := false } := by
  simp [ofDocument?, document, Document.list?_ofList EpochRow.ofDocument?_document,
    Document.list?_ofList HourlyRow.ofDocument?_document,
    Document.list?_ofList DailyRow.ofDocument?_document,
    Document.list?_ofList RollingRow.ofDocument?_document,
    Document.list?_ofList Partition.ofDocument?_document,
    Document.list?_ofList Fault.ofDocument?_document]

/-- The text of a store in a file. -/
def text (store : EmbeddedStore) : String := store.document.compact

/-- The store that a text in a file is. -/
def ofText? (text : String) : Option EmbeddedStore := (Json.read? text).bind ofDocument?

end EmbeddedStore

end EpochRollup
