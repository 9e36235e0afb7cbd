/-
This file writes settings as documents and reads them back.

A section is read from a table by the names of its fields, or from a sequence by their
order. Unknown names are passed over; whether values past the last field are, depends on
where the document comes from, but the database section never has any. A field that is
left out takes its default; in a table, a field that may be missing and has no other
default is missing, while in a sequence it has to stand. No value is not the same as a
field left out: it says that there is none, and only a field that may be missing takes it.
-/

import EpochRollup.Config.Settings
import EpochRollup.Document

namespace EpochRollup

/-! ### Fields -/

/-- What stands in the place of a field. -/
inductive Slot where
  /-- A value. -/
  | present (value : Document)
  /-- Nothing, in a table that does not have the name. -/
  | unnamed
  /-- Nothing, past the end of a sequence. -/
  | beyond

/-- What becomes of the values of a sequence that are past its last field. -/
inductive Surplus where
  /-- They spoil the sequence. -/
  | refused
  /-- They are passed over. -/
  | ignored
deriving DecidableEq, Repr

namespace Slot

/-- The slots of named fields in a table or a sequence. -/
def ofDocument? (surplus : Surplus) (names : List String) : Document → Option (List Slot)
  | .table fields =>
    some (names.map fun name =>
      match field? fields name with
      | some value => .present value
      | none => .unnamed)
  | .list items =>
    if items.length ≤ names.length ∨ surplus = .ignored then
      some ((items.take names.length).map .present
        ++ List.replicate (names.length - items.length) .beyond)
    else
      none
  | _ => none

variable {Value : Type}

/-- A field that has to stand. -/
def required (read : Document → Option Value) : Slot → Option Value
  | .present value => read value
  | .unnamed | .beyond => none

/-- A field with a default. -/
def orElse (default : Value) (read : Document → Option Value) : Slot → Option Value
  | .present value => read value
  | .unnamed | .beyond => some default

/-- A field that may be missing. -/
def optional (read : Document → Option Value) : Document → Option (Option Value)
  | .null => some none
  | value => (read value).map some

/-- A field that is missing when a table leaves it out. -/
def missing (read : Document → Option Value) : Slot → Option (Option Value)
  | .present value => optional read value
  | .unnamed => some none
  | .beyond => none

end Slot

/-! ### Values -/

namespace Document

/-- A natural number below a limit. -/
def natBelow? (limit : Nat) : Document → Option Nat
  | .integer value => if 0 ≤ value ∧ value < limit then some value.toNat else none
  | .ordinal value => if value < limit then some value else none
  | _ => none

/-- A word. -/
def word? : Document → Option Nat := natBelow? wordLimit

/-- A stored integer. -/
def stored? : Document → Option Int
  | .integer value => if IsStored value then some value else none
  | .ordinal value => if value < storedLimit then some (value : Int) else none
  | _ => none

/-- A text. -/
def text? : Document → Option String
  | .text value => some value
  | _ => none

/-- A text, perhaps of a single character. -/
def writing? : Document → Option String
  | .character value => some (String.singleton value)
  | document => document.text?

/-- A value that may be missing. -/
def ofOption {Value : Type} (write : Value → Document) : Option Value → Document
  | some value => write value
  | none => .null

/-- A natural number. -/
def ofNat (value : Nat) : Document := .integer value

end Document

/-- The mode a document names: by its word, or by a table of that word alone with nothing in
it. -/
def SslMode.ofDocument? : Document → Option SslMode
  | .text word => ofName? word
  | .table [(word, .null)] | .table [(word, .table [])] => ofName? word
  | _ => none

/-! ### Sections -/

namespace ChainSettings

/-- The chain section. -/
def ofDocument? (surplus : Surplus) (document : Document) : Option ChainSettings := do
  match ← Slot.ofDocument? surplus
    ["genesis_timestamp", "seconds_per_slot", "slots_per_epoch"] document with
  | [genesisTimestamp, secondsPerSlot, slotsPerEpoch] =>
    return {
      genesisTimestamp := ← genesisTimestamp.orElse default.genesisTimestamp Document.stored?
      secondsPerSlot := ← secondsPerSlot.orElse default.secondsPerSlot Document.word?
      slotsPerEpoch := ← slotsPerEpoch.orElse default.slotsPerEpoch Document.word? }
  | _ => none

/-- The chain section as a document. -/
def document (settings : ChainSettings) : Document :=
  .table
    [("genesis_timestamp", .integer settings.genesisTimestamp),
      ("seconds_per_slot", .ofNat settings.secondsPerSlot),
      ("slots_per_epoch", .ofNat settings.slotsPerEpoch)]

end ChainSettings

namespace RollupSettings

/-- The rollup section. -/
def ofDocument? (surplus : Surplus) (document : Document) : Option RollupSettings := do
  match ← Slot.ofDocument? surplus
    ["hourly_width_epochs", "hourly_partition_buckets", "daily_partition_buckets",
      "hourly_retention_epochs", "daily_retention_epochs"] document with
  | [hourlyWidth, hourlyBuckets, dailyBuckets, hourlyRetention, dailyRetention] =>
    return {
      hourlyWidth := ← hourlyWidth.orElse none (Slot.optional Document.word?)
      hourlyPartitionBuckets :=
        ← hourlyBuckets.orElse default.hourlyPartitionBuckets Document.word?
      dailyPartitionBuckets := ← dailyBuckets.orElse default.dailyPartitionBuckets Document.word?
      hourlyRetention := ← hourlyRetention.orElse none (Slot.optional Document.word?)
      dailyRetention := ← dailyRetention.orElse none (Slot.optional Document.word?) }
  | _ => none

/-- The rollup section as a document. -/
def document (settings : RollupSettings) : Document :=
  .table
    [("hourly_width_epochs", .ofOption .ofNat settings.hourlyWidth),
      ("hourly_partition_buckets", .ofNat settings.hourlyPartitionBuckets),
      ("daily_partition_buckets", .ofNat settings.dailyPartitionBuckets),
      ("hourly_retention_epochs", .ofOption .ofNat settings.hourlyRetention),
      ("daily_retention_epochs", .ofOption .ofNat settings.dailyRetention)]

end RollupSettings

namespace ServerSettings

/-- The fields of a server. -/
def ofDocument? (document : Document) : Option ServerSettings := do
  match ← Slot.ofDocument? .refused
    ["url", "host", "port", "username", "password", "database", "ssl_mode", "max_connections",
      "statement_timeout_ms"] document with
  | [url, host, port, username, password, database, sslMode, maxConnections, statementTimeout] =>
    return {
      url := ← url.missing Document.text?
      host := ← host.missing Document.text?
      port := ← port.orElse (some defaultPort) (Slot.optional (Document.natBelow? UInt16.size))
      username := ← username.missing Document.text?
      password := ← password.missing Document.text?
      database := ← database.missing Document.text?
      sslMode := ← sslMode.missing SslMode.ofDocument?
      maxConnections :=
        ← maxConnections.orElse defaultMaxConnections (Document.natBelow? UInt32.size)
      statementTimeout :=
        ← statementTimeout.orElse (some defaultStatementTimeout) (Slot.optional Document.word?) }
  | _ => none

/-- The fields of a server, with their values. -/
def fields (settings : ServerSettings) : List (String × Document) :=
  [("url", .ofOption .text settings.url),
    ("host", .ofOption .text settings.host),
    ("port", .ofOption .ofNat settings.port),
    ("username", .ofOption .text settings.username),
    ("password", .ofOption .text settings.password),
    ("database", .ofOption .text settings.database),
    ("ssl_mode", .ofOption (fun mode => .text mode.name) settings.sslMode),
    ("max_connections", .ofNat settings.maxConnections),
    ("statement_timeout_ms", .ofOption .ofNat settings.statementTimeout)]

end ServerSettings

namespace DatabaseSettings

/-- The fields of a file. -/
def sqliteOfDocument? (document : Document) : Option DatabaseSettings := do
  match ← Slot.ofDocument? .refused ["path", "query_timeout_secs"] document with
  | [path, queryTimeout] =>
    return .sqlite (← path.required Document.text?)
      (← queryTimeout.orElse (some defaultQueryTimeout) (Slot.optional Document.word?))
  | _ => none

/-- The fields of the kind of database that a word names, or its place among the kinds. -/
def ofKind? (kind : Document) (fields : Document) : Option DatabaseSettings :=
  match kind with
  | .text "sqlite" | .ordinal 0 => sqliteOfDocument? fields
  | .text "postgres" | .ordinal 1 => (ServerSettings.ofDocument? fields).map .postgres
  | _ => none

/-- The database section. Its kind is named by one field of a table, or comes first in a
sequence. -/
def ofDocument? : Document → Option DatabaseSettings
  | .table fields => do ofKind? (← field? fields "type") (.table fields)
  | .list (kind :: rest) => ofKind? kind (.list rest)
  | _ => none

/-- The database section as a document. -/
def document : DatabaseSettings → Document
  | .sqlite path queryTimeout =>
    .table
      [("type", .text "sqlite"),
        ("path", .text path),
        ("query_timeout_secs", .ofOption .ofNat queryTimeout)]
  | .postgres server => .table (("type", .text "postgres") :: server.fields)

end DatabaseSettings

namespace SchedulerSettings

/-- The scheduler section. -/
def ofDocument? (surplus : Surplus) (document : Document) : Option SchedulerSettings := do
  match ← Slot.ofDocument? surplus ["interval_secs", "metrics_bind"] document with
  | [intervalSeconds, metricsBind] =>
    return {
      intervalSeconds := ← intervalSeconds.orElse default.intervalSeconds Document.word?
      metricsBind := ← metricsBind.orElse none (Slot.optional Document.writing?) }
  | _ => none

/-- The scheduler section as a document. -/
def document (settings : SchedulerSettings) : Document :=
  .table
    [("interval_secs", .ofNat settings.intervalSeconds),
      ("metrics_bind", .ofOption .text settings.metricsBind)]

end SchedulerSettings

namespace Settings

/-- The settings a document holds. -/
def ofDocument? (surplus : Surplus) (document : Document) : Option Settings := do
  match ← Slot.ofDocument? surplus ["chain", "rollup", "database", "scheduler"] document with
  | [chain, rollup, database, scheduler] =>
    return {
      chain := ← chain.orElse .default (ChainSettings.ofDocument? surplus)
      rollup := ← rollup.orElse .default (RollupSettings.ofDocument? surplus)
      database := ← database.orElse .default DatabaseSettings.ofDocument?
      scheduler := ← scheduler.orElse .default (SchedulerSettings.ofDocument? surplus) }
  | _ => none

/-- The settings as a document, with every field. -/
def document (settings : Settings) : Document :=
  .table
    [("chain", settings.chain.document),
      ("rollup", settings.rollup.document),
      ("database", settings.database.document),
      ("scheduler", settings.scheduler.document)]

end Settings

end EpochRollup
