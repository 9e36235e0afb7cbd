/-
This file holds the settings of the engine in four sections, their defaults, and the
checks that refuse a section. The first section that is refused gives the reason.
-/

import EpochRollup.Pass.Run

namespace EpochRollup

/-! ### Chain -/

/-- Chain timing. -/
structure ChainSettings where
  /-- Genesis in seconds since 1970-01-01. -/
  genesisTimestamp : Int
  /-- Length of a slot. -/
  secondsPerSlot : Nat
  /-- Slots in one epoch. -/
  slotsPerEpoch : Nat
deriving DecidableEq, Repr

namespace ChainSettings

/-- The timing of the main network. -/
def default : ChainSettings := ⟨1606824023, 12, 32⟩

/-- The clock of the chain. -/
def clock (settings : ChainSettings) : Except SetupError ChainClock :=
  (ChainClock.ofTimestamp settings.genesisTimestamp settings.secondsPerSlot
    settings.slotsPerEpoch).mapError .chainTiming

/-- Why the section is refused. -/
def refusal (settings : ChainSettings) : Option String :=
  match settings.clock with
  | .ok _ => none
  | .error cause => some cause.message

end ChainSettings

/-! ### Buckets, partitions and retention -/

/-- Bucket, partition and retention widths. -/
structure RollupSettings where
  /-- Epochs in one hourly bucket, or none for the default width of the chain. -/
  hourlyWidth : Option Nat
  /-- Hourly buckets in one hourly partition. -/
  hourlyPartitionBuckets : Nat
  /-- Days in one daily partition. -/
  dailyPartitionBuckets : Nat
  /-- Epochs that hourly partitions are kept, or none for the default of the chain. -/
  hourlyRetention : Option Nat
  /-- Epochs that daily partitions are kept, or none when they are kept forever. -/
  dailyRetention : Option Nat
deriving DecidableEq, Repr

namespace RollupSettings

/-- A day of hours and six days to a partition. -/
def default : RollupSettings := ⟨none, 24, 6, none, none⟩

/-- How many days of hours are kept when nothing is configured. -/
def defaultHourlyRetentionDays : Nat := 3

/-- The layout of a chain. -/
def layout (settings : RollupSettings) (clock : ChainClock) : Except SetupError BucketLayout :=
  (BucketLayout.new clock (settings.hourlyWidth.getD (BucketLayout.defaultHourlyWidth clock))
    settings.hourlyPartitionBuckets settings.dailyPartitionBuckets).mapError .bucketLayout

/-- How long partitions are kept. -/
def retention (settings : RollupSettings) (clock : ChainClock) : RetentionPolicy where
  hourly := settings.hourlyRetention.getD (defaultHourlyRetentionDays * clock.epochsPerDay)
  daily := settings.dailyRetention

/-- A coordinator over the bounds of a store. -/
def coordinator (settings : RollupSettings) (clock : ChainClock) :
    Except RollupError Coordinator :=
  match settings.layout clock with
  | .ok layout => .ok (.ofStore layout (settings.retention clock))
  | .error cause => .error (.layout cause)

/-- Why the section is refused. No width may be zero; whether the hourly width fits the
chain is not asked here. -/
def refusal (settings : RollupSettings) : Option String :=
  if settings.hourlyWidth = some 0 then
    some "rollup.hourly_width_epochs cannot be 0"
  else if settings.hourlyPartitionBuckets = 0 then
    some "rollup.hourly_partition_buckets cannot be 0"
  else if settings.dailyPartitionBuckets = 0 then
    some "rollup.daily_partition_buckets cannot be 0"
  else if settings.hourlyRetention = some 0 then
    some "rollup.hourly_retention_epochs cannot be 0 (the head partition would be dropped)"
  else if settings.dailyRetention = some 0 then
    some "rollup.daily_retention_epochs cannot be 0"
  else
    none

end RollupSettings

/-! ### Database -/

/-- Whether a connection is encrypted. -/
inductive SslMode where
  /-- Never. -/
  | disable
  /-- When the server can. -/
  | prefer
  /-- Always. -/
  | require
deriving DecidableEq, Repr

namespace SslMode

/-- The word for a mode. -/
def name : SslMode → String
  | .disable => "disable"
  | .prefer => "prefer"
  | .require => "require"

/-- Every mode. -/
def all : List SslMode := [.disable, .prefer, .require]

/-- The mode of a word. -/
def ofName? (word : String) : Option SslMode := all.find? (·.name = word)

end SslMode

/-- How to reach a database server. -/
structure ServerSettings where
  /-- Connection URL, which takes precedence over the single fields. -/
  url : Option String
  /-- Host name, or the directory of a socket. -/
  host : Option String
  /-- Port. -/
  port : Option Nat
  /-- User. -/
  username : Option String
  /-- Password. -/
  password : Option String
  /-- Database. -/
  database : Option String
  /-- Whether the connection is encrypted. -/
  sslMode : Option SslMode
  /-- Connections kept open at most. -/
  maxConnections : Nat
  /-- Milliseconds after which the server gives up a statement. -/
  statementTimeout : Option Nat
deriving DecidableEq, Repr

namespace ServerSettings

/-- The port of a server when none is configured. -/
def defaultPort : Nat := 5432

/-- Connections kept open when nothing is configured. -/
def defaultMaxConnections : Nat := 10

/-- Ten minutes: one step of a long backfill can be slow. -/
def defaultStatementTimeout : Nat := 600000

/-- What is said of settings that name no server. -/
def noServer : String := "postgres config requires either 'url' or 'host' + 'database'"

/-- Why the settings are refused: they need a URL, or a host and a database. -/
def refusal (settings : ServerSettings) : Option String :=
  match settings.url, settings.host, settings.database with
  | some _, _, _ | none, some _, some _ => none
  | none, none, _ => some noServer
  | none, some _, none =>
    some "postgres config requires 'database' when using individual fields"

end ServerSettings

/-- Where the tables are kept. -/
inductive DatabaseSettings where
  /-- In a file, with emulated partitions. The timeout is advice only. -/
  | sqlite (path : String) (queryTimeout : Option Nat)
  /-- On a server. -/
  | postgres (server : ServerSettings)
deriving DecidableEq, Repr

namespace DatabaseSettings

/-- Seconds that a query on a file is advised to take at most. -/
def defaultQueryTimeout : Nat := 600

/-- A file in the working directory. -/
def default : DatabaseSettings := .sqlite "./data/rollups.db" (some defaultQueryTimeout)

/-- Why the section is refused. -/
def refusal : DatabaseSettings → Option String
  | .sqlite _ _ => none
  | .postgres server => server.refusal

end DatabaseSettings

/-! ### Scheduler -/

/-- When the engine runs. -/
structure SchedulerSettings where
  /-- Seconds between ticks. -/
  intervalSeconds : Nat
  /-- Address on which metrics and health are served, if they are. -/
  metricsBind : Option String
deriving DecidableEq, Repr

namespace SchedulerSettings

/-- A tick every minute. -/
def default : SchedulerSettings := ⟨60, none⟩

/-- Why the section is refused. -/
def refusal (settings : SchedulerSettings) : Option String :=
  if settings.intervalSeconds = 0 then
    some ("scheduler.interval_secs cannot be 0. "
      ++ "This would cause a panic when creating the tick timer.")
  else
    none

end SchedulerSettings

/-! ### All sections -/

/-- The settings of the engine. -/
structure Settings where
  /-- Chain timing. -/
  chain : ChainSettings
  /-- Buckets, partitions and retention. -/
  rollup : RollupSettings
  /-- Where the tables are kept. -/
  database : DatabaseSettings
  /-- When the engine runs. -/
  scheduler : SchedulerSettings
deriving DecidableEq, Repr

namespace Settings

/-- The settings used when nothing is configured. -/
def default : Settings := ⟨.default, .default, .default, .default⟩

/-- Why the settings are refused: the reason of the first section that is. -/
def refusal (settings : Settings) : Option String :=
  settings.chain.refusal <|> settings.rollup.refusal <|> settings.database.refusal <|>
    settings.scheduler.refusal

end Settings

end EpochRollup
