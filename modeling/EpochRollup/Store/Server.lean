/-
This file is the store on a database server: it answers a store call by a dialogue with
the server, statement by statement.

An operation of several statements is a transaction. When one of them fails, nothing
more is sent, and the connection undoes what was begun. Where rows are written into a
partitioned table, a refusal that speaks of a missing partition is reported as such.
-/

import EpochRollup.Sql.Statement
import EpochRollup.Store.Call

namespace EpochRollup

/-! ### What is said to a server -/

/-- Where a server is reached. -/
inductive ServerAddress where
  /-- A socket in a directory. -/
  | socket (directory : String) (port : Nat)
  /-- A host in a network. -/
  | host (name : String) (port : Nat)
deriving DecidableEq, Repr

/-- What a session starts with. -/
structure Startup where
  /-- The user. -/
  user : String
  /-- The database, or none for the default of the user. -/
  database : Option String
  /-- Settings of the session. -/
  options : Option String
deriving DecidableEq, Repr

/-- A message to a server that is answered. -/
inductive ServerCall where
  /-- Reach the server. -/
  | connect (address : ServerAddress)
  /-- Ask for an encrypted connection. -/
  | requestEncryption
  /-- Start a session. -/
  | startUp (startup : Startup)
  /-- Send the password that was asked for. -/
  | sendPassword (password : String)
  /-- Begin a transaction. -/
  | begin
  /-- Commit a transaction. -/
  | commit
  /-- Run a statement with values bound to its parameters. -/
  | execute (statement : ServerStatement) (values : List Cell)
  /-- Read the rows of a statement with values bound to its parameters. -/
  | fetch (statement : ServerStatement) (values : List Cell)
deriving DecidableEq

/-- What a server answers: whether it encrypts, whether it asks for a password, how many rows
a statement affected, the rows it read, or why it cannot be reached or refuses. -/
@[reducible] def ServerCall.Reply : ServerCall → Type
  | .requestEncryption | .startUp _ => Bool
  | .sendPassword _ => Unit
  | .connect _ | .begin | .commit => Except String Unit
  | .execute _ _ => Except String Nat
  | .fetch _ _ => Except String (List (List Cell))

/-- A dialogue with a server that can fail. -/
abbrev Exchange := ExceptT StoreError (Dialogue ServerCall ServerCall.Reply)

namespace Exchange

/-- The failure of an ordinary statement. -/
def refused (text : String) : StoreError := .database (.refused text)

/-- What is done with an answer that may be a refusal. -/
def settle {Answer : Type} (blame : String → StoreError) :
    Except String Answer → Except StoreError Answer
  | .ok answer => .ok answer
  | .error text => .error (blame text)

/-- Runs a statement. -/
def execute (statement : ServerStatement) (values : List Cell) : Exchange Nat :=
  ExceptT.mk do return settle refused (← Dialogue.call (ServerCall.execute statement values))

/-- Runs a statement that writes into a partitioned table. -/
def write (statement : ServerStatement) (values : List Cell) : Exchange Nat :=
  ExceptT.mk do
    return settle StoreError.ofRefusedWrite
      (← Dialogue.call (ServerCall.execute statement values))

/-- Reads rows. -/
def fetch (statement : ServerStatement) (values : List Cell) : Exchange (List (List Cell)) :=
  ExceptT.mk do return settle refused (← Dialogue.call (ServerCall.fetch statement values))

/-- Runs an exchange between the beginning of a transaction and its end. -/
def transaction {Result : Type} (body : Exchange Result) : Exchange Result := do
  ExceptT.mk do return settle refused (← Dialogue.call ServerCall.begin)
  let result ← body
  ExceptT.mk do return settle refused (← Dialogue.call ServerCall.commit)
  return result

/-- An epoch as a bound value. -/
def bound (epoch : Nat) : Exchange Cell :=
  match storedEpoch epoch with
  | .ok value => return .integer value
  | .error error => throw error

/-- A reading of rows, which fails on a value that is missing. -/
def decode {Value : Type} : Except DatabaseError Value → Exchange Value
  | .ok value => return value
  | .error error => throw (.database error)

end Exchange

/-! ### Rows -/

namespace Cell

/-- The integer of a column. -/
def needInteger (column : String) : Cell → Except DatabaseError Int
  | .integer value => .ok value
  | _ => .error (.unexpectedNull column)

/-- The truth value of a column. -/
def needBoolean (column : String) : Cell → Except DatabaseError Bool
  | .boolean value => .ok value
  | _ => .error (.unexpectedNull column)

/-- The day of a column. -/
def needDay (column : String) : Cell → Except DatabaseError CalendarDay
  | .day value => .ok value
  | _ => .error (.unexpectedNull column)

/-- The text of a column. -/
def needText (column : String) : Cell → Except DatabaseError String
  | .text value => .ok value
  | _ => .error (.unexpectedNull column)

/-- A cell of a metric column, which may be missing only in a balance. -/
def needMetric (column : Column) (cell : Cell) : Except DatabaseError Cell :=
  match column.mergeClass, cell with
  | .additive, .null | .booleanOr, .null => .error (.unexpectedNull column.quotedName)
  | _, cell => .ok cell

end Cell

namespace Metrics

/-- The metrics in a row, whose cells stand in the order of the columns. -/
def ofRow (cells : List Cell) : Except DatabaseError Metrics := do
  let values ← (Column.all.zip cells).mapM fun (column, cell) => do
    return (column, ← cell.needMetric column)
  return ofCells fun column => ((values.find? (·.1 = column)).map (·.2)).getD .null

end Metrics

/-- An hourly row as it is read. -/
def HourlyRow.ofCells : List Cell → Except DatabaseError HourlyRow
  | start :: stop :: validator :: metrics => do
    return ⟨← start.needInteger "\"epoch_start\"", ← stop.needInteger "\"epoch_end\"",
      ← validator.needInteger "\"validator_index\"", ← Metrics.ofRow metrics⟩
  | _ => .error .noRow

/-- A daily row as it is read. -/
def DailyRow.ofCells : List Cell → Except DatabaseError DailyRow
  | day :: start :: stop :: validator :: metrics => do
    return ⟨← day.needDay "\"day\"", ← start.needInteger "\"epoch_start\"",
      ← stop.needInteger "\"epoch_end\"", ← validator.needInteger "\"validator_index\"",
      ← Metrics.ofRow metrics⟩
  | _ => .error .noRow

/-- A rolling row as it is read. -/
def RollingRow.ofCells : List Cell → Except DatabaseError RollingRow
  | validator :: start :: stop :: metrics => do
    return ⟨← validator.needInteger "\"validator_index\"", ← start.needInteger "\"epoch_start\"",
      ← stop.needInteger "\"epoch_end\"", ← Metrics.ofRow metrics⟩
  | _ => .error .noRow

/-- The first cell of the row a query always gives. -/
def firstCell : List (List Cell) → Except DatabaseError Cell
  | (cell :: _) :: _ => .ok cell
  | _ => .error .noRow

/-- The first cell of a row. -/
def onlyCell : List Cell → Except DatabaseError Cell
  | cell :: _ => .ok cell
  | [] => .error .noRow

/-- The two ends in the first row, when there is a row. -/
def rangeOfRows : List (List Cell) → Except DatabaseError (Option EpochRange)
  | (start :: stop :: _) :: _ => do
    return some ⟨epochOfStored (← start.needInteger "0"), epochOfStored (← stop.needInteger "1")⟩
  | _ => .ok none

/-! ### Answers -/

namespace ServerStore

open Exchange

/-- The epoch that a query with one row and one column gives, which may be missing. -/
def scalarEpoch (statement : ServerStatement) (values : List Cell) : Exchange (Option Nat) := do
  let cell ← decode (firstCell (← fetch statement values))
  return cell.integer?.map epochOfStored

/-- The latest bucket of a table and the end of its coverage. -/
def lastBounds (granularity : Granularity) : Exchange (Option EpochRange) := do
  decode (rangeOfRows (← fetch (.lastBounds granularity) []))

/-- The rows of a query. -/
def rowsOf {Row : Type} (read : List Cell → Except DatabaseError Row)
    (statement : ServerStatement) (values : List Cell) : Exchange (List Row) := do
  decode ((← fetch statement values).mapM read)

/-- Whether a partition exists. -/
def partitionExists (partition : Partition) : Exchange Bool := do
  let cell ← decode (firstCell (← fetch .partitionExists [.text partition.name]))
  decode (cell.needBoolean "0")

/-- The exchange that answers a store call. -/
def exchange : (call : StoreCall) → Exchange call.Answer
  | .migrate => ServerStatement.migration.forM fun statement => do
    let _ ← execute statement []
  | .health => do
    let _ ← execute .health []
  | .upsertEpochs rows => transaction <| rows.forM fun row => do
    let _ ← execute .upsertEpoch row.boundCells
  | .firstEpoch => scalarEpoch .firstEpoch []
  | .lastEpoch => scalarEpoch .lastEpoch []
  | .foldHour bucket => do
    write .foldHour [← bound bucket.start, ← bound bucket.stop]
  | .upsertHourly rows => transaction <| rows.forM fun row => do
    let _ ← write .upsertHourly row.boundCells
  | .lastHourlyBounds => lastBounds .hourly
  | .firstHourlyEpoch => scalarEpoch (.firstBucket .hourly) []
  | .firstHourlyFrom epoch => do scalarEpoch .firstHourlyFrom [← bound epoch]
  | .hourlyRows range => do
    rowsOf HourlyRow.ofCells .hourlyRows [← bound range.start, ← bound range.stop]
  | .foldDay range day => do
    write .foldDay [← bound range.start, ← bound range.stop, .day day]
  | .lastDailyBounds => lastBounds .daily
  | .firstDailyEpoch => scalarEpoch (.firstBucket .daily) []
  | .dailyRows day => rowsOf DailyRow.ofCells .dailyRows [.day day]
  | .dailyDays => rowsOf (fun cells => do (← onlyCell cells).needDay "0") .dailyDays []
  | .replaceRolling start head => transaction do
    let _ ← execute .clearRolling []
    write .insertRolling [← bound start, ← bound head]
  | .clearRolling => do
    let _ ← execute .clearRolling []
  | .rollingRows => rowsOf RollingRow.ofCells .rollingRows []
  | .ensurePartition partition => do
    if ← partitionExists partition then
      return false
    else
      let _ ← execute (.createPartition partition) []
      return true
  | .dropPartition partition => do
    let existed ← partitionExists partition
    let _ ← execute (.dropPartition partition) []
    return existed
  | .partitionExists partition => partitionExists partition
  | .listPartitions granularity =>
    rowsOf (fun cells => do (← onlyCell cells).needText "0") .listPartitions
      [.text granularity.table.name]

/-- The answer to a store call and the server after it, for any server. -/
def answer {Server : Type}
    (serve : (call : ServerCall) → Server → call.Reply × Server) (call : StoreCall)
    (server : Server) : call.Reply × Server :=
  Dialogue.run serve (exchange call).run server

end ServerStore

end EpochRollup
