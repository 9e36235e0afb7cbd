/-
This file names the ways a store operation fails and gives each its text.
-/

import EpochRollup.Word

namespace EpochRollup

/-- What a database refuses or cannot do. -/
inductive DatabaseError where
  /-- A fault placed on a table was hit. -/
  | injected
  /-- A column that needs a value was given none. -/
  | missingValue (table column : String)
  /-- A sum of integers left the stored integers. -/
  | sumOverflow
  /-- The store was closed. -/
  | closed
  /-- The database refused what it was asked. -/
  | refused (text : String)
  /-- A query that has a row in every state gave none. -/
  | noRow
  /-- A column that is read as a value holds none. -/
  | unexpectedNull (column : String)
  /-- The data of an answer make no sense. -/
  | invalidData (text : String)
  /-- The connection settings make no sense. -/
  | badSettings (text : String)
  /-- The server has no encrypted connections. -/
  | encryptionUnsupported
  /-- No server is reached. -/
  | unreachable (text : String)
deriving DecidableEq, Repr

/-- The text of a database error. -/
def DatabaseError.message : DatabaseError → String
  | .injected => "error returned from database: (code: 1811) injected failure"
  | .missingValue table column =>
    "error returned from database: (code: 1299) NOT NULL constraint failed: " ++ table ++ "."
      ++ column
  | .sumOverflow => "error returned from database: (code: 1) integer overflow"
  | .closed => "attempted to acquire a connection on a closed pool"
  | .refused text => "error returned from database: " ++ text
  | .noRow => "no rows returned by a query that expected to return at least one row"
  | .unexpectedNull column =>
    "error occurred while decoding column " ++ column
      ++ ": unexpected null; try decoding as an \x60Option\x60"
  | .invalidData text => "encountered unexpected or invalid data: " ++ text
  | .badSettings text => "error with configuration: " ++ text
  | .encryptionUnsupported =>
    "error occurred while attempting to establish a TLS connection: server does not support TLS"
  | .unreachable text => "error communicating with database: " ++ text

/-- How a store operation fails. -/
inductive StoreError where
  /-- The database failed. -/
  | database (cause : DatabaseError)
  /-- A row has no partition to go to. -/
  | missingPartition (text : String)
  /-- The store is configured badly. -/
  | configuration (text : String)
  /-- A file operation failed. -/
  | file (text : String)
  /-- An epoch is larger than any stored integer. -/
  | epochTooLarge (epoch : Nat)
  /-- Another inconsistency, reported by its text alone. -/
  | inconsistent (text : String)
deriving DecidableEq, Repr

namespace StoreError

/-- The text of a store error. -/
def message : StoreError → String
  | .database cause => "database error: " ++ cause.message
  | .missingPartition text => "missing partition: " ++ text
  | .configuration text => "configuration error: " ++ text
  | .file text => "io error: " ++ text
  | .epochTooLarge epoch =>
    "internal error: epoch " ++ toString epoch ++ " does not fit in BIGINT"
  | .inconsistent text => "internal error: " ++ text

/-- The write failed because no partition covers the row. -/
def isMissingPartition : StoreError → Bool
  | .missingPartition _ => true
  | _ => false

/-- The refusal of a write. A refusal that speaks of a missing partition is one. -/
def ofRefusedWrite (text : String) : StoreError :=
  if text.contains "no partition of relation" then
    .missingPartition text
  else
    .database (.refused text)

end StoreError

/-! ### Stored epochs -/

/-- An epoch as a stored integer. -/
def storedEpoch (epoch : Nat) : Except StoreError Int :=
  if epoch < storedLimit then .ok epoch else .error (.epochTooLarge epoch)

/-- A stored integer as an epoch. A negative one reads as epoch 0. -/
def epochOfStored (value : Int) : Nat := value.toNat

theorem storedEpoch_eq_ok_iff {epoch : Nat} {value : Int} :
    storedEpoch epoch = .ok value ↔ epoch < storedLimit ∧ value = epoch := by
  unfold storedEpoch
  split
  · simp_all [eq_comm]
  · simp_all only [Nat.not_lt, reduceCtorEq, false_iff, not_and]
    omega

@[simp] theorem epochOfStored_natCast (epoch : Nat) : epochOfStored epoch = epoch := rfl

end EpochRollup
