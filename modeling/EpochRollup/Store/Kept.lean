/-
This file opens the store that settings name and keeps it. The tables of an embedded
store are kept in a file, whose directory is made first; a store without a file ends
with the run. No server is reached from here, so settings that name one only say why
they fail.
-/

import EpochRollup.Store.Connection
import EpochRollup.Store.Files
import EpochRollup.Store.Location
import EpochRollup.Store.Saved

namespace EpochRollup

/-- Work on files that can fail in the store. -/
abbrev FileWork := ExceptT StoreError (Dialogue FileCall FileCall.Reply)

/-- An embedded store and the file that keeps it, if one does. -/
structure KeptStore where
  /-- The path of the file. -/
  path : Option String
  /-- The tables may be changed. -/
  mayWrite : Bool
  /-- The store. -/
  store : EmbeddedStore

/-! ### Opening and saving -/

namespace KeptStore

/-- A database whose file cannot be opened. -/
def cannotOpen : StoreError :=
  .database (.refused "(code: 14) unable to open database file")

/-- A file that holds something else than a database. -/
def notDatabase : StoreError := .database (.refused "(code: 26) file is not a database")

/-- A database that is written where it may only be read. -/
def readOnly : StoreError :=
  .database (.refused "(code: 8) attempt to write a readonly database")

/-- The answer to a store call and the kept store after it. -/
def answer (call : StoreCall) (kept : KeptStore) : call.Reply × KeptStore :=
  if call.writes ∧ !kept.mayWrite then
    (.error readOnly, kept)
  else
    let (reply, store) := kept.store.answer call
    (reply, { kept with store })

/-- One operation on files, and what a failure of it means. -/
def ask {Answer : Type} (blame : String → StoreError)
    (work : Dialogue FileCall FileCall.Reply (Except String Answer)) : FileWork Answer :=
  ExceptT.mk do
    match ← work with
    | .ok answer => return .ok answer
    | .error reason => return .error (blame reason)

/-- Writes a text into a file. -/
def writeFile (path text : String) : FileWork Unit :=
  ask (fun _ => cannotOpen) (Dialogue.call (FileCall.write path text))

/-- Writes the store into its file. -/
def save (kept : KeptStore) : FileWork Unit :=
  match kept.path with
  | some path => if kept.mayWrite then writeFile path kept.store.text else return ()
  | none => return ()

/-- How many bytes longer than the name of a file the name of its journal is. -/
def journalSuffixLength : Nat := 8

/-- Makes the tables in the empty file of a path. It stays empty when they may not be written,
or when the journal would have too long a name. -/
def create (path : String) (access : FileAccess) : FileWork KeptStore := do
  if !access.mayWrite then
    throw readOnly
  else if Place.nameLimit < Place.lastNameLength path + journalSuffixLength then
    throw cannotOpen
  else
    let kept : KeptStore := { path, mayWrite := true, store := .fresh }
    kept.save
    return kept

/-- Opens the store of a file. A file that is not there is made first where that may be done. -/
def ofFile (path : String) (access : FileAccess) : FileWork KeptStore := do
  match ← ask (fun _ => cannotOpen) (Dialogue.call (FileCall.read path)) with
  | some "" => create path access
  | some text =>
    match EmbeddedStore.ofText? text with
    | some store => return { path, mayWrite := access.mayWrite, store }
    | none => throw notDatabase
  | none =>
    if access.mayCreate then
      writeFile path ""
      create path access
    else
      throw cannotOpen

/-- Opens the store of a path. -/
def ofPath (path : String) : FileWork KeptStore := do
  let directory : Place := (Place.namesOfPath path).dropLast
  ask .file (Dialogue.call (FileCall.makeDirectories directory.path))
  match StoreLocation.ofPath path with
  | .ok (.file path access) => ofFile (Place.ofPath path).path access
  | .ok .memory => return { path := none, mayWrite := true, store := .fresh }
  | .error cause => throw (.database cause)

/-- Opens the store of the settings. -/
def ofSettings : DatabaseSettings → FileWork KeptStore
  | .sqlite path _ => ofPath path
  | .postgres server =>
    match ConnectionPlan.ofSettings "" server with
    | .ok _ => throw (.database (.unreachable "Connection refused (os error 111)"))
    | .error error => throw error

end KeptStore

end EpochRollup
