/-
This file reads the name of an embedded database: where its tables are kept, if they are,
and what may be done there.

A name may be the URI of a file. Its parameters narrow what may be done or keep the
tables in memory; a parameter of another name is passed over.
-/

import EpochRollup.Document.Numeral
import EpochRollup.Store.Error
import EpochRollup.Text.Blank
import EpochRollup.Text.Percent

namespace EpochRollup

/-- What may be done with the file of a database. -/
structure FileAccess where
  /-- It may be made when it is not there. -/
  mayCreate : Bool
  /-- It may be written. -/
  mayWrite : Bool
deriving DecidableEq, Repr

/-- Where the tables of a database are kept. -/
inductive StoreLocation where
  /-- Nowhere: they are lost in the end. -/
  | memory
  /-- In a file. -/
  | file (path : String) (access : FileAccess)
deriving DecidableEq, Repr

/-! ### URIs of files -/

/-- What is being read of a URI. -/
inductive UriPart where
  /-- The path, up to a question mark. -/
  | path
  /-- The name of a parameter, up to an equals sign or an ampersand. -/
  | name
  /-- The value of a parameter, up to an ampersand. -/
  | value
deriving DecidableEq, Repr

/-- A URI of a file, as far as it has been read. The bytes of each part come last first. -/
structure UriProgress where
  /-- The path. -/
  path : List UInt8
  /-- The parameters, the latest first, of which the first one may not be complete. -/
  parameters : List (List UInt8 × List UInt8)
  /-- What is being read. -/
  part : UriPart
deriving DecidableEq, Repr

namespace UriProgress

/-- One more byte of the part that is being read. -/
def append (progress : UriProgress) (byte : UInt8) : UriProgress :=
  match progress.part, progress.parameters with
  | .path, _ => { progress with path := byte :: progress.path }
  | .name, (name, value) :: rest => { progress with parameters := (byte :: name, value) :: rest }
  | .value, (name, value) :: rest => { progress with parameters := (name, byte :: value) :: rest }
  | _, [] => progress

/-- A character that ends the part that is being read. -/
def isEnd (part : UriPart) (character : Char) : Bool :=
  match part with
  | .path => character = '?'
  | .name => character = '=' || character = '&'
  | .value => character = '&'

/-- The next part. A value without a name is read as one, and then it does not count. -/
def next (progress : UriProgress) (mark : Char) : UriProgress :=
  if mark = '=' then { progress with part := .value }
  else { progress with parameters := ([], []) :: progress.parameters, part := .name }

/-- The byte that two digits after a percent sign write. -/
def byte? : List Char → Option Nat
  | high :: low :: _ => hexNumber? [high, low]
  | _ => none

/-- Reads a text to its end. After a zero byte, what is left of a part does not count. Each
character takes fuel. -/
def read : Nat → UriProgress → List Char → UriProgress
  | 0, progress, _ | _, progress, [] => progress
  | fuel + 1, progress, character :: rest =>
    match if character = '%' then byte? rest else none with
    | some 0 => read fuel progress ((rest.drop 2).dropWhile (!isEnd progress.part ·))
    | some byte => read fuel (progress.append (UInt8.ofNat byte)) (rest.drop 2)
    | none =>
      if isEnd progress.part character then read fuel (progress.next character) rest
      else read fuel ((characterBytes character).foldl append progress) rest

/-- The parameters that have a name, in the order in which they stand. -/
def named (progress : UriProgress) : List (String × String) :=
  (progress.parameters.reverse.filter (·.1 ≠ [])).map fun (name, value) =>
    (Utf8.repair name.reverse, Utf8.repair value.reverse)

end UriProgress

/-! ### Parameters -/

/-- What the parameters of a URI ask for. The modes are the bits by which they are compared: a
mode may take rights away but not add one. -/
structure UriChoice where
  /-- The bits of the mode. -/
  mode : Nat
  /-- The name of the file system, if one is asked for. -/
  system : Option String
deriving DecidableEq, Repr

namespace UriChoice

/-- Reading. -/
def readBit : Nat := 1

/-- Reading and writing. -/
def writeBit : Nat := 2

/-- Making a file. -/
def createBit : Nat := 4

/-- Memory in place of a file. -/
def memoryBit : Nat := 128

/-- Everything may be done. -/
def initial : UriChoice := ⟨writeBit + createBit, none⟩

/-- The bits of a mode. -/
def modeOfName? : String → Option Nat
  | "ro" => some readBit
  | "rw" => some writeBit
  | "rwc" => some (writeBit + createBit)
  | "memory" => some memoryBit
  | _ => none

/-- The choice with one more parameter. -/
def withParameter (choice : UriChoice) (parameter : String × String) :
    Except DatabaseError UriChoice :=
  let (name, value) := parameter
  match name with
  | "vfs" => .ok { choice with system := some value }
  | "mode" =>
    match modeOfName? value with
    | none => .error (.refused ("(code: 1) no such access mode: " ++ value))
    | some mode =>
      if mode ≠ memoryBit ∧ choice.mode < mode then
        .error (.refused ("(code: 3) access mode not allowed: " ++ value))
      else
        .ok { choice with mode }
  | "cache" =>
    if value = "shared" ∨ value = "private" then .ok choice
    else .error (.refused ("(code: 1) no such cache mode: " ++ value))
  | _ => .ok choice

/-- A value that says yes. -/
def isYes (value : String) : Bool :=
  let digits := value.toList.takeWhile Char.isDigit
  if digits ≠ [] then numberOfDigits digits % 256 ≠ 0
  else ["on", "yes", "true"].contains value.toLower

/-- The file systems on which files are kept. -/
def systems : List String := ["unix", "unix-none", "unix-dotfile", "unix-excl"]

/-- The location of a path. -/
def location (choice : UriChoice) (path : String) (isImmutable : Bool) :
    Except DatabaseError StoreLocation :=
  let isOnDisk := choice.system.all systems.contains
  if !isOnDisk ∧ choice.system ≠ some "memdb" then
    .error (.refused ("(code: 1) no such vfs: " ++ choice.system.getD ""))
  else if path = "" ∨ path = ":memory:" ∨ choice.mode = memoryBit ∨ !isOnDisk then
    .ok .memory
  else
    .ok (.file path
      { mayCreate := choice.mode = writeBit + createBit
        mayWrite := choice.mode ≠ readBit && !isImmutable })

end UriChoice

/-! ### Names -/

namespace StoreLocation

/-- What stands after the authority of a URI. Only this machine may be named there. -/
def afterAuthority (text : List Char) : Except DatabaseError (List Char) :=
  match text with
  | '/' :: '/' :: rest =>
    let authority := rest.takeWhile (· ≠ '/')
    if authority = [] ∨ authority = "localhost".toList then .ok (rest.drop authority.length)
    else .error (.refused ("(code: 1) invalid uri authority: " ++ String.ofList authority))
  | text => .ok text

/-- The location that a URI names, from what stands after its scheme. -/
def ofUri (text : List Char) : Except DatabaseError StoreLocation := do
  let unmarked := (← afterAuthority text).takeWhile (· ≠ '#')
  let progress := UriProgress.read unmarked.length ⟨[], [], .path⟩ unmarked
  let parameters := progress.named
  let choice ← parameters.foldlM UriChoice.withParameter .initial
  let immutable := parameters.find? (·.1 = "immutable")
  choice.location (Utf8.repair progress.path.reverse)
    (immutable.any fun (_, value) => UriChoice.isYes value)

/-- A text without the marks it begins with. Each mark takes fuel. -/
def withoutLeading (mark : List Char) : Nat → List Char → List Char
  | 0, text => text
  | fuel + 1, text =>
    if mark.isPrefixOf text then withoutLeading mark fuel (text.drop mark.length) else text

/-- The location that the path of a database names. Its bytes may be written after percent
signs, and what follows a question mark is a parameter, of which there is none. -/
def ofPath (path : String) : Except DatabaseError StoreLocation :=
  let scheme := "sqlite:".toList
  let address := scheme ++ path.toList
  let name := withoutLeading scheme address.length
    (withoutLeading (scheme ++ ['/', '/']) address.length address)
  if name.contains '?' then
    .error (.badSettings "unknown query parameter")
  else
    match percentDecode name with
    | .error fault => .error (.badSettings fault.message)
    | .ok decoded =>
      if decoded.toList.contains '\x00' then
        .error (.badSettings "a file name has no zero character")
      else if "file:".toList.isPrefixOf decoded.toList then
        ofUri (decoded.toList.drop 5)
      else
        UriChoice.initial.location decoded false

end StoreLocation

end EpochRollup
