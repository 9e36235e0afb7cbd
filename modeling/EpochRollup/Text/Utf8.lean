/-
This file reads bytes as UTF-8. From the front, bytes are a character, or they begin like
one and go on wrongly, or they end before the character does. Either the first fault is
reported, or every fault is replaced by a mark.
-/

namespace EpochRollup

/-! ### Characters at the front of bytes -/

/-- What stands at the front of some bytes. -/
inductive ByteFront where
  /-- A character of so many bytes. -/
  | character (value : Char) (length : Nat)
  /-- So many bytes after which no character can follow. -/
  | broken (length : Nat)
  /-- So many bytes that begin a character, which the end cuts off. -/
  | cut (length : Nat)
deriving DecidableEq, Repr

/-- How many bytes the front takes. -/
def ByteFront.length : ByteFront → Nat
  | .character _ length | .broken length | .cut length => length

/-- What the first byte of a character says about the others. -/
structure LeadByte where
  /-- How many bytes follow. -/
  owed : Nat
  /-- The least second byte. -/
  least : Nat
  /-- The greatest second byte. -/
  greatest : Nat
  /-- The highest bits of the character. -/
  bits : Nat
deriving DecidableEq, Repr

/-- What a first byte says. The bounds of the second one leave out characters that fewer bytes
can write, and numbers that are no characters. -/
def LeadByte.ofByte? (byte : Nat) : Option LeadByte :=
  if byte < 0x80 then
    some ⟨0, 0x80, 0xbf, byte⟩
  else if 0xc2 ≤ byte ∧ byte < 0xe0 then
    some ⟨1, 0x80, 0xbf, byte - 0xc0⟩
  else if 0xe0 ≤ byte ∧ byte < 0xf0 then
    some ⟨2, if byte = 0xe0 then 0xa0 else 0x80, if byte = 0xed then 0x9f else 0xbf, byte - 0xe0⟩
  else if 0xf0 ≤ byte ∧ byte < 0xf5 then
    some ⟨3, if byte = 0xf0 then 0x90 else 0x80, if byte = 0xf4 then 0x8f else 0xbf, byte - 0xf0⟩
  else
    none

/-- The front that goes on from the bytes taken so far. -/
def ByteFront.continued : LeadByte → Nat → List UInt8 → ByteFront
  | ⟨0, _, _, bits⟩, taken, _ => .character (Char.ofNat bits) taken
  | ⟨_ + 1, _, _, _⟩, taken, [] => .cut taken
  | ⟨owed + 1, least, greatest, bits⟩, taken, byte :: rest =>
    if least ≤ byte.toNat ∧ byte.toNat ≤ greatest then
      continued ⟨owed, 0x80, 0xbf, bits * 64 + (byte.toNat - 0x80)⟩ (taken + 1) rest
    else
      .broken taken

/-- The fronts that bytes divide into. Each takes fuel and a byte. -/
def ByteFront.divide : Nat → List UInt8 → List ByteFront
  | 0, _ | _, [] => []
  | fuel + 1, byte :: rest =>
    let front :=
      match LeadByte.ofByte? byte.toNat with
      | some lead => continued lead 1 rest
      | none => .broken 1
    front :: divide fuel (rest.drop (front.length - 1))

/-! ### Texts of bytes -/

/-- Why bytes are no text. -/
structure Utf8Fault where
  /-- How many bytes before it are one. -/
  start : Nat
  /-- How many bytes are at fault, or none when the end is. -/
  length : Option Nat
deriving DecidableEq, Repr

/-- The text of a fault. -/
def Utf8Fault.message (fault : Utf8Fault) : String :=
  match fault.length with
  | some length =>
    "invalid utf-8 sequence of " ++ toString length ++ " bytes from index " ++ toString fault.start
  | none => "incomplete utf-8 byte sequence from index " ++ toString fault.start

namespace Utf8

/-- The characters of fronts that begin after so many bytes, unless one is none. -/
def characters : Nat → List ByteFront → Except Utf8Fault (List Char)
  | _, [] => .ok []
  | start, .character value length :: rest => do
    return value :: (← characters (start + length) rest)
  | start, .broken length :: _ => .error ⟨start, some length⟩
  | start, .cut _ :: _ => .error ⟨start, none⟩

/-- The text of bytes. -/
def decode (bytes : List UInt8) : Except Utf8Fault String :=
  (characters 0 (ByteFront.divide bytes.length bytes)).map String.ofList

/-- The text of bytes with a mark in place of every fault. -/
def repair (bytes : List UInt8) : String :=
  String.ofList ((ByteFront.divide bytes.length bytes).map fun front =>
    match front with
    | .character value _ => value
    | .broken _ | .cut _ => '\ufffd')

end Utf8

end EpochRollup
