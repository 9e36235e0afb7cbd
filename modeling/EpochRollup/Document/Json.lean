/-
This file reads and writes documents in JSON. The reader takes one value and nothing
after it. The writer has a form on one line and a form with one item a line, indented
by two blanks a level.
-/

import EpochRollup.Document.Numeral
import EpochRollup.Text.Reader

namespace EpochRollup

namespace Json

open TextReader

/-! ### Reading -/

/-- A blank between tokens. -/
def isBlank (character : Char) : Bool :=
  character = ' ' || character = '\n' || character = '\t' || character = '\r'

/-- Passes over blanks. -/
def skipBlanks : TextReader Unit := do
  let _ ← takeWhile isBlank

/-- The number of four hexadecimal digits. -/
def hexUnit : TextReader Nat := do
  let digits ← takeExactly 4
  StateT.lift (hexNumber? digits)

/-- The character of a unit, or of two units that write one together. -/
def unitCharacter : TextReader Char := do
  let unit ← hexUnit
  if 0xD800 ≤ unit ∧ unit < 0xDC00 then
    expect "\\u"
    let low ← hexUnit
    if 0xDC00 ≤ low ∧ low < 0xE000 then
      return Char.ofNat (0x10000 + (unit - 0xD800) * 0x400 + (low - 0xDC00))
    else
      failure
  else
    StateT.lift (characterOfCode? unit)

/-- Escapes beside the common ones. -/
def otherEscape : Char → TextReader Char
  | '/' => return '/'
  | 'u' => unitCharacter
  | _ => failure

/-- The rest of a string, after its opening quote. -/
def stringRest : Nat → List Char → TextReader String := quotedRest otherEscape (· < ' ')

/-- A character of a numeral. -/
def isNumeralCharacter (character : Char) : Bool :=
  character.isDigit || character = '-' || character = '+' || character = '.' || character = 'e'
    || character = 'E'

/-- A numeral. -/
def numeral : TextReader Document := do
  let text ← takeWhile isNumeralCharacter
  let found ← StateT.lift (Numeral.ofText? text)
  return found.document

mutual

/-- A value. Every value, item and field uses fuel, and each takes a character. -/
def value : Nat → TextReader Document
  | 0 => failure
  | fuel + 1 => do
    skipBlanks
    match ← peek with
    | 'n' => expect "null"; return .null
    | 't' => expect "true"; return .boolean true
    | 'f' => expect "false"; return .boolean false
    | '"' => expect "\""; return .text (← stringRest fuel [])
    | '[' =>
      expect "["
      skipBlanks
      if (← peek) = ']' then
        expect "]"
        return .list []
      else
        return .list (← items fuel [])
    | '\x7b' =>
      expect "\x7b"
      skipBlanks
      if (← peek) = '\x7d' then
        expect "\x7d"
        return .table []
      else
        return .table (← fields fuel [])
    | _ => numeral

/-- The items of a sequence up to its end. -/
def items : Nat → List Document → TextReader (List Document)
  | 0, _ => failure
  | fuel + 1, found => do
    let item ← value fuel
    skipBlanks
    match ← next with
    | ',' => items fuel (item :: found)
    | ']' => return (item :: found).reverse
    | _ => failure

/-- The fields of a table up to its end. -/
def fields : Nat → List (String × Document) → TextReader (List (String × Document))
  | 0, _ => failure
  | fuel + 1, found => do
    skipBlanks
    expect "\""
    let name ← stringRest fuel []
    skipBlanks
    expect ":"
    let item ← value fuel
    skipBlanks
    match ← next with
    | ',' => fields fuel ((name, item) :: found)
    | '\x7d' => return ((name, item) :: found).reverse
    | _ => failure

end

/-- The document a text is. -/
def read? (text : String) : Option Document := do
  let characters := text.toList
  let (document, rest) ← (value (2 * characters.length + 2)).run characters
  if rest.all isBlank then return document else none

/-! ### Writing -/

/-- A digit below 16 in hexadecimal. -/
def hexCharacter (digit : Nat) : Char := Nat.digitChar digit

/-- A character inside a string. -/
def escape (character : Char) : String :=
  match character with
  | '"' => "\\\""
  | '\\' => "\\\\"
  | '\n' => "\\n"
  | '\r' => "\\r"
  | '\t' => "\\t"
  | '\x08' => "\\b"
  | '\x0c' => "\\f"
  | character =>
    if character < ' ' then
      "\\u00" ++ String.ofList
        [hexCharacter (character.toNat / 16), hexCharacter (character.toNat % 16)]
    else
      String.singleton character

/-- A string with its quotes. -/
def quoted (text : String) : String :=
  "\"" ++ String.join (text.toList.map escape) ++ "\""

/-- A double in full: every double is a finite decimal. What is no number has no value. -/
def fraction (number : Double) : String :=
  if number.isFinite then
    let unit := 0x10000000000000
    let exponent := number.magnitude / unit
    let significand := number.magnitude % unit + (if exponent = 0 then 0 else unit)
    let shift := max exponent 1
    let sign := if number.bits.toNat < Double.signWeight then "" else "-"
    if 1075 ≤ shift then
      sign ++ toString (significand <<< (shift - 1075)) ++ ".0"
    else
      let places := 1075 - shift
      let scaled := significand * Nat.pow 5 places
      let digits := toString (scaled % Nat.pow 10 places)
      sign ++ toString (scaled / Nat.pow 10 places) ++ "."
        ++ String.ofList (List.replicate (places - digits.length) '0') ++ digits
  else
    "null"

/-- How a sequence or a table is laid out on lines. -/
structure Style where
  /-- What stands before an item or the end at a level. -/
  lineBreak : Nat → String
  /-- What stands between a name and its value. -/
  colon : String

/-- Everything on one line. -/
def Style.compact : Style := ⟨fun _ => "", ":"⟩

/-- An item a line, indented by two blanks a level. -/
def Style.pretty : Style :=
  ⟨fun level => "\n" ++ String.ofList (List.replicate (2 * level) ' '), ": "⟩

/-- Written items with what encloses them at a level. An empty sequence is not broken. -/
def enclose (style : Style) (level : Nat) (opening closing : String) (items : List String) :
    String :=
  if items.isEmpty then
    opening ++ closing
  else
    opening ++ ",".intercalate (items.map fun item => style.lineBreak (level + 1) ++ item)
      ++ style.lineBreak level ++ closing

mutual

/-- A document at a level. -/
def write (style : Style) (level : Nat) : Document → String
  | .null => "null"
  | .boolean value => if value then "true" else "false"
  | .integer value => toString value
  | .ordinal value => toString value
  | .fraction value => fraction value
  | .text value => quoted value
  | .character value => quoted (String.singleton value)
  | .list items => enclose style level "[" "]" (writeItems style (level + 1) items)
  | .table fields => enclose style level "\x7b" "\x7d" (writeFields style (level + 1) fields)

/-- The items of a sequence. -/
def writeItems (style : Style) (level : Nat) : List Document → List String
  | [] => []
  | item :: rest => write style level item :: writeItems style level rest

/-- The fields of a table. -/
def writeFields (style : Style) (level : Nat) : List (String × Document) → List String
  | [] => []
  | (name, value) :: rest =>
    (quoted name ++ style.colon ++ write style level value) :: writeFields style level rest

end

end Json

/-- A document on one line. -/
def Document.compact (document : Document) : String := Json.write .compact 0 document

/-- A document with one item a line. -/
def Document.pretty (document : Document) : String := Json.write .pretty 0 document

end EpochRollup
