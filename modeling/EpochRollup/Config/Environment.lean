/-
This file reads settings from environment variables. The name of a variable, after the
mark that it belongs to the engine, is the path of a field: section and field stand on
the two sides of two underscores. Its text is read as a truth value, a number, a
sequence or a table where it is one, and otherwise stands for itself.
-/

import EpochRollup.Document.Numeral
import EpochRollup.Document.Overlay
import EpochRollup.Text.Blank
import EpochRollup.Text.Reader

namespace EpochRollup

namespace Variable

open TextReader

/-! ### Names -/

/-- What the name of a variable of the engine begins with, in any case. -/
def mark : String := "VALDASH_"

/-- A name with a point for every two underscores. -/
def withPoints : List Char → List Char
  | '_' :: '_' :: rest => '.' :: withPoints rest
  | character :: rest => character :: withPoints rest
  | [] => []

/-- The path of the field that a variable of the engine names. No part of it is empty. -/
def path? (name : String) : Option (List String) :=
  let trimmed := trimBlank name.toList
  if (trimmed.take mark.length).map Char.toUpper = mark.toList then
    let parts := pieces '.' (trimBlank (withPoints (trimmed.drop mark.length)))
    if parts.any List.isEmpty then
      none
    else
      some (parts.map fun part => (String.ofList part).toLower)
  else
    none

/-! ### Values -/

/-- A blank between the parts of a value. -/
def isSpace (character : Char) : Bool :=
  character = ' ' || character = '\t' || character = '\n' || character = '\r' ||
    character = '\x0c'

/-- Passes over blanks. -/
def skipSpaces : TextReader Unit := do
  let _ ← takeWhile isSpace

/-- A character that ends a plain value. -/
def isSeparator (character : Char) : Bool :=
  character = ',' || character = '\x7b' || character = '\x7d' || character = '[' ||
    character = ']'

/-- A decimal number with a point, which needs a digit on one side of it. -/
def pointed? (text : List Char) : Option Document := do
  let (isNegative, unsigned) := Numeral.sign text
  let whole := unsigned.takeWhile Char.isDigit
  match unsigned.dropWhile Char.isDigit with
  | '.' :: rest =>
    let places := rest.takeWhile Char.isDigit
    let power ← Numeral.power? (rest.dropWhile Char.isDigit)
    if (whole ++ places).isEmpty then
      none
    else
      return .fraction (Numeral.double
        ⟨isNegative, numberOfDigits (whole ++ places), places.length, power.getD 0, false⟩)
  | _ => none

/-- An integer that is a word or a stored integer. Without a minus sign it can name a kind. -/
def whole? (text : List Char) : Option Document :=
  let (isNegative, digits) := Numeral.sign text
  if digits.isEmpty ∨ !digits.all Char.isDigit then
    none
  else if !isNegative then
    if numberOfDigits digits < wordLimit then some (.ordinal (numberOfDigits digits)) else none
  else if numberOfDigits digits ≤ storedLimit then
    some (.integer (-numberOfDigits digits))
  else
    none

/-- What a plain text stands for: a number, or itself. -/
def plain (text : List Char) : Document :=
  (pointed? text <|> whole? text).getD (.text (String.ofList text))

/-- A string. -/
def string : TextReader String := do
  expect "\""
  quotedRest codeEscape isControlCharacter ((← get).length + 1) []

/-- A character between single quotes. -/
def quotedCharacter : TextReader Char := do
  expect "'"
  let character ← next
  expect "'"
  return character

/-- The name of a field. -/
def fieldName : TextReader String := do
  if (← peek) = '"' then
    string
  else
    let name ← takeWhile fun character =>
      character.isAlphanum || character = '_' || character = '-'
    if name.isEmpty then failure else return String.ofList name

mutual

/-- A value. Every value, item and field takes fuel. -/
def value : Nat → TextReader Document
  | 0 => failure
  | fuel + 1 => do
    skipSpaces
    let found ←
      if ← accept "true" then
        pure (.boolean true)
      else if ← accept "false" then
        pure (.boolean false)
      else
        match (← get).head? with
        | some '\x7b' =>
          expect "\x7b"
          pure (.table (← fields fuel []))
        | some '[' =>
          expect "["
          pure (.list (← items fuel []))
        | some '"' => pure (.text (← string))
        | some '\'' => pure (.character (← quotedCharacter))
        | _ =>
          let text ← takeWhile fun character => !isSeparator character
          pure (plain (trimBlank text))
    skipSpaces
    return found

/-- The items of a sequence up to its end. A comma may stand after the last one. -/
def items : Nat → List Document → TextReader (List Document)
  | 0, _ => failure
  | fuel + 1, found => do
    if ← accept "]" then
      return found.reverse
    else
      let item ← value fuel
      if ← accept "," then
        items fuel (item :: found)
      else
        expect "]"
        return (item :: found).reverse

/-- The fields of a table up to its end. A comma may stand after the last one. -/
def fields : Nat → List (String × Document) → TextReader (List (String × Document))
  | 0, _ => failure
  | fuel + 1, found => do
    if ← accept "\x7d" then
      return found
    else
      skipSpaces
      let name ← fieldName
      skipSpaces
      expect "="
      let item ← value fuel
      let found := putField name item found
      if ← accept "," then
        fields fuel found
      else
        expect "\x7d"
        return found

end

/-- What the text of a variable stands for. A text that is no value stands for itself. -/
def document (text : String) : Document :=
  let characters := text.toList
  ((value (2 * characters.length + 2)).whole? characters).getD (.text text)

/-- A table that has one value at the end of a path. -/
def nested (value : Document) : List String → Document
  | [] => value
  | name :: path => .table [(name, nested value path)]

end Variable

/-- The table that variables write. They are laid over each other in the order of their
names. -/
def Document.ofEnvironment (environment : List (String × String)) : Document :=
  (environment.mergeSort fun left right => decide (left.1 ≤ right.1)).foldl
    (fun document pair =>
      match Variable.path? pair.1 with
      | some path => document.overlay (Variable.nested (Variable.document pair.2) path)
      | none => document)
    (.table [])

end EpochRollup
