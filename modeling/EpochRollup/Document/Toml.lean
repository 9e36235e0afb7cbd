/-
This file reads documents in TOML 1.0. A text is a sequence of lines: each opens a
table, opens one more table of a sequence, sets a value by a key, or says nothing. A
moment of time has no counterpart among documents and is read as a table with one
field that no settings have.
-/

import EpochRollup.Calendar
import EpochRollup.Document.Numeral
import EpochRollup.Document.Tree
import EpochRollup.Text.Reader

namespace EpochRollup

namespace Toml

open TextReader

/-! ### Blanks, remarks and line ends -/

/-- A blank on a line. -/
def isBlank (character : Char) : Bool := character = ' ' || character = '\t'

/-- Passes over blanks. -/
def skipBlanks : TextReader Unit := do
  let _ ← takeWhile isBlank

/-- Passes over a remark, when there is one. -/
def skipRemark : TextReader Unit := do
  if ← accept "#" then
    let _ ← takeWhile fun character => !isControlCharacter character

/-- Takes a line end. -/
def lineEnd : TextReader Unit := expect "\n" <|> expect "\r\n"

/-- Takes the blanks, the remark and the end of a line. The last line needs no end. -/
def restOfLine : TextReader Unit := do
  skipBlanks
  skipRemark
  if (← get).isEmpty then return () else lineEnd

/-- Passes over blanks, remarks and line ends. Each line takes fuel. -/
def skipLines : Nat → TextReader Unit
  | 0 => return ()
  | fuel + 1 => do
    skipBlanks
    skipRemark
    let ended ← (lineEnd *> pure true) <|> pure false
    if ended then skipLines fuel else return ()

/-- Passes over blanks and line ends. Each line end takes fuel. -/
def skipBlankLines : Nat → TextReader Unit
  | 0 => return ()
  | fuel + 1 => do
    skipBlanks
    let ended ← (lineEnd *> pure true) <|> pure false
    if ended then skipBlankLines fuel else return ()

/-! ### Strings -/

/-- The rest of a string on one line in which nothing is escaped. -/
def literalRest : TextReader String := do
  let text ← takeWhile fun character => character ≠ '\'' && !isControlCharacter character
  expect "'"
  return String.ofList text

/-- Takes the three quotes that end a string, and up to two more that belong to it. -/
def closingQuotes (quote : Char) : TextReader (Option (List Char)) := do
  let quotes := (← get).takeWhile (· = quote)
  if quotes.length < 3 then
    return none
  else if quotes.length ≤ 5 then
    let _ ← takeExactly quotes.length
    return some (quotes.drop 3)
  else
    failure

/-- A line end inside a string. -/
def lineEndInside : TextReader Char := lineEnd *> pure '\n'

/-- A backslash at the end of a line: it is left out with all blanks and line ends after it. -/
def continuation : TextReader Unit := do
  skipBlanks
  lineEnd
  skipBlankLines (← get).length

/-- The rest of a string over several lines. Each character takes fuel. -/
def longRest (quote : Char) : Nat → List Char → TextReader String
  | 0, _ => failure
  | fuel + 1, found => do
    match ← closingQuotes quote with
    | some quotes => return String.ofList (found.reverse ++ quotes)
    | none =>
      if (← peek) = '\n' ∨ (← peek) = '\r' then
        longRest quote fuel ((← lineEndInside) :: found)
      else
        let character ← next
        if character = '\\' ∧ quote = '"' then
          let continued ← (continuation *> pure true) <|> pure false
          if continued then
            longRest quote fuel found
          else
            longRest quote fuel ((← escaped codeEscape) :: found)
        else if isControlCharacter character then
          failure
        else
          longRest quote fuel (character :: found)

/-- A string over several lines, after its opening quotes. A line end right after them is left
out. -/
def long (quote : Char) : TextReader String := do
  lineEnd <|> pure ()
  longRest quote ((← get).length + 1) []

/-- A string on one line. -/
def shortString : TextReader String := do
  if ← accept "\"" then
    quotedRest codeEscape isControlCharacter ((← get).length + 1) []
  else
    expect "'"
    literalRest

/-- A string. -/
def string : TextReader String := do
  if ← accept "\"\"\"" then long '"'
  else if ← accept "'''" then long '\''
  else shortString

/-! ### Keys -/

/-- A character of a bare key. -/
def isKeyCharacter (character : Char) : Bool :=
  character.isAlphanum || character = '_' || character = '-'

/-- A part of a key. -/
def keyPart : TextReader String := do
  let bare ← takeWhile isKeyCharacter
  if bare.isEmpty then shortString else return String.ofList bare

/-- The parts of a key after the first. Each takes fuel. -/
def keyRest : Nat → TextReader (List String)
  | 0 => return []
  | fuel + 1 => do
    skipBlanks
    if ← accept "." then
      skipBlanks
      let part ← keyPart
      return part :: (← keyRest fuel)
    else
      return []

/-- How deep nothing may go: fewer sequences and tables stand inside each other, and a key has
fewer parts. -/
def depthLimit : Nat := 80

/-- A key, whose parts are divided by points. -/
def key : TextReader (List String) := do
  let part ← keyPart
  let parts := part :: (← keyRest (← get).length)
  if parts.length < depthLimit then return parts else failure

/-! ### Numbers, truth values and moments -/

/-- The text without the underscores between its digits. -/
def withoutUnderscores? (isDigit : Char → Bool) : List Char → Option (List Char)
  | before :: '_' :: after :: rest =>
    if isDigit before ∧ isDigit after then
      (withoutUnderscores? isDigit (after :: rest)).map (before :: ·)
    else
      none
  | '_' :: _ => none
  | [_, '_'] => none
  | character :: rest => (withoutUnderscores? isDigit rest).map (character :: ·)
  | [] => some []

/-- The number of digits to a base, when it is a stored integer. -/
def basedInteger? (base : Nat) (text : List Char) : Option Document := do
  let isDigit := fun (character : Char) => (hexDigit? character).any (· < base)
  let digits ← withoutUnderscores? isDigit text
  if digits.isEmpty then
    none
  else
    let number ← digits.foldlM
      (fun number digit => do
        let value ← hexDigit? digit
        if value < base then return number * base + value else none) 0
    if number < storedLimit then some (.integer number) else none

/-- A decimal number with or without a sign. An integer has to be a stored one, and digits may
not be too many for a positive double. -/
def decimal? (text : List Char) : Option Document := do
  let unsigned := (Numeral.sign text).2
  let isNegative := text.head? = some '-'
  if unsigned = "inf".toList then
    return .fraction (.infinity isNegative)
  else if unsigned = "nan".toList then
    return .fraction (.undefined isNegative)
  else
    let numeral ← Numeral.ofText? (← withoutUnderscores? Char.isDigit unsigned)
    if unsigned.head? = some '-' then
      none
    else if numeral.isWhole then
      let value : Int := if isNegative then -numeral.digits else numeral.digits
      if IsStored value then some (.integer value) else none
    else
      let double := { numeral with isNegative }.double
      if double = .infinity false then none else return .fraction double

/-- A number of exactly two digits that is no larger than a bound. -/
def twoDigits (bound : Nat) : TextReader Nat := do
  let digits ← takeExactly 2
  if digits.all Char.isDigit ∧ numberOfDigits digits ≤ bound then
    return numberOfDigits digits
  else
    failure

/-- A date. -/
def date : TextReader Unit := do
  let year ← takeExactly 4
  expect "-"
  let month ← twoDigits 12
  expect "-"
  let day ← twoDigits 31
  let civil : CivilDate := ⟨numberOfDigits year, month, day⟩
  if year.all Char.isDigit ∧ (CalendarDay.ofCivil civil).civil = civil then
    return ()
  else
    failure

/-- A time of day. -/
def time : TextReader Unit := do
  let _ ← twoDigits 23
  expect ":"
  let _ ← twoDigits 59
  expect ":"
  let _ ← twoDigits 60
  if ← accept "." then
    let places ← takeWhile Char.isDigit
    if places.isEmpty then failure else return ()

/-- A distance from UTC. -/
def offset : TextReader Unit := do
  match ← next with
  | 'Z' | 'z' => return ()
  | '+' | '-' =>
    let _ ← twoDigits 23
    expect ":"
    let _ ← twoDigits 59
  | _ => failure

/-- A date, a time, or both with or without a distance from UTC. -/
def moment : TextReader Unit :=
  (do
    date
    let joined ← ((expect "T" <|> expect "t" <|> expect " ") *> pure true) <|> pure false
    if joined then
      time
      offset <|> pure ()) <|>
  time

/-- The value of a text that is neither string nor sequence nor table. -/
def scalar? (text : List Char) : Option Document :=
  match text with
  | ['t', 'r', 'u', 'e'] => some (.boolean true)
  | ['f', 'a', 'l', 's', 'e'] => some (.boolean false)
  | '0' :: 'x' :: digits => basedInteger? 16 digits
  | '0' :: 'o' :: digits => basedInteger? 8 digits
  | '0' :: 'b' :: digits => basedInteger? 2 digits
  | _ =>
    match moment.whole? text with
    | some _ => some (.table [("$__toml_private_datetime", .text (String.ofList text))])
    | none => decimal? text

/-- A value that is neither string nor sequence nor table. -/
def scalar : TextReader Document := do
  let text ← takeWhile fun character =>
    !(character = ',' || character = ']' || character = '\x7d' || character = '#' ||
      character = '\n' || character = '\r')
  StateT.lift (scalar? (text.reverse.dropWhile isBlank).reverse)

/-! ### Values -/

/-- Takes a bracket that opens a sequence or a table inside as many others as given. -/
def opening (depth : Nat) (bracket : String) : TextReader Unit := do
  expect bracket
  if depth + 1 < depthLimit then return () else failure

mutual

/-- A value inside as many sequences and tables as given. Every value, item and field takes
fuel. -/
def value : Nat → Nat → TextReader Document
  | 0, _ => failure
  | fuel + 1, depth => do
    match ← peek with
    | '"' | '\'' => return .text (← string)
    | '[' =>
      opening depth "["
      return .list (← items fuel (depth + 1) [])
    | '\x7b' =>
      opening depth "\x7b"
      skipBlanks
      if ← accept "\x7d" then
        return .table []
      else
        return .table (fieldsOfNodes (← fields fuel (depth + 1) []))
    | _ => scalar

/-- The items of a sequence up to its end. A comma may stand after the last one. -/
def items : Nat → Nat → List Document → TextReader (List Document)
  | 0, _, _ => failure
  | fuel + 1, depth, found => do
    skipLines (← get).length
    if ← accept "]" then
      return found.reverse
    else
      let item ← value fuel depth
      skipLines (← get).length
      if ← accept "," then
        items fuel depth (item :: found)
      else
        expect "]"
        return (item :: found).reverse

/-- The fields of a table on one line up to its end. -/
def fields : Nat → Nat → Nodes → TextReader Nodes
  | 0, _, _ => failure
  | fuel + 1, depth, found => do
    skipBlanks
    let path ← key
    skipBlanks
    expect "="
    skipBlanks
    let item ← value fuel depth
    let found ← StateT.lift (found.assign item true path)
    skipBlanks
    if ← accept "," then
      fields fuel depth found
    else
      expect "\x7d"
      return found

end

/-! ### Lines -/

/-- A document that is being read: its tables, and the path of the one that is open. -/
structure Progress where
  /-- The tables. -/
  root : Nodes
  /-- The path of the open table. -/
  path : List String

/-- A line that opens a table. -/
def header (progress : Progress) : TextReader Progress := do
  expect "["
  let isItem ← accept "["
  skipBlanks
  let path ← key
  skipBlanks
  expect (if isItem then "]]" else "]")
  let root ← StateT.lift
    (if isItem then progress.root.openItem path else progress.root.openTable path)
  return ⟨root, path⟩

/-- A line that sets a value. -/
def assignment (progress : Progress) : TextReader Progress := do
  let path ← key
  skipBlanks
  expect "="
  skipBlanks
  let document ← value (2 * (← get).length + 2) 0
  let root ← StateT.lift
    (progress.root.within progress.path fun nodes => nodes.assign document true path)
  return { progress with root }

/-- A line. -/
def line (progress : Progress) : TextReader Progress := do
  skipBlanks
  match (← get).head? with
  | none | some '#' | some '\n' | some '\r' => return progress
  | some '[' => header progress
  | some _ => assignment progress

/-- The lines up to the end of the text. Each takes fuel. -/
def lines : Nat → Progress → TextReader Progress
  | 0, _ => failure
  | fuel + 1, progress => do
    if (← get).isEmpty then
      return progress
    else
      let progress ← line progress
      restOfLine
      lines fuel progress

/-- A text without the mark of its byte order, which may stand before it. -/
def withoutMark : List Char → List Char
  | '\ufeff' :: rest => rest
  | text => text

/-- The document a text is. -/
def read? (text : String) : Option Document := do
  let characters := withoutMark text.toList
  let progress ← (lines (characters.length + 1) ⟨[], []⟩).whole? characters
  return .table (fieldsOfNodes progress.root)

end Toml

end EpochRollup
