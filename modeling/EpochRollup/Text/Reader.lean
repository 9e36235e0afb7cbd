/-
This file reads texts from the front. A reader takes what it wants from the text that
is left, or fails; where it fails nothing is taken, so another reader can be tried. What
stands between double quotes is read alike in every notation (`TextReader.quotedRest`).
-/

namespace EpochRollup

/-- A reader of what comes next in a text. -/
abbrev TextReader := StateT (List Char) Option

namespace TextReader

/-- The next character, which is not taken. -/
def peek : TextReader Char := do
  match ← get with
  | character :: _ => return character
  | [] => failure

/-- The next character, which is taken. -/
def next : TextReader Char := do
  let character ← peek
  modify (·.tail)
  return character

/-- Takes the given characters. -/
def expect (wanted : String) : TextReader Unit := do
  let text ← get
  if wanted.toList.isPrefixOf text then
    set (text.drop wanted.length)
  else
    failure

/-- Takes the given characters when they come next, and says whether they did. -/
def accept (wanted : String) : TextReader Bool := do
  let text ← get
  if wanted.toList.isPrefixOf text then
    set (text.drop wanted.length)
    return true
  else
    return false

/-- Takes characters as long as they are of a class. -/
def takeWhile (belongs : Char → Bool) : TextReader (List Char) := do
  let text ← get
  set (text.dropWhile belongs)
  return text.takeWhile belongs

/-- Takes the given number of characters. -/
def takeExactly (count : Nat) : TextReader (List Char) := do
  let text ← get
  if text.length < count then
    failure
  else
    set (text.drop count)
    return text.take count

/-- The result of a reader that takes the whole text. -/
def whole? {Result : Type} (reader : TextReader Result) (text : List Char) : Option Result :=
  match reader.run text with
  | some (result, []) => some result
  | _ => none

end TextReader

/-! ### Hexadecimal numbers -/

/-- The value of a hexadecimal digit. -/
def hexDigit? (digit : Char) : Option Nat :=
  if '0' ≤ digit ∧ digit ≤ '9' then some (digit.toNat - '0'.toNat)
  else if 'a' ≤ digit ∧ digit ≤ 'f' then some (digit.toNat - 'a'.toNat + 10)
  else if 'A' ≤ digit ∧ digit ≤ 'F' then some (digit.toNat - 'A'.toNat + 10)
  else none

/-- The number that hexadecimal digits write. -/
def hexNumber? (digits : List Char) : Option Nat :=
  digits.foldlM (fun number digit => return number * 16 + (← hexDigit? digit)) 0

/-- The character of a number, when it is one. -/
def characterOfCode? (code : Nat) : Option Char :=
  if code < 0xD800 ∨ (0xDFFF < code ∧ code < 0x110000) then some (Char.ofNat code) else none

/-! ### Quoted texts -/

namespace TextReader

/-- A control character other than a tab. -/
def isControlCharacter (character : Char) : Bool :=
  (character < ' ' && character ≠ '\t') || character = '\x7f'

/-- The character that a letter stands for after a backslash, in every notation. -/
def letterEscape? : Char → Option Char
  | '"' => some '"'
  | '\\' => some '\\'
  | 'b' => some '\x08'
  | 'f' => some '\x0c'
  | 'n' => some '\n'
  | 'r' => some '\r'
  | 't' => some '\t'
  | _ => none

/-- The character of some hexadecimal digits. -/
def codeCharacter (count : Nat) : TextReader Char := do
  let digits ← takeExactly count
  StateT.lift ((hexNumber? digits).bind characterOfCode?)

/-- Escapes by number: one letter announces four hexadecimal digits, the other eight. -/
def codeEscape : Char → TextReader Char
  | 'u' => codeCharacter 4
  | 'U' => codeCharacter 8
  | _ => failure

/-- The character of an escape, after its backslash. The notation says what the letters stand for
that do not stand for one character. -/
def escaped (other : Char → TextReader Char) : TextReader Char := do
  let letter ← next
  match letterEscape? letter with
  | some character => return character
  | none => other letter

/-- The rest of a quoted text, after its opening quote. The notation says which escapes there are
beside the common ones, and which characters may not stand for themselves. Each character takes
fuel. -/
def quotedRest (other : Char → TextReader Char) (isBarred : Char → Bool) :
    Nat → List Char → TextReader String
  | 0, _ => failure
  | fuel + 1, found => do
    match ← next with
    | '"' => return String.ofList found.reverse
    | '\\' => quotedRest other isBarred fuel ((← escaped other) :: found)
    | character =>
      if isBarred character then failure
      else quotedRest other isBarred fuel (character :: found)

end TextReader

end EpochRollup
