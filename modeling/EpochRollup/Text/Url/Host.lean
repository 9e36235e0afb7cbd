/-
This file reads the host of a URL. In brackets it is an address of eight groups.
Otherwise a special scheme takes a name, in which capital letters and wide characters are
as good as small and narrow ones, and whose last part may make it an address of bytes;
any other scheme takes the host as it is written.
-/

import EpochRollup.Text.Address
import EpochRollup.Text.Percent
import EpochRollup.Text.Url.Scheme

namespace EpochRollup

namespace UrlHost

/-! ### Addresses of bytes -/

/-- The digits of a number and their base: hexadecimal after a zero and the letter x, octal
after any other zero, and decimal. -/
def digitsAndBase : List Char → List Char × Nat
  | '0' :: 'x' :: digits | '0' :: 'X' :: digits => (digits, 16)
  | '0' :: digit :: digits => (digit :: digits, 8)
  | digits => (digits, 10)

/-- The number of a part. No digits after a base are zero. -/
def number? (part : List Char) : Option Nat :=
  if part = [] then
    none
  else
    let (digits, base) := digitsAndBase part
    digits.foldlM
      (fun number digit => do
        let value ← hexDigit? digit
        if value < base then return number * base + value else none) 0

/-- The parts of a name between points. A point at the end does not count. -/
def parts (name : List Char) : List (List Char) :=
  let parts := pieces '.' name
  if parts.length ≠ 1 ∧ parts.getLast? = some [] then parts.dropLast else parts

/-- The last part of a name is a number. -/
def endsInNumber (name : List Char) : Bool :=
  match (parts name).getLast? with
  | some last => (last ≠ [] && last.all Char.isDigit) || (number? last).isSome
  | none => false

/-- A name that ends in a number is an address: the last number fills the bytes that the others
leave. -/
def isBytes (name : List Char) : Bool :=
  match (parts name).mapM number? with
  | some numbers =>
    numbers.length ≤ 4 && numbers.dropLast.all (· < 256) &&
      numbers.getLast?.any (· < Nat.pow 256 (5 - numbers.length))
  | none => false

/-! ### Names -/

/-- The character that counts for a character of a name, or none when it does not count. -/
def counted? (character : Char) : Option Char :=
  let code := character.toNat
  if code = 0xad ∨ code = 0x200b ∨ code = 0x2060 ∨ code = 0xfeff then none
  else if code = 0x3002 ∨ code = 0xff61 then some '.'
  else if 0xff01 ≤ code ∧ code ≤ 0xff5e then some (Char.ofNat (code - 0xfee0)).toLower
  else some character.toLower

/-- A character that cannot stand in a name. -/
def isForbidden (character : Char) : Bool :=
  character ≤ ' ' || "%#/:<>?@[\\]^|\x7f\ufffd".toList.contains character

/-- The host that a special scheme has. -/
def named (text : List Char) : Except UrlFault String :=
  match percentDecode text with
  | .error _ => .error .badHostName
  | .ok decoded =>
    let name := decoded.toList.filterMap counted?
    if name.any isForbidden then .error .badHostName
    else if name = [] then .error .emptyHost
    else if endsInNumber name ∧ !isBytes name then .error .badBytes
    else .ok (String.ofList name)

/-- A character that cannot stand in a host of any other scheme. -/
def isSeparator (character : Char) : Bool :=
  "\x00\t\n\r #/:<>?@[\\]^|".toList.contains character

/-- The host that a text is. -/
def ofText (kind : SchemeKind) (text : List Char) : Except UrlFault String :=
  match text with
  | '[' :: rest =>
    if rest.getLast? = some ']' ∧ Address.isEightGroups rest.dropLast then
      .ok (String.ofList text)
    else
      .error .badGroups
  | _ =>
    if kind.isSpecial then named text
    else if text.any isSeparator then .error .badHostCharacter
    else .ok (String.ofList text)

end UrlHost

end EpochRollup
