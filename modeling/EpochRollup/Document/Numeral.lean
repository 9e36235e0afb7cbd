/-
This file reads decimal numerals: digits, perhaps a point with digits after it, and
perhaps a power of ten. A numeral without point and power is an integer as long as
it fits a word; minus zero is none, because integers have one zero.
-/

import EpochRollup.Document
import EpochRollup.Word

namespace EpochRollup

/-- A decimal numeral. -/
structure Numeral where
  /-- A minus sign stands before it. -/
  isNegative : Bool
  /-- All digits, before and after the point, as one number. -/
  digits : Nat
  /-- How many of the digits stand after the point. -/
  places : Nat
  /-- The power of ten. -/
  power : Int
  /-- It has neither point nor power. -/
  isWhole : Bool
deriving DecidableEq, Repr

/-- The number that some digits write. -/
def numberOfDigits (digits : List Char) : Nat :=
  digits.foldl (fun number digit => number * 10 + (digit.toNat - '0'.toNat)) 0

namespace Numeral

/-- The sign before a text, and the rest. -/
def sign : List Char → Bool × List Char
  | '-' :: rest => (true, rest)
  | '+' :: rest => (false, rest)
  | rest => (false, rest)

/-- The power of ten that ends a numeral, or none when there is something else. -/
def power? : List Char → Option (Option Int)
  | [] => some none
  | mark :: rest =>
    let (isNegative, digits) := sign rest
    if (mark = 'e' ∨ mark = 'E') ∧ digits ≠ [] ∧ digits.all Char.isDigit then
      some (some (if isNegative then -(numberOfDigits digits : Int) else numberOfDigits digits))
    else
      none

/-- The places after the point, when there is one, and the rest. -/
def places? : List Char → Option (List Char × List Char)
  | '.' :: rest =>
    if rest.takeWhile Char.isDigit = [] then
      none
    else
      some (rest.takeWhile Char.isDigit, rest.dropWhile Char.isDigit)
  | rest => some ([], rest)

/-- The numeral a text is. Only a lone zero may begin with a zero. -/
def ofText? (text : List Char) : Option Numeral := do
  let isNegative := text.head? = some '-'
  let unsigned := if isNegative then text.tail else text
  let whole := unsigned.takeWhile Char.isDigit
  if whole = [] ∨ (whole.length ≠ 1 ∧ whole.head? = some '0') then
    none
  else
    let (places, rest) ← places? (unsigned.dropWhile Char.isDigit)
    let power ← power? rest
    return ⟨isNegative, numberOfDigits (whole ++ places), places.length, power.getD 0,
      places.isEmpty && power.isNone⟩

/-- The integer a numeral writes, when it is a word or a stored integer. -/
def integer? (numeral : Numeral) : Option Int :=
  if !numeral.isWhole then none
  else if !numeral.isNegative then
    if numeral.digits < wordLimit then some numeral.digits else none
  else if 0 < numeral.digits ∧ numeral.digits ≤ storedLimit then
    some (-numeral.digits)
  else
    none

/-- The double nearest to a numeral. -/
def double (numeral : Numeral) : Double :=
  .ofDecimal numeral.isNegative numeral.digits (numeral.power - numeral.places)

/-- The document a numeral is. -/
def document (numeral : Numeral) : Document :=
  match numeral.integer? with
  | some value => .integer value
  | none => .fraction numeral.double

end Numeral

end EpochRollup
