/-
This file says which texts are the address of a machine in a network: four numbers
between points, or eight groups of hexadecimal digits between colons. In the second form
two colons stand for one or more groups of zeros, and the first form may stand for the
last two groups.
-/

import EpochRollup.Document.Numeral
import EpochRollup.Text.Blank
import EpochRollup.Text.Reader

namespace EpochRollup

namespace Address

/-- A number of one byte, without zeros before it. -/
def isByte (digits : List Char) : Bool :=
  (digits = ['0'] || (digits ≠ [] && digits.head? ≠ some '0')) && digits.length ≤ 3 &&
    digits.all Char.isDigit && numberOfDigits digits < 256

/-- Four bytes between points. -/
def isFourBytes (text : List Char) : Bool :=
  let bytes := pieces '.' text
  bytes.length = 4 && bytes.all isByte

/-- A group of up to four hexadecimal digits. -/
def isGroup (digits : List Char) : Bool :=
  digits ≠ [] && digits.length ≤ 4 && digits.all fun digit => (hexDigit? digit).isSome

/-- How many groups there are, when all are. Four bytes at the end are two. -/
def groupCount? (mayEndInBytes : Bool) : List (List Char) → Option Nat
  | [] => some 0
  | [last] =>
    if isGroup last then some 1
    else if mayEndInBytes ∧ isFourBytes last then some 2
    else none
  | group :: rest =>
    if isGroup group then (groupCount? mayEndInBytes rest).map (· + 1) else none

/-- How many groups a text has between colons. -/
def groupsOfText? (mayEndInBytes : Bool) (text : List Char) : Option Nat :=
  if text = [] then some 0 else groupCount? mayEndInBytes (pieces ':' text)

/-- What stands before the first two colons in a row, and what stands after them when there
are any. -/
def cutAtGap : List Char → List Char × Option (List Char)
  | ':' :: ':' :: rest => ([], some rest)
  | character :: rest =>
    let (before, after) := cutAtGap rest
    (character :: before, after)
  | [] => ([], none)

/-- Eight groups between colons. -/
def isEightGroups (text : List Char) : Bool :=
  match cutAtGap text with
  | (groups, none) => groupsOfText? true groups = some 8
  | (before, some after) =>
    match groupsOfText? false before, groupsOfText? true after with
    | some left, some right => left + right ≤ 7
    | _, _ => false

/-- The address of a machine in either form. -/
def isAddress (text : List Char) : Bool := isFourBytes text || isEightGroups text

end Address

end EpochRollup
