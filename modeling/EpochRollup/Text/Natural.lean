/-
This file reads natural numbers below a limit and says why a text is none. Digits are
looked at from the left, and the first one that is wrong or too much decides.
-/

namespace EpochRollup

/-- Why a text is no natural number below a limit. -/
inductive NaturalFault where
  /-- There is nothing. -/
  | empty
  /-- A character is no digit. -/
  | invalidDigit
  /-- The number reaches the limit. -/
  | tooLarge
deriving DecidableEq, Repr

/-- The text of a fault. -/
def NaturalFault.message : NaturalFault → String
  | .empty => "cannot parse integer from empty string"
  | .invalidDigit => "invalid digit found in string"
  | .tooLarge => "number too large to fit in target type"

/-- A number that goes on with one more digit. -/
def appendDigit (limit number : Nat) (digit : Char) : Except NaturalFault Nat :=
  if !digit.isDigit then .error .invalidDigit
  else
    let longer := number * 10 + (digit.toNat - '0'.toNat)
    if longer < limit then .ok longer else .error .tooLarge

/-- The natural number below a limit that a text writes, perhaps after a plus sign. -/
def naturalOfText (limit : Nat) (text : String) : Except NaturalFault Nat :=
  match text.toList with
  | [] => .error .empty
  | '+' :: first :: rest => (first :: rest).foldlM (appendDigit limit) 0
  | digits => digits.foldlM (appendDigit limit) 0

end EpochRollup
