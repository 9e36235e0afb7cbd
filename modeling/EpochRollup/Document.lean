/-
This file holds documents, the shape that settings and reports have as text. The
fields of a table stand in a list; where a name stands twice, the later field counts.
-/

import EpochRollup.Double

namespace EpochRollup

/-- A piece of structured text. -/
inductive Document where
  /-- No value. -/
  | null
  /-- A truth value. -/
  | boolean (value : Bool)
  /-- An integer. -/
  | integer (value : Int)
  /-- A natural number, which can also name one of several kinds by its place among them. -/
  | ordinal (value : Nat)
  /-- A number that is not written as an integer, or is too large for one. -/
  | fraction (value : Double)
  /-- A text. -/
  | text (value : String)
  /-- A single character, which is not everywhere as good as a text. -/
  | character (value : Char)
  /-- A sequence. -/
  | list (items : List Document)
  /-- Named fields. -/
  | table (fields : List (String × Document))
deriving Repr

/-- The value of a name among fields. -/
def field? (fields : List (String × Document)) (name : String) : Option Document :=
  (fields.reverse.find? (·.1 = name)).map (·.2)

/-- Named values with the value of a name replaced, or added at the end. -/
def putField {Value : Type} (name : String) (value : Value) :
    List (String × Value) → List (String × Value)
  | [] => [(name, value)]
  | (other, present) :: rest =>
    if other = name then (name, value) :: rest else (other, present) :: putField name value rest

end EpochRollup
