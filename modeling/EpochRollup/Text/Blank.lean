/-
This file says which characters are blank, by the White_Space property of Unicode,
and trims blank ends and splits texts.
-/

namespace EpochRollup

/-- A blank character: one with the White_Space property. -/
def isBlank (character : Char) : Bool :=
  let code := character.toNat
  (0x09 ≤ code && code ≤ 0x0d) || code = 0x20 || code = 0x85 || code = 0xa0 || code = 0x1680 ||
    (0x2000 ≤ code && code ≤ 0x200a) || code = 0x2028 || code = 0x2029 || code = 0x202f ||
    code = 0x205f || code = 0x3000

/-- A text without the blanks at its two ends. -/
def trimBlank (text : List Char) : List Char :=
  ((text.dropWhile isBlank).reverse.dropWhile isBlank).reverse

/-- The pieces of a text between the separators: one more than there are separators. -/
def pieces (separator : Char) : List Char → List (List Char)
  | [] => [[]]
  | character :: rest =>
    match pieces separator rest with
    | [] => [[character]]
    | piece :: more =>
      if character = separator then [] :: piece :: more else (character :: piece) :: more

end EpochRollup
