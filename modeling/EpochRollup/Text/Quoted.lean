/-
This file writes texts between quotes for a reader. A character that would not be seen is
written by its number.
-/

import EpochRollup.Text.Visible

namespace EpochRollup

/-- A character inside quotes. -/
def quotedCharacter (character : Char) : String :=
  match character with
  | '\x00' => "\\0"
  | '\t' => "\\t"
  | '\r' => "\\r"
  | '\n' => "\\n"
  | '\\' => "\\\\"
  | '"' => "\\\""
  | character =>
    if isHidden character then
      "\\u\x7b" ++ String.ofList (Nat.toDigits 16 character.toNat) ++ "\x7d"
    else
      String.singleton character

/-- A text between quotes. -/
def quotedText (text : String) : String :=
  "\"" ++ String.join (text.toList.map quotedCharacter) ++ "\""

end EpochRollup
