/-
This file reads texts in which bytes may be written in hexadecimal after percent signs.
The bytes come first and the characters after: a character may be written as several
bytes, and bytes may be those of no character.
-/

import EpochRollup.Text.Reader
import EpochRollup.Text.Utf8

namespace EpochRollup

/-- The bytes of a character. -/
def characterBytes (character : Char) : List UInt8 :=
  (String.singleton character).toUTF8.toList

/-- The bytes of a text in which bytes may be written after percent signs. A percent sign that
no byte follows stands for itself. -/
def percentBytes : List Char → List UInt8
  | '%' :: high :: low :: rest =>
    match hexNumber? [high, low] with
    | some byte => UInt8.ofNat byte :: percentBytes rest
    | none => characterBytes '%' ++ percentBytes (high :: low :: rest)
  | character :: rest => characterBytes character ++ percentBytes rest
  | [] => []

/-- The text that another writes with bytes after percent signs. -/
def percentDecode (text : List Char) : Except Utf8Fault String := Utf8.decode (percentBytes text)

/-- The text that a part of a form writes: bytes after percent signs, and a plus sign for a
blank. Bytes that are no text are marked. -/
def formDecode (text : List Char) : String :=
  Utf8.repair (percentBytes (text.map fun character => if character = '+' then ' ' else character))

end EpochRollup
