/-
This file resolves the path of a URL. Two points go back over the part before them and a
single point stays; a point may be written in hexadecimal after a percent sign. The
letter of a drive is never gone back over.
-/

import EpochRollup.Text.Blank
import EpochRollup.Text.Url.Scheme

namespace EpochRollup

namespace UrlPath

/-- A part without percent signs before its points. -/
def withPlainPoints : List Char → List Char
  | '%' :: '2' :: 'e' :: rest | '%' :: '2' :: 'E' :: rest => '.' :: withPlainPoints rest
  | character :: rest => character :: withPlainPoints rest
  | [] => []

/-- The letter of a drive and the mark after it. -/
def isDrive : List Char → Bool
  | [letter, mark] => letter.isAlpha && (mark = ':' || mark = '|')
  | _ => false

/-- The parts after one is gone back over. The latest part comes first. -/
def goBack : List (List Char) → List (List Char)
  | [] => []
  | latest :: earlier => if isDrive latest then latest :: earlier else earlier

/-- The first part of the path of a file. The mark after the letter of a drive is a colon. -/
def firstOfFile (part : List Char) : List Char :=
  if isDrive part then part.take 1 ++ [':'] else part

/-- The parts of a path, resolved. The latest one before them comes first. A path that ends in
points ends in a slash. -/
def resolve (kind : SchemeKind) (before : List (List Char)) : List (List Char) → List (List Char)
  | [] => before.reverse
  | part :: rest =>
    let after :=
      match withPlainPoints part with
      | ['.', '.'] => goBack before
      | ['.'] => before
      | _ => (if kind = .file ∧ before = [] then firstOfFile part else part) :: before
    let isPoints := withPlainPoints part = ['.', '.'] || withPlainPoints part = ['.']
    resolve kind (if rest = [] ∧ isPoints then [] :: after else after) rest

/-- The resolved path that a text after the first slash writes. -/
def ofText (kind : SchemeKind) (text : List Char) : List Char :=
  let slashed := text.map fun character => if kind.isSlash character then '/' else character
  (resolve kind [] (pieces '/' slashed)).flatMap ('/' :: ·)

end UrlPath

end EpochRollup
