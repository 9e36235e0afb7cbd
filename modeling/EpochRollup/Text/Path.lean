/-
This file reads paths. A path is the names on the way to a place; two points go back to
the place before, and a single point, or nothing between two slashes, stays. A path that
begins with a slash starts from the root, any other from the working directory.
-/

import EpochRollup.Text.Blank

namespace EpochRollup

/-- A place among files, by the names on the way to it. The root is a name of its own. -/
abbrev Place := List String

namespace Place

/-- The names of a path. -/
def namesOfPath (path : String) : List String :=
  let names := (pieces '/' path.toList).map String.ofList
  let steps := names.filter fun name => name ≠ "" ∧ name ≠ "."
  if path.toList.head? = some '/' then "/" :: steps else steps

/-- The place that a name leads to. Nothing stands before the root, and what stands before the
working directory is known by points alone. -/
def enter (place : Place) (name : String) : Place :=
  if name ≠ ".." then
    place ++ [name]
  else
    match place.getLast? with
    | none | some ".." => place ++ [".."]
    | some "/" => place
    | some _ => place.dropLast

/-- The place of a path when every step back undoes the step before it. -/
def ofPath (path : String) : Place := (namesOfPath path).foldl enter []

/-- The path of a place. -/
def path : Place → String
  | [] => "."
  | "/" :: rest => "/" ++ "/".intercalate rest
  | names => "/".intercalate names

/-- How many bytes a name has at most. -/
def nameLimit : Nat := 255

/-- A name that files can have: not too long, and without a zero character. -/
def isUsable (name : String) : Bool :=
  name.utf8ByteSize ≤ nameLimit && !name.toList.contains '\x00'

/-- How many bytes the last name of a path has. -/
def lastNameLength (path : String) : Nat :=
  ((namesOfPath path).getLast?.map String.utf8ByteSize).getD 0

/-- The place is a directory wherever there are directories: the root, the working directory,
or a directory before it. -/
def isGiven (place : Place) : Bool := place.all fun name => name = "/" || name = ".."

/-- A path can lead to nothing but a directory: it ends with a slash or with a point that
stays. -/
def endsInDirectory (path : String) : Bool :=
  match path.toList.reverse with
  | '/' :: _ | '.' :: '/' :: _ => true
  | _ => false

end Place

end EpochRollup
