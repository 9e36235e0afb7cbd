/-
This file holds a tree of files: what can be asked of it, and a tree in memory that
answers. A file is a text; directories are there to hold files.
-/

import EpochRollup.Dialogue
import EpochRollup.Text.Path

namespace EpochRollup

/-- An operation on files. -/
inductive FileCall where
  /-- Read a file. -/
  | read (path : String)
  /-- Make a directory and the directories on the way to it. -/
  | makeDirectories (path : String)
  /-- Write a file, in place of what it held. -/
  | write (path : String) (text : String)
deriving DecidableEq, Repr

/-- What an operation on files comes back with: the text of a file, or none where there is no
file, or why the operation failed. -/
@[reducible] def FileCall.Reply : FileCall → Type
  | .read _ => Except String (Option String)
  | .makeDirectories _ | .write _ _ => Except String Unit

/-- A tree of files in memory. -/
structure FileTree where
  /-- The directories that were made. -/
  directories : List Place
  /-- The files and their texts. -/
  files : List (Place × String)
deriving DecidableEq, Repr

namespace FileTree

/-- A tree without files. -/
def empty : FileTree := ⟨[], []⟩

variable (tree : FileTree)

/-- A directory is at a place. -/
def isDirectory (place : Place) : Bool := place.isGiven || tree.directories.contains place

/-- The text of the file at a place. -/
def text? (place : Place) : Option String := (tree.files.find? (·.1 = place)).map (·.2)

/-- The place a path leads to. Every name but the last has to lead to a directory, and files have
to be able to have it. -/
def place? (path : String) : Option Place :=
  (Place.namesOfPath path).foldlM
    (fun place name =>
      if tree.isDirectory place && Place.isUsable name then some (place.enter name) else none)
    []

/-- The text of the file a path leads to. -/
def read (path : String) : Except String (Option String) :=
  match tree.place? path with
  | none => .ok none
  | some place =>
    if tree.isDirectory place then .error "Is a directory"
    else if Place.endsInDirectory path then .ok none
    else .ok (tree.text? place)

/-- A file or a directory is where a path leads. -/
def holds (path : String) : Bool :=
  match tree.read path with
  | .ok found => found.isSome
  | .error _ => true

/-- The tree with the directories that names lead through from a place. -/
def makeDirectories (tree : FileTree) (place : Place) : List String → Except String FileTree
  | [] => .ok tree
  | name :: rest =>
    let next := place.enter name
    if !Place.isUsable name then
      .error "Invalid file name"
    else if (tree.text? next).isSome then
      .error "Not a directory"
    else
      makeDirectories { tree with directories := next :: tree.directories } next rest

/-- The tree with a file at a place. -/
def put (place : Place) (text : String) : FileTree :=
  { tree with files := (place, text) :: tree.files.filter (·.1 ≠ place) }

/-- The tree with a file where a path leads. -/
def write (path text : String) : Except String FileTree :=
  match tree.place? path with
  | none => .error "No such file or directory"
  | some place =>
    if tree.isDirectory place then .error "Is a directory" else .ok (tree.put place text)

/-- The result of a change and the tree after it. A change that fails changes nothing. -/
def settle : Except String FileTree → Except String Unit × FileTree
  | .ok after => (.ok (), after)
  | .error reason => (.error reason, tree)

/-- The answer to an operation and the tree after it. -/
def answer : (call : FileCall) → FileTree → call.Reply × FileTree
  | .read path, tree => (tree.read path, tree)
  | .makeDirectories path, tree => tree.settle (tree.makeDirectories [] (Place.namesOfPath path))
  | .write path text, tree => tree.settle (tree.write path text)

/-- The paths of the files in and below the working directory, in order. -/
def paths : List String :=
  ((tree.files.filter fun file => !(file.1.take 1).all (fun name => name = "/" || name = "..")).map
    fun file => file.1.path).mergeSort fun left right => decide (left ≤ right)

end FileTree

end EpochRollup
