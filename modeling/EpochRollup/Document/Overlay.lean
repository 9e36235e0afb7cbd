/-
This file lays one document over another. Where both are tables, the fields of the upper
one are laid over the fields of the lower one; elsewhere the upper one counts.
-/

import EpochRollup.Document

namespace EpochRollup

mutual

/-- A document with another laid over it. -/
def Document.overlay (lower : Document) : Document → Document
  | .table upper =>
    match lower with
    | .table fields => .table (overlayFields fields upper)
    | _ => .table upper
  | upper => upper

/-- Fields with others laid over them. -/
def overlayFields (lower : List (String × Document)) :
    List (String × Document) → List (String × Document)
  | [] => lower
  | (name, value) :: rest =>
    let laid :=
      match field? lower name with
      | some present => present.overlay value
      | none => value
    overlayFields (putField name laid lower) rest

end

end EpochRollup
