/-
This file builds a document from tables that are opened by their paths and from values
that are set by dotted keys. What a name stands for is settled by how it came up: a
table that was only passed on the way to another can still be opened, a table that
was opened cannot be opened again, and a table that dotted keys made can only be filled
by dotted keys. Nothing is set twice.
-/

import EpochRollup.Document

namespace EpochRollup

/-- How a table came up. -/
inductive TableOrigin where
  /-- It was passed on the way to another table. -/
  | passed
  /-- It was opened. -/
  | opened
  /-- A dotted key made it. -/
  | dotted
deriving DecidableEq, Repr

/-- What a name stands for while a document is built. -/
inductive Node where
  /-- A value, which nothing is added to. -/
  | value (document : Document)
  /-- A table. -/
  | table (origin : TableOrigin) (fields : List (String × Node))
  /-- A sequence of opened tables, the latest first. -/
  | tables (items : List (List (String × Node)))

/-- Named nodes. -/
abbrev Nodes := List (String × Node)

namespace Nodes

/-- The node of a name. -/
def find? (nodes : Nodes) (name : String) : Option Node :=
  (List.find? (·.1 = name) nodes).map (·.2)

/-- The nodes with the node of a name replaced, or added at the end. -/
def put (nodes : Nodes) (name : String) (node : Node) : Nodes := putField name node nodes

/-- Changes the table that a name leads to on the way to another. The latest table of a
sequence is meant. -/
def descend (name : String) (change : Nodes → Option Nodes) (nodes : Nodes) : Option Nodes :=
  match nodes.find? name with
  | none => do return nodes.put name (.table .passed (← change []))
  | some (.table origin fields) => do return nodes.put name (.table origin (← change fields))
  | some (.tables (latest :: earlier)) => do
    return nodes.put name (.tables ((← change latest) :: earlier))
  | some (.tables []) | some (.value _) => none

/-- Opens the table of a path. -/
def openTable : List String → Nodes → Option Nodes
  | [], _ => none
  | [name], nodes =>
    match nodes.find? name with
    | none => some (nodes.put name (.table .opened []))
    | some (.table .passed fields) => some (nodes.put name (.table .opened fields))
    | some _ => none
  | name :: path, nodes => descend name (openTable path) nodes

/-- Opens one more table in the sequence of a path. -/
def openItem : List String → Nodes → Option Nodes
  | [], _ => none
  | [name], nodes =>
    match nodes.find? name with
    | none => some (nodes.put name (.tables [[]]))
    | some (.tables items) => some (nodes.put name (.tables ([] :: items)))
    | some _ => none
  | name :: path, nodes => descend name (openItem path) nodes

/-- Changes the table of a path. -/
def within : List String → (Nodes → Option Nodes) → Nodes → Option Nodes
  | [], change, nodes => change nodes
  | name :: path, change, nodes => descend name (within path change) nodes

/-- Sets a value by a dotted key. The key may lead through tables that were only passed, but
it ends in a table that can be filled: the first one, or one that dotted keys made. -/
def assign (document : Document) : Bool → List String → Nodes → Option Nodes
  | _, [], _ => none
  | isFillable, [name], nodes =>
    match nodes.find? name with
    | none => if isFillable then some (nodes.put name (.value document)) else none
    | some _ => none
  | _, name :: path, nodes =>
    match nodes.find? name with
    | none => do return nodes.put name (.table .dotted (← assign document true path []))
    | some (.table .dotted fields) => do
      return nodes.put name (.table .dotted (← assign document true path fields))
    | some (.table .passed fields) => do
      return nodes.put name (.table .passed (← assign document false path fields))
    | some (.tables (latest :: earlier)) => do
      return nodes.put name (.tables ((← assign document false path latest) :: earlier))
    | some _ => none

end Nodes

mutual

/-- The document of a node. -/
def Node.document : Node → Document
  | .value document => document
  | .table _ fields => .table (fieldsOfNodes fields)
  | .tables items => .list (itemsOfNodes items).reverse

/-- The documents of named nodes. -/
def fieldsOfNodes : List (String × Node) → List (String × Document)
  | [] => []
  | (name, node) :: rest => (name, node.document) :: fieldsOfNodes rest

/-- The documents of a sequence of tables. -/
def itemsOfNodes : List (List (String × Node)) → List Document
  | [] => []
  | fields :: rest => .table (fieldsOfNodes fields) :: itemsOfNodes rest

end

end EpochRollup
