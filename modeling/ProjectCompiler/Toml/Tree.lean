import ProjectCompiler.Entries
import ProjectCompiler.Toml.Basic

/-!
# Tree — tables while a document is being read

A document writes its tables piece by piece: a header or a dotted name leads along a path, and the
tables on the way come into being. Whether a table may be continued depends on how it began, so the
tree keeps the origin of every table until the document is complete.

- `Node.descend`: change the table at the end of a path;
- `Node.insertEntry`: one entry with a plain or dotted name;
- `Node.toToml`: the finished value, entries in the order of their names.
-/

namespace ProjectCompiler

namespace Toml

/-- How a table came into being. -/
inductive Origin
  /-- By a header of its own, or as the whole document. -/
  | header
  /-- On the way of a header's path. -/
  | implied
  /-- On the way of a dotted name. -/
  | dotted
  deriving DecidableEq, Repr

inductive Node
  /-- A value that nothing can be added to. -/
  | leaf (value : Toml)
  | table (origin : Origin) (entries : List (String × Node))
  /-- An array of tables, each begun by a header. -/
  | tables (items : List Node)
  deriving Repr, Inhabited

/-- Names that lead to an entry. -/
structure KeyPath where
  parents : List String
  last : String
  deriving DecidableEq, Repr

namespace Node

/-- Change the table at the end of a path. Tables that are missing begin as `origin` says. A path
enters the last table of an array; it stops at a value, and a dotted name also at a table that has a
header. -/
def descend (origin : Origin) (change : Node → Option Node) : List String → Node → Option Node
  | [], node => change node
  | name :: rest, .table own entries => do
      match Entries.find? entries name with
      | none =>
          let child ← descend origin change rest (.table origin [])
          return .table own (Entries.insert entries name child)
      | some (.table .header children) =>
          -- What has a header is complete but for further headers.
          if origin = .dotted then none
          else
            let child ← descend origin change rest (.table .header children)
            return .table own (Entries.insert entries name child)
      | some (.table childOrigin children) =>
          let child ← descend origin change rest (.table childOrigin children)
          return .table own (Entries.insert entries name child)
      | some (.tables items) =>
          let child ← descend origin change rest (← items.getLast?)
          return .table own (Entries.insert entries name (.tables (items.dropLast ++ [child])))
      | some (.leaf _) => none
  | _ :: _, _ => none

/-- Add an entry to a table. The table that a dotted name leads to must have begun by a dotted name
itself, and the entry must be new there. -/
def insertEntry (path : KeyPath) (value : Toml) (table : Node) : Option Node :=
  descend .dotted add path.parents table
where
  add : Node → Option Node
    -- Without parents the entry goes to the table at hand, which has a header of its own.
    | .table origin entries =>
        if (origin = .dotted ↔ path.parents ≠ []) ∧ (Entries.find? entries path.last).isNone then
          some (.table origin (Entries.insert entries path.last (.leaf value)))
        else none
    | _ => none

/-- A table begun by a header, with entries added one after another. -/
def begun (entries : List (KeyPath × Toml)) (start : List (String × Node)) : Option Node :=
  entries.foldlM (fun node entry => node.insertEntry entry.1 entry.2) (.table .header start)

/-! ## Finished values -/

/-- Insert an entry before the first one with a larger name. -/
def insertSorted (name : String) (value : Toml) : List (String × Toml) → List (String × Toml)
  | [] => [(name, value)]
  | (first, old) :: rest =>
      if name < first then (name, value) :: (first, old) :: rest
      else (first, old) :: insertSorted name value rest

mutual

/-- The finished value. -/
def toToml : Node → Toml
  | .leaf value => value
  | .table _ entries => .table (sortedEntries entries)
  | .tables items => .array (toTomlItems items)

def toTomlItems : List Node → List Toml
  | [] => []
  | item :: rest => toToml item :: toTomlItems rest

def sortedEntries : List (String × Node) → List (String × Toml)
  | [] => []
  | (name, node) :: rest => insertSorted name (toToml node) (sortedEntries rest)

end

end Node

end Toml

end ProjectCompiler
