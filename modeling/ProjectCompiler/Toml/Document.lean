import ProjectCompiler.Toml.Reader

/-!
# Document — the table that a whole text writes

Blocks are put into place one after another. A table has one header at most, but tables on its path
may have been implied before; an array of tables grows by one table with each of its headers.
-/

namespace ProjectCompiler

namespace Toml

/-- Put a table of its own into place: it is new, or was only implied so far. -/
def placeTable (name : String) (entries : List (KeyPath × Toml)) : Node → Option Node
  | .table origin siblings => do
      match Entries.find? siblings name with
      | none => return .table origin (Entries.insert siblings name (← Node.begun entries []))
      | some (.table .implied children) =>
          return .table origin (Entries.insert siblings name (← Node.begun entries children))
      | some _ => none
  | _ => none

/-- Put one more table of an array into place. -/
def placeElement (name : String) (entries : List (KeyPath × Toml)) : Node → Option Node
  | .table origin siblings => do
      let element ← Node.begun entries []
      match Entries.find? siblings name with
      | none => return .table origin (Entries.insert siblings name (.tables [element]))
      | some (.tables items) =>
          return .table origin (Entries.insert siblings name (.tables (items ++ [element])))
      | some _ => none
  | _ => none

def place (root : Node) (block : Block) : Option Node :=
  match block.header with
  | .root => block.entries.foldlM (fun node entry => node.insertEntry entry.1 entry.2) root
  | .table path => root.descend .implied (placeTable path.last block.entries) path.parents
  | .element path => root.descend .implied (placeElement path.last block.entries) path.parents

/-- The entries of the table that a text writes, in the order of their names. -/
def parse? (text : String) : Option (List (String × Toml)) := do
  let blocks ← readDocument text
  match (← blocks.foldlM place (.table .header [])).toToml with
  | .table entries => return entries
  | _ => none

end Toml

end ProjectCompiler
