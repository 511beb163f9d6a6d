import ProjectCompiler.Number.Shortest
import ProjectCompiler.Number.Width
import ProjectCompiler.Project.KindJson
import ProjectCompiler.Text.Escaped
import ProjectCompiler.Toml.Basic

/-!
# Fault — values that do not fit the manifest

A text can be well formed and still say something that no manifest says: a value of the wrong kind,
a missing field, a word outside a vocabulary, or a number beyond all bounds.
-/

namespace ProjectCompiler

/-- What may stand at a place. -/
inductive Expectation
  | text
  | sequence
  | map
  | record (name : String)
  | setting
  deriving DecidableEq, Repr

inductive SchemaFault
  | wrongKind (found : Toml) (expected : Expectation)
  | missingField (field : String)
  /-- A record written as a sequence of its fields breaks off too early. -/
  | brokenOff (length : Nat) (record : String) (size : Nat)
  | unknownTag (word : String) (expected : List String)
  /-- A word of a vocabulary is a string or a table. -/
  | noTag
  /-- A table stands for the word that is its only name. -/
  | tableWithoutTag
  | tableOfTags
  /-- Nothing can be said about such a word. -/
  | tagWithItems
  | tagWithEntries
  | tagWithContent (found : Toml)
  | integerOverflow
  | floatOverflow
  deriving Repr

namespace Expectation

def words : Expectation → String
  | text => "a string"
  | sequence => "a sequence"
  | map => "a map"
  | record name => s!"struct {name}"
  | setting => "any value"

end Expectation

namespace Toml

/-- The fault of a number that does not exist. -/
def overflow? : Toml → Option SchemaFault
  | .integer none => some .integerOverflow
  | .float none => some .floatOverflow
  | _ => none

/-- A whole number with a remark on its size if it does not fit 64 bits. -/
def integerWords (n : Int) : String :=
  if Width.fitsSigned 64 n ∨ Width.fitsUnsigned 64 n then s!"integer `{n}`"
  else if Width.fitsSigned 128 n then s!"integer `{n}` as i128"
  else s!"integer `{n}` as u128"

/-- The value as messages name it. -/
def words : Toml → String
  | .str text => "string " ++ Escaped.quoted text
  | .integer (some n) => integerWords n
  | .integer none => "integer"
  | .float (some x) => s!"floating point `{x.toPositional}`"
  | .float none => "floating point"
  | .bool b => s!"boolean `{b}`"
  | .array _ => "sequence"
  | .moment _ => "map"
  | .table _ => "map"

/-- The name of the value's kind. -/
def kindName : Toml → String
  | .str _ => "string"
  | .integer _ => "integer"
  | .float _ => "float"
  | .bool _ => "boolean"
  | .array _ => "array"
  | .moment _ => "datetime"
  | .table _ => "table"

end Toml

namespace SchemaFault

/-- The fault of finding a value where something else is expected. -/
def mismatch (found : Toml) (expected : Expectation) : SchemaFault :=
  found.overflow?.getD (.wrongKind found expected)

def sizeWords (size : Nat) : String :=
  if size = 1 then "1 element" else s!"{size} elements"

def message : SchemaFault → String
  | wrongKind found expected => s!"invalid type: {found.words}, expected {expected.words}"
  | missingField field => s!"missing field `{field}`"
  | brokenOff length record size =>
      s!"invalid length {length}, expected struct {record} with {sizeWords size}"
  | unknownTag word expected => TagFault.unknownTagMessage word expected
  | noTag => "wanted string or table"
  | tableWithoutTag => "wanted exactly 1 element, found 0 elements"
  | tableOfTags => "wanted exactly 1 element, more than 1 element"
  | tagWithItems => "expected empty array"
  | tagWithEntries => "expected empty table"
  | tagWithContent found => s!"expected table, found {found.kindName}"
  | integerOverflow => "integer number overflowed"
  | floatOverflow => "floating-point number overflowed"

end SchemaFault

end ProjectCompiler
