import ProjectCompiler.Manifest.Fault
import ProjectCompiler.Settings.Basic

/-!
# Decode — typed values out of a document

Entries of a table are read in the order of their names, and the first fault decides. A field that
is missing is only noticed at the end of its table. Names that mean nothing are passed over, though
a number in them that does not exist is still a fault.

- `RecordShape.read`: a record from a table, or from an array with its fields in order;
- `Toml.toValue`: a setting. A whole number that fits no setting, but 64 bits without a sign, becomes
  a floating point number; a moment becomes a table with its text.
-/

namespace ProjectCompiler

abbrev Decoded := Except SchemaFault

namespace Toml

/-- The name of the only entry of a moment that is read as a table. -/
def momentName : String :=
  "$__toml_private_datetime"

/-- The entries of a table; a moment counts as a table with its text. -/
def entries? : Toml → Option (List (String × Toml))
  | .table entries => some entries
  | .moment m => some [(momentName, .str m.text)]
  | _ => none

def toText : Toml → Decoded String
  | .str text => .ok text
  | found => .error (.mismatch found .text)

def toList {α : Type} (decode : Toml → Decoded α) : Toml → Decoded (List α)
  | .array items => items.mapM decode
  | found => .error (.mismatch found .sequence)

def toTexts : Toml → Decoded (List String) :=
  toList toText

def toMap {α : Type} (decode : Toml → Decoded α) (found : Toml) : Decoded (List (String × α)) :=
  match found.entries? with
  | some entries => entries.mapM fun entry => do return (entry.1, ← decode entry.2)
  | none => .error (.mismatch found .map)

/-! ## Vocabularies -/

def ofWord {α : Type} [Tagged α] (word : String) : Decoded α :=
  match Tagged.ofTag? word with
  | some member => .ok member
  | none => .error (.unknownTag word (Tagged.tags α))

/-- A word in a table may have nothing but an empty array or table behind it. -/
def checkNothing : Toml → Decoded Unit
  | .array [] => .ok ()
  | .array _ => .error .tagWithItems
  | .table [] => .ok ()
  | .table _ => .error .tagWithEntries
  | found => .error (.tagWithContent found)

/-- A word of a vocabulary, written as a string or as the only name of a table. -/
def toTag {α : Type} [Tagged α] : Toml → Decoded α
  | .str word => ofWord word
  | .table [] => .error .tableWithoutTag
  | .table [(word, content)] => do
      let member ← ofWord word
      checkNothing content
      return member
  | .table _ => .error .tableOfTags
  | _ => .error .noTag

/-! ## Settings -/

mutual

def toValue : Toml → Decoded Value
  | .str text => .ok (.str text)
  | .bool b => .ok (.bool b)
  | .integer (some n) =>
      if Width.fitsSigned 64 n then .ok (.int (Int64.ofInt n))
      -- As a floating point number it may lose its last digits.
      else if Width.fitsUnsigned 64 n then .ok (.float (Binary64.ofNat n.toNat))
      else .error (.wrongKind (.integer (some n)) .setting)
  | .integer none => .error .integerOverflow
  | .float (some x) => .ok (.float x)
  | .float none => .error .floatOverflow
  | .moment m => .ok (.table [(momentName, .str m.text)])
  | .array items => do return .list (← toValues items)
  | .table entries => do return .table (← toEntries entries)

def toValues : List Toml → Decoded (List Value)
  | [] => .ok []
  | item :: rest => do
      let value ← toValue item
      return value :: (← toValues rest)

def toEntries : List (String × Toml) → Decoded (List (String × Value))
  | [] => .ok []
  | (name, item) :: rest => do
      let value ← toValue item
      return (name, value) :: (← toEntries rest)

end

def toSettings (found : Toml) : Decoded Settings :=
  match found.entries? with
  | some entries => do return ⟨← toEntries entries⟩
  | none => .error (.mismatch found .map)

/-! ## Values without a meaning -/

mutual

/-- Pass over a value. -/
def ignore : Toml → Decoded Unit
  | .array items => ignoreItems items
  | .table entries => ignoreEntries entries
  | found =>
      match found.overflow? with
      | some fault => .error fault
      | none => .ok ()

def ignoreItems : List Toml → Decoded Unit
  | [] => .ok ()
  | item :: rest => do
      ignore item
      ignoreItems rest

def ignoreEntries : List (String × Toml) → Decoded Unit
  | [] => .ok ()
  | (_, item) :: rest => do
      ignore item
      ignoreEntries rest

end

end Toml

/-! ## Records -/

/-- When a field may be left out. -/
inductive Presence
  /-- Never. -/
  | required
  /-- In a table. -/
  | optional
  /-- In a table, and at the end of an array. -/
  | defaulted
  deriving DecidableEq, Repr

structure RecordShape where
  /-- The name of the record in messages. -/
  name : String
  /-- Fields in order. -/
  fields : List (String × Presence)
  deriving Repr

namespace RecordShape

variable {α : Type}

/-- The first required field that a table does not have. -/
def missing? (shape : RecordShape) (entries : List (String × Toml)) : Option String :=
  (shape.fields.find? fun field =>
    field.2 = .required ∧ ¬entries.any fun entry => entry.1 = field.1).map Prod.fst

/-- The position of the first field, from some position on, that an array must have. -/
def missingPosition? (shape : RecordShape) (length : Nat) : Option Nat :=
  (List.range shape.fields.length).find? fun position =>
    length ≤ position ∧ (shape.fields[position]?).any fun field => field.2 ≠ .defaulted

/-- Read a record by setting one field after another. -/
def read (shape : RecordShape) (set : String → Toml → α → Decoded α) (start : α) (found : Toml) :
    Decoded α :=
  match found.entries?, found with
  | some entries, _ => do
      let record ← entries.foldlM (fun record entry => set entry.1 entry.2 record) start
      -- A fault in a field comes before a field that is missing.
      match shape.missing? entries with
      | some field => throw (.missingField field)
      | none => return record
  | none, .array items => do
      -- Items beyond the last field are passed over.
      let record ← (shape.fields.zip items).foldlM
        (fun record field => set field.1.1 field.2 record) start
      match shape.missingPosition? items.length with
      | some position => throw (.brokenOff position shape.name shape.fields.length)
      | none => return record
  | none, found => .error (.mismatch found (.record shape.name))

end RecordShape

end ProjectCompiler
