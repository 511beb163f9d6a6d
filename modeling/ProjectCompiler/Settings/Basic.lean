import ProjectCompiler.Entries
import ProjectCompiler.Number.Binary64

/-!
# Settings — build settings and their deep merge

Build settings map names to values. Values nest: lists hold values and tables hold settings of
their own. Names keep the order in which they were first written.

- `Settings.merged`: a layer over a base. Two tables merge entry by entry; any other value of the
  layer replaces what the base has. Names of the base keep their places, new ones follow.
- `Settings.equal`: equality of contents, whatever the order of names.
- `Settings.DistinctNames`: no name is written twice, at any depth.
-/

namespace ProjectCompiler

/-- A setting. Whole numbers have 64 bits. -/
inductive Value
  | bool (b : Bool)
  | int (n : Int64)
  | float (x : Binary64)
  | str (text : String)
  | list (items : List Value)
  | table (entries : List (String × Value))
  deriving Repr, Inhabited

namespace Value

/-- The text of a string value. -/
def text? : Value → Option String
  | .str text => some text
  | _ => none

/-! ## Decidable equality -/

mutual

def decEq : (a b : Value) → Decidable (a = b)
  | .bool a, .bool b => decidable_of_iff (a = b) (by simp)
  | .int a, .int b => decidable_of_iff (a = b) (by simp)
  | .float a, .float b => decidable_of_iff (a = b) (by simp)
  | .str a, .str b => decidable_of_iff (a = b) (by simp)
  | .list a, .list b =>
      have := decEqItems a b
      decidable_of_iff (a = b) (by simp)
  | .table a, .table b =>
      have := decEqEntries a b
      decidable_of_iff (a = b) (by simp)
  | .bool _, .int _ | .bool _, .float _ | .bool _, .str _ | .bool _, .list _ | .bool _, .table _
  | .int _, .bool _ | .int _, .float _ | .int _, .str _ | .int _, .list _ | .int _, .table _
  | .float _, .bool _ | .float _, .int _ | .float _, .str _ | .float _, .list _ | .float _, .table _
  | .str _, .bool _ | .str _, .int _ | .str _, .float _ | .str _, .list _ | .str _, .table _
  | .list _, .bool _ | .list _, .int _ | .list _, .float _ | .list _, .str _ | .list _, .table _
  | .table _, .bool _ | .table _, .int _ | .table _, .float _ | .table _, .str _
  | .table _, .list _ => isFalse (by simp)

def decEqItems : (a b : List Value) → Decidable (a = b)
  | [], [] => isTrue rfl
  | [], _ :: _ | _ :: _, [] => isFalse (by simp)
  | a :: as, b :: bs =>
      have := decEq a b
      have := decEqItems as bs
      decidable_of_iff (a = b ∧ as = bs) (by simp)

def decEqEntries : (a b : List (String × Value)) → Decidable (a = b)
  | [], [] => isTrue rfl
  | [], _ :: _ | _ :: _, [] => isFalse (by simp)
  | (name, a) :: as, (other, b) :: bs =>
      have := decEq a b
      have := decEqEntries as bs
      decidable_of_iff (name = other ∧ a = b ∧ as = bs) (by simp [and_assoc])

end

instance : DecidableEq Value := decEq

/-! ## Deep merge -/

mutual

/-- Lay `layer` on a base value. -/
def merge (base : Value) : (layer : Value) → Value
  | .table entries =>
      match base with
      | .table baseEntries => .table (mergeEntries baseEntries entries)
      | _ => .table entries
  | layer => layer

/-- Lay entries on base entries, one after another. -/
def mergeEntries (base : List (String × Value)) : (layer : List (String × Value)) →
    List (String × Value)
  | [] => base
  | (name, value) :: rest =>
      -- The base grows along the way, so a name that comes twice meets its own first value.
      mergeEntries
        (Entries.insert base name
          (match Entries.find? base name with
            | some old => merge old value
            | none => value))
        rest

end

/-! ## Equality of contents -/

mutual

/-- Equality of contents: numbers of different kinds differ, floating point numbers compare as
numbers, and the order of names is of no account. -/
def equal : Value → Value → Bool
  | .bool a, .bool b => a == b
  | .int a, .int b => a == b
  | .float a, .float b => a.equal b
  | .str a, .str b => a == b
  | .list a, .list b => equalItems a b
  -- Names are distinct, so as many entries on either side and none missing is enough.
  | .table a, .table b => a.length == b.length && equalEntries a b
  | _, _ => false

def equalItems : List Value → List Value → Bool
  | [], [] => true
  | a :: as, b :: bs => equal a b && equalItems as bs
  | _, _ => false

/-- Every entry on the left has an equal one of its name on the right. -/
def equalEntries : List (String × Value) → List (String × Value) → Bool
  | [], _ => true
  | (name, value) :: rest, others =>
      (match Entries.find? others name with
        | some other => equal value other
        | none => false) && equalEntries rest others

end

/-! ## Distinct names at every depth -/

mutual

def DistinctNames : Value → Prop
  | .list items => DistinctNamesItems items
  | .table entries => (Entries.keys entries).Nodup ∧ DistinctNamesEntries entries
  | _ => True

def DistinctNamesItems : List Value → Prop
  | [] => True
  | item :: rest => DistinctNames item ∧ DistinctNamesItems rest

def DistinctNamesEntries : List (String × Value) → Prop
  | [] => True
  | (_, value) :: rest => DistinctNames value ∧ DistinctNamesEntries rest

end

end Value

/-- Build settings in the order in which their names were first written. -/
structure Settings where
  entries : List (String × Value)
  deriving Repr, Inhabited, DecidableEq

namespace Settings

def empty : Settings :=
  ⟨[]⟩

def insert (settings : Settings) (name : String) (value : Value) : Settings :=
  ⟨Entries.insert settings.entries name value⟩

def get? (settings : Settings) (name : String) : Option Value :=
  Entries.find? settings.entries name

def size (settings : Settings) : Nat :=
  settings.entries.length

def ofPairs (pairs : List (String × Value)) : Settings :=
  ⟨Entries.ofPairs pairs⟩

/-- The settings of `base` with `layer` on top. -/
def merged (base layer : Settings) : Settings :=
  ⟨Value.mergeEntries base.entries layer.entries⟩

def equal (a b : Settings) : Bool :=
  Value.equal (.table a.entries) (.table b.entries)

def DistinctNames (settings : Settings) : Prop :=
  Value.DistinctNames (.table settings.entries)

end Settings

end ProjectCompiler
