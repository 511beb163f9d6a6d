/-!
# Json — values of the interchange format

Objects keep their members as written, in order and with repeated names; what a repeated name means
is decided by whoever reads the object. A number is kept as its digits for the same reason. A text or
a name in which half of a surrogate pair stands alone is well written, but there is no such text; it
is kept as none, and matters only to those who read it.
-/

namespace ProjectCompiler

/-- A number as written: `-whole.fraction` times ten to `exponent`. -/
structure JsonNumber where
  negative : Bool
  whole : List Nat
  fraction : Option (List Nat)
  exponent : Option Int
  deriving DecidableEq, Repr, Inhabited

inductive Json
  | null
  | bool (b : Bool)
  | number (n : JsonNumber)
  | str (text : Option String)
  | array (items : List Json)
  | object (members : List (Option String × Json))
  deriving Repr, Inhabited

namespace Json

def text? : Json → Option String
  | .str text => text
  | _ => none

def items? : Json → Option (List Json)
  | .array items => some items
  | _ => none

def texts? (json : Json) : Option (List String) := do
  (← json.items?).mapM text?

/-- The members with their names, if all of them have one. -/
def named? (members : List (Option String × Json)) : Option (List (String × Json)) :=
  members.mapM fun member => member.1.map fun name => (name, member.2)

/-- The member of a name, none if there is none; fails if the name is repeated. -/
def member? (members : List (String × Json)) (name : String) : Option (Option Json) :=
  match members.filter fun member => member.1 = name with
  | [] => some none
  | [member] => some (some member.2)
  | _ => none

/-- The values of a record's fields in the given order. An object may leave fields out and hold
members of other names; an array holds the fields by position, all of them. -/
def fields? (names : List String) : Json → Option (List (Option Json))
  | .object members => do names.mapM (member? (← named? members))
  | .array items => if items.length = names.length then some (items.map some) else none
  | _ => none

end Json

end ProjectCompiler
