import ProjectCompiler.Json.Reader
import ProjectCompiler.Number.Width
import ProjectCompiler.Settings.Basic

/-!
# OfJson — settings from JSON

A JSON object reads as settings. A whole number that fits 64 bits stays whole and every other number
becomes a floating point number: its leading digits, as many as fit 64 bits without a sign, are
rounded once and then scaled by a power of ten. A number too large for that, a null, a text that does
not exist, or nesting deeper than 127 containers is refused.
-/

namespace ProjectCompiler

namespace JsonNumber

/-- Append digits to a number while it fits 64 bits without a sign; the digits left over follow. -/
def takeDigits : Nat → List Nat → Nat × List Nat
  | n, [] => (n, [])
  | n, digit :: rest =>
      if Width.fitsUnsigned 64 (10 * n + digit : Nat) then takeDigits (10 * n + digit) rest
      else (n, digit :: rest)

/-- A power of ten that a floating point number can hold. -/
def powerOfTen (exponent : Nat) : Binary64 :=
  Binary64.ofDecimal false 1 exponent

/-- A number times a power of ten, none beyond the range. Far below the range the division takes two
steps, and further down nothing is left. -/
def scaled (significand : Nat) (exponent : Int) : Option Binary64 :=
  let x := Binary64.ofNat significand
  if significand = 0 then some x
  else if 308 < exponent then none
  else if 0 ≤ exponent then
    let product := x.mul (powerOfTen exponent.toNat)
    if product.isInfinite then none else some product
  else if -308 ≤ exponent then some (x.div (powerOfTen (-exponent).toNat))
  else if -616 ≤ exponent then
    some ((x.div (powerOfTen 308)).div (powerOfTen (-exponent - 308).toNat))
  else some (Binary64.ofNat 0)

/-- The floating point number that a literal stands for. -/
def toBinary64? (n : JsonNumber) : Option Binary64 := do
  let (whole, dropped) := takeDigits 0 n.whole
  let fraction := n.fraction.getD []
  let (significand, left) := takeDigits whole fraction
  let places : Int := (fraction.length : Int) - left.length
  let x ← scaled significand ((dropped.length : Int) - places + n.exponent.getD 0)
  return if n.negative then x.neg else x

/-- A whole literal that fits 64 bits stays whole; a negative zero does not. -/
def toValue? (n : JsonNumber) : Option Value :=
  let whole := Digit.toNat 10 n.whole
  let signed : Int := if n.negative then -whole else whole
  let isWhole := n.fraction.isNone ∧ n.exponent.isNone ∧ ¬(n.negative ∧ whole = 0)
  if isWhole ∧ Width.fitsSigned 64 signed then
    some (.int (Int64.ofInt signed))
  else
    n.toBinary64?.map .float

end JsonNumber

namespace Value

mutual

/-- The setting that a JSON value stands for, with `depth` more containers allowed around it. -/
def ofJson? (depth : Nat) : Json → Option Value
  | .null => none
  | .bool b => some (.bool b)
  | .number n => n.toValue?
  | .str text => text.map .str
  | .array items =>
      match depth with
      | 0 => none
      | depth + 1 => (ofJsonItems depth items).map .list
  | .object members =>
      match depth with
      | 0 => none
      | depth + 1 => (ofJsonMembers depth members).map fun entries => .table (Entries.ofPairs entries)

def ofJsonItems (depth : Nat) : List Json → Option (List Value)
  | [] => some []
  | item :: rest => do
      let value ← ofJson? depth item
      let values ← ofJsonItems depth rest
      return value :: values

def ofJsonMembers (depth : Nat) : List (Option String × Json) → Option (List (String × Value))
  | [] => some []
  | (name, item) :: rest => do
      let name ← name
      let value ← ofJson? depth item
      let values ← ofJsonMembers depth rest
      return (name, value) :: values

end

end Value

namespace Settings

/-- How many containers may nest, the outermost one included. -/
def maximalDepth : Nat :=
  127

/-- The settings that the text of a JSON object stands for; a repeated name keeps its first place and
its last value. -/
def ofJsonText? (text : String) : Option Settings := do
  match ← Value.ofJson? maximalDepth (← Json.parse? text) with
  | .table entries => return ⟨entries⟩
  | _ => none

end Settings

end ProjectCompiler
