import ProjectCompiler.Number.Binary64

/-!
# Shortest — the fewest digits that read back

The decimal text of a finite number uses the fewest digits that still read back as that number,
and of those the ones nearest to it. The search tries one digit, then two, up to seventeen; on the
grid of decimals with that many digits only the two neighbours of the number need a test.

- `Binary64.shortestDigits`: digits and exponent of that decimal;
- `Binary64.toPositional`: its text without an exponent, always with a point.
-/

namespace ProjectCompiler

namespace Binary64

/-- A decimal `digits * 10 ^ exponent`. -/
structure Decimal where
  digits : Nat
  exponent : Int
  deriving DecidableEq, Repr

/-- The numbers that read back as `x`, in units of a quarter of its last place: bounds, the number
itself, and whether the bounds belong to it. -/
structure ReadingInterval where
  low : Nat
  value : Nat
  high : Nat
  closed : Bool

/-- Below a power of two the spacing is halved, so the lower bound lies closer. -/
def readingInterval (x : Binary64) : ReadingInterval :=
  let m := x.significand
  { low := if m = fractionSize ∧ 1 < x.exponentField then 4 * m - 1 else 4 * m - 2
    value := 4 * m
    high := 4 * m + 2
    closed := m % 2 = 0 }

def ReadingInterval.contains (i : ReadingInterval) (candidate one : Nat) : Bool :=
  if i.closed then i.low * one ≤ candidate ∧ candidate ≤ i.high * one
  else i.low * one < candidate ∧ candidate < i.high * one

/-- The nearer of the two neighbours of `x` on the grid of multiples of `10 ^ exponent`, if one reads
back; of two equally near ones the upper. -/
def nearestOnGrid (x : Binary64) (exponent : Int) : Option Decimal :=
  let i := x.readingInterval
  -- Both a quarter of the last place and a step of the grid become whole numbers of one unit.
  let q := x.scale - 2
  let one := Nat.pow 2 q.toNat * Nat.pow 10 (-exponent).toNat
  let step := Nat.pow 10 exponent.toNat * Nat.pow 2 (-q).toNat
  let value := i.value * one
  let below := value / step
  let lower := i.contains (below * step) one
  let upper := i.contains ((below + 1) * step) one
  let nearer := 2 * (value % step) < step
  if lower ∧ (nearer ∨ ¬upper) then some ⟨below, exponent⟩
  else if upper then some ⟨below + 1, exponent⟩
  else none

/-- The exponent of the leading digit of a positive number. -/
def leadingExponent (x : Binary64) : Int :=
  let (num, den) := x.ratio
  if den ≤ num then ((Nat.toDigits 10 (num / den)).length : Int) - 1
  else
    -- Right for all numbers below one but the powers of ten, which are one digit higher.
    let guess : Int := -((Nat.toDigits 10 (den / num)).length : Int)
    if den ≤ num * Nat.pow 10 (-guess - 1).toNat then guess + 1 else guess

/-- A number just below a power of ten can round up to it, which leaves a single digit. -/
def Decimal.carried (d : Decimal) : Decimal :=
  if d.digits = 10 then ⟨1, d.exponent + 1⟩ else d

/-- The shortest decimal that reads back as the positive finite number `x`. -/
def shortestDigits (x : Binary64) : Decimal :=
  let lead := x.leadingExponent
  (((List.range 17).findSome? fun n : Nat => x.nearestOnGrid (lead - n)).getD ⟨0, 0⟩).carried

/-- Digits at their places, with at least one digit on each side of the point. -/
def Decimal.toPositional (d : Decimal) : String :=
  let text := (Nat.toDigits 10 d.digits)
  if 0 ≤ d.exponent then
    String.ofList (text ++ List.replicate d.exponent.toNat '0') ++ ".0"
  else
    let places := (-d.exponent).toNat
    let padded := List.replicate (places + 1 - text.length) '0' ++ text
    let whole := padded.length - places
    String.ofList (padded.take whole) ++ "." ++ String.ofList (padded.drop whole)

/-- The text of a number in messages. -/
def toPositional (x : Binary64) : String :=
  if x.isNaN then "NaN"
  else
    let sign := if x.isNegative then "-" else ""
    if x.isInfinite then sign ++ "inf"
    else if x.magnitude = 0 then sign ++ "0.0"
    else sign ++ x.shortestDigits.toPositional

end Binary64

end ProjectCompiler
