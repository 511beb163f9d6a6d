/-!
# Binary64 — floating point numbers as bit patterns

A setting can hold a 64-bit binary floating point number. It is kept as its bit pattern, so
that equality of settings is decidable and every step that makes one is arithmetic on natural
numbers:

- `Binary64.ofRatio`: the number nearest to a quotient, a tie going to the even neighbour;
- `Binary64.ofDecimal`: the number nearest to a decimal literal;
- `Binary64.equal`: comparison as numbers, where a NaN differs from itself and the two zeros agree.
-/

namespace ProjectCompiler

/-- The bit pattern of a 64-bit binary floating point number: sign, 11 bits of exponent, 52 bits of
fraction. -/
structure Binary64 where
  bits : UInt64
  deriving DecidableEq, Repr, Inhabited

namespace Binary64

/-! ## Parts of a number -/

/-- The weight of the sign among the bits. -/
def signBit : Nat :=
  Nat.pow 2 63

/-- The weight of the exponent among the bits: how many fractions there are. -/
def fractionSize : Nat :=
  Nat.pow 2 52

def isNegative (x : Binary64) : Bool :=
  signBit ≤ x.bits.toNat

/-- The number without its sign, as bits. -/
def magnitude (x : Binary64) : Nat :=
  x.bits.toNat % signBit

/-- The bits of infinity without a sign; only a NaN lies above. -/
def infinityBits : Nat :=
  0x7ff * fractionSize

def isNaN (x : Binary64) : Bool :=
  infinityBits < x.magnitude

def isInfinite (x : Binary64) : Bool :=
  x.magnitude = infinityBits

def exponentField (x : Binary64) : Nat :=
  x.magnitude / fractionSize

/-- A finite number is `significand * 2 ^ scale`, up to its sign. -/
def significand (x : Binary64) : Nat :=
  if x.exponentField = 0 then x.magnitude else fractionSize + x.magnitude % fractionSize

def scale (x : Binary64) : Int :=
  (max x.exponentField 1 : Nat) - 1075

/-- Numerator and denominator of a finite number without its sign. -/
def ratio (x : Binary64) : Nat × Nat :=
  (x.significand * Nat.pow 2 x.scale.toNat, Nat.pow 2 (-x.scale).toNat)

/-! ## Rounding -/

/-- The natural number nearest to `num / den`, a tie going to the even one. -/
def roundQuotient (num den : Nat) : Nat :=
  let quotient := num / den
  let twice := 2 * (num % den)
  if twice < den then quotient
  else if den < twice then quotient + 1
  else quotient + quotient % 2

/-- The exponent `e` for which `num / den` has 53 bits in units of `2 ^ e`, but at least that of the
smallest positive number. -/
def unitExponent (num den : Nat) : Int :=
  -- The logarithm of the quotient is the difference of the two, or one less.
  let guess : Int := (num.log2 : Int) - (den.log2 : Int)
  let reaches := den * Nat.pow 2 guess.toNat ≤ num * Nat.pow 2 (-guess).toNat
  max (if reaches then guess - 52 else guess - 53) (-1074)

/-- The bits of the magnitude nearest to `num / den`: the exponent counts units of 52 bits, so that a
significand rounded up to the next power of two carries into it. -/
def nearestBits (num den : Nat) : Nat :=
  if num = 0 then 0
  else
    let e := unitExponent num den
    let significand := roundQuotient (num * Nat.pow 2 (-e).toNat) (den * Nat.pow 2 e.toNat)
    min ((e + 1074).toNat * fractionSize + significand) infinityBits

/-- The number with the given sign and magnitude bits. -/
def ofMagnitude (negative : Bool) (magnitude : Nat) : Binary64 :=
  ⟨UInt64.ofNat (if negative then signBit + magnitude else magnitude)⟩

/-- The number nearest to `num / den`; beyond the largest finite number it is infinite. -/
def ofRatio (negative : Bool) (num den : Nat) : Binary64 :=
  ofMagnitude negative (nearestBits num den)

/-- The number nearest to `digits * 10 ^ exponent`. A literal whose order of magnitude lies far
outside the range is settled without computing the power. -/
def ofDecimal (negative : Bool) (digits : Nat) (exponent : Int) : Binary64 :=
  let order : Int := (Nat.toDigits 10 digits).length + exponent
  if digits = 0 ∨ order < -400 then ofMagnitude negative 0
  else if 400 < order then ofMagnitude negative infinityBits
  else ofRatio negative (digits * Nat.pow 10 exponent.toNat) (Nat.pow 10 (-exponent).toNat)

def ofNat (n : Nat) : Binary64 :=
  ofRatio false n 1

def infinity (negative : Bool) : Binary64 :=
  ofMagnitude negative infinityBits

def nan : Binary64 :=
  ⟨0x7ff8000000000000⟩

/-! ## Arithmetic on finite numbers -/

def neg (x : Binary64) : Binary64 :=
  ofMagnitude (!x.isNegative) x.magnitude

def mul (x y : Binary64) : Binary64 :=
  ofRatio (x.isNegative != y.isNegative) (x.ratio.1 * y.ratio.1) (x.ratio.2 * y.ratio.2)

/-- Division by a number other than zero. -/
def div (x y : Binary64) : Binary64 :=
  ofRatio (x.isNegative != y.isNegative) (x.ratio.1 * y.ratio.2) (x.ratio.2 * y.ratio.1)

/-! ## Comparison -/

/-- Equality as numbers: a NaN equals nothing, and the two zeros are equal. -/
def equal (x y : Binary64) : Bool :=
  !x.isNaN && !y.isNaN && (x.bits == y.bits || (x.magnitude == 0 && y.magnitude == 0))

end Binary64

end ProjectCompiler
