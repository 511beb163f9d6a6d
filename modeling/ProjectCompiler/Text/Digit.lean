/-!
# Digit — characters as digits

Digits are ASCII only. `Digit.toNat` is the number that a list of digits writes in some base.
-/

namespace ProjectCompiler

namespace Digit

def decimal? (c : Char) : Option Nat :=
  if '0' ≤ c ∧ c ≤ '9' then some (c.toNat - 48) else none

/-- Letters of either case stand for ten to fifteen. -/
def hexadecimal? (c : Char) : Option Nat :=
  if 'a' ≤ c ∧ c ≤ 'f' then some (c.toNat - 87)
  else if 'A' ≤ c ∧ c ≤ 'F' then some (c.toNat - 55)
  else decimal? c

/-- A digit of a base up to sixteen. -/
def inBase? (base : Nat) (c : Char) : Option Nat :=
  (hexadecimal? c).filter (· < base)

def isDecimal (c : Char) : Bool :=
  (decimal? c).isSome

/-- The number that digits write, the first one weighing most. -/
def toNat (base : Nat) (digits : List Nat) : Nat :=
  digits.foldl (fun n digit => base * n + digit) 0

end Digit

end ProjectCompiler
