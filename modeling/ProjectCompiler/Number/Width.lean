/-!
# Width — whole numbers of so many bits

A number fits a width with or without a sign.
-/

namespace ProjectCompiler

namespace Width

/-- From `-2 ^ (bits - 1)` up to but not including `2 ^ (bits - 1)`. -/
def fitsSigned (bits : Nat) (n : Int) : Bool :=
  -(Nat.pow 2 (bits - 1) : Int) ≤ n ∧ n < (Nat.pow 2 (bits - 1) : Int)

/-- From zero up to but not including `2 ^ bits`. -/
def fitsUnsigned (bits : Nat) (n : Int) : Bool :=
  0 ≤ n ∧ n < (Nat.pow 2 bits : Int)

end Width

end ProjectCompiler
