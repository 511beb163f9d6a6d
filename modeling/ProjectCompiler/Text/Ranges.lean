/-!
# Ranges — classes of characters as ranges of numbers

A class is a list of closed ranges in ascending order; a character belongs to it if its number lies
in one of them.
-/

namespace ProjectCompiler

namespace Ranges

def contains (ranges : List (Nat × Nat)) (c : Char) : Bool :=
  ranges.any fun range => range.1 ≤ c.toNat ∧ c.toNat ≤ range.2

end Ranges

end ProjectCompiler
