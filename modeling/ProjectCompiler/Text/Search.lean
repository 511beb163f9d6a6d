/-!
# Search — where a text occurs in another

Positions are counted in bytes. Occurrences are found from left to right and do not overlap: the
search goes on behind the end of each.
-/

namespace ProjectCompiler

/-- A stretch of a text, in bytes. -/
structure Span where
  offset : Nat
  length : Nat
  deriving DecidableEq, Repr

namespace Search

/-- Offsets of the occurrences, with `skip` characters to pass over before the next can begin. -/
def occurrencesFrom (pattern : List Char) (skip offset : Nat) : List Char → List Nat
  | [] => []
  | c :: rest =>
      match skip with
      | skip + 1 => occurrencesFrom pattern skip (offset + c.utf8Size) rest
      | 0 =>
          if pattern.isPrefixOf (c :: rest) then
            offset :: occurrencesFrom pattern (pattern.length - 1) (offset + c.utf8Size) rest
          else occurrencesFrom pattern 0 (offset + c.utf8Size) rest

/-- Offsets of a text that is not empty, in ascending order. -/
def occurrences (pattern text : String) : List Nat :=
  occurrencesFrom pattern.toList 0 0 text.toList

end Search

end ProjectCompiler
