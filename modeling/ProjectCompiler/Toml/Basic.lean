import ProjectCompiler.Number.Binary64
import ProjectCompiler.Toml.Moment

/-!
# Toml — values of the manifest format

Tables hold their entries in the order of their names. A number that does not exist has no value: a
whole number beyond 128 bits or with a letter among its grouped digits, a floating point number
beyond the range. Whether such a number may stand where it stands is decided by whoever reads it.
-/

namespace ProjectCompiler

inductive Toml
  | str (text : String)
  | integer (n : Option Int)
  | float (x : Option Binary64)
  | bool (b : Bool)
  | moment (moment : Moment)
  | array (items : List Toml)
  | table (entries : List (String × Toml))
  deriving Repr, Inhabited

end ProjectCompiler
