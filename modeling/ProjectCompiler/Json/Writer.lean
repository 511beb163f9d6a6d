import ProjectCompiler.Json.Basic

/-!
# Writer — JSON text on indented lines

Each item and member stands on a line of its own, indented by two spaces per level; an empty array
or object is written `[]` or `{}`. In a text only the quote, the backslash and control characters
are escaped.
-/

namespace ProjectCompiler

namespace Json

def hexDigit (n : Nat) : Char :=
  if n < 10 then Char.ofNat (48 + n) else Char.ofNat (87 + n)

/-- A character inside quotes. -/
def escape (c : Char) : List Char :=
  if c = '"' then ['\\', '"']
  else if c = '\\' then ['\\', '\\']
  else if c.toNat = 8 then ['\\', 'b']
  else if c.toNat = 9 then ['\\', 't']
  else if c.toNat = 10 then ['\\', 'n']
  else if c.toNat = 12 then ['\\', 'f']
  else if c.toNat = 13 then ['\\', 'r']
  else if c.toNat < 32 then
    ['\\', 'u', '0', '0', hexDigit (c.toNat / 16), hexDigit (c.toNat % 16)]
  else [c]

/-- A text in quotes; nothing stands between them where there is no text. -/
def quote (text : Option String) : List Char :=
  '"' :: (text.getD "").toList.flatMap escape ++ ['"']

def newline (level : Nat) : List Char :=
  '\n' :: List.replicate (2 * level) ' '

def digitsText (digits : List Nat) : List Char :=
  digits.map hexDigit

def JsonNumber.text (n : JsonNumber) : List Char :=
  (if n.negative then ['-'] else []) ++ digitsText n.whole ++
    (match n.fraction with
      | some digits => '.' :: digitsText digits
      | none => []) ++
    (match n.exponent with
      | some e => 'e' :: (toString e).toList
      | none => [])

mutual

/-- The text of a value whose first line is already indented to `level`. -/
def write (level : Nat) : Json → List Char
  | .null => "null".toList
  | .bool true => "true".toList
  | .bool false => "false".toList
  | .number n => JsonNumber.text n
  | .str text => quote text
  | .array [] => ['[', ']']
  | .array (item :: rest) =>
      '[' :: newline (level + 1) ++ write (level + 1) item ++ writeItems (level + 1) rest ++
        newline level ++ [']']
  | .object [] => ['{', '}']
  | .object ((name, value) :: rest) =>
      '{' :: newline (level + 1) ++ quote name ++ ':' :: ' ' :: write (level + 1) value ++
        writeMembers (level + 1) rest ++ newline level ++ ['}']

/-- Further items, each after a comma. -/
def writeItems (level : Nat) : List Json → List Char
  | [] => []
  | item :: rest => ',' :: newline level ++ write level item ++ writeItems level rest

/-- Further members, each after a comma. -/
def writeMembers (level : Nat) : List (Option String × Json) → List Char
  | [] => []
  | (name, value) :: rest =>
      ',' :: newline level ++ quote name ++ ':' :: ' ' :: write level value ++
        writeMembers level rest

end

/-- The text of a whole document. -/
def pretty (json : Json) : String :=
  String.ofList (write 0 json)

end Json

end ProjectCompiler
