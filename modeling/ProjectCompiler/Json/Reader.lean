import ProjectCompiler.Json.Basic
import ProjectCompiler.Text.Digit

/-!
# Reader — JSON text to values

The reader follows the grammar of the format: blanks are space, tab, line feed and carriage return;
a text holds no bare control character; a number has no leading zero. Two escaped halves of a
surrogate pair are one character, and a text with half of a pair alone is kept as none. A document is
one value with blanks around it.

Each function takes what is left of the input and gives back a result with the rest. The recursion
on nested values is bounded by the length of the input.
-/

namespace ProjectCompiler

namespace Json

def isBlank (c : Char) : Bool :=
  c = ' ' ∨ c = '\t' ∨ c = '\n' ∨ c = '\r'

def skipBlanks (input : List Char) : List Char :=
  input.dropWhile isBlank

/-! ## Texts -/

/-- The number that four hexadecimal digits write. -/
def fourDigits : List Char → Option (Nat × List Char)
  | a :: b :: c :: d :: rest => do
      let a ← Digit.hexadecimal? a
      let b ← Digit.hexadecimal? b
      let c ← Digit.hexadecimal? c
      let d ← Digit.hexadecimal? d
      return (((a * 16 + b) * 16 + c) * 16 + d, rest)
  | _ => none

def isHighSurrogate (n : Nat) : Bool :=
  0xd800 ≤ n ∧ n < 0xdc00

def isLowSurrogate (n : Nat) : Bool :=
  0xdc00 ≤ n ∧ n < 0xe000

/-- The second half of a pair, if its escape comes next. -/
def lowHalf? : List Char → Option (Nat × List Char)
  | '\\' :: 'u' :: rest => (fourDigits rest).filter fun found => isLowSurrogate found.1
  | _ => none

/-- The character of a `\u` escape, which takes a second escape to complete a pair; none for half of a
pair alone. -/
def readUnicode (input : List Char) : Option (Option Char × List Char) := do
  let (unit, rest) ← fourDigits input
  if isHighSurrogate unit then
    -- What follows is read on its own if it is no second half.
    match lowHalf? rest with
    | some (low, rest) =>
        return (some (Char.ofNat (0x10000 + (unit - 0xd800) * 0x400 + (low - 0xdc00))), rest)
    | none => return (none, rest)
  else if isLowSurrogate unit then return (none, rest)
  else return (some (Char.ofNat unit), rest)

/-- The character of an escape, after the backslash. -/
def readEscape : List Char → Option (Option Char × List Char)
  | '"' :: rest => some ('"', rest)
  | '\\' :: rest => some ('\\', rest)
  | '/' :: rest => some ('/', rest)
  | 'b' :: rest => some (Char.ofNat 8, rest)
  | 'f' :: rest => some (Char.ofNat 12, rest)
  | 'n' :: rest => some ('\n', rest)
  | 'r' :: rest => some ('\r', rest)
  | 't' :: rest => some ('\t', rest)
  | 'u' :: rest => readUnicode rest
  | _ => none

/-- A text with one more character in front. -/
def extend (c : Option Char) (text : Option (List Char)) : Option (List Char) := do
  return (← c) :: (← text)

/-- The characters up to the closing quote, after the opening one. -/
def readCharacters : Nat → List Char → Option (Option (List Char) × List Char)
  | 0, _ => none
  | _ + 1, [] => none
  | fuel + 1, c :: rest =>
      if c = '"' then some (some [], rest)
      else if c = '\\' then do
        let (c, rest) ← readEscape rest
        let (text, rest) ← readCharacters fuel rest
        return (extend c text, rest)
      else if c.toNat < 32 then none
      else do
        let (text, rest) ← readCharacters fuel rest
        return (extend (some c) text, rest)

/-- A text up to its closing quote. -/
def readText (input : List Char) : Option (Option String × List Char) :=
  (readCharacters (input.length + 1) input).map fun found =>
    (found.1.map String.ofList, found.2)

/-! ## Numbers -/

/-- The digits at the start of the input. -/
def readDigits : List Char → List Nat × List Char
  | [] => ([], [])
  | c :: rest =>
      match Digit.decimal? c with
      | some digit =>
          let (digits, rest) := readDigits rest
          (digit :: digits, rest)
      | none => ([], c :: rest)

def readFraction : List Char → Option (Option (List Nat) × List Char)
  | '.' :: rest =>
      match readDigits rest with
      | ([], _) => none
      | (digits, rest) => some (some digits, rest)
  | rest => some (none, rest)

/-- The digits of an exponent, after its sign. -/
def readExponentDigits (negative : Bool) (input : List Char) : Option (Option Int × List Char) :=
  match readDigits input with
  | ([], _) => none
  | (digits, rest) =>
      some (some (if negative then -(Digit.toNat 10 digits : Int) else Digit.toNat 10 digits), rest)

def readExponent : List Char → Option (Option Int × List Char)
  | c :: rest =>
      if c = 'e' ∨ c = 'E' then
        match rest with
        | '+' :: rest => readExponentDigits false rest
        | '-' :: rest => readExponentDigits true rest
        | rest => readExponentDigits false rest
      else some (none, c :: rest)
  | [] => some (none, [])

/-- The digits before the point, of which only a lone zero may start with zero. -/
def readWhole (input : List Char) : Option (List Nat × List Char) :=
  match readDigits input with
  | ([], _) => none
  | (0 :: _ :: _, _) => none
  | found => some found

def readNumber (negative : Bool) (input : List Char) : Option (JsonNumber × List Char) := do
  let (whole, rest) ← readWhole input
  let (fraction, rest) ← readFraction rest
  let (exponent, rest) ← readExponent rest
  return ({ negative, whole, fraction, exponent }, rest)

/-! ## Values -/

/-- A value of the given text, if the input starts with it. -/
def readWord (word : String) (json : Json) (input : List Char) : Option (Json × List Char) :=
  if word.toList.isPrefixOf input then some (json, input.drop word.length) else none

mutual

def readValue : Nat → List Char → Option (Json × List Char)
  | 0, _ => none
  | fuel + 1, input =>
      match input with
      | '"' :: rest => do
          let (text, rest) ← readText rest
          return (.str text, rest)
      | '[' :: rest =>
          match skipBlanks rest with
          | ']' :: rest => some (.array [], rest)
          | rest => do
              let (items, rest) ← readItems fuel rest
              return (.array items, rest)
      | '{' :: rest =>
          match skipBlanks rest with
          | '}' :: rest => some (.object [], rest)
          | rest => do
              let (members, rest) ← readMembers fuel rest
              return (.object members, rest)
      | 'n' :: _ => readWord "null" .null input
      | 't' :: _ => readWord "true" (.bool true) input
      | 'f' :: _ => readWord "false" (.bool false) input
      | '-' :: rest => do
          let (n, rest) ← readNumber true rest
          return (.number n, rest)
      | _ => do
          let (n, rest) ← readNumber false input
          return (.number n, rest)

/-- The items of an array from the first one to the closing bracket. -/
def readItems : Nat → List Char → Option (List Json × List Char)
  | 0, _ => none
  | fuel + 1, input => do
      let (item, rest) ← readValue fuel input
      match skipBlanks rest with
      -- After a comma there is another item, so the array does not end in one.
      | ',' :: rest =>
          let (items, rest) ← readItems fuel (skipBlanks rest)
          return (item :: items, rest)
      | ']' :: rest => return ([item], rest)
      | _ => none

/-- The members of an object from the first name to the closing brace. -/
def readMembers : Nat → List Char → Option (List (Option String × Json) × List Char)
  | 0, _ => none
  | fuel + 1, input =>
      match input with
      | '"' :: rest => do
          let (name, rest) ← readText rest
          match skipBlanks rest with
          | ':' :: rest =>
              let (value, rest) ← readValue fuel (skipBlanks rest)
              match skipBlanks rest with
              | ',' :: rest =>
                  let (members, rest) ← readMembers fuel (skipBlanks rest)
                  return ((name, value) :: members, rest)
              | '}' :: rest => return ([(name, value)], rest)
              | _ => none
          | _ => none
      | _ => none

end

/-- The value of a whole document. -/
def parse? (text : String) : Option Json :=
  let input := skipBlanks text.toList
  match readValue (2 * input.length + 1) input with
  | some (json, rest) => if (skipBlanks rest).isEmpty then some json else none
  | none => none

end Json

end ProjectCompiler
