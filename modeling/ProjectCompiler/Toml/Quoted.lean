import ProjectCompiler.Text.Digit

/-!
# Quoted — texts of the manifest format

A text stands in double quotes, with escapes, or in single quotes, as it is. Three quotes start a
text over several lines: a line end right after them is dropped, and up to two quotes may stand
before the closing three. No text holds a control character other than the tab, and only a text over
several lines holds line ends.

Each function takes what is left of the input and gives back a result with the rest.
-/

namespace ProjectCompiler

namespace Toml

def isBlank (c : Char) : Bool :=
  c = ' ' ∨ c = '\t'

/-- Control characters, none of which may stand in a text or a comment; the tab is none of them. -/
def isControl (c : Char) : Bool :=
  (c.toNat < 32 ∧ c ≠ '\t') ∨ c.toNat = 127

/-! ## Escapes -/

/-- The number that exactly so many hexadecimal digits write. -/
def readHexadecimal : Nat → Nat → List Char → Option (Nat × List Char)
  | n, 0, rest => some (n, rest)
  | _, _ + 1, [] => none
  | n, count + 1, c :: rest => do
      let digit ← Digit.hexadecimal? c
      readHexadecimal (16 * n + digit) count rest

/-- The character of a number, none for a surrogate or beyond the last one. -/
def character? (n : Nat) : Option Char :=
  if n < 0xd800 ∨ (0xdfff < n ∧ n < 0x110000) then some (Char.ofNat n) else none

def readCharacter (digits : Nat) (input : List Char) : Option (Char × List Char) := do
  let (n, rest) ← readHexadecimal 0 digits input
  return (← character? n, rest)

/-- The character of an escape, after the backslash. -/
def readEscape : List Char → Option (Char × List Char)
  | '"' :: rest => some ('"', rest)
  | '\\' :: rest => some ('\\', rest)
  | 'b' :: rest => some (Char.ofNat 8, rest)
  | 't' :: rest => some ('\t', rest)
  | 'n' :: rest => some ('\n', rest)
  | 'f' :: rest => some (Char.ofNat 12, rest)
  | 'r' :: rest => some ('\r', rest)
  | 'e' :: rest => some (Char.ofNat 27, rest)
  | 'x' :: rest => readCharacter 2 rest
  | 'u' :: rest => readCharacter 4 rest
  | 'U' :: rest => readCharacter 8 rest
  | _ => none

/-! ## Texts on one line -/

/-- The characters up to the closing double quote. -/
def readEscaped : Nat → List Char → Option (List Char × List Char)
  | 0, _ => none
  | _ + 1, [] => none
  | fuel + 1, c :: rest =>
      if c = '"' then some ([], rest)
      else if c = '\\' then do
        let (c, rest) ← readEscape rest
        let (text, rest) ← readEscaped fuel rest
        return (c :: text, rest)
      else if isControl c then none
      else do
        let (text, rest) ← readEscaped fuel rest
        return (c :: text, rest)

/-- The characters up to the closing single quote. -/
def readLiteral : List Char → Option (List Char × List Char)
  | [] => none
  | c :: rest =>
      if c = '\'' then some ([], rest)
      else if isControl c then none
      else do
        let (text, rest) ← readLiteral rest
        return (c :: text, rest)

/-! ## Texts over several lines -/

/-- The rest of the input behind a line end, if it starts with one. -/
def lineEnd? : List Char → Option (List Char)
  | '\n' :: rest => some rest
  | '\r' :: '\n' :: rest => some rest
  | _ => none

/-- The line end after the opening quotes is no part of the text. -/
def dropLineEnd (input : List Char) : List Char :=
  (lineEnd? input).getD input

/-- The rest behind the closing quotes, with the quotes of the text right before them. -/
def closing? (quote : Char) : List Char → Option (List Char × List Char)
  | a :: b :: c :: rest =>
      if a = quote ∧ b = quote ∧ c = quote then
        -- Of up to five quotes in a row, the last three close the text.
        let extra := ((rest.take 2).takeWhile (· = quote)).length
        some (List.replicate extra quote, rest.drop extra)
      else none
  | _ => none

/-- Skip blanks and line ends; a carriage return alone is neither. -/
def skipLines : List Char → List Char
  | [] => []
  | '\r' :: '\n' :: rest => skipLines rest
  | c :: rest => if isBlank c ∨ c = '\n' then skipLines rest else c :: rest

/-- A backslash at the end of a line joins it with the next text, whatever blanks and line ends
stand between them. -/
def joinedLine? (input : List Char) : Option (List Char) :=
  (lineEnd? (input.dropWhile isBlank)).map skipLines

/-- The characters up to the closing three double quotes. -/
def readEscapedLines : Nat → List Char → Option (List Char × List Char)
  | 0, _ => none
  | _ + 1, [] => none
  | fuel + 1, c :: rest =>
      match closing? '"' (c :: rest) with
      | some found => some found
      | none =>
          if c = '\\' then
            -- Before an escape is read, the backslash may join two lines.
            match joinedLine? rest with
            | some rest => readEscapedLines fuel rest
            | none => do
                let (c, rest) ← readEscape rest
                let (text, rest) ← readEscapedLines fuel rest
                return (c :: text, rest)
          else if isControl c ∧ (lineEnd? (c :: rest)).isNone then none
          else do
            let (text, rest) ← readEscapedLines fuel rest
            return (c :: text, rest)

/-- The characters up to the closing three single quotes. -/
def readLiteralLines : List Char → Option (List Char × List Char)
  | [] => none
  | c :: rest =>
      match closing? '\'' (c :: rest) with
      | some found => some found
      | none =>
          if isControl c ∧ (lineEnd? (c :: rest)).isNone then none
          else do
            let (text, rest) ← readLiteralLines rest
            return (c :: text, rest)

/-! ## Texts of any form -/

/-- A text on one line, of either kind. -/
def readTextOnLine : List Char → Option (List Char × List Char)
  | '"' :: rest => readEscaped (rest.length + 1) rest
  | '\'' :: rest => readLiteral rest
  | _ => none

def readText : List Char → Option (List Char × List Char)
  | '"' :: '"' :: '"' :: rest => readEscapedLines (rest.length + 1) (dropLineEnd rest)
  | '\'' :: '\'' :: '\'' :: rest => readLiteralLines (dropLineEnd rest)
  | input => readTextOnLine input

end Toml

end ProjectCompiler
