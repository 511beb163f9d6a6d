import ProjectCompiler.Number.Width
import ProjectCompiler.Toml.Quoted
import ProjectCompiler.Toml.Basic

/-!
# Word — values written as one word

Truth values, numbers and moments stand without quotes. A word is taken first, up to a character that
separates values, and then has to be a value as a whole:

- a decimal number has no leading zero, except in its exponent; both sides of a point have digits;
- `0x`, `0o` and `0b` start a whole number of another base, which has no sign;
- an underscore stands between two digits.

A word can have the shape of a whole number and still write none: a base without digits, or letters
that come after grouped digits. Such a word is a number without a value.
-/

namespace ProjectCompiler

namespace Toml

/-! ## Words -/

/-- Characters that end a piece of a word. -/
def separators : List Char :=
  ['.', '=', ',', '[', ']', '\x7b', '\x7d', ' ', '\t', '#', '\r', '\n']

def isWordCharacter (c : Char) : Bool :=
  c ∉ separators

/-- A piece of a word may hold quotes, but a quote at its start begins a text. -/
def isPieceStart (c : Char) : Bool :=
  isWordCharacter c ∧ c ≠ '"' ∧ c ≠ '\''

/-- The characters of a word and the rest behind it. Points stand between and around pieces, blanks
only in front of a piece. -/
def takeWord (inPiece : Bool) : List Char → List Char × List Char
  | [] => ([], [])
  | c :: rest =>
      if isBlank c then
        -- Blanks before a separator end the word.
        if (rest.dropWhile isBlank).head?.any isPieceStart then
          let (word, rest) := takeWord false rest
          (c :: word, rest)
        else ([], c :: rest)
      else if c = '.' then
        let (word, rest) := takeWord false rest
        (c :: word, rest)
      else if isPieceStart c ∨ (inPiece ∧ isWordCharacter c) then
        let (word, rest) := takeWord true rest
        (c :: word, rest)
      else ([], c :: rest)

/-! ## Digits -/

/-- The sign of a number, if it has one. -/
inductive Sign
  | absent
  | plus
  | minus
  deriving DecidableEq, Repr

def Sign.apply (sign : Sign) (n : Nat) : Int :=
  if sign = .minus then -n else n

/-- A whole number that fits 128 bits with or without a sign. -/
def ofInt (n : Int) : Toml :=
  .integer (if Width.fitsSigned 128 n ∨ Width.fitsUnsigned 128 n then some n else none)

/-- Digits with single underscores between them, at least one digit. -/
def groupedDigits (digit? : Char → Option Nat) : List Char → Option (List Nat)
  | [] => none
  | [c] => do return [← digit? c]
  | c :: '_' :: rest => do return (← digit? c) :: (← groupedDigits digit? rest)
  | c :: rest => do return (← digit? c) :: (← groupedDigits digit? rest)

/-! ## Floating point numbers -/

def isDigitOrUnderscore (c : Char) : Bool :=
  Digit.isDecimal c ∨ c = '_'

/-- The decimal digits at the start of the input and what follows them. -/
def readDecimals (input : List Char) : Option (List Nat × List Char) := do
  let digits ← groupedDigits Digit.decimal? (input.takeWhile isDigitOrUnderscore)
  return (digits, input.dropWhile isDigitOrUnderscore)

/-- The digits before the point, of which only a lone zero may start with zero. -/
def readWhole (input : List Char) : Option (List Nat × List Char) :=
  match readDecimals input with
  | some (0 :: _ :: _, _) => none
  | found => found

def readFraction : List Char → Option (List Nat × List Char)
  | '.' :: rest => readDecimals rest
  | rest => some ([], rest)

/-- The exponent at the end of a word. -/
def readExponent : List Char → Option Int
  | [] => some 0
  | c :: rest =>
      if c = 'e' ∨ c = 'E' then
        match rest with
        | '+' :: rest => digits rest
        | '-' :: rest => (digits rest).map (- ·)
        | rest => digits rest
      else none
where
  digits (input : List Char) : Option Int :=
    match readDecimals input with
    | some (digits, []) => some (Digit.toNat 10 digits)
    | _ => none

/-- The number nearest to a decimal literal, none beyond the range. -/
def inRange (x : Binary64) : Option Binary64 :=
  if x.isInfinite then none else some x

/-- A number with a point or an exponent, after its sign. -/
def ofFloatWord? (sign : Sign) (word : List Char) : Option Toml := do
  let (whole, rest) ← readWhole word
  let (fraction, rest) ← readFraction rest
  let exponent ← readExponent rest
  return .float (inRange (Binary64.ofDecimal (sign = .minus) (Digit.toNat 10 (whole ++ fraction))
    (exponent - fraction.length)))

/-! ## Whole numbers -/

def isHexadecimal (c : Char) : Bool :=
  (Digit.hexadecimal? c).isSome

/-- Every underscore stands between two digits, where the letters up to `f` count as digits too. The
flag tells whether such a digit stands before the input. -/
def underscoresFit : Bool → List Char → Bool
  | _, [] => true
  | before, c :: rest =>
      if c = '_' then before ∧ rest.head?.any isHexadecimal ∧ underscoresFit false rest
      else underscoresFit (isHexadecimal c) rest

/-- A whole number in groups, after its sign; it has no value if anything but digits is left without
the underscores. -/
def ofGroupedWord? (sign : Sign) (word : List Char) : Option Toml :=
  if word.head? = some '0' ∨ !underscoresFit false word then none
  else
    match (word.filter (· ≠ '_')).mapM Digit.decimal? with
    | some digits => some (ofInt (sign.apply (Digit.toNat 10 digits)))
    | none => some (.integer none)

/-- A whole number without underscores, after its sign. -/
def ofPlainWord? (sign : Sign) (word : List Char) : Option Toml :=
  match word.mapM Digit.decimal? with
  | none | some [] | some (0 :: _ :: _) => none
  | some digits => some (ofInt (sign.apply (Digit.toNat 10 digits)))

/-- The digits of a whole number after the mark of its base. -/
def ofBaseWord? (base : Nat) : List Char → Option Toml
  | [] => some (.integer none)
  | digits => do return ofInt (Digit.toNat base (← groupedDigits (Digit.inBase? base) digits))

/-! ## All words -/

/-- A number or a moment. What follows its first digits tells which: a moment goes on with `-` or `:`
and has no sign. -/
def ofNumberWord? (sign : Sign) (word : List Char) : Option Toml :=
  match word.dropWhile Digit.isDecimal with
  | [] => ofPlainWord? sign word
  | c :: rest =>
      -- A day has a dash behind its year, and a time of day a colon behind its hour.
      if c = '-' ∨ c = ':' then
        if sign = .absent then (Moment.ofWord? word).map .moment else none
      else if ' ' ∈ c :: rest then none
      else if (c :: rest).any (· ∈ ['.', 'e', 'E']) then ofFloatWord? sign word
      else if c = '_' then ofGroupedWord? sign word
      else none

/-- A value that may have a sign. -/
def ofSignedWord? (sign : Sign) (word : List Char) : Option Toml :=
  if word = "inf".toList then some (.float (some (Binary64.infinity (sign = .minus))))
  else if word = "nan".toList then some (.float (some Binary64.nan))
  else ofNumberWord? sign word

/-- The value of a word. -/
def ofWord? (word : List Char) : Option Toml :=
  match word with
  | '0' :: 'x' :: digits => ofBaseWord? 16 digits
  | '0' :: 'o' :: digits => ofBaseWord? 8 digits
  | '0' :: 'b' :: digits => ofBaseWord? 2 digits
  -- Behind a sign, a base is no longer looked for.
  | '+' :: rest => ofSignedWord? .plus rest
  | '-' :: rest => ofSignedWord? .minus rest
  | _ =>
      if word = "true".toList then some (.bool true)
      else if word = "false".toList then some (.bool false)
      else ofSignedWord? .absent word

end Toml

end ProjectCompiler
