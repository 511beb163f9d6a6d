import ProjectCompiler.Toml.Quoted
import ProjectCompiler.Toml.Tree
import ProjectCompiler.Toml.Word

/-!
# Reader — names, values and blocks of a document

A document is a sequence of blocks: entries, one on a line, below a header. Arrays and inline tables
may run over several lines, hold comments and end in a comma; they nest at most 80 deep, and a path
has at most 80 names.

Each function takes what is left of the input and gives back a result with the rest. The recursion
on nested values is bounded by the length of the input.
-/

namespace ProjectCompiler

namespace Toml

/-! ## Blanks, line ends and comments -/

def skipBlanks (input : List Char) : List Char :=
  input.dropWhile isBlank

/-- Skip blanks, line ends and comments; none if a comment holds a control character or a carriage
return stands alone. -/
def skipGap (inComment : Bool) : List Char → Option (List Char)
  | [] => some []
  | c :: rest =>
      if c = '\n' then skipGap false rest
      -- A carriage return counts only as the first half of a line end.
      else if c = '\r' then if rest.head? = some '\n' then skipGap false rest else none
      else if inComment then if isControl c then none else skipGap true rest
      else if isBlank c then skipGap false rest
      else if c = '#' then skipGap true rest
      else some (c :: rest)

/-- Nothing but blanks and a comment may stand at the end of a line; go on at the next line that holds
anything. -/
def finishLine (input : List Char) : Option (List Char) :=
  match skipBlanks input with
  | [] => some []
  | c :: rest => if c = '\n' ∨ c = '\r' ∨ c = '#' then skipGap false (c :: rest) else none

/-! ## Names -/

def isBareCharacter (c : Char) : Bool :=
  c.isAlphanum ∨ c = '_' ∨ c = '-'

/-- One name, bare or quoted. -/
def readName (input : List Char) : Option (String × List Char) :=
  match input with
  | '"' :: _ => (readTextOnLine input).map fun found => (String.ofList found.1, found.2)
  | '\'' :: _ => (readTextOnLine input).map fun found => (String.ofList found.1, found.2)
  | _ =>
      match input.takeWhile isBareCharacter with
      | [] => none
      | name => some (String.ofList name, input.dropWhile isBareCharacter)

/-- Names with points between them, at most so many. -/
def readNames : Nat → List Char → Option (KeyPath × List Char)
  | 0, _ => none
  | count + 1, input => do
      let (name, rest) ← readName input
      match skipBlanks rest with
      | '.' :: rest =>
          let (path, rest) ← readNames count (skipBlanks rest)
          return ({ path with parents := name :: path.parents }, rest)
      | rest => return ({ parents := [], last := name }, rest)

/-- How many names a path may have. -/
def maximalLength : Nat :=
  80

/-- A path with the blanks behind it. -/
def readPath : List Char → Option (KeyPath × List Char) :=
  readNames maximalLength

/-- The rest of the input behind an equals sign. -/
def expectEquals : List Char → Option (List Char)
  | '=' :: rest => some rest
  | _ => none

/-! ## Values -/

/-- How deep arrays and inline tables may nest. -/
def maximalDepth : Nat :=
  80

def readWord (input : List Char) : Option (Toml × List Char) := do
  let (word, rest) := takeWord false input
  return (← ofWord? word, rest)

mutual

/-- A value, with so many levels of nesting left. -/
def readValue : Nat → Nat → List Char → Option (Toml × List Char)
  | 0, _, _ => none
  | fuel + 1, depth, input =>
      match input, depth with
      | '"' :: _, _ => (readText input).map fun found => (.str (String.ofList found.1), found.2)
      | '\'' :: _, _ => (readText input).map fun found => (.str (String.ofList found.1), found.2)
      | '[' :: _, 0 => none
      | '[' :: rest, depth + 1 => do
          let (items, rest) ← readItems fuel depth rest
          return (.array items, rest)
      | '{' :: _, 0 => none
      | '{' :: rest, depth + 1 => do
          let (begun, rest) ← readEntries fuel depth (.table .header []) rest
          return (begun.toToml, rest)
      | _, _ => readWord input

/-- The items of an array up to the closing bracket. -/
def readItems : Nat → Nat → List Char → Option (List Toml × List Char)
  | 0, _, _ => none
  | fuel + 1, depth, input => do
      match ← skipGap false input with
      -- The array is empty, or a comma stood after its last item.
      | ']' :: rest => return ([], rest)
      | input =>
          let (item, rest) ← readValue fuel depth input
          match ← skipGap false rest with
          | ',' :: rest =>
              let (items, rest) ← readItems fuel depth rest
              return (item :: items, rest)
          | ']' :: rest => return ([item], rest)
          | _ => none

/-- The entries of an inline table up to the closing brace, added to those before them. -/
def readEntries : Nat → Nat → Node → List Char → Option (Node × List Char)
  | 0, _, _, _ => none
  | fuel + 1, depth, begun, input => do
      match ← skipGap false input with
      | '}' :: rest => return (begun, rest)
      | input =>
          let (path, rest) ← readPath input
          let rest ← expectEquals (← skipGap false rest)
          let (value, rest) ← readValue fuel depth (← skipGap false rest)
          -- A name that is taken ends the table here, before the rest of it is read.
          let begun ← begun.insertEntry path value
          match ← skipGap false rest with
          | ',' :: rest => readEntries fuel depth begun rest
          | '}' :: rest => return (begun, rest)
          | _ => none

end

/-! ## Blocks -/

inductive Header
  /-- No header: the start of the document. -/
  | root
  /-- A table of its own. -/
  | table (path : KeyPath)
  /-- One more table of an array. -/
  | element (path : KeyPath)
  deriving DecidableEq, Repr

structure Block where
  header : Header
  entries : List (KeyPath × Toml)
  deriving Repr

/-- A path, an equals sign and a value, all on one line unless the value goes on. -/
def readEntry (input : List Char) : Option ((KeyPath × Toml) × List Char) := do
  let (path, rest) ← readPath input
  let rest ← expectEquals rest
  let (value, rest) ← readValue (2 * input.length + 2) maximalDepth (skipBlanks rest)
  return ((path, value), rest)

/-- Entries on lines of their own, up to a header or the end. -/
def readLines : Nat → List Char → Option (List (KeyPath × Toml) × List Char)
  | 0, _ => none
  | fuel + 1, input =>
      match input with
      | [] => some ([], [])
      -- No entry starts with a bracket, so a header begins here.
      | '[' :: _ => some ([], input)
      | _ => do
          let (entry, rest) ← readEntry input
          let (entries, rest) ← readLines fuel (← finishLine rest)
          return (entry :: entries, rest)

def readHeader (input : List Char) : Option (Header × List Char) :=
  match input with
  | '[' :: '[' :: rest => do
      match ← readPath (skipBlanks rest) with
      -- The two brackets stand together, as the opening ones do.
      | (path, ']' :: ']' :: rest) => return (.element path, rest)
      | _ => none
  | '[' :: rest => do
      match ← readPath (skipBlanks rest) with
      | (path, ']' :: rest) => return (.table path, rest)
      | _ => none
  | _ => none

/-- Blocks with headers, up to the end of the input. -/
def readBlocks : Nat → List Char → Option (List Block)
  | 0, _ => none
  | _ + 1, [] => some []
  | fuel + 1, input => do
      let (header, rest) ← readHeader input
      let (entries, rest) ← readLines (input.length + 1) (← finishLine rest)
      let blocks ← readBlocks fuel rest
      return { header, entries } :: blocks

/-- The mark that may stand before a text to tell its encoding. -/
def dropMark : List Char → List Char
  | '\uFEFF' :: rest => rest
  | input => input

/-- The blocks of a whole document. -/
def readDocument (text : String) : Option (List Block) := do
  let input ← skipGap false (dropMark text.toList)
  -- Entries before the first header belong to the document itself.
  let (entries, rest) ← readLines (input.length + 1) input
  let blocks ← readBlocks (rest.length + 1) rest
  return { header := .root, entries } :: blocks

end Toml

end ProjectCompiler
