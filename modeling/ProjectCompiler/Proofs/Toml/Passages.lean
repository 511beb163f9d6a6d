import ProjectCompiler.Proofs.Toml.Rest

/-!
# Passages — where the lines of a document stand

A document is read into blocks, and where an entry was read from is forgotten. Here it is kept: a line is an
entry with all that was left of the input where the entry begins. As what is left only gets shorter, lines
stand behind each other.

- `Toml.Passage`: a block with its lines;
- `Toml.passages?`: the passages of a document, and `Toml.readDocument_eq`: its blocks are theirs;
- `Toml.Scanned`: lines that were read one behind another;
- `Toml.scanned_passages`: those of a document.
-/

namespace ProjectCompiler

namespace Toml

/-! ## Lines -/

/-- An entry, and what is left of the input where it begins. -/
structure Line where
  entry : KeyPath × Toml
  input : List Char
  deriving Repr

/-- A header with the lines below it. -/
structure Passage where
  header : Header
  lines : List Line
  deriving Repr

def Passage.block (passage : Passage) : Block :=
  { header := passage.header, entries := passage.lines.map Line.entry }

/-- Lines up to a header or the end. -/
def readPlacedLines : Nat → List Char → Option (List Line × List Char)
  | 0, _ => none
  | fuel + 1, input =>
      match input with
      | [] => some ([], [])
      | '[' :: _ => some ([], input)
      | _ => do
          let (entry, rest) ← readEntry input
          let (lines, rest) ← readPlacedLines fuel (← finishLine rest)
          return ({ entry, input } :: lines, rest)

def readPassages : Nat → List Char → Option (List Passage)
  | 0, _ => none
  | _ + 1, [] => some []
  | fuel + 1, input => do
      let (header, rest) ← readHeader input
      let (lines, rest) ← readPlacedLines (input.length + 1) (← finishLine rest)
      let passages ← readPassages fuel rest
      return { header, lines } :: passages

/-- The passages of a whole document. -/
def passages? (text : String) : Option (List Passage) := do
  let input ← skipGap false (dropMark text.toList)
  let (lines, rest) ← readPlacedLines (input.length + 1) input
  let passages ← readPassages (rest.length + 1) rest
  return { header := .root, lines } :: passages

/-! ## Blocks are passages -/

theorem readLines_eq (fuel : Nat) (input : List Char) :
    readLines fuel input =
      (readPlacedLines fuel input).map fun found => (found.1.map Line.entry, found.2) := by
  induction fuel generalizing input with
  | zero => rfl
  | succ fuel ih =>
    unfold readLines readPlacedLines
    split
    · rfl
    · rfl
    · simp only [ih, Option.pure_def, Option.bind_eq_bind, Option.bind_map, Option.map_bind,
        Option.map_some, List.map_cons, Function.comp_def]

theorem readBlocks_eq (fuel : Nat) (input : List Char) :
    readBlocks fuel input = (readPassages fuel input).map (List.map Passage.block) := by
  induction fuel generalizing input with
  | zero => rfl
  | succ fuel ih =>
    cases input with
    | nil => rfl
    | cons c input =>
      unfold readBlocks readPassages
      simp only [readLines_eq, ih, List.length_cons, Option.pure_def, Option.bind_eq_bind,
        Option.bind_map, Option.map_bind, Option.map_some, List.map_cons, Function.comp_def,
        Passage.block]

/-- Where its lines stand is all that a document has more than its blocks. -/
theorem readDocument_eq (text : String) :
    readDocument text = (passages? text).map (List.map Passage.block) := by
  unfold readDocument passages?
  simp only [readLines_eq, readBlocks_eq, Option.pure_def, Option.bind_eq_bind, Option.bind_map,
    Option.map_bind, Option.map_some, List.map_cons, Function.comp_def, Passage.block]

/-! ## Lines behind each other -/

/-- The entry of the line is read from where the line begins, and the rest comes behind it. -/
def Line.Precedes (line : Line) (rest : List Char) : Prop :=
  ∃ behind, readEntry line.input = some (line.entry, behind) ∧ rest <:+ behind

/-- The lines were read one behind another, between the input and the rest. -/
structure Scanned (input rest : List Char) (lines : List Line) : Prop where
  suffix : rest <:+ input
  inputs : ∀ line ∈ lines, line.input <:+ input
  precede : ∀ line ∈ lines, line.Precedes rest
  ordered : lines.Pairwise fun earlier later => earlier.Precedes later.input

variable {input rest : List Char}

theorem Line.Precedes.mono {line : Line} {later : List Char} (h : line.Precedes rest)
    (hlater : later <:+ rest) : line.Precedes later := by
  obtain ⟨behind, hread, hrest⟩ := h
  exact ⟨behind, hread, hlater.trans hrest⟩

namespace Scanned

variable {middle : List Char} {lines more : List Line}

/-- What holds no entries may be passed over. -/
theorem skip (h : rest <:+ input) : Scanned input rest [] :=
  ⟨h, nofun, nofun, List.Pairwise.nil⟩

theorem line {entry : KeyPath × Toml} (h : readEntry input = some (entry, rest)) :
    Scanned input rest [{ entry, input }] where
  suffix := suffix_of_readEntry h
  inputs := List.forall_mem_singleton.2 List.suffix_rfl
  precede := List.forall_mem_singleton.2 ⟨rest, h, List.suffix_rfl⟩
  ordered := List.pairwise_singleton _ _

theorem append (first : Scanned input middle lines) (last : Scanned middle rest more) :
    Scanned input rest (lines ++ more) where
  suffix := last.suffix.trans first.suffix
  inputs := List.forall_mem_append.2
    ⟨first.inputs, fun line hline => (last.inputs line hline).trans first.suffix⟩
  precede := List.forall_mem_append.2
    ⟨fun line hline => (first.precede line hline).mono last.suffix, last.precede⟩
  ordered := by
    refine List.pairwise_append.2 ⟨first.ordered, last.ordered, fun earlier hearlier later hlater => ?_⟩
    exact (first.precede earlier hearlier).mono (last.inputs later hlater)

end Scanned

theorem scanned_readPlacedLines {fuel : Nat} {lines : List Line}
    (h : readPlacedLines fuel input = some (lines, rest)) : Scanned input rest lines := by
  induction fuel generalizing input lines with
  | zero => cases h
  | succ fuel ih =>
    unfold readPlacedLines at h
    split at h
    · cases h
      exact .skip List.suffix_rfl
    · cases h
      exact .skip List.suffix_rfl
    · obtain ⟨⟨entry, behind⟩, hentry, h⟩ := Option.bind_eq_some_iff.1 h
      obtain ⟨next, hfinished, h⟩ := Option.bind_eq_some_iff.1 h
      obtain ⟨⟨others, _⟩, hothers, h⟩ := Option.bind_eq_some_iff.1 h
      cases h
      have hnext := (Scanned.line hentry).append (.skip (suffix_of_finishLine hfinished))
      exact hnext.append (ih hothers)

theorem scanned_readPassages {fuel : Nat} {passages : List Passage}
    (h : readPassages fuel input = some passages) :
    Scanned input [] (passages.flatMap Passage.lines) := by
  induction fuel generalizing input passages with
  | zero => cases h
  | succ fuel ih =>
    cases input with
    | nil =>
      cases h
      exact .skip List.suffix_rfl
    | cons c input =>
      obtain ⟨⟨header, behind⟩, hheader, h⟩ := Option.bind_eq_some_iff.1 h
      obtain ⟨next, hfinished, h⟩ := Option.bind_eq_some_iff.1 h
      obtain ⟨⟨lines, rest⟩, hlines, h⟩ := Option.bind_eq_some_iff.1 h
      obtain ⟨others, hothers, h⟩ := Option.bind_eq_some_iff.1 h
      cases h
      have hstart : Scanned (c :: input) next [] :=
        .skip ((suffix_of_finishLine hfinished).trans (suffix_of_readHeader hheader))
      exact hstart.append ((scanned_readPlacedLines hlines).append (ih hothers))

/-- The lines of a document stand one behind another in it. -/
theorem scanned_passages {text : String} {passages : List Passage}
    (h : passages? text = some passages) :
    Scanned text.toList [] (passages.flatMap Passage.lines) := by
  obtain ⟨input, hinput, h⟩ := Option.bind_eq_some_iff.1 h
  obtain ⟨⟨lines, rest⟩, hlines, h⟩ := Option.bind_eq_some_iff.1 h
  obtain ⟨others, hothers, h⟩ := Option.bind_eq_some_iff.1 h
  cases h
  have hstart : Scanned text.toList input [] :=
    .skip ((suffix_of_skipGap hinput).trans (dropMark_suffix _))
  exact hstart.append ((scanned_readPlacedLines hlines).append (scanned_readPassages hothers))

end Toml

end ProjectCompiler
