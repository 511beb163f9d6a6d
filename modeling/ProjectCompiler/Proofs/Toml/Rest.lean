import Mathlib.Data.List.Infix
import ProjectCompiler.Toml.Reader

/-!
# Rest — what a reader leaves behind

A reader looks at the input from its start and gives back what it has not read. Nothing is put back in front
of that or taken out of it, so that a place in the document is known by what is left of the input there.

- `Toml.Takes`: what is left, with a bound on how much was read;
- `Toml.takes_readText`: a text is read from no fewer characters than it has;
- `Toml.readValue_eq_some`, `Toml.readItems_eq_some`, `Toml.readEntries_eq_some`: what the readers of
  nested values do, and `Toml.read_suffix`: what they leave;
- `Toml.suffix_of_readEntry`, `Toml.suffix_of_readHeader`: the readers of lines.
-/

namespace ProjectCompiler

namespace Toml

variable {input rest : List Char}

/-- The rest stands at the end of the input, behind at least so many characters. -/
def Takes (count : Nat) (input rest : List Char) : Prop :=
  rest <:+ input ∧ count + rest.length ≤ input.length

namespace Takes

variable {count more : Nat} {middle : List Char}

theorem of_suffix (h : rest <:+ input) : Takes 0 input rest :=
  ⟨h, by simpa using h.length_le⟩

theorem cons (h : Takes count input rest) (c : Char) : Takes (count + 1) (c :: input) rest := by
  refine ⟨h.1.trans (List.suffix_cons c input), ?_⟩
  have hlength := h.2
  rw [List.length_cons]
  omega

theorem trans (h : Takes count input middle) (hmore : Takes more middle rest) :
    Takes (count + more) input rest := by
  refine ⟨hmore.1.trans h.1, ?_⟩
  have hfirst := h.2
  have hsecond := hmore.2
  omega

theorem weaken (h : Takes count input rest) (hle : more ≤ count) : Takes more input rest :=
  ⟨h.1, (Nat.add_le_add_right hle _).trans h.2⟩

end Takes

/-! ## Texts -/

theorem suffix_of_readHexadecimal {n count m : Nat}
    (h : readHexadecimal n count input = some (m, rest)) : rest <:+ input := by
  induction count generalizing n input with
  | zero =>
    cases h
    exact List.suffix_rfl
  | succ count ih =>
    cases input with
    | nil => cases h
    | cons c input =>
      obtain ⟨_, -, h⟩ := Option.bind_eq_some_iff.1 h
      exact (ih h).trans (List.suffix_cons c input)

theorem suffix_of_readCharacter {digits : Nat} {c : Char}
    (h : readCharacter digits input = some (c, rest)) : rest <:+ input := by
  obtain ⟨⟨_, _⟩, hread, h⟩ := Option.bind_eq_some_iff.1 h
  obtain ⟨_, -, h⟩ := Option.bind_eq_some_iff.1 h
  cases h
  exact suffix_of_readHexadecimal hread

theorem suffix_of_readEscape {c : Char} (h : readEscape input = some (c, rest)) : rest <:+ input := by
  unfold readEscape at h
  split at h
  -- Letters that stand for themselves first, then the three that have digits behind them.
  iterate 8
    · cases h
      exact List.suffix_cons _ _
  iterate 3
    · exact (suffix_of_readCharacter h).trans (List.suffix_cons _ _)
  · cases h

theorem takes_readEscaped {fuel : Nat} {text : List Char}
    (h : readEscaped fuel input = some (text, rest)) : Takes (text.length + 1) input rest := by
  induction fuel generalizing input text with
  | zero => cases h
  | succ fuel ih =>
    cases input with
    | nil => cases h
    | cons c input =>
      rw [readEscaped] at h
      split at h
      · cases h
        exact (Takes.of_suffix List.suffix_rfl).cons c
      split at h
      · obtain ⟨⟨_, behind⟩, hescape, h⟩ := Option.bind_eq_some_iff.1 h
        obtain ⟨⟨text, _⟩, htext, h⟩ := Option.bind_eq_some_iff.1 h
        cases h
        have hall := (Takes.of_suffix (suffix_of_readEscape hescape)).trans (ih htext)
        exact (hall.cons c).weaken (by simp)
      split at h
      · cases h
      · obtain ⟨⟨text, _⟩, htext, h⟩ := Option.bind_eq_some_iff.1 h
        cases h
        exact (ih htext).cons c

theorem takes_readLiteral {text : List Char} (h : readLiteral input = some (text, rest)) :
    Takes (text.length + 1) input rest := by
  induction input generalizing text with
  | nil => cases h
  | cons c input ih =>
    rw [readLiteral] at h
    split at h
    · cases h
      exact (Takes.of_suffix List.suffix_rfl).cons c
    split at h
    · cases h
    · obtain ⟨⟨text, _⟩, htext, h⟩ := Option.bind_eq_some_iff.1 h
      cases h
      exact (ih htext).cons c

theorem suffix_of_lineEnd? (h : lineEnd? input = some rest) : rest <:+ input := by
  unfold lineEnd? at h
  split at h
  · cases h
    exact List.suffix_cons _ _
  · cases h
    exact (List.suffix_cons _ _).trans (List.suffix_cons _ _)
  · cases h

theorem suffix_dropLineEnd (input : List Char) : dropLineEnd input <:+ input := by
  rw [dropLineEnd]
  rcases hend : lineEnd? input with _ | rest
  · exact List.suffix_rfl
  · exact suffix_of_lineEnd? hend

theorem takes_closing? {quote : Char} {text : List Char}
    (h : closing? quote input = some (text, rest)) : Takes (text.length + 1) input rest := by
  unfold closing? at h
  split at h
  · rename_i a b c behind
    split at h
    · cases h
      -- The quotes of the text are the first of those behind the three.
      have hextra : ((behind.take 2).takeWhile (· = quote)).length ≤ behind.length :=
        (List.takeWhile_prefix _).length_le.trans (List.length_take_le' _ _)
      refine ⟨(List.drop_suffix _ _).trans ⟨[a, b, c], rfl⟩, ?_⟩
      simp only [List.length_replicate, List.length_drop, List.length_cons]
      omega
    · cases h
  · cases h

theorem skipLines_suffix (input : List Char) : skipLines input <:+ input := by
  induction input using skipLines.induct with
  | case1 => exact List.suffix_rfl
  | case2 rest ih =>
    rw [skipLines]
    exact ih.trans ((List.suffix_cons _ _).trans (List.suffix_cons _ _))
  | case3 c rest hreturn hskip ih =>
    rw [skipLines.eq_3 _ _ hreturn, if_pos hskip]
    exact ih.trans (List.suffix_cons _ _)
  | case4 c rest hreturn hstop =>
    rw [skipLines.eq_3 _ _ hreturn, if_neg hstop]

theorem suffix_of_joinedLine? (h : joinedLine? input = some rest) : rest <:+ input := by
  obtain ⟨behind, hend, rfl⟩ := Option.map_eq_some_iff.1 h
  exact (skipLines_suffix behind).trans ((suffix_of_lineEnd? hend).trans (List.dropWhile_suffix _))

theorem takes_readEscapedLines {fuel : Nat} {text : List Char}
    (h : readEscapedLines fuel input = some (text, rest)) : Takes (text.length + 1) input rest := by
  induction fuel generalizing input text with
  | zero => cases h
  | succ fuel ih =>
    cases input with
    | nil => cases h
    | cons c input =>
      rw [readEscapedLines] at h
      split at h
      · rename_i found hclosing
        cases h
        exact takes_closing? hclosing
      split at h
      · split at h
        · rename_i behind hjoined
          have hall := (Takes.of_suffix (suffix_of_joinedLine? hjoined)).trans (ih h)
          exact (hall.cons c).weaken (by simp)
        · obtain ⟨⟨_, behind⟩, hescape, h⟩ := Option.bind_eq_some_iff.1 h
          obtain ⟨⟨text, _⟩, htext, h⟩ := Option.bind_eq_some_iff.1 h
          cases h
          have hall := (Takes.of_suffix (suffix_of_readEscape hescape)).trans (ih htext)
          exact (hall.cons c).weaken (by simp)
      split at h
      · cases h
      · obtain ⟨⟨text, _⟩, htext, h⟩ := Option.bind_eq_some_iff.1 h
        cases h
        exact (ih htext).cons c

theorem takes_readLiteralLines {text : List Char} (h : readLiteralLines input = some (text, rest)) :
    Takes (text.length + 1) input rest := by
  induction input generalizing text with
  | nil => cases h
  | cons c input ih =>
    rw [readLiteralLines] at h
    split at h
    · rename_i found hclosing
      cases h
      exact takes_closing? hclosing
    split at h
    · cases h
    · obtain ⟨⟨text, _⟩, htext, h⟩ := Option.bind_eq_some_iff.1 h
      cases h
      exact (ih htext).cons c

theorem takes_readTextOnLine {text : List Char} (h : readTextOnLine input = some (text, rest)) :
    Takes (text.length + 2) input rest := by
  unfold readTextOnLine at h
  split at h
  · exact (takes_readEscaped h).cons _
  · exact (takes_readLiteral h).cons _
  · cases h

/-- However a text is written, it takes a character for each of its own, and two for the quotes. -/
theorem takes_readText {text : List Char} (h : readText input = some (text, rest)) :
    Takes (text.length + 2) input rest := by
  unfold readText at h
  split at h
  · rename_i behind
    have hall := (Takes.of_suffix (suffix_dropLineEnd behind)).trans (takes_readEscapedLines h)
    exact (((hall.cons _).cons _).cons _).weaken (by omega)
  · rename_i behind
    have hall := (Takes.of_suffix (suffix_dropLineEnd behind)).trans (takes_readLiteralLines h)
    exact (((hall.cons _).cons _).cons _).weaken (by omega)
  · exact takes_readTextOnLine h

/-! ## Blanks, names and words -/

theorem suffix_of_skipGap {inComment : Bool} (h : skipGap inComment input = some rest) :
    rest <:+ input := by
  induction input generalizing inComment with
  | nil =>
    cases h
    exact List.suffix_rfl
  | cons c input ih =>
    have hskip : ∀ {inComment : Bool}, skipGap inComment input = some rest → rest <:+ c :: input :=
      fun hrest => (ih hrest).trans (List.suffix_cons c input)
    rw [skipGap] at h
    repeat' split at h
    · exact hskip h
    · exact hskip h
    · cases h
    · cases h
    · exact hskip h
    · exact hskip h
    · exact hskip h
    · cases h
      exact List.suffix_rfl

theorem suffix_of_finishLine (h : finishLine input = some rest) : rest <:+ input := by
  unfold finishLine at h
  split at h
  · cases h
    exact List.nil_suffix
  · rename_i c behind hskipped
    split at h
    · refine (suffix_of_skipGap h).trans ?_
      rw [← hskipped]
      exact List.dropWhile_suffix _
    · cases h

theorem suffix_of_readName {name : String} (h : readName input = some (name, rest)) :
    rest <:+ input := by
  unfold readName at h
  split at h
  · obtain ⟨found, hfound, h⟩ := Option.map_eq_some_iff.1 h
    cases h
    exact (takes_readTextOnLine hfound).1
  · obtain ⟨found, hfound, h⟩ := Option.map_eq_some_iff.1 h
    cases h
    exact (takes_readTextOnLine hfound).1
  · split at h
    · cases h
    · cases h
      exact List.dropWhile_suffix _

theorem suffix_of_readNames {count : Nat} {path : KeyPath}
    (h : readNames count input = some (path, rest)) : rest <:+ input := by
  induction count generalizing input path with
  | zero => cases h
  | succ count ih =>
    obtain ⟨⟨name, behind⟩, hname, h⟩ := Option.bind_eq_some_iff.1 h
    have hskipped : skipBlanks behind <:+ input :=
      (List.dropWhile_suffix _).trans (suffix_of_readName hname)
    dsimp only at h
    split at h
    · rename_i more hmore
      obtain ⟨⟨path, _⟩, hnames, h⟩ := Option.bind_eq_some_iff.1 h
      cases h
      rw [hmore] at hskipped
      have hafter : skipBlanks more <:+ '.' :: more :=
        (List.dropWhile_suffix _).trans (List.suffix_cons _ _)
      exact (ih hnames).trans (hafter.trans hskipped)
    · cases h
      exact hskipped

theorem suffix_of_readPath {path : KeyPath} (h : readPath input = some (path, rest)) :
    rest <:+ input :=
  suffix_of_readNames h

theorem suffix_of_expectEquals (h : expectEquals input = some rest) : rest <:+ input := by
  unfold expectEquals at h
  split at h
  · cases h
    exact List.suffix_cons _ _
  · cases h

theorem takeWord_suffix (inPiece : Bool) (input : List Char) : (takeWord inPiece input).2 <:+ input := by
  induction input generalizing inPiece with
  | nil => exact List.suffix_rfl
  | cons c input ih =>
    have htaken : ∀ inPiece, (takeWord inPiece input).2 <:+ c :: input :=
      fun inPiece => (ih inPiece).trans (List.suffix_cons c input)
    rw [takeWord]
    split
    · split
      · exact htaken false
      · exact List.suffix_rfl
    split
    · exact htaken false
    split
    · exact htaken true
    · exact List.suffix_rfl

theorem suffix_of_readWord {value : Toml} (h : readWord input = some (value, rest)) :
    rest <:+ input := by
  obtain ⟨_, -, h⟩ := Option.bind_eq_some_iff.1 h
  cases h
  exact takeWord_suffix false input

/-! ## Values

A reader of nested values that succeeds has called others, and each of them may look at less of the input
than it did. -/

section Readers

variable {fuel depth : Nat} {value : Toml} {items : List Toml} {begun node : Node}

theorem readValue_eq_some (h : readValue (fuel + 1) depth input = some (value, rest)) :
    (∃ text, readText input = some (text, rest) ∧ value = .str (String.ofList text)) ∨
    (∃ below inside items, input = '[' :: inside ∧
      readItems fuel below inside = some (items, rest) ∧ value = .array items) ∨
    (∃ below inside node, input = '{' :: inside ∧
      readEntries fuel below (.table .header []) inside = some (node, rest) ∧ value = node.toToml) ∨
    readWord input = some (value, rest) := by
  unfold readValue at h
  split at h
  · obtain ⟨found, hfound, h⟩ := Option.map_eq_some_iff.1 h
    cases h
    exact .inl ⟨_, hfound, rfl⟩
  · obtain ⟨found, hfound, h⟩ := Option.map_eq_some_iff.1 h
    cases h
    exact .inl ⟨_, hfound, rfl⟩
  · cases h
  · obtain ⟨⟨items, _⟩, hread, h⟩ := Option.bind_eq_some_iff.1 h
    cases h
    exact .inr (.inl ⟨_, _, items, rfl, hread, rfl⟩)
  · cases h
  · obtain ⟨⟨node, _⟩, hread, h⟩ := Option.bind_eq_some_iff.1 h
    cases h
    exact .inr (.inr (.inl ⟨_, _, node, rfl, hread, rfl⟩))
  · exact .inr (.inr (.inr h))

theorem readItems_eq_some (h : readItems (fuel + 1) depth input = some (items, rest)) :
    ∃ start, skipGap false input = some start ∧
      ((start = ']' :: rest ∧ items = []) ∨
        ∃ first behind next, readValue fuel depth start = some (first, behind) ∧
          skipGap false behind = some next ∧
          ((∃ more others, next = ',' :: more ∧ readItems fuel depth more = some (others, rest) ∧
              items = first :: others) ∨
            next = ']' :: rest ∧ items = [first])) := by
  obtain ⟨start, hstart, h⟩ := Option.bind_eq_some_iff.1 h
  refine ⟨start, hstart, ?_⟩
  split at h
  · cases h
    exact .inl ⟨rfl, rfl⟩
  · obtain ⟨⟨first, behind⟩, hfirst, h⟩ := Option.bind_eq_some_iff.1 h
    obtain ⟨next, hnext, h⟩ := Option.bind_eq_some_iff.1 h
    refine .inr ⟨first, behind, next, hfirst, hnext, ?_⟩
    split at h
    · obtain ⟨⟨others, _⟩, hothers, h⟩ := Option.bind_eq_some_iff.1 h
      cases h
      exact .inl ⟨_, others, rfl, hothers, rfl⟩
    · cases h
      exact .inr ⟨rfl, rfl⟩
    · cases h

theorem readEntries_eq_some (h : readEntries (fuel + 1) depth begun input = some (node, rest)) :
    ∃ start, skipGap false input = some start ∧
      ((start = '}' :: rest ∧ node = begun) ∨
        ∃ path value grown next, begun.insertEntry path value = some grown ∧
          (∃ named equals right written behind, readPath start = some (path, named) ∧
            skipGap false named = some equals ∧ expectEquals equals = some right ∧
            skipGap false right = some written ∧ readValue fuel depth written = some (value, behind) ∧
            skipGap false behind = some next) ∧
          ((∃ more, next = ',' :: more ∧ readEntries fuel depth grown more = some (node, rest)) ∨
            next = '}' :: rest ∧ node = grown)) := by
  obtain ⟨start, hstart, h⟩ := Option.bind_eq_some_iff.1 h
  refine ⟨start, hstart, ?_⟩
  split at h
  · cases h
    exact .inl ⟨rfl, rfl⟩
  · obtain ⟨⟨path, named⟩, hpath, h⟩ := Option.bind_eq_some_iff.1 h
    obtain ⟨equals, hbefore, h⟩ := Option.bind_eq_some_iff.1 h
    obtain ⟨right, hequals, h⟩ := Option.bind_eq_some_iff.1 h
    obtain ⟨written, hbehind, h⟩ := Option.bind_eq_some_iff.1 h
    obtain ⟨⟨value, behind⟩, hread, h⟩ := Option.bind_eq_some_iff.1 h
    -- A name that is taken has ended the table by now.
    obtain ⟨grown, hgrown, h⟩ := Option.bind_eq_some_iff.1 h
    obtain ⟨next, hnext, h⟩ := Option.bind_eq_some_iff.1 h
    refine .inr ⟨path, value, grown, next, hgrown,
      ⟨named, equals, right, written, behind, hpath, hbefore, hequals, hbehind, hread, hnext⟩, ?_⟩
    split at h
    · exact .inl ⟨_, rfl, h⟩
    · cases h
      exact .inr ⟨rfl, rfl⟩
    · cases h

end Readers

/-- What the three readers of nested values leave, by how much of the input they may look at. -/
theorem read_suffix (fuel : Nat) :
    (∀ {depth input value rest}, readValue fuel depth input = some (value, rest) → rest <:+ input) ∧
    (∀ {depth input items rest}, readItems fuel depth input = some (items, rest) → rest <:+ input) ∧
    ∀ {depth begun input node rest}, readEntries fuel depth begun input = some (node, rest) →
      rest <:+ input := by
  -- Each reader calls the others with less fuel, so that one induction must do for all three.
  induction fuel with
  | zero => exact ⟨nofun, nofun, nofun⟩
  | succ fuel ih =>
    obtain ⟨hvalue, hitems, hentries⟩ := ih
    refine ⟨?_, ?_, ?_⟩
    · intro depth input value rest h
      rcases readValue_eq_some h with ⟨_, hread, -⟩ | ⟨_, _, _, rfl, hread, -⟩ |
        ⟨_, _, _, rfl, hread, -⟩ | hword
      · exact (takes_readText hread).1
      · exact (hitems hread).trans (List.suffix_cons _ _)
      · exact (hentries hread).trans (List.suffix_cons _ _)
      · exact suffix_of_readWord hword
    · intro depth input items rest h
      obtain ⟨start, hstart, hends⟩ := readItems_eq_some h
      refine List.IsSuffix.trans ?_ (suffix_of_skipGap hstart)
      rcases hends with ⟨rfl, -⟩ | ⟨first, behind, next, hfirst, hnext, hends⟩
      · exact List.suffix_cons _ _
      · refine List.IsSuffix.trans ?_ ((suffix_of_skipGap hnext).trans (hvalue hfirst))
        rcases hends with ⟨_, _, rfl, hothers, -⟩ | ⟨rfl, -⟩
        · exact (hitems hothers).trans (List.suffix_cons _ _)
        · exact List.suffix_cons _ _
    · intro depth begun input node rest h
      obtain ⟨start, hstart, hends⟩ := readEntries_eq_some h
      refine List.IsSuffix.trans ?_ (suffix_of_skipGap hstart)
      rcases hends with ⟨rfl, -⟩ | ⟨path, value, grown, next, -, hentry, hends⟩
      · exact List.suffix_cons _ _
      · obtain ⟨named, equals, right, written, behind, hpath, hbefore, hequals, hbehind, hread, hnext⟩ :=
          hentry
        -- From the end of the entry back to its start.
        have hentry : next <:+ start := calc
          next <:+ behind := suffix_of_skipGap hnext
          _ <:+ written := hvalue hread
          _ <:+ right := suffix_of_skipGap hbehind
          _ <:+ equals := suffix_of_expectEquals hequals
          _ <:+ named := suffix_of_skipGap hbefore
          _ <:+ start := suffix_of_readPath hpath
        refine List.IsSuffix.trans ?_ hentry
        rcases hends with ⟨_, rfl, hmore⟩ | ⟨rfl, -⟩
        · exact (hentries hmore).trans (List.suffix_cons _ _)
        · exact List.suffix_cons _ _

/-! ## Lines -/

theorem suffix_of_readEntry {entry : KeyPath × Toml} (h : readEntry input = some (entry, rest)) :
    rest <:+ input := by
  obtain ⟨⟨path, behind⟩, hpath, h⟩ := Option.bind_eq_some_iff.1 h
  obtain ⟨start, hequals, h⟩ := Option.bind_eq_some_iff.1 h
  obtain ⟨⟨value, _⟩, hvalue, h⟩ := Option.bind_eq_some_iff.1 h
  cases h
  calc rest
      <:+ skipBlanks start := (read_suffix _).1 hvalue
    _ <:+ start := List.dropWhile_suffix _
    _ <:+ behind := suffix_of_expectEquals hequals
    _ <:+ input := suffix_of_readPath hpath

theorem suffix_of_readHeader {header : Header} (h : readHeader input = some (header, rest)) :
    rest <:+ input := by
  unfold readHeader at h
  split at h
  · rename_i start
    obtain ⟨⟨path, behind⟩, hpath, h⟩ := Option.bind_eq_some_iff.1 h
    have hbehind : behind <:+ '[' :: '[' :: start :=
      (suffix_of_readPath hpath).trans ((List.dropWhile_suffix _).trans ⟨['[', '['], rfl⟩)
    split at h
    · rename_i heq
      cases h
      cases heq
      exact List.IsSuffix.trans ⟨[']', ']'], rfl⟩ hbehind
    · cases h
  · rename_i start _
    obtain ⟨⟨path, behind⟩, hpath, h⟩ := Option.bind_eq_some_iff.1 h
    have hbehind : behind <:+ '[' :: start :=
      (suffix_of_readPath hpath).trans ((List.dropWhile_suffix _).trans (List.suffix_cons _ _))
    split at h
    · rename_i heq
      cases h
      cases heq
      exact (List.suffix_cons _ _).trans hbehind
    · cases h
  · cases h

theorem dropMark_suffix (input : List Char) : dropMark input <:+ input := by
  unfold dropMark
  split
  · exact List.suffix_cons _ _
  · exact List.suffix_rfl

end Toml

end ProjectCompiler
