import ProjectCompiler.Proofs.Manifest.Selection
import ProjectCompiler.Proofs.Project.WellFormed
import ProjectCompiler.Proofs.Toml.Elements
import ProjectCompiler.Proofs.Toml.Passages

/-!
# Target lines — where names and hosts of targets are written

A manifest says what its targets are, not where that was read. With a header for each target, every target
has a passage of the text to itself, and its name and its host stand on lines of this passage.

- `Line.Plain`: a text written as `key = "text"`;
- `Line.offset`, `Line.valueSpan`: where a line and its text are found in bytes;
- `Manifest.targetPassages`: the passages of targets;
- `Manifest.WrittenAt`: a line of the passage of a certain target;
- `Manifest.forall₂_declared`: targets and passages correspond;
- `Manifest.offset_add_le`: lines of later targets stand behind those of earlier ones.
-/

namespace ProjectCompiler

open Entries

namespace Toml

/-! ## Plain lines -/

/-- The line writes a text under a name without dots. -/
def Line.Writes (line : Line) (key text : String) : Prop :=
  line.entry = ({ parents := [], last := key }, .str text)

/-- If the line writes a text, then with one blank on either side of the sign and between double quotes. -/
def Line.Plain (line : Line) : Prop :=
  ∀ key text, line.Writes key text → (Span.pair key text "\"").toList <+: line.input

/-- The key and the text of a line that writes a text under a name without dots. -/
def Line.text? (line : Line) : Option (String × String) :=
  match line.entry with
  | ({ parents := [], last := key }, .str text) => some (key, text)
  | _ => none

theorem Line.writes_iff {line : Line} {key text : String} :
    line.Writes key text ↔ line.text? = some (key, text) := by
  rw [Writes, text?]
  split
  · rename_i written value hentry
    rw [hentry]
    simp
  · rename_i hother
    constructor
    · intro hentry
      exact absurd hentry (hother key text)
    · nofun

instance (line : Line) (key text : String) : Decidable (line.Writes key text) :=
  decidable_of_iff _ Line.writes_iff.symm

theorem Line.plain_iff {line : Line} :
    line.Plain ↔ ∀ pair ∈ line.text?, (Span.pair pair.1 pair.2 "\"").toList <+: line.input := by
  constructor
  · intro hplain pair hpair
    exact hplain _ _ (Line.writes_iff.2 hpair)
  · intro h key text hwrites
    exact h (key, text) (Line.writes_iff.1 hwrites)

instance (line : Line) : Decidable line.Plain :=
  decidable_of_iff _ Line.plain_iff.symm

/-- Where the line begins, in bytes. -/
def Line.offset (source : String) (line : Line) : Nat :=
  source.utf8ByteSize - String.utf8Len line.input

/-- Where the text of a plain line stands. -/
def Line.valueSpan (source key text : String) (line : Line) : Span :=
  ⟨line.offset source + key.utf8ByteSize + 4, text.utf8ByteSize⟩

/-- A name that needs no quotes. -/
def IsBare (key : String) : Prop :=
  key ≠ "" ∧ key.toList.all isBareCharacter = true

instance (key : String) : Decidable (IsBare key) :=
  inferInstanceAs (Decidable (_ ∧ _))

variable {source key text : String} {line : Line}

/-- What stands before a line is as long as its offset says. -/
theorem Line.offset_eq {before : List Char} (h : source.toList = before ++ line.input) :
    line.offset source = String.utf8Len before := by
  rw [offset, ← Search.utf8Len_toList, h, String.utf8Len_append]
  omega

theorem Line.Plain.occurs (h : line.Plain) (hwrites : line.Writes key text)
    (hsuffix : line.input <:+ source.toList) :
    Search.Occurs (Span.pair key text "\"") source (line.offset source) := by
  obtain ⟨before, hbefore⟩ := hsuffix
  obtain ⟨after, hafter⟩ := h key text hwrites
  rw [Line.offset_eq hbefore.symm]
  apply Search.occurs_iff_occursFrom.2
  refine ⟨before, after, ?_, Nat.zero_add _⟩
  rw [← hbefore, ← hafter, List.append_assoc]

/-- The text of a plain line is what its span selects. -/
theorem Line.Plain.selects (h : line.Plain) (hwrites : line.Writes key text)
    (hsuffix : line.input <:+ source.toList) : (line.valueSpan source key text).Selects source text := by
  obtain ⟨before, after, hsource, hoffset⟩ := h.occurs hwrites hsuffix
  have hselects := Span.selects_append (before ++ Span.opening key "\"") text ("\"" ++ after)
  have hopening : (Span.opening key "\"").utf8ByteSize = key.utf8ByteSize + 4 :=
    Span.utf8ByteSize_opening key Span.double_mem_quotes
  rw [String.utf8ByteSize_append, hopening, hoffset, ← Nat.add_assoc] at hselects
  simpa only [Line.valueSpan, hsource, Span.pair, String.append_assoc] using hselects

/-! ### Reading a plain line -/

theorem readName_append {name rest : List Char} (hname : name ≠ [])
    (hbare : ∀ c ∈ name, isBareCharacter c = true) :
    readName (name ++ ' ' :: rest) = some (String.ofList name, ' ' :: rest) := by
  have htaken : (name ++ ' ' :: rest).takeWhile isBareCharacter = name := by
    rw [List.takeWhile_append_of_pos hbare, List.takeWhile_cons_of_neg (by decide), List.append_nil]
  have hdropped : (name ++ ' ' :: rest).dropWhile isBareCharacter = ' ' :: rest := by
    rw [List.dropWhile_append_of_pos hbare, List.dropWhile_cons_of_neg (by decide)]
  -- A bare name does not start with a quote.
  have hfirst : ∀ c tail, isBareCharacter c = false → name ++ ' ' :: rest ≠ c :: tail := by
    obtain ⟨first, others, rfl⟩ := List.exists_cons_of_ne_nil hname
    rintro c tail hc heq
    obtain ⟨rfl, -⟩ := List.cons.inj heq
    rw [hbare first List.mem_cons_self] at hc
    cases hc
  unfold readName
  split
  · rename_i tail heq
    exact absurd heq (hfirst _ tail (by decide))
  · rename_i tail heq
    exact absurd heq (hfirst _ tail (by decide))
  · rw [htaken, hdropped]
    split
    · contradiction
    · rfl

theorem readPath_append {name rest : List Char} (hname : name ≠ [])
    (hbare : ∀ c ∈ name, isBareCharacter c = true) :
    readPath (name ++ ' ' :: '=' :: rest) =
      some ({ parents := [], last := String.ofList name }, '=' :: rest) := by
  have hskipped : skipBlanks (' ' :: '=' :: rest) = '=' :: rest := rfl
  rw [readPath, maximalLength, readNames, readName_append hname hbare]
  rfl

/-- Behind a plain line comes what is left behind the closing quote. -/
theorem Line.Precedes.suffix_of_plain {more rest : List Char} (h : line.Precedes rest) (hkey : IsBare key)
    (hwrites : line.Writes key text)
    (hinput : line.input = (Span.pair key text "\"").toList ++ more) : rest <:+ more := by
  obtain ⟨behind, hread, hrest⟩ := h
  refine hrest.trans ?_
  have hsplit : line.input =
      key.toList ++ ' ' :: '=' :: ' ' :: '"' :: (text.toList ++ '"' :: more) := by
    simp [hinput, Span.pair, Span.opening]
  have hname : key.toList ≠ [] := Search.toList_ne_nil hkey.1
  rw [hwrites] at hread
  obtain ⟨⟨path, start⟩, hpath, hread⟩ := Option.bind_eq_some_iff.1 hread
  rw [hsplit, readPath_append hname (List.all_eq_true.1 hkey.2)] at hpath
  obtain ⟨-, rfl⟩ := Prod.mk.inj (Option.some.inj hpath)
  obtain ⟨next, hequals, hread⟩ := Option.bind_eq_some_iff.1 hread
  cases hequals
  obtain ⟨⟨value, _⟩, hvalue, hread⟩ := Option.bind_eq_some_iff.1 hread
  cases hread
  have hskipped : skipBlanks (' ' :: '"' :: (text.toList ++ '"' :: more)) =
      '"' :: (text.toList ++ '"' :: more) := rfl
  rw [hskipped, readValue] at hvalue
  obtain ⟨found, hfound, hsame⟩ := Option.map_eq_some_iff.1 hvalue
  obtain ⟨htext, rfl⟩ := Prod.mk.inj hsame
  have hcharacters : found.1 = text.toList := by rw [← Toml.str.inj htext, String.toList_ofList]
  have htaken := takes_readText hfound
  rw [hcharacters] at htaken
  have hmore : more <:+ '"' :: (text.toList ++ '"' :: more) :=
    ⟨'"' :: (text.toList ++ ['"']), by simp⟩
  refine List.suffix_of_suffix_length_le htaken.1 hmore ?_
  have hlength := htaken.2
  simp only [List.length_cons, List.length_append] at hlength
  omega

/-- What comes behind a plain line comes behind its text. -/
theorem Line.Plain.offset_add_le {earlier later : Line} (h : earlier.Plain) (hkey : IsBare key)
    (hwrites : earlier.Writes key text) (hsource : earlier.input <:+ source.toList)
    (hprecedes : earlier.Precedes later.input) :
    earlier.offset source + (Span.pair key text "\"").utf8ByteSize ≤ later.offset source := by
  obtain ⟨more, hmore⟩ := h key text hwrites
  obtain ⟨before, hbefore⟩ := hsource
  obtain ⟨between, hbetween⟩ := hprecedes.suffix_of_plain hkey hwrites hmore.symm
  have hlater : source.toList =
      before ++ (Span.pair key text "\"").toList ++ between ++ later.input := by
    simp only [← hbefore, ← hmore, ← hbetween, List.append_assoc]
  rw [Line.offset_eq hbefore.symm, Line.offset_eq hlater, String.utf8Len_append, String.utf8Len_append,
    Search.utf8Len_toList]
  exact Nat.le_add_right _ _

end Toml

open Toml

namespace Manifest

/-! ## Passages of targets -/

variable {source key text : String}

/-- The passages with a header for one more target. -/
def targetPassages (source : String) : List Passage :=
  ((passages? source).getD []).filter fun passage => passage.header = .ofElement "targets"

/-- The target of this number has a line in its passage that writes the text. -/
def WrittenAt (source : String) (number : Nat) (key text : String) (line : Line) : Prop :=
  ∃ passage, (targetPassages source)[number]? = some passage ∧ line ∈ passage.lines ∧
    line.Writes key text

/-- All texts of targets are written plainly. -/
def PlainTargets (source : String) : Prop :=
  ∀ passage ∈ targetPassages source, ∀ line ∈ passage.lines, line.Plain

instance (source : String) : Decidable (PlainTargets source) :=
  inferInstanceAs (Decidable (∀ passage ∈ targetPassages source, ∀ line ∈ passage.lines, line.Plain))

/-- For each target, where its lines begin that write the text. -/
def offsetsOf (source key text : String) : List (List Nat) :=
  (targetPassages source).map fun passage =>
    (passage.lines.filter fun line => line.Writes key text).map (Line.offset source)

theorem WrittenAt.mem_offsetsOf {number : Nat} {line : Line}
    (h : WrittenAt source number key text line) :
    ∃ offsets, (offsetsOf source key text)[number]? = some offsets ∧ line.offset source ∈ offsets := by
  obtain ⟨passage, hpassage, hline, hwrites⟩ := h
  refine ⟨_, by rw [offsetsOf, List.getElem?_map, hpassage, Option.map_some], ?_⟩
  exact List.mem_map_of_mem (List.mem_filter.2 ⟨hline, decide_eq_true hwrites⟩)

theorem mem_targetPassages {passage : Passage} (h : passage ∈ targetPassages source) :
    ∃ passages, passages? source = some passages ∧ passage ∈ passages := by
  obtain ⟨hmem, -⟩ := List.mem_filter.1 h
  cases hpassages : passages? source with
  | none =>
    rw [hpassages] at hmem
    cases hmem
  | some passages =>
    rw [hpassages] at hmem
    exact ⟨passages, rfl, hmem⟩

theorem suffix_of_mem_lines {passage : Passage} (h : passage ∈ targetPassages source) {line : Line}
    (hline : line ∈ passage.lines) : line.input <:+ source.toList := by
  obtain ⟨passages, hpassages, hmem⟩ := mem_targetPassages h
  exact (scanned_passages hpassages).inputs line (List.mem_flatMap.2 ⟨passage, hmem, hline⟩)

/-- The lines of a passage stand before those of the passages behind it. -/
theorem pairwise_targetPassages (source : String) :
    (targetPassages source).Pairwise fun earlier later =>
      ∀ first ∈ earlier.lines, ∀ second ∈ later.lines, first.Precedes second.input := by
  apply List.Pairwise.filter
  cases hpassages : passages? source with
  | none => exact List.Pairwise.nil
  | some passages => exact (List.pairwise_flatMap.1 (scanned_passages hpassages).ordered).2

section Plain

variable (hplain : PlainTargets source)
include hplain

theorem WrittenAt.occurs {number : Nat} {line : Line} (h : WrittenAt source number key text line) :
    Search.Occurs (Span.pair key text "\"") source (line.offset source) := by
  obtain ⟨passage, hpassage, hline, hwrites⟩ := h
  have hmem := List.mem_of_getElem? hpassage
  exact (hplain passage hmem line hline).occurs hwrites (suffix_of_mem_lines hmem hline)

theorem WrittenAt.selects {number : Nat} {line : Line} (h : WrittenAt source number key text line) :
    (line.valueSpan source key text).Selects source text := by
  obtain ⟨passage, hpassage, hline, hwrites⟩ := h
  have hmem := List.mem_of_getElem? hpassage
  exact (hplain passage hmem line hline).selects hwrites (suffix_of_mem_lines hmem hline)

/-- What a target writes stands behind what the targets before it write. -/
theorem offset_add_le (hkey : IsBare key) {earlier later : Nat} (hlt : earlier < later)
    {first second : Line} (hfirst : WrittenAt source earlier key text first) {key' text' : String}
    (hsecond : WrittenAt source later key' text' second) :
    first.offset source + (Span.pair key text "\"").utf8ByteSize ≤ second.offset source := by
  obtain ⟨before, hbefore, hfirst, hwrites⟩ := hfirst
  obtain ⟨behind, hbehind, hsecond, -⟩ := hsecond
  have hmem := List.mem_of_getElem? hbefore
  have hprecedes : first.Precedes second.input := by
    obtain ⟨hearlier, rfl⟩ := List.getElem?_eq_some_iff.1 hbefore
    obtain ⟨hlater, rfl⟩ := List.getElem?_eq_some_iff.1 hbehind
    exact List.pairwise_iff_getElem.1 (pairwise_targetPassages source) _ _ hearlier hlater hlt
      first hfirst second hsecond
  exact (hplain before hmem first hfirst).offset_add_le hkey hwrites (suffix_of_mem_lines hmem hfirst)
    hprecedes

end Plain

end Manifest

/-! ## Targets and their passages -/

theorem exists_getElem?_of_forall₂ {α β : Type} {R : α → β → Prop} {items : List α} {others : List β}
    (h : List.Forall₂ R items others) {number : Nat} {item : α} (hitem : items[number]? = some item) :
    ∃ other, others[number]? = some other ∧ R item other := by
  obtain ⟨hlt, rfl⟩ := List.getElem?_eq_some_iff.1 hitem
  have hother : number < others.length := h.length_eq ▸ hlt
  exact ⟨others[number], List.getElem?_eq_getElem hother, h.get hlt hother⟩

/-- A field that has to be there is there. -/
theorem RecordShape.read_required {α : Type} {shape : RecordShape}
    {set : String → Toml → α → Decoded α} {start : α} {members : List (String × Toml)} {field : String}
    (hfield : (field, .required) ∈ shape.fields) :
    (shape.read set start (.table members)).Yields fun _ => find? members field ≠ none := by
  refine .bind fun record _ => ?_
  split
  · exact .throw _
  · rename_i hmissing
    refine .pure fun hnone => ?_
    have hnot : ¬ (members.any fun entry => entry.1 = field) = true := by
      intro hany
      obtain ⟨entry, hentry, hsame⟩ := List.any_eq_true.1 hany
      rw [find?_eq_none_iff] at hnone
      exact hnone (List.mem_map.2 ⟨entry, hentry, of_decide_eq_true hsame⟩)
    have hgiven := List.find?_eq_none.1 (Option.map_eq_none_iff.1 hmissing) _ hfield
    exact hgiven (decide_eq_true ⟨rfl, hnot⟩)

theorem Toml.Supplies.some_text_iff {members : List (String × Toml)} {field : String}
    {value : Option String}
    (h : Supplies members field (fun found => some <$> found.toText) none value) (text : String) :
    value = some text ↔ find? members field = some (.str text) := by
  unfold Supplies at h
  rcases hfind : find? members field with _ | found
  · rw [hfind] at h
    simp [h]
  · rw [hfind] at h
    cases found with
    | str written =>
      obtain rfl := (Except.ok.inj h).symm
      simp
    | _ => cases h

namespace TargetEntry

theorem set_name (field : String) (found : Toml) (entry : TargetEntry) :
    (set field found entry).Yields fun after =>
      RecordShape.Assigns "name" field Toml.toText found entry.name after.name := by
  unfold set
  split
  all_goals
    refine .bind fun value hvalue => .pure ?_
    simp_all [RecordShape.Assigns]

theorem ofToml_name {members : List (String × Toml)} (hkeys : (keys members).Nodup) :
    (ofToml (.table members)).Yields fun entry => find? members "name" = some (.str entry.name) := by
  intro entry hentry
  have hsupplied : Toml.Supplies members "name" Toml.toText "" entry.name :=
    RecordShape.read_supplies set_name (fun h => h) hkeys empty entry hentry
  have hshape : ("name", .required) ∈ shape.fields := List.mem_cons_self
  have hgiven := RecordShape.read_required hshape entry hentry
  unfold Toml.Supplies at hsupplied
  rcases hfind : find? members "name" with _ | found
  · exact absurd hfind hgiven
  · rw [hfind] at hsupplied
    cases found with
    | str written =>
      obtain rfl := Except.ok.inj hsupplied
      rfl
    | _ => cases hsupplied

/-- The name and the host of the entry are those that lines of the passage write. -/
structure DeclaredIn (entry : TargetEntry) (passage : Passage) : Prop where
  name : ∀ text, entry.name = text ↔ ∃ line ∈ passage.lines, line.Writes "name" text
  host : ∀ text, entry.host = some text ↔ ∃ line ∈ passage.lines, line.Writes "host" text

theorem declaredIn_of_shows {item : Toml} {passage : Passage} (hshows : Shows item passage.block)
    (hitem : item.Ordered) {entry : TargetEntry} (hread : ofToml item = .ok entry) :
    entry.DeclaredIn passage := by
  obtain ⟨members, rfl, hmembers⟩ := hshows
  have hlines : ∀ key text, find? members key = some (.str text) ↔
      ∃ line ∈ passage.lines, line.Writes key text := fun key text =>
    (hmembers key text).trans List.mem_map
  have hname := ofToml_name hitem.nodup_keys entry hread
  have hwritten := ofToml_written hitem.nodup_keys entry hread
  refine ⟨fun text => ?_, fun text => ?_⟩
  · rw [← hlines, hname]
    simp
  · rw [← hlines]
    exact hwritten.host.some_text_iff text

end TargetEntry

namespace Manifest

/-- A text with headers for its targets has one passage for each of them, in their order. -/
theorem forall₂_declared {source : String} {manifest : Manifest} (h : ofText source = .ok manifest)
    (hsome : targetPassages source ≠ []) :
    List.Forall₂ TargetEntry.DeclaredIn manifest.targets (targetPassages source) := by
  obtain ⟨entries, hparse, hmanifest⟩ := ofText_eq_ok.1 h
  have hordered := parse?_ordered hparse
  obtain ⟨blocks, hread, -⟩ := Option.bind_eq_some_iff.1 hparse
  have hblocks := hread
  rw [readDocument_eq] at hblocks
  obtain ⟨passages, hpassages, rfl⟩ := Option.map_eq_some_iff.1 hblocks
  have helements : elements "targets" (passages.map Passage.block) =
      (targetPassages source).map Passage.block := by
    rw [elements, List.filter_map, targetPassages, hpassages]
    rfl
  have hsomeElements : elements "targets" (passages.map Passage.block) ≠ [] := by
    rw [helements]
    exact mt List.map_eq_nil_iff.1 hsome
  obtain ⟨items, hitems, hshows⟩ := parse?_elements hread hparse hsomeElements
  rw [helements, List.forall₂_map_right_iff] at hshows
  have hdecoded := forall₂_ofToml hordered.nodup_keys hmanifest hitems
  have hitemsOrdered : ∀ item ∈ items, item.Ordered := fun item hitem =>
    (hordered.of_find? hitems).of_mem_items hitem
  refine forall₂_trans hdecoded.flip ((List.forall₂_and_left _ _).2 ⟨hitemsOrdered, hshows⟩) ?_
  rintro entry item passage hread ⟨hitem, hpassage⟩
  exact TargetEntry.declaredIn_of_shows hpassage hitem hread

variable {source : String} {manifest : Manifest} {number : Nat}

/-- The target of a number has a name exactly if its passage has a line that writes the name. -/
theorem exists_writtenAt_name_iff
    (h : List.Forall₂ TargetEntry.DeclaredIn manifest.targets (targetPassages source)) {name : String} :
    (∃ line, WrittenAt source number "name" name line) ↔
      (manifest.targets.map TargetEntry.name)[number]? = some name := by
  rw [List.getElem?_map, Option.map_eq_some_iff]
  constructor
  · rintro ⟨line, passage, hpassage, hline, hwrites⟩
    obtain ⟨entry, hentry, hdeclared⟩ := exists_getElem?_of_forall₂ h.flip hpassage
    exact ⟨entry, hentry, (hdeclared.name name).2 ⟨line, hline, hwrites⟩⟩
  · rintro ⟨entry, hentry, hname⟩
    obtain ⟨passage, hpassage, hdeclared⟩ := exists_getElem?_of_forall₂ h hentry
    obtain ⟨line, hline, hwrites⟩ := (hdeclared.name name).1 hname
    exact ⟨line, passage, hpassage, hline, hwrites⟩

theorem exists_writtenAt_host
    (h : List.Forall₂ TargetEntry.DeclaredIn manifest.targets (targetPassages source))
    {entry : TargetEntry} (hentry : manifest.targets[number]? = some entry) {host : String}
    (hhost : entry.host = some host) : ∃ line, WrittenAt source number "host" host line := by
  obtain ⟨passage, hpassage, hdeclared⟩ := exists_getElem?_of_forall₂ h hentry
  obtain ⟨line, hline, hwrites⟩ := (hdeclared.host host).1 hhost
  exact ⟨line, passage, hpassage, hline, hwrites⟩

end Manifest

end ProjectCompiler
