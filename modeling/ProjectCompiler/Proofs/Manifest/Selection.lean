import ProjectCompiler.Manifest.Error
import ProjectCompiler.Proofs.Manifest.Decoding
import ProjectCompiler.Proofs.Text.Search

/-!
# Selection — what a label selects from the text

A label is found by its bytes: the search gives an offset, and sizes are added to it. What is selected in
the end is the very name that the label is about, neither cut off nor running over the end of the text, and
no character is split, however many bytes the characters take.

- `Span.Selects`: a selection that can be shown, of a certain name;
- `Violation.subject?`: the name that the labels of a violation are about;
- `Span.ofPair?_eq_some`, `Span.ofPair?_eq_none_iff`: what a search for a pair comes to;
- `Manifest.labels_select_names`: what the labels of every error select.
-/

namespace ProjectCompiler

/-! ## Selections -/

/-- The span lies inside the text and does not split a character at either end, and its bytes are those of
the name. -/
structure Span.Selects (span : Span) (text name : String) : Prop where
  inside : span.offset + span.length ≤ text.utf8ByteSize
  start : String.Pos.Raw.IsValid text ⟨span.offset⟩
  stop : String.Pos.Raw.IsValid text ⟨span.offset + span.length⟩
  bytes : text.toByteArray.extract span.offset (span.offset + span.length) = name.toByteArray

/-- A span selects a single name. -/
theorem Span.Selects.name_eq {span : Span} {text name other : String} (h : span.Selects text name)
    (hother : span.Selects text other) : name = other :=
  String.toByteArray_inj.1 (h.bytes.symm.trans hother.bytes)

theorem Span.selects_append (before name after : String) :
    Span.Selects ⟨before.utf8ByteSize, name.utf8ByteSize⟩ (before ++ name ++ after) name := by
  have hsize : (before ++ name).utf8ByteSize = before.utf8ByteSize + name.utf8ByteSize :=
    String.utf8ByteSize_append
  refine ⟨?_, ?_, ?_, ?_⟩
  · rw [String.utf8ByteSize_append, hsize]
    exact Nat.le_add_right _ _
  · apply String.Pos.Raw.isValid_iff_exists_append.2
    exact ⟨before, name ++ after, String.append_assoc, rfl⟩
  · apply String.Pos.Raw.isValid_iff_exists_append.2
    exact ⟨before ++ name, after, rfl, congrArg String.Pos.Raw.mk hsize.symm⟩
  · calc (before ++ name ++ after).toByteArray.extract before.utf8ByteSize
          (before.utf8ByteSize + name.utf8ByteSize)
        = (before.toByteArray ++ (name.toByteArray ++ after.toByteArray)).extract
            (before.toByteArray.size + 0) (before.toByteArray.size + name.toByteArray.size) := by
          simp only [String.toByteArray_append, ByteArray.append_assoc, String.size_toByteArray,
            Nat.add_zero]
      _ = (name.toByteArray ++ after.toByteArray).extract 0 name.toByteArray.size :=
          ByteArray.extract_append_size_add
      _ = name.toByteArray := ByteArray.extract_append_eq_left rfl

/-! ## Pairs -/

namespace Span

/-- The quotes that a name may stand in. -/
def quotes : List String :=
  ["\"", "'"]

theorem double_mem_quotes : "\"" ∈ quotes :=
  List.mem_cons_self

theorem single_mem_quotes : "'" ∈ quotes :=
  List.mem_cons_of_mem _ List.mem_cons_self

/-- What stands before the name of a pair. -/
def opening (key quote : String) : String :=
  key ++ " = " ++ quote

/-- A name under a key, with a quote on either side. -/
def pair (key name quote : String) : String :=
  opening key quote ++ name ++ quote

variable {source key name quote : String} {occurrence : Nat} {span : Span}

theorem pair_ne_empty (key name quote : String) : pair key name quote ≠ "" := by
  intro hempty
  have hlist := congrArg String.toList hempty
  simp [pair, opening] at hlist

theorem utf8ByteSize_quote (hquote : quote ∈ quotes) : quote.utf8ByteSize = 1 := by
  revert quote
  decide

theorem utf8ByteSize_opening (key : String) (hquote : quote ∈ quotes) :
    (opening key quote).utf8ByteSize = key.utf8ByteSize + 4 := by
  have hsign : " = ".utf8ByteSize = 3 := by decide
  rw [opening, String.utf8ByteSize_append, String.utf8ByteSize_append, utf8ByteSize_quote hquote, hsign]

/-- Pairs of a key and a name are of one size, whichever quotes they have. -/
theorem utf8ByteSize_pair (key name : String) (hquote : quote ∈ quotes) :
    (pair key name quote).utf8ByteSize = key.utf8ByteSize + name.utf8ByteSize + 5 := by
  rw [pair, String.utf8ByteSize_append, String.utf8ByteSize_append, utf8ByteSize_opening key hquote,
    utf8ByteSize_quote hquote]
  omega

theorem ofQuotedPair?_eq (quote source key name : String) (occurrence : Nat) :
    ofQuotedPair? quote source key name occurrence =
      (Search.occurrences (pair key name quote) source)[occurrence]?.map
        fun offset => ⟨offset + key.utf8ByteSize + 4, name.utf8ByteSize⟩ :=
  rfl

/-- A span that is found is that of the name in a pair of the text. -/
theorem ofPair?_eq_some (h : ofPair? source key name occurrence = some span) :
    ∃ quote ∈ quotes, ∃ before after, source = before ++ opening key quote ++ name ++ quote ++ after ∧
      span = ⟨(before ++ opening key quote).utf8ByteSize, name.utf8ByteSize⟩ := by
  obtain ⟨quote, hquote, hfound⟩ : ∃ quote ∈ quotes,
      ofQuotedPair? quote source key name occurrence = some span := by
    rcases Option.or_eq_some_iff.1 h with hdouble | ⟨-, hsingle⟩
    · exact ⟨"\"", double_mem_quotes, hdouble⟩
    · exact ⟨"'", single_mem_quotes, hsingle⟩
  rw [ofQuotedPair?_eq] at hfound
  obtain ⟨offset, hoffset, rfl⟩ := Option.map_eq_some_iff.1 hfound
  obtain ⟨before, after, hsource, rfl⟩ := Search.occurs_of_mem (List.mem_of_getElem? hoffset)
  refine ⟨quote, hquote, before, after, ?_, ?_⟩
  · simpa only [pair, String.append_assoc] using hsource
  · rw [String.utf8ByteSize_append, utf8ByteSize_opening key hquote, Nat.add_assoc]

theorem ofPair?_selects (h : ofPair? source key name occurrence = some span) :
    span.Selects source name := by
  obtain ⟨quote, -, before, after, hsource, rfl⟩ := ofPair?_eq_some h
  have hselects := selects_append (before ++ opening key quote) name (quote ++ after)
  rwa [← String.append_assoc, ← hsource] at hselects

/-- Nothing is found exactly if neither kind of quotes has enough pairs that do not overlap. -/
theorem ofPair?_eq_none_iff : ofPair? source key name occurrence = none ↔
    ∀ quote ∈ quotes, ∀ offsets,
      (∀ offset ∈ offsets, Search.Occurs (pair key name quote) source offset) →
        Search.Apart (pair key name quote) offsets → offsets.length ≤ occurrence := by
  rw [ofPair?, Option.or_eq_none_iff, ofQuotedPair?_eq, ofQuotedPair?_eq, Option.map_eq_none_iff,
    Option.map_eq_none_iff, Search.getElem?_occurrences_eq_none_iff (pair_ne_empty _ _ _),
    Search.getElem?_occurrences_eq_none_iff (pair_ne_empty _ _ _)]
  simp only [quotes, List.mem_cons, List.not_mem_nil, or_false, forall_eq_or_imp, forall_eq]

/-- What is found for an override is the end of the path in a header. -/
theorem ofOverride?_selects {configuration : String} (h : ofOverride? source configuration = some span) :
    span.Selects source configuration := by
  obtain ⟨offset, hoffset, rfl⟩ := Option.map_eq_some_iff.1 h
  obtain ⟨before, after, hsource, rfl⟩ := Search.occurs_of_mem (List.mem_of_head? hoffset)
  have hselects := selects_append (before ++ overridePath) configuration ("]" ++ after)
  simp only [← String.append_assoc, String.utf8ByteSize_append] at hselects hsource
  rwa [hsource]

end Span

/-! ## Labels -/

namespace Violation

/-- The name that the labels of a violation are about: that of a target, of a host or of a
configuration. -/
def subject? : Violation → Option String
  | blankProjectName => none
  | undeclaredDefault configuration => some configuration
  | duplicateTarget name => some name
  | missingHost target => some target
  | unwantedHost _ _ host => some host
  | unknownHost _ host => some host
  | nestedHost _ host => some host
  | missingPlatform target => some target
  | missingDeploymentTarget target => some target
  | undeclaredOverride _ configuration => some configuration

variable {source : String} {violation : Violation}

theorem selects_of_mem_places {place : String × Option Span} (h : place ∈ violation.places source)
    {span : Span} (hspan : place.2 = some span) :
    ∃ name, violation.subject? = some name ∧ span.Selects source name := by
  -- Each place is either that of a pair or that of an override.
  have hpair : ∀ {key name : String} {occurrence : Nat},
      place.2 = Span.ofPair? source key name occurrence → violation.subject? = some name →
        ∃ name, violation.subject? = some name ∧ span.Selects source name :=
    fun hplace hname => ⟨_, hname, Span.ofPair?_selects (hplace.symm.trans hspan)⟩
  cases violation with
  | blankProjectName => cases h
  | duplicateTarget name =>
    rcases List.mem_pair.1 h with rfl | rfl
    · exact hpair rfl rfl
    · exact hpair rfl rfl
  | undeclaredOverride target configuration =>
    obtain rfl := List.mem_singleton.1 h
    exact ⟨configuration, rfl, Span.ofOverride?_selects hspan⟩
  | _ =>
    obtain rfl := List.mem_singleton.1 h
    exact hpair rfl rfl

theorem selects_of_mem_labels {label : Label} (h : label ∈ violation.labels source) :
    ∃ name, violation.subject? = some name ∧ label.span.Selects source name := by
  obtain ⟨place, hplace, hlabel⟩ := List.mem_filterMap.1 h
  obtain ⟨span, hspan, rfl⟩ := Option.map_eq_some_iff.1 hlabel
  exact selects_of_mem_places hplace hspan

end Violation

namespace Manifest

variable {source sourceName : String}

/-- A text that is no manifest is unparsable, or has a violation, which is told about this text. -/
theorem parse_eq_error {error : ManifestError} (h : parse source sourceName = .error error) :
    (∃ fault, ofText source = .error fault ∧ error = .unparsable sourceName fault) ∨
      ∃ manifest violation, ofText source = .ok manifest ∧ manifest.validate = .error violation ∧
        error = .invalid sourceName source violation := by
  rw [parse] at h
  rcases htext : ofText source with fault | manifest
  · rw [htext] at h
    exact .inl ⟨fault, rfl, (Except.error.inj h).symm⟩
  · rw [htext] at h
    dsimp only at h
    rcases hvalidate : manifest.validate with violation | ⟨⟩
    · rw [hvalidate] at h
      exact .inr ⟨manifest, violation, rfl, hvalidate, (Except.error.inj h).symm⟩
    · rw [hvalidate] at h
      cases h

/-- What a text decodes to decides what is wrong with it. -/
theorem parse_eq_invalid {violation : Violation} (h : (Toml.parse? source).any (fun entries =>
      (ofToml (.table entries)).toOption.any fun manifest =>
        decide (manifest.validate = .error violation)) = true) :
    parse source sourceName = .error (.invalid sourceName source violation) := by
  obtain ⟨entries, hentries, hchecked⟩ := (Option.any_eq_true _ _).1 h
  rcases hmanifest : ofToml (.table entries) with fault | manifest
  · rw [hmanifest] at hchecked
    cases hchecked
  · rw [hmanifest] at hchecked
    have htext : ofText source = .ok manifest := ofText_eq_ok.2 ⟨entries, hentries, hmanifest⟩
    have hviolation : manifest.validate = .error violation := of_decide_eq_true hchecked
    rw [parse, htext]
    dsimp only
    rw [hviolation]

/-- Whatever is wrong with a text, each label selects the name that it is about. A search for a pair selects
the name in a pair of the text, between two quotes of one kind, and comes to nothing exactly if there are not
enough pairs of either kind that keep apart. -/
theorem labels_select_names :
    (∀ source sourceName error, parse source sourceName = .error error → ∀ label ∈ error.labels,
      ∃ violation name, error = .invalid sourceName source violation ∧
        violation.subject? = some name ∧ label.span.Selects source name) ∧
    ∀ source key name occurrence,
      (∀ span, Span.ofPair? source key name occurrence = some span →
        span.Selects source name ∧
          ∃ quote ∈ Span.quotes, ∃ before after,
            source = before ++ key ++ " = " ++ quote ++ name ++ quote ++ after ∧
            span.offset = (before ++ key ++ " = " ++ quote).utf8ByteSize) ∧
      (Span.ofPair? source key name occurrence = none ↔
        ∀ quote ∈ Span.quotes, ∀ offsets,
          (∀ offset ∈ offsets,
            Search.Occurs (key ++ " = " ++ quote ++ name ++ quote) source offset) →
          Search.Apart (key ++ " = " ++ quote ++ name ++ quote) offsets →
            offsets.length ≤ occurrence) := by
  refine ⟨?_, fun source key name occurrence => ⟨fun span hspan => ?_, Span.ofPair?_eq_none_iff⟩⟩
  · intro source sourceName error herror label hlabel
    rcases parse_eq_error herror with ⟨fault, -, rfl⟩ | ⟨manifest, violation, -, -, rfl⟩
    · cases hlabel
    · obtain ⟨name, hname, hselects⟩ := Violation.selects_of_mem_labels hlabel
      exact ⟨violation, name, rfl, hname, hselects⟩
  · obtain ⟨quote, hquote, before, after, hsource, hoffset⟩ := Span.ofPair?_eq_some hspan
    refine ⟨Span.ofPair?_selects hspan, quote, hquote, before, after, ?_, ?_⟩
    · simpa only [Span.opening, String.append_assoc] using hsource
    · simp only [hoffset, Span.opening, String.append_assoc]

/-- A name that takes more bytes than characters. -/
theorem accented_name_selected :
    let text := "[project]\nname = \"Demo\"\n\n" ++
      "[[targets]]\nname = \"Größe\"\ntype = \"application\"\nplatform = \"ios\"\n" ++
      "deployment_target = \"15.0\"\n\n" ++
      "[[targets]]\nname = \"Größe\"\ntype = \"framework\"\n"
    let error := ManifestError.invalid defaultFileName text (.duplicateTarget "Größe")
    parse text defaultFileName = .error error ∧
      error.labels =
        [⟨"first declared here", ⟨45, 7⟩⟩, ⟨"declared again here", ⟨140, 7⟩⟩] ∧
      (∀ label ∈ error.labels, label.span.Selects text "Größe") ∧
      Span.ofPair? text "name" "Größe" 2 = none ∧
      ∀ offsets, (∀ offset ∈ offsets, Search.Occurs (Span.pair "name" "Größe" "\"") text offset) →
        Search.Apart (Span.pair "name" "Größe" "\"") offsets → offsets.length ≤ 2 := by
  intro text error
  have herror : parse text defaultFileName = .error error := by
    apply parse_eq_invalid
    unfold Toml.parse? Toml.readDocument
    -- A literal is known by its characters; finding each of them in its bytes would take long.
    simp only [text, String.toList_append]
    repeat rw [String.toList_ofList]
    decide +kernel
  have hoccurrences : Search.occurrences (Span.pair "name" "Größe" "\"") text = [37, 132] ∧
      Search.occurrences (Span.pair "name" "Größe" "'") text = [] := by
    unfold Search.occurrences Span.pair Span.opening
    simp only [text, String.toList_append]
    repeat rw [String.toList_ofList]
    decide +kernel
  have hfound : ∀ occurrence, Span.ofPair? text "name" "Größe" occurrence =
      ([37, 132][occurrence]?.map fun offset => ⟨offset + 4 + 4, 7⟩) := by
    intro occurrence
    have hsizes : "name".utf8ByteSize = 4 ∧ "Größe".utf8ByteSize = 7 := by decide +kernel
    rw [Span.ofPair?, Span.ofQuotedPair?_eq, Span.ofQuotedPair?_eq, hoccurrences.1, hoccurrences.2,
      hsizes.1, hsizes.2]
    simp
  obtain ⟨hlabels, hpairs⟩ := labels_select_names
  obtain ⟨-, hnone⟩ := hpairs text "name" "Größe" 2
  refine ⟨herror, ?_, fun label hlabel => ?_, hfound 2, ?_⟩
  · simp only [error, ManifestError.labels, Violation.labels, Violation.places, hfound]
    rfl
  · obtain ⟨violation, name, hsame, hname, hselects⟩ := hlabels _ _ _ herror label hlabel
    obtain ⟨-, -, rfl⟩ := ManifestError.invalid.inj hsame
    cases hname
    exact hselects
  · exact hnone.1 (hfound 2) "\"" Span.double_mem_quotes

end Manifest

end ProjectCompiler
