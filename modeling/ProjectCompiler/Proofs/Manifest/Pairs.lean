import ProjectCompiler.Proofs.Manifest.Selection
import ProjectCompiler.Proofs.Text.Everywhere

/-!
# Pairs — the order in which pairs of a text are found

A name may stand in double quotes or in single ones. It is searched for in double quotes first, and pairs of
either kind are counted apart from those of the other. So a number is not that of a pair in the text, but
that of a pair among those with the same quotes. As soon as a text has pairs of both kinds, some of them are
never found, and what is found for the next number may stand further ahead.

- `Span.pairs`, `Span.quotedPairs`: where the pairs of a text stand, of both kinds or of one;
- `Span.PairsApart`: no pair overlaps another one;
- `Span.Enumerated`: the pairs are found one after the other, each of them once;
- `Span.exists_nth_pair`: what is found for a number, next to the pair of this number in the text;
- `Span.pairs_counted_by_quotes`: what every number leads to, and when all pairs are found.
-/

namespace ProjectCompiler

namespace Span

/-- Where the pairs begin that have a certain quote, in ascending order. -/
def quotedPairs (quote source key name : String) : List Nat :=
  Search.everywhere [pair key name quote] source

/-- Where the pairs begin, in ascending order, whichever quotes they have. -/
def pairs (source key name : String) : List Nat :=
  Search.everywhere (quotes.map (pair key name)) source

/-- Each pair begins when the ones before it have ended, whichever quotes they have. -/
def PairsApart (source key name : String) : Prop :=
  ∀ quote ∈ quotes, Search.Apart (pair key name quote) (pairs source key name)

/-- The name in a pair that begins at the offset. -/
def nameAt (key name : String) (offset : Nat) : Span :=
  ⟨offset + key.utf8ByteSize + 4, name.utf8ByteSize⟩

/-- The pairs are found one after the other: there is something to be found for as many numbers as there are
pairs, and it moves on in the text with the number. -/
structure Enumerated (source key name : String) : Prop where
  isSome_iff : ∀ number, (ofPair? source key name number).isSome = true ↔
    number < (pairs source key name).length
  ascending : ∀ earlier later first second, earlier < later →
    ofPair? source key name earlier = some first → ofPair? source key name later = some second →
      first.offset < second.offset

variable {source key name quote : String} {number offset : Nat}

/-! ## Pairs of both kinds -/

theorem mem_quotedPairs_iff :
    offset ∈ quotedPairs quote source key name ↔ Search.Occurs (pair key name quote) source offset :=
  Search.mem_everywhere_singleton_iff (pair_ne_empty key name quote)

theorem mem_pairs_iff :
    offset ∈ pairs source key name ↔ ∃ quote ∈ quotes, offset ∈ quotedPairs quote source key name := by
  have hpairs : ∀ pattern ∈ quotes.map (pair key name), pattern ≠ "" := by
    intro pattern hpattern
    obtain ⟨quote, -, rfl⟩ := List.mem_map.1 hpattern
    exact pair_ne_empty key name quote
  rw [pairs, Search.mem_everywhere_iff hpairs]
  simp only [List.mem_map, exists_exists_and_eq_and, mem_quotedPairs_iff]

theorem mem_pairs_iff_or :
    offset ∈ pairs source key name ↔
      offset ∈ quotedPairs "\"" source key name ∨ offset ∈ quotedPairs "'" source key name := by
  rw [mem_pairs_iff]
  simp only [quotes, List.mem_cons, List.not_mem_nil, or_false, exists_eq_or_imp, exists_eq_left]

theorem pairwise_pairs : (pairs source key name).Pairwise (· < ·) :=
  Search.pairwise_everywhere _ _

theorem pairwise_quotedPairs : (quotedPairs quote source key name).Pairwise (· < ·) :=
  Search.pairwise_everywhere _ _

/-- Where a pair stands, there is none with the other quotes. -/
theorem not_mem_quotedPairs_of_mem (h : offset ∈ quotedPairs "\"" source key name) :
    offset ∉ quotedPairs "'" source key name := by
  intro hsingle
  obtain ⟨before, after, rfl, rfl⟩ := mem_quotedPairs_iff.1 h
  obtain ⟨before', after', hsource, hbefore⟩ := mem_quotedPairs_iff.1 hsingle
  -- Both pairs would be of the same size, so that the text would be the same.
  have hsize : (pair key name "'").utf8ByteSize = (pair key name "\"").utf8ByteSize := by
    rw [utf8ByteSize_pair key name single_mem_quotes, utf8ByteSize_pair key name double_mem_quotes]
  have hselects := selects_append before' (pair key name "'") after'
  rw [← hsource, hbefore, hsize] at hselects
  have heq := (selects_append before (pair key name "\"") after).name_eq hselects
  have hlists := congrArg String.toList heq
  simp [pair, opening] at hlists

theorem filter_pairs (hquote : quote ∈ quotes) :
    (pairs source key name).filter (· ∈ quotedPairs quote source key name) =
      quotedPairs quote source key name := by
  refine (pairwise_pairs.filter _).eq_of_mem_iff pairwise_quotedPairs fun offset => ?_
  rw [List.mem_filter, decide_eq_true_eq, and_iff_right_iff_imp]
  exact fun hmem => mem_pairs_iff.2 ⟨quote, hquote, hmem⟩

/-- The pairs with a certain quote, and the others. -/
theorem pairs_perm (hquote : quote ∈ quotes) : (pairs source key name).Perm
    (quotedPairs quote source key name ++
      (pairs source key name).filter (· ∉ quotedPairs quote source key name)) := by
  have hperm := (pairs source key name).filter_append_perm (· ∈ quotedPairs quote source key name)
  rw [filter_pairs hquote] at hperm
  simpa only [decide_not] using hperm.symm

/-- There are as many pairs as there are with either kind of quotes. -/
theorem length_pairs (source key name : String) : (pairs source key name).length =
    (quotedPairs "\"" source key name).length + (quotedPairs "'" source key name).length := by
  have hothers : (pairs source key name).filter (· ∉ quotedPairs "\"" source key name) =
      quotedPairs "'" source key name := by
    refine (pairwise_pairs.filter _).eq_of_mem_iff pairwise_quotedPairs fun offset => ?_
    rw [List.mem_filter, decide_eq_true_eq, mem_pairs_iff_or]
    constructor
    · rintro ⟨hdouble | hsingle, hnot⟩
      · exact absurd hdouble hnot
      · exact hsingle
    · intro hsingle
      exact ⟨.inr hsingle, fun hdouble => not_mem_quotedPairs_of_mem hdouble hsingle⟩
  rw [(pairs_perm double_mem_quotes).length_eq, List.length_append, hothers]

/-- If all pairs have the same quotes, those with these quotes are all pairs. -/
theorem pairs_eq_quotedPairs (hquote : quote ∈ quotes)
    (h : ∀ offset ∈ pairs source key name, offset ∈ quotedPairs quote source key name) :
    pairs source key name = quotedPairs quote source key name := by
  rw [← filter_pairs hquote, eq_comm, List.filter_eq_self]
  exact fun offset hmem => decide_eq_true (h offset hmem)

/-! ## What is found -/

theorem PairsApart.quotedPairs (h : PairsApart source key name) (hquote : quote ∈ quotes) :
    Search.Apart (pair key name quote) (quotedPairs quote source key name) := by
  have hsublist : (Span.quotedPairs quote source key name).Sublist (pairs source key name) := by
    rw [← filter_pairs hquote]
    exact List.filter_sublist
  exact (h quote hquote).sublist hsublist

theorem ofQuotedPair?_eq_nameAt (h : PairsApart source key name) (hquote : quote ∈ quotes)
    (number : Nat) : ofQuotedPair? quote source key name number =
      (quotedPairs quote source key name)[number]?.map (nameAt key name) := by
  rw [ofQuotedPair?_eq, Search.occurrences_eq_everywhere (pair_ne_empty key name quote)
    (h.quotedPairs hquote)]
  rfl

/-- Whatever number is asked for, it is counted among the pairs in double quotes, and if there are too few of
them, among those in single quotes from the first one on. -/
theorem ofPair?_eq_or (h : PairsApart source key name) (number : Nat) :
    ofPair? source key name number = ((quotedPairs "\"" source key name)[number]?.or
      (quotedPairs "'" source key name)[number]?).map (nameAt key name) := by
  rw [ofPair?, ofQuotedPair?_eq_nameAt h double_mem_quotes,
    ofQuotedPair?_eq_nameAt h single_mem_quotes, Option.map_or]

theorem isSome_ofPair?_iff (h : PairsApart source key name) (number : Nat) :
    (ofPair? source key name number).isSome = true ↔
      number < max (quotedPairs "\"" source key name).length
        (quotedPairs "'" source key name).length := by
  rw [ofPair?_eq_or h, Option.isSome_map, Option.isSome_or, Bool.or_eq_true, lt_max_iff]
  simp only [isSome_getElem?]

/-- What is found has its number among the pairs with its quotes. In the text it is the pair of this number or
one behind it, and it is that one exactly if all pairs before it have the same quotes. -/
theorem exists_nth_pair (h : PairsApart source key name) {span : Span}
    (hspan : ofPair? source key name number = some span) :
    ∃ quote ∈ quotes, ∃ offset nth, (quotedPairs quote source key name)[number]? = some offset ∧
      span = nameAt key name offset ∧ (pairs source key name)[number]? = some nth ∧ nth ≤ offset ∧
      (nth = offset ↔
        ∀ other ∈ pairs source key name, other < offset → other ∈ quotedPairs quote source key name) := by
  obtain ⟨quote, hquote, offset, hoffset, rfl⟩ : ∃ quote ∈ quotes, ∃ offset,
      (quotedPairs quote source key name)[number]? = some offset ∧ nameAt key name offset = span := by
    rw [ofPair?_eq_or h] at hspan
    obtain ⟨offset, hfound, rfl⟩ := Option.map_eq_some_iff.1 hspan
    rcases Option.or_eq_some_iff.1 hfound with hdouble | ⟨-, hsingle⟩
    · exact ⟨"\"", double_mem_quotes, offset, hdouble, rfl⟩
    · exact ⟨"'", single_mem_quotes, offset, hsingle, rfl⟩
  obtain ⟨nth, hnth, hle, hiff⟩ :=
    Search.exists_nth pairwise_pairs pairwise_quotedPairs (pairs_perm hquote) hoffset
  refine ⟨quote, hquote, offset, nth, hoffset, rfl, hnth, hle, hiff.trans ?_⟩
  -- That none of the others is before it says the same as that all before it are not among the others.
  constructor
  · intro hothers other hother hbefore
    by_contra hnot
    have hle := hothers other (List.mem_filter.2 ⟨hother, decide_eq_true hnot⟩)
    omega
  · intro hbefore other hother
    obtain ⟨hmem, hnot⟩ := List.mem_filter.1 hother
    by_contra hlt
    exact of_decide_eq_true hnot (hbefore other hmem (Nat.lt_of_not_le hlt))

/-! ## When all pairs are found -/

/-- If all pairs are found, one kind of quotes does not occur. -/
theorem Enumerated.eq_nil (h : Enumerated source key name) (hapart : PairsApart source key name) :
    quotedPairs "\"" source key name = [] ∨ quotedPairs "'" source key name = [] := by
  -- The larger count is the first number that leads to nothing, so it is the number of all pairs.
  have hcount := (h.isSome_iff _).symm.trans (isSome_ofPair?_iff hapart
    (max (quotedPairs "\"" source key name).length (quotedPairs "'" source key name).length))
  rw [length_pairs] at hcount
  rw [← List.length_eq_zero_iff, ← List.length_eq_zero_iff]
  omega

theorem ofPair?_eq_nth (hapart : PairsApart source key name)
    (h : quotedPairs "\"" source key name = [] ∨ quotedPairs "'" source key name = []) (number : Nat) :
    ofPair? source key name number = (pairs source key name)[number]?.map (nameAt key name) := by
  rw [ofPair?_eq_or hapart]
  rcases h with hdouble | hsingle
  · have hpairs := pairs_eq_quotedPairs single_mem_quotes fun offset hmem =>
      (mem_pairs_iff_or.1 hmem).resolve_left fun hother => List.ne_nil_of_mem hother hdouble
    rw [hpairs, hdouble, List.getElem?_nil, Option.none_or]
  · have hpairs := pairs_eq_quotedPairs double_mem_quotes fun offset hmem =>
      (mem_pairs_iff_or.1 hmem).resolve_right fun hother => List.ne_nil_of_mem hother hsingle
    rw [hpairs, hsingle, List.getElem?_nil, Option.or_none]

theorem Enumerated.of_nth (h : ∀ number, ofPair? source key name number =
    (pairs source key name)[number]?.map (nameAt key name)) : Enumerated source key name := by
  refine ⟨fun number => ?_, fun earlier later first second hlt hfirst hsecond => ?_⟩
  · rw [h, Option.isSome_map, isSome_getElem?]
  · rw [h] at hfirst hsecond
    obtain ⟨start, hstart, rfl⟩ := Option.map_eq_some_iff.1 hfirst
    obtain ⟨next, hnext, rfl⟩ := Option.map_eq_some_iff.1 hsecond
    obtain ⟨hstart, rfl⟩ := List.getElem?_eq_some_iff.1 hstart
    obtain ⟨hnext, rfl⟩ := List.getElem?_eq_some_iff.1 hnext
    have hmoves : (pairs source key name)[earlier] < (pairs source key name)[later] :=
      pairwise_pairs.sortedLT.getElem_lt_getElem_of_lt hlt
    exact Nat.add_lt_add_right (Nat.add_lt_add_right hmoves _) _

/-- Where pairs do not overlap, a number counts the pairs in double quotes, or those in single quotes if there
are too few of the former. So numbers lead to something up to the larger count, although there are as many
pairs as both counts together. What is found for a number is never before the pair that has this number in
the text, and it is that pair exactly if all pairs before it have the same quotes. All pairs are found one
after the other exactly if one kind of quotes does not occur, and exactly if each number leads to the pair
that has it in the text. -/
theorem pairs_counted_by_quotes (hapart : PairsApart source key name) :
    (∀ number, ofPair? source key name number = ((quotedPairs "\"" source key name)[number]?.or
        (quotedPairs "'" source key name)[number]?).map (nameAt key name)) ∧
      (∀ number, (ofPair? source key name number).isSome = true ↔
        number < max (quotedPairs "\"" source key name).length
          (quotedPairs "'" source key name).length) ∧
      (pairs source key name).length =
        (quotedPairs "\"" source key name).length + (quotedPairs "'" source key name).length ∧
      (∀ number span, ofPair? source key name number = some span →
        ∃ quote ∈ quotes, ∃ offset nth, (quotedPairs quote source key name)[number]? = some offset ∧
          span = nameAt key name offset ∧ (pairs source key name)[number]? = some nth ∧ nth ≤ offset ∧
          (nth = offset ↔ ∀ other ∈ pairs source key name, other < offset →
            other ∈ quotedPairs quote source key name)) ∧
      (Enumerated source key name ↔
        quotedPairs "\"" source key name = [] ∨ quotedPairs "'" source key name = []) ∧
      (Enumerated source key name ↔ ∀ number, ofPair? source key name number =
        (pairs source key name)[number]?.map (nameAt key name)) := by
  refine ⟨ofPair?_eq_or hapart, isSome_ofPair?_iff hapart, length_pairs source key name,
    fun number span hspan => exists_nth_pair hapart hspan, ?_, ?_⟩
  · constructor
    · intro henumerated
      exact henumerated.eq_nil hapart
    · intro hsame
      exact Enumerated.of_nth (ofPair?_eq_nth hapart hsame)
  · constructor
    · intro henumerated
      exact ofPair?_eq_nth hapart (henumerated.eq_nil hapart)
    · exact Enumerated.of_nth

/-- Two targets of one name, the first of them in single quotes. The label for the first is put at the second,
and that for the second is missing. -/
theorem second_target_shown_first :
    let text := "[project]\nname = \"Demo\"\n\n" ++
      "[[targets]]\nname = 'App'\ntype = \"application\"\nplatform = \"ios\"\n" ++
      "deployment_target = \"15.0\"\n\n" ++
      "[[targets]]\nname = \"App\"\ntype = \"framework\"\nplatform = \"ios\"\n" ++
      "deployment_target = \"15.0\"\n"
    let error := ManifestError.invalid Manifest.defaultFileName text (.duplicateTarget "App")
    Manifest.parse text Manifest.defaultFileName = .error error ∧
      error.labels = [⟨"first declared here", ⟨136, 3⟩⟩] ∧ PairsApart text "name" "App" ∧
      pairs text "name" "App" = [37, 128] ∧ nameAt "name" "App" 37 = ⟨45, 3⟩ ∧
      ofPair? text "name" "App" 0 = some ⟨136, 3⟩ ∧ ofPair? text "name" "App" 1 = none ∧
      ¬ Enumerated text "name" "App" := by
  intro text error
  have herror : Manifest.parse text Manifest.defaultFileName = .error error := by
    apply Manifest.parse_eq_invalid
    unfold Toml.parse? Toml.readDocument
    simp only [text, String.toList_append]
    repeat rw [String.toList_ofList]
    decide +kernel
  obtain ⟨hpairs, hdouble, hsingle⟩ : pairs text "name" "App" = [37, 128] ∧
      quotedPairs "\"" text "name" "App" = [128] ∧ quotedPairs "'" text "name" "App" = [37] := by
    unfold pairs quotedPairs quotes Search.everywhere pair opening
    simp only [text, List.map_cons, List.map_nil, String.toList_append]
    repeat rw [String.toList_ofList]
    decide +kernel
  have hsizes : "name".utf8ByteSize = 4 ∧ "App".utf8ByteSize = 3 := by decide +kernel
  have hapart : PairsApart text "name" "App" := by
    intro quote hquote
    rw [hpairs, Search.Apart, utf8ByteSize_pair "name" "App" hquote, hsizes.1, hsizes.2]
    decide
  obtain ⟨hfound, -, -, -, henumerated, -⟩ := pairs_counted_by_quotes hapart
  have hname : ∀ offset, nameAt "name" "App" offset = ⟨offset + 8, 3⟩ := by
    intro offset
    rw [nameAt, hsizes.1, hsizes.2]
  have hfirst : ofPair? text "name" "App" 0 = some ⟨136, 3⟩ := by
    rw [hfound, hdouble, hsingle]
    exact congrArg some (hname 128)
  have hsecond : ofPair? text "name" "App" 1 = none := by
    rw [hfound, hdouble, hsingle]
    rfl
  refine ⟨herror, ?_, hapart, hpairs, hname 37, hfirst, hsecond, ?_⟩
  · simp only [error, ManifestError.labels, Violation.labels, Violation.places, hfirst, hsecond]
    rfl
  · rw [henumerated, hdouble, hsingle]
    decide

end Span

end ProjectCompiler
