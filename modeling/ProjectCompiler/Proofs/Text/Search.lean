import Mathlib.Data.String.Basic
import ProjectCompiler.Text.Search

/-!
# Search — what a search from the left finds

A search from the left takes the first occurrence of a pattern, goes on behind its end, takes the next one,
and so on. It passes over occurrences that begin within one it has taken. Still no selection of occurrences
that keep apart is larger, and none comes to its n-th occurrence earlier.

- `Search.Occurs`: the pattern stands at an offset, said without a search;
- `Search.Apart`: offsets of occurrences that do not overlap;
- `Search.occurs_of_mem`, `Search.apart_occurrences`: what is found are occurrences that keep apart;
- `Search.exists_found_le`: what is found comes first;
- `Search.Leads`, `Search.exists_found_iff`: when a certain occurrence is the one that is found;
- `Search.getElem?_occurrences_eq_none_iff`: when there are too few of them.
-/

namespace ProjectCompiler

namespace Search

/-- The pattern stands in the text, from the offset on. -/
def Occurs (pattern text : String) (offset : Nat) : Prop :=
  ∃ before after, text = before ++ pattern ++ after ∧ before.utf8ByteSize = offset

/-- From left to right, each occurrence of the pattern begins when the ones before it have ended. -/
def Apart (pattern : String) (offsets : List Nat) : Prop :=
  offsets.Pairwise fun first second => first + pattern.utf8ByteSize ≤ second

/-! ## Occurrences in what is left of a text -/

/-- The pattern stands in what is left of a text from `start` on. -/
def OccursFrom (pattern : List Char) (start : Nat) (input : List Char) (offset : Nat) : Prop :=
  ∃ before after, input = before ++ pattern ++ after ∧ start + String.utf8Len before = offset

theorem utf8Len_toList (text : String) : String.utf8Len text.toList = text.utf8ByteSize := by
  rw [← String.utf8ByteSize_ofList, String.ofList_toList]

theorem occurs_iff_occursFrom {pattern text : String} {offset : Nat} :
    Occurs pattern text offset ↔ OccursFrom pattern.toList 0 text.toList offset := by
  constructor
  · rintro ⟨before, after, rfl, rfl⟩
    refine ⟨before.toList, after.toList, ?_, ?_⟩
    · simp only [String.toList_append]
    · rw [utf8Len_toList, Nat.zero_add]
  · rintro ⟨before, after, htext, rfl⟩
    refine ⟨String.ofList before, String.ofList after, ?_, ?_⟩
    · apply String.toList_inj.1
      simpa only [String.toList_append, String.toList_ofList] using htext
    · rw [String.utf8ByteSize_ofList, Nat.zero_add]

variable {pattern : List Char} {start offset : Nat} {input : List Char}

theorem not_occursFrom_nil (hpattern : pattern ≠ []) : ¬ OccursFrom pattern start [] offset := by
  rintro ⟨before, after, hinput, -⟩
  have hnil : before ++ pattern ++ after = [] := hinput.symm
  simp [hpattern] at hnil

/-- An occurrence is at the first character or behind it. -/
theorem occursFrom_cons_iff {c : Char} {rest : List Char} :
    OccursFrom pattern start (c :: rest) offset ↔
      (offset = start ∧ pattern <+: c :: rest) ∨
        OccursFrom pattern (start + c.utf8Size) rest offset := by
  constructor
  · rintro ⟨before, after, hinput, rfl⟩
    cases before with
    | nil => exact .inl ⟨rfl, after, by simpa using hinput.symm⟩
    | cons first before =>
      obtain ⟨rfl, hrest⟩ := List.cons.inj hinput
      refine .inr ⟨before, after, hrest, ?_⟩
      rw [String.utf8Len_cons]
      omega
  · rintro (⟨rfl, after, hstands⟩ | ⟨before, after, rfl, rfl⟩)
    · exact ⟨[], after, by simpa using hstands.symm, rfl⟩
    · refine ⟨c :: before, after, rfl, ?_⟩
      rw [String.utf8Len_cons]
      omega

/-- What begins behind the first character is still there without it. -/
theorem OccursFrom.of_lt {c : Char} {rest : List Char} (h : OccursFrom pattern start (c :: rest) offset)
    (hlt : start < offset) : OccursFrom pattern (start + c.utf8Size) rest offset :=
  (occursFrom_cons_iff.1 h).resolve_left fun hhere => hlt.ne' hhere.1

/-! ## What is found -/

/-- What is found are occurrences, and none of them within the characters to pass over. -/
theorem mem_occurrencesFrom (skip : Nat) (h : offset ∈ occurrencesFrom pattern skip start input) :
    OccursFrom pattern start input offset ∧ start + String.utf8Len (input.take skip) ≤ offset := by
  induction input generalizing skip start with
  | nil => cases h
  | cons c rest ih =>
    cases skip with
    | succ skip =>
      obtain ⟨hoccurs, hle⟩ := ih skip h
      refine ⟨occursFrom_cons_iff.2 (.inr hoccurs), ?_⟩
      rw [List.take_succ_cons, String.utf8Len_cons]
      omega
    | zero =>
      -- Nothing is passed over, so that only a lower bound is left to show.
      suffices hfound : OccursFrom pattern start (c :: rest) offset ∧ start ≤ offset from hfound
      rw [occurrencesFrom] at h
      split at h
      · rename_i hstands
        rcases List.mem_cons.1 h with rfl | hlater
        · exact ⟨occursFrom_cons_iff.2 (.inl ⟨rfl, List.isPrefixOf_iff_prefix.1 hstands⟩), le_rfl⟩
        · obtain ⟨hoccurs, hle⟩ := ih _ hlater
          exact ⟨occursFrom_cons_iff.2 (.inr hoccurs), by omega⟩
      · obtain ⟨hoccurs, hle⟩ := ih _ h
        exact ⟨occursFrom_cons_iff.2 (.inr hoccurs), by omega⟩

/-- Behind its first character, the end of an occurrence is as far away as its other characters are long. -/
theorem utf8Len_take_of_prefix {c : Char} {rest : List Char} (hpattern : pattern ≠ [])
    (hstands : pattern <+: c :: rest) :
    c.utf8Size + String.utf8Len (rest.take (pattern.length - 1)) = String.utf8Len pattern := by
  obtain ⟨first, others, rfl⟩ := List.exists_cons_of_ne_nil hpattern
  obtain ⟨rfl, hothers⟩ := List.cons_prefix_cons.1 hstands
  rw [List.length_cons, Nat.add_sub_cancel, ← List.prefix_iff_eq_take.1 hothers, String.utf8Len_cons,
    Nat.add_comm]

theorem pairwise_occurrencesFrom (hpattern : pattern ≠ []) (skip : Nat) :
    (occurrencesFrom pattern skip start input).Pairwise
      fun first second => first + String.utf8Len pattern ≤ second := by
  induction input generalizing skip start with
  | nil => exact List.Pairwise.nil
  | cons c rest ih =>
    cases skip with
    | succ skip => exact ih skip
    | zero =>
      rw [occurrencesFrom]
      split
      · rename_i hstands
        refine List.pairwise_cons.2 ⟨fun later hlater => ?_, ih _⟩
        obtain ⟨-, hle⟩ := mem_occurrencesFrom _ hlater
        have hlength := utf8Len_take_of_prefix hpattern (List.isPrefixOf_iff_prefix.1 hstands)
        omega
      · exact ih 0

/-- However occurrences that keep apart are selected, what is found stays ahead of them. -/
theorem exists_found_le_from (hpattern : pattern ≠ []) (skip : Nat) {offsets : List Nat}
    (hoccurs : ∀ offset ∈ offsets, OccursFrom pattern start input offset)
    (hskip : ∀ offset ∈ offsets, start + String.utf8Len (input.take skip) ≤ offset)
    (hapart : offsets.Pairwise fun first second => first + String.utf8Len pattern ≤ second)
    {number : Nat} (hoffset : offsets[number]? = some offset) :
    ∃ found, (occurrencesFrom pattern skip start input)[number]? = some found ∧ found ≤ offset := by
  induction input generalizing skip start offsets number with
  | nil => exact absurd (hoccurs _ (List.mem_of_getElem? hoffset)) (not_occursFrom_nil hpattern)
  | cons c rest ih =>
    cases skip with
    | succ skip =>
      -- Whatever begins behind the characters to pass over does not begin with this one.
      have hbehind : ∀ offset ∈ offsets,
          start + c.utf8Size + String.utf8Len (rest.take skip) ≤ offset := by
        intro offset hmem
        have hle := hskip offset hmem
        rw [List.take_succ_cons, String.utf8Len_cons] at hle
        omega
      refine ih skip (fun offset hmem => (hoccurs offset hmem).of_lt ?_) hbehind hapart hoffset
      have hpositive := c.utf8Size_pos
      have hle := hbehind offset hmem
      omega
    | zero =>
      rw [occurrencesFrom]
      split
      · -- The first one found is at the first character, where nothing can be ahead of it.
        rename_i hstands
        have hlength := utf8Len_take_of_prefix hpattern (List.isPrefixOf_iff_prefix.1 hstands)
        obtain ⟨first, others, rfl⟩ : ∃ first others, offsets = first :: others := by
          cases offsets with
          | nil => cases hoffset
          | cons first others => exact ⟨first, others, rfl⟩
        have hfirst : start ≤ first := hskip first List.mem_cons_self
        obtain ⟨hends, hothers⟩ := List.pairwise_cons.1 hapart
        cases number with
        | zero =>
          obtain rfl : first = offset := Option.some.inj hoffset
          exact ⟨start, rfl, hfirst⟩
        | succ number =>
          have hpositive := c.utf8Size_pos
          refine ih (pattern.length - 1) (fun other hmem => ?_) (fun other hmem => ?_) hothers hoffset
          · have hend := hends other hmem
            exact (hoccurs other (List.mem_cons_of_mem _ hmem)).of_lt (by omega)
          · have hend := hends other hmem
            omega
      · rename_i hnot
        have hrest : ∀ offset ∈ offsets, OccursFrom pattern (start + c.utf8Size) rest offset :=
          fun offset hmem => (occursFrom_cons_iff.1 (hoccurs offset hmem)).resolve_left
            fun hhere => hnot (List.isPrefixOf_iff_prefix.2 hhere.2)
        refine ih 0 hrest (fun offset hmem => ?_) hapart hoffset
        obtain ⟨before, -, -, rfl⟩ := hrest offset hmem
        exact Nat.le_add_right _ _

end Search

/-! ## Searching a text -/

namespace Search

variable {pattern text : String} {offset : Nat}

theorem occurs_of_mem (h : offset ∈ occurrences pattern text) : Occurs pattern text offset :=
  occurs_iff_occursFrom.2 (mem_occurrencesFrom 0 h).1

theorem toList_ne_nil (hpattern : pattern ≠ "") : pattern.toList ≠ [] := by
  simpa using hpattern

theorem apart_occurrences (hpattern : pattern ≠ "") (text : String) :
    Apart pattern (occurrences pattern text) := by
  rw [Apart, ← utf8Len_toList]
  exact pairwise_occurrencesFrom (toList_ne_nil hpattern) 0

/-- Of any occurrences that keep apart, none comes before the one that is found as its number. -/
theorem exists_found_le (hpattern : pattern ≠ "") {offsets : List Nat}
    (hoccurs : ∀ offset ∈ offsets, Occurs pattern text offset) (hapart : Apart pattern offsets)
    {number : Nat} (hoffset : offsets[number]? = some offset) :
    ∃ found, (occurrences pattern text)[number]? = some found ∧ found ≤ offset := by
  rw [Apart, ← utf8Len_toList] at hapart
  refine exists_found_le_from (toList_ne_nil hpattern) 0 (fun offset hmem => ?_)
    (fun offset _ => ?_) hapart hoffset
  · exact occurs_iff_occursFrom.1 (hoccurs offset hmem)
  · exact Nat.zero_le offset

/-- As many occurrences are found as there are such that keep apart. -/
theorem getElem?_occurrences_eq_none_iff (hpattern : pattern ≠ "") {number : Nat} :
    (occurrences pattern text)[number]? = none ↔
      ∀ offsets, (∀ offset ∈ offsets, Occurs pattern text offset) → Apart pattern offsets →
        offsets.length ≤ number := by
  constructor
  · intro hnone offsets hoccurs hapart
    by_contra hmore
    have hoffset := List.getElem?_eq_getElem (Nat.lt_of_not_le hmore)
    obtain ⟨found, hfound, -⟩ := exists_found_le hpattern hoccurs hapart hoffset
    rw [hnone] at hfound
    cases hfound
  · intro h
    exact List.getElem?_eq_none (h _ (fun _ => occurs_of_mem) (apart_occurrences hpattern text))

/-- However occurrences are selected that keep apart, the one of this number is not before the offset. -/
def Leads (pattern text : String) (number offset : Nat) : Prop :=
  ∀ offsets, (∀ other ∈ offsets, Occurs pattern text other) → Apart pattern offsets →
    ∀ other, offsets[number]? = some other → offset ≤ other

/-- The first place is only for an occurrence that has none before it. -/
theorem leads_zero_iff :
    Leads pattern text 0 offset ↔ ∀ other, Occurs pattern text other → offset ≤ other := by
  constructor
  · intro hleads other hother
    exact hleads [other] (List.forall_mem_singleton.2 hother) (List.pairwise_singleton _ _) other rfl
  · intro h offsets hoccurs _ other hother
    exact h other (hoccurs other (List.mem_of_getElem? hother))

/-- The second place is only for an occurrence that has no two before it of which one begins behind the
other. -/
theorem leads_one_iff :
    Leads pattern text 1 offset ↔ ∀ first second, Occurs pattern text first →
      Occurs pattern text second → first + pattern.utf8ByteSize ≤ second → offset ≤ second := by
  constructor
  · intro hleads first second hfirst hsecond hapart
    refine hleads [first, second] ?_ ?_ second rfl
    · exact List.forall_mem_cons.2 ⟨hfirst, List.forall_mem_singleton.2 hsecond⟩
    · exact List.pairwise_pair.2 hapart
  · intro h offsets hoccurs hapart other hother
    rcases offsets with _ | ⟨first, _ | ⟨second, others⟩⟩
    · cases hother
    · cases hother
    · obtain rfl := Option.some.inj hother
      obtain ⟨hfirst, hrest⟩ := List.forall_mem_cons.1 hoccurs
      obtain ⟨hends, -⟩ := List.pairwise_cons.1 hapart
      exact h first second hfirst (hrest second List.mem_cons_self) (hends second List.mem_cons_self)

/-- An occurrence that is meant to be found is found, or another one before it. -/
theorem exists_found_iff (hpattern : pattern ≠ "") {offsets : List Nat}
    (hoccurs : ∀ offset ∈ offsets, Occurs pattern text offset) (hapart : Apart pattern offsets)
    {number : Nat} (hoffset : offsets[number]? = some offset) :
    ∃ found, (occurrences pattern text)[number]? = some found ∧ found ≤ offset ∧
      (found = offset ↔ Leads pattern text number offset) := by
  obtain ⟨found, hfound, hle⟩ := exists_found_le hpattern hoccurs hapart hoffset
  refine ⟨found, hfound, hle, ?_, fun hleads => ?_⟩
  · rintro rfl others hothers hothersApart other hother
    obtain ⟨first, hfirst, hahead⟩ := exists_found_le hpattern hothers hothersApart hother
    obtain rfl := Option.some.inj (hfound.symm.trans hfirst)
    exact hahead
  · refine Nat.le_antisymm hle ?_
    exact hleads _ (fun _ => occurs_of_mem) (apart_occurrences hpattern text) found hfound

end Search

end ProjectCompiler
