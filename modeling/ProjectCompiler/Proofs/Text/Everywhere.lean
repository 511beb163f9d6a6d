import Mathlib.Data.List.Sort
import ProjectCompiler.Proofs.Text.Search

/-!
# Everywhere — all places of a text at which certain patterns stand

A search from the left passes over places that begin within one it has taken, and it looks for one pattern.
Here every place is listed, for several patterns at a time. A list in ascending order numbers its items by
what is before them, so that a list put together from two others shifts the numbers of both.

- `Search.everywhere`: all places, in ascending order;
- `Search.mem_everywhere_iff`: they are those at which one of the patterns occurs;
- `Search.occurrences_eq_everywhere`: a search finds all places of its pattern if none of them overlap;
- `Search.getElem?_eq_some_iff_countP`: the number of an item is how many items are smaller;
- `Search.exists_nth`: an item of a part, next to what has its number in the whole.
-/

namespace ProjectCompiler

namespace Search

/-- Offsets at which one of the patterns stands in what is left of a text. -/
def everywhereFrom (patterns : List (List Char)) (offset : Nat) : List Char → List Nat
  | [] => []
  | c :: rest =>
      if patterns.any fun pattern => pattern.isPrefixOf (c :: rest) then
        offset :: everywhereFrom patterns (offset + c.utf8Size) rest
      else everywhereFrom patterns (offset + c.utf8Size) rest

/-- Offsets at which one of the patterns stands, in ascending order. -/
def everywhere (patterns : List String) (text : String) : List Nat :=
  everywhereFrom (patterns.map String.toList) 0 text.toList

/-! ## What is listed -/

section

variable {patterns : List (List Char)} {start offset : Nat} {input : List Char}

theorem mem_everywhereFrom_iff (hpatterns : ∀ pattern ∈ patterns, pattern ≠ []) :
    offset ∈ everywhereFrom patterns start input ↔
      ∃ pattern ∈ patterns, OccursFrom pattern start input offset := by
  induction input generalizing start with
  | nil =>
    constructor
    · intro hmem
      cases hmem
    · rintro ⟨pattern, hpattern, hoccurs⟩
      exact absurd hoccurs (not_occursFrom_nil (hpatterns pattern hpattern))
  | cons c rest ih =>
    have hhere : (patterns.any fun pattern => pattern.isPrefixOf (c :: rest)) = true ↔
        ∃ pattern ∈ patterns, pattern <+: c :: rest := by
      simp only [List.any_eq_true, List.isPrefixOf_iff_prefix]
    calc offset ∈ everywhereFrom patterns start (c :: rest)
        ↔ (offset = start ∧ ∃ pattern ∈ patterns, pattern <+: c :: rest) ∨
            offset ∈ everywhereFrom patterns (start + c.utf8Size) rest := by
          rw [everywhereFrom, ← hhere]
          split
          · rename_i hany
            rw [List.mem_cons, and_iff_left hany]
          · rename_i hnot
            simp only [hnot, and_false, false_or, Bool.false_eq_true]
      _ ↔ ∃ pattern ∈ patterns, (offset = start ∧ pattern <+: c :: rest) ∨
            OccursFrom pattern (start + c.utf8Size) rest offset := by
          rw [ih]
          simp only [and_or_left, exists_or, and_left_comm, exists_and_left]
      _ ↔ ∃ pattern ∈ patterns, OccursFrom pattern start (c :: rest) offset := by
          simp only [occursFrom_cons_iff]

theorem le_of_mem_everywhereFrom (h : offset ∈ everywhereFrom patterns start input) :
    start ≤ offset := by
  induction input generalizing start with
  | nil => cases h
  | cons c rest ih =>
    have hlater : offset ∈ everywhereFrom patterns (start + c.utf8Size) rest → start ≤ offset :=
      fun hmem => (Nat.le_add_right _ _).trans (ih hmem)
    rw [everywhereFrom] at h
    split at h
    · rcases List.mem_cons.1 h with rfl | hmem
      · exact le_rfl
      · exact hlater hmem
    · exact hlater h

theorem pairwise_everywhereFrom : (everywhereFrom patterns start input).Pairwise (· < ·) := by
  induction input generalizing start with
  | nil => exact List.Pairwise.nil
  | cons c rest ih =>
    rw [everywhereFrom]
    split
    · refine List.pairwise_cons.2 ⟨fun later hlater => ?_, ih⟩
      -- Every character takes a byte at least.
      have hpositive := c.utf8Size_pos
      have hle := le_of_mem_everywhereFrom hlater
      omega
    · exact ih

end

variable {patterns : List String} {pattern text : String} {offset : Nat}

theorem mem_everywhere_iff (hpatterns : ∀ pattern ∈ patterns, pattern ≠ "") :
    offset ∈ everywhere patterns text ↔ ∃ pattern ∈ patterns, Occurs pattern text offset := by
  have hlists : ∀ pattern ∈ patterns.map String.toList, pattern ≠ [] := by
    intro list hlist
    obtain ⟨pattern, hpattern, rfl⟩ := List.mem_map.1 hlist
    exact toList_ne_nil (hpatterns pattern hpattern)
  rw [everywhere, mem_everywhereFrom_iff hlists]
  simp only [List.mem_map, exists_exists_and_eq_and, occurs_iff_occursFrom]

theorem mem_everywhere_singleton_iff (hpattern : pattern ≠ "") :
    offset ∈ everywhere [pattern] text ↔ Occurs pattern text offset := by
  rw [mem_everywhere_iff (List.forall_mem_singleton.2 hpattern)]
  simp only [List.mem_singleton, exists_eq_left]

theorem pairwise_everywhere (patterns : List String) (text : String) :
    (everywhere patterns text).Pairwise (· < ·) :=
  pairwise_everywhereFrom

/-! ## What is found of it -/

theorem pairwise_occurrences (hpattern : pattern ≠ "") (text : String) :
    (occurrences pattern text).Pairwise (· < ·) := by
  have hpositive : 0 < pattern.utf8ByteSize := by
    rwa [Nat.pos_iff_ne_zero, ne_eq, String.utf8ByteSize_eq_zero_iff]
  apply (apart_occurrences hpattern text).imp
  intro first second hends
  omega

/-- Places that do not overlap are all found. -/
theorem occurrences_eq_everywhere (hpattern : pattern ≠ "")
    (hapart : Apart pattern (everywhere [pattern] text)) :
    occurrences pattern text = everywhere [pattern] text := by
  have hascending := pairwise_occurrences hpattern text
  have hsubset : occurrences pattern text ⊆ everywhere [pattern] text := fun _ hfound =>
    (mem_everywhere_singleton_iff hpattern).2 (occurs_of_mem hfound)
  -- No selection of places that keep apart is larger than what is found.
  have hlength : (everywhere [pattern] text).length ≤ (occurrences pattern text).length :=
    (getElem?_occurrences_eq_none_iff hpattern).1 (List.getElem?_eq_none le_rfl) _
      (fun _ => (mem_everywhere_singleton_iff hpattern).1) hapart
  have hperm := (List.subperm_of_subset hascending.nodup hsubset).perm_of_length_le hlength
  exact hperm.eq_of_pairwise' hascending (pairwise_everywhere _ _)

/-! ## Numbers in ascending lists -/

/-- The number of an item is how many items are smaller. -/
theorem getElem?_eq_some_iff_countP {items : List Nat} (h : items.Pairwise (· < ·))
    {number item : Nat} : items[number]? = some item ↔
      item ∈ items ∧ items.countP (· < item) = number := by
  induction items generalizing number with
  | nil => simp
  | cons first rest ih =>
    obtain ⟨hfirst, hrest⟩ := List.pairwise_cons.1 h
    -- The first item is smaller than every other one, and none is smaller than it.
    have hnone : (first :: rest).countP (· < first) = 0 := by
      simpa using fun other hother => (hfirst other hother).le
    have hmore : item ∈ rest →
        (first :: rest).countP (· < item) = rest.countP (· < item) + 1 := fun hmem =>
      List.countP_cons_of_pos (decide_eq_true (hfirst item hmem))
    cases number with
    | zero =>
      rw [List.getElem?_cons_zero, Option.some.injEq]
      constructor
      · rintro rfl
        exact ⟨List.mem_cons_self, hnone⟩
      · rintro ⟨hmem, hcount⟩
        rcases List.mem_cons.1 hmem with rfl | hmem
        · rfl
        · rw [hmore hmem] at hcount
          omega
    | succ number =>
      rw [List.getElem?_cons_succ, ih hrest]
      constructor
      · rintro ⟨hmem, rfl⟩
        exact ⟨List.mem_cons_of_mem _ hmem, hmore hmem⟩
      · rintro ⟨hmem, hcount⟩
        rcases List.mem_cons.1 hmem with rfl | hmem
        · omega
        · rw [hmore hmem] at hcount
          exact ⟨hmem, by omega⟩

/-- What has a certain number in a part of the whole is not before what has this number in the whole. It is
the same exactly if nothing of the other part is before it. -/
theorem exists_nth {part others whole : List Nat} (hwhole : whole.Pairwise (· < ·))
    (hpart : part.Pairwise (· < ·)) (hperm : whole.Perm (part ++ others)) {number item : Nat}
    (hitem : part[number]? = some item) :
    ∃ nth, whole[number]? = some nth ∧ nth ≤ item ∧
      (nth = item ↔ ∀ other ∈ others, item ≤ other) := by
  obtain ⟨hmem, hnumber⟩ := (getElem?_eq_some_iff_countP hpart).1 hitem
  have hmemWhole : item ∈ whole := hperm.mem_iff.2 (List.mem_append_left _ hmem)
  have hcount : whole.countP (· < item) = number + others.countP (· < item) := by
    rw [hperm.countP_eq, List.countP_append, hnumber]
  -- In the whole, the item is shifted by those of the other part that are before it.
  have hshifted := (getElem?_eq_some_iff_countP hwhole).2 ⟨hmemWhole, hcount⟩
  obtain ⟨hbound, hat⟩ := List.getElem?_eq_some_iff.1 hshifted
  have hlt : number < whole.length := (Nat.le_add_right _ _).trans_lt hbound
  refine ⟨whole[number], List.getElem?_eq_getElem hlt, ?_, ?_⟩
  · rw [← hat]
    exact hwhole.sortedLT.getElem_le_getElem_iff.2 (Nat.le_add_right _ _)
  · calc whole[number] = item
        ↔ whole[number]? = some item := by
          rw [List.getElem?_eq_getElem hlt, Option.some.injEq]
      _ ↔ others.countP (· < item) = 0 := by
          rw [getElem?_eq_some_iff_countP hwhole, hcount]
          simp only [hmemWhole, true_and, Nat.add_eq_left]
      _ ↔ ∀ other ∈ others, item ≤ other := by
          simp only [List.countP_eq_zero, decide_eq_true_eq, Nat.not_lt]

end Search

end ProjectCompiler
