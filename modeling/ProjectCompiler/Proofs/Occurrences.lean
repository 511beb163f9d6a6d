import Mathlib.Data.List.Induction
import Mathlib.Data.List.Nodup

/-!
# Occurrences — what stands in a list, each item at its first place

Some lists only grow by items that they do not hold yet. What stands in them in the end are the first
occurrences of all items that came along.
-/

namespace ProjectCompiler

variable {α β : Type} [DecidableEq α] [DecidableEq β]

theorem eraseDups_append_singleton (items : List α) (item : α) :
    (items ++ [item]).eraseDups =
      if item ∈ items then items.eraseDups else items.eraseDups ++ [item] := by
  rw [List.eraseDups_append]
  by_cases h : item ∈ items
  · simp [List.removeAll, h]
  · simp [List.removeAll, h, List.eraseDups_cons]

theorem nodup_eraseDups (items : List α) : items.eraseDups.Nodup := by
  -- From the end, since there new items come in.
  induction items using List.reverseRecOn with
  | nil => simp
  | append_singleton items item ih =>
    rw [eraseDups_append_singleton]
    split
    · exact ih
    · rename_i hnew
      refine List.nodup_append.2 ⟨ih, by simp, ?_⟩
      intro other hother same hsame heq
      obtain rfl := List.mem_singleton.1 hsame
      exact hnew (List.mem_eraseDups.1 (heq ▸ hother))

theorem eraseDups_of_nodup {items : List α} (h : items.Nodup) : items.eraseDups = items := by
  induction items using List.reverseRecOn with
  | nil => rfl
  | append_singleton items item ih =>
    rcases List.nodup_append.1 h with ⟨hitems, -, hdiffer⟩
    have hnew : item ∉ items := by
      intro hitem
      exact hdiffer item hitem item (by simp) rfl
    rw [eraseDups_append_singleton, if_neg hnew, ih hitems]

/-- Images that tell the items apart have the same first occurrences. -/
theorem map_eraseDups {f : α → β} {items : List α}
    (h : ∀ first ∈ items, ∀ second ∈ items, f first = f second → first = second) :
    items.eraseDups.map f = (items.map f).eraseDups := by
  induction items using List.reverseRecOn with
  | nil => rfl
  | append_singleton items item ih =>
    have hold := ih fun first hfirst second hsecond =>
      h first (List.mem_append_left _ hfirst) second (List.mem_append_left _ hsecond)
    -- The image of the last item is new exactly if the item is.
    have hmem : f item ∈ items.map f ↔ item ∈ items := by
      constructor
      · intro himage
        rcases List.mem_map.1 himage with ⟨other, hother, heq⟩
        have hsame := h other (List.mem_append_left _ hother) item (by simp) heq
        exact hsame ▸ hother
      · intro hitem
        exact List.mem_map_of_mem hitem
    rw [List.map_append, List.map_singleton, eraseDups_append_singleton,
      eraseDups_append_singleton, ← hold]
    simp only [hmem]
    split
    · rfl
    · rw [List.map_append, List.map_singleton]

end ProjectCompiler
