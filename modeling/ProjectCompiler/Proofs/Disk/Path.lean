import ProjectCompiler.Native.Backend

/-!
# Path — the directory that a path lies in

Paths are texts, and cutting the last part off a path works on the text. Here is what that means for
the parts: the directory of an output file has the parts of the file without the last one, and starts
where the file's path starts.

- `Path.segments_intercalate`: segments put together with slashes are found again;
- `Path.parts_outputDirectory`: the directory of an output file.
-/

namespace ProjectCompiler

namespace Path

/-! ## Segments -/

theorem not_mem_of_mem_splitOn {α : Type} [DecidableEq α] {separator : α} {items piece : List α}
    (h : piece ∈ items.splitOn separator) : separator ∉ piece := by
  induction items generalizing piece with
  | nil => simp_all
  | cons item rest ih =>
    rw [List.splitOn_cons_eq_if_modifyHead] at h
    split at h
    · rcases List.mem_cons.1 h with rfl | h
      · exact List.not_mem_nil
      · exact ih h
    · rename_i hne
      -- The item goes to the front of the first piece; the other pieces stay.
      rcases hsplit : rest.splitOn separator with _ | ⟨first, others⟩
      · simp [hsplit] at h
      · rw [hsplit, List.modifyHead_cons] at h
        have hfirst : separator ∉ first := ih (by rw [hsplit]; exact List.mem_cons_self)
        rcases List.mem_cons.1 h with rfl | h
        · intro hmem
          rcases List.mem_cons.1 hmem with heq | hmem
          · exact hne (by simp [heq])
          · exact hfirst hmem
        · exact ih (by rw [hsplit]; exact List.mem_cons_of_mem _ h)

theorem slash_not_mem_of_mem_segments {path segment : String} (h : segment ∈ segments path) :
    '/' ∉ segment.toList := by
  rcases List.mem_map.1 h with ⟨piece, hpiece, rfl⟩
  simpa using not_mem_of_mem_splitOn hpiece

theorem segments_ne_nil (path : String) : segments path ≠ [] := by
  simp [segments]

theorem segments_intercalate {kept : List String} (hne : kept ≠ [])
    (h : ∀ segment ∈ kept, '/' ∉ segment.toList) : segments ("/".intercalate kept) = kept := by
  -- No segments at all would come back as one empty segment.
  have hsplit : (['/'].intercalate (kept.map String.toList)).splitOn '/' = kept.map String.toList :=
    List.splitOn_intercalate '/' (by simpa using h) (by simpa using hne)
  have hslash : "/".toList = ['/'] := rfl
  rw [segments, String.toList_intercalate, hslash, hsplit]
  simp

theorem segments_slash_append (path : String) : segments ("/" ++ path) = "" :: segments path := by
  simp [segments, List.splitOn_cons_eq_if_modifyHead]

/-- A path starts at the root exactly when its first segment is empty and not the only one. -/
theorem isAbsolute_iff (path : String) :
    isAbsolute path = true ↔ ∃ body, body ≠ [] ∧ segments path = "" :: body := by
  rcases hchars : path.toList with _ | ⟨first, rest⟩
  · simp [isAbsolute, segments, hchars]
  · by_cases hslash : first = '/'
    · subst hslash
      simp [isAbsolute, segments, hchars, List.splitOn_cons_eq_if_modifyHead]
    · rcases hsplit : rest.splitOn '/' with _ | ⟨piece, others⟩
      · simp at hsplit
      · simp [isAbsolute, segments, hchars, List.splitOn_cons_eq_if_modifyHead, hslash, hsplit]

/-! ## Without the last part -/

/-- The segments that say something, among segments. -/
def spoken (segments : List String) : List String :=
  segments.filter fun segment => !isSilent segment

theorem parts_eq_spoken (path : String) : parts path = spoken (segments path) :=
  rfl

theorem spoken_reverse (segments : List String) :
    spoken segments.reverse = (spoken segments).reverse :=
  List.filter_reverse

theorem spoken_dropWhile (segments : List String) :
    spoken (segments.dropWhile isSilent) = spoken segments := by
  induction segments with
  | nil => rfl
  | cons segment rest ih =>
    by_cases h : isSilent segment = true
    · simpa [spoken, List.dropWhile_cons, h] using ih
    · simp [h]

theorem above?_eq_none {segments : List String} (h : above? segments = none) :
    spoken segments = [] := by
  unfold above? at h
  split at h
  · rename_i hdrop
    have hspoken := spoken_dropWhile segments.reverse
    rw [hdrop, spoken_reverse] at hspoken
    simpa [spoken] using hspoken.symm
  · cases h

theorem above?_eq_some {segments kept : List String} (h : above? segments = some kept) :
    (∃ last, spoken segments = spoken kept ++ [last]) ∧ kept <+: segments := by
  unfold above? at h
  split at h
  · cases h
  · rename_i last before hdrop
    obtain rfl := Option.some.inj h
    -- What stops the search from the end is a segment that says something.
    have hlast : isSilent last = false := by
      have := List.head_dropWhile_not (p := isSilent) (l := segments.reverse) (by simp [hdrop])
      simpa [hdrop] using this
    refine ⟨⟨last, ?_⟩, ?_⟩
    · have hspoken := spoken_dropWhile segments.reverse
      rw [hdrop, spoken_reverse] at hspoken
      calc
        spoken segments = (spoken (last :: before)).reverse := by
          rw [hspoken, List.reverse_reverse]
        _ = (spoken before).reverse ++ [last] := by
          simp [spoken, hlast]
        _ = spoken (before.dropWhile isSilent).reverse ++ [last] := by
          rw [spoken_reverse, spoken_dropWhile]
    · -- From the end, what is kept is a suffix, so it is a prefix in the right order.
      have hsuffix : before.dropWhile isSilent <:+ segments.reverse :=
        (List.dropWhile_suffix isSilent).trans
          ((List.suffix_cons last before).trans (hdrop ▸ List.dropWhile_suffix isSilent))
      simpa using List.reverse_prefix.2 hsuffix

theorem spoken_segments_intercalate {kept : List String}
    (h : ∀ segment ∈ kept, '/' ∉ segment.toList) :
    spoken (segments ("/".intercalate kept)) = spoken kept := by
  cases kept with
  | nil => rfl
  | cons segment rest => rw [segments_intercalate (List.cons_ne_nil _ _) h]

theorem isAbsolute_eq_false {path first : String} {body : List String}
    (h : segments path = first :: body) (hne : first ≠ "") : isAbsolute path = false := by
  rw [Bool.eq_false_iff]
  intro htrue
  rcases (isAbsolute_iff path).1 htrue with ⟨_, -, heq⟩
  rw [h] at heq
  exact hne (List.cons.inj heq).1

section OutputDirectory

variable {path : String}

/-- The directory of a path from the root. -/
theorem parts_outputDirectory_of_root {body : List String} (hpath : segments path = "" :: body)
    (h : spoken body ≠ []) :
    (∃ last, spoken body = parts (Backend.outputDirectory path) ++ [last]) ∧
      isAbsolute (Backend.outputDirectory path) = isAbsolute path := by
  have hspoken : ∀ others, spoken ("" :: others) = spoken others := fun _ => rfl
  rcases hkept : above? body with _ | kept
  · exact absurd (above?_eq_none hkept) h
  rcases above?_eq_some hkept with ⟨⟨last, hlast⟩, hbefore⟩
  have hdirectory : Backend.outputDirectory path = "/" ++ "/".intercalate kept := by
    simp [Backend.outputDirectory, parent?, hpath, hkept]
  have hslash : ∀ segment ∈ kept, '/' ∉ segment.toList := by
    intro segment hmem
    apply slash_not_mem_of_mem_segments
    rw [hpath]
    exact List.mem_cons_of_mem _ (hbefore.subset hmem)
  have hbody : body ≠ [] := by
    rintro rfl
    exact h rfl
  have habsolute : isAbsolute path = true := (isAbsolute_iff path).2 ⟨body, hbody, hpath⟩
  rw [hdirectory, parts_eq_spoken, segments_slash_append, hspoken,
    spoken_segments_intercalate hslash, habsolute, isAbsolute_iff]
  exact ⟨⟨last, hlast⟩, _, segments_ne_nil _, segments_slash_append _⟩

/-- The directory of a path that begins with the segment `.`, which stays in front. -/
theorem parts_outputDirectory_of_dot {body : List String} (hpath : segments path = "." :: body)
    (h : spoken body ≠ []) :
    (∃ last, spoken body = parts (Backend.outputDirectory path) ++ [last]) ∧
      isAbsolute (Backend.outputDirectory path) = isAbsolute path := by
  have hspoken : ∀ others, spoken ("." :: others) = spoken others := fun _ => rfl
  rcases hkept : above? body with _ | kept
  · exact absurd (above?_eq_none hkept) h
  rcases above?_eq_some hkept with ⟨⟨last, hlast⟩, hbefore⟩
  have hslash : ∀ segment ∈ "." :: kept, '/' ∉ segment.toList := by
    intro segment hmem
    rcases List.mem_cons.1 hmem with rfl | hmem
    · decide
    · apply slash_not_mem_of_mem_segments
      rw [hpath]
      exact List.mem_cons_of_mem _ (hbefore.subset hmem)
  have hsegments := segments_intercalate (List.cons_ne_nil _ _) hslash
  -- The segment in front keeps the directory from being empty.
  have hne : "/".intercalate ("." :: kept) ≠ "" := by
    intro heq
    rw [heq] at hsegments
    exact absurd (List.cons.inj hsegments).1 (by decide)
  have hdirectory : Backend.outputDirectory path = "/".intercalate ("." :: kept) := by
    simp [Backend.outputDirectory, parent?, hpath, hkept, hne]
  rw [hdirectory, parts_eq_spoken, hsegments, hspoken, isAbsolute_eq_false hpath (by decide)]
  exact ⟨⟨last, hlast⟩, isAbsolute_eq_false hsegments (by decide)⟩

/-- The directory of any other path. -/
theorem parts_outputDirectory_of_name {first : String} {body : List String}
    (hpath : segments path = first :: body) (hroot : first ≠ "") (hdot : first ≠ ".")
    (h : spoken (first :: body) ≠ []) :
    (∃ last, spoken (first :: body) = parts (Backend.outputDirectory path) ++ [last]) ∧
      isAbsolute (Backend.outputDirectory path) = isAbsolute path := by
  rcases hkept : above? (first :: body) with _ | kept
  · exact absurd (above?_eq_none hkept) h
  rcases above?_eq_some hkept with ⟨⟨last, hlast⟩, hbefore⟩
  have hslash : ∀ segment ∈ kept, '/' ∉ segment.toList := by
    intro segment hmem
    apply slash_not_mem_of_mem_segments
    rw [hpath]
    exact hbefore.subset hmem
  have hparent : parent? path = some ("/".intercalate kept) := by
    unfold parent?
    rw [hpath]
    -- The first segment is neither of the two that are treated apart.
    split
    · rename_i heq
      exact absurd (List.cons.inj heq).1 hroot
    · rename_i heq
      exact absurd (List.cons.inj heq).1 hdot
    · rw [hkept]
      rfl
  have hdirectory : Backend.outputDirectory path =
      if "/".intercalate kept = "" then "." else "/".intercalate kept := by
    simp [Backend.outputDirectory, hparent]
  rw [hdirectory, hlast, ← spoken_segments_intercalate hslash, isAbsolute_eq_false hpath hroot]
  split
  · -- Nothing is left of the path, and the directory is the one that names are seen from.
    rename_i hempty
    rw [hempty]
    exact ⟨⟨last, rfl⟩, by decide⟩
  · rename_i hne
    refine ⟨⟨last, rfl⟩, ?_⟩
    cases kept with
    | nil => exact absurd rfl hne
    | cons segment rest =>
      -- What is left still begins with the first segment of the path, which is not empty.
      have hfirst : segment = first := (List.cons_prefix_cons.1 hbefore).1
      exact isAbsolute_eq_false (segments_intercalate (List.cons_ne_nil _ _) hslash)
        (hfirst ▸ hroot)

end OutputDirectory

/-- Three kinds of paths are cut differently: those from the root, those that begin with the segment
`.`, and the others. -/
theorem parts_outputDirectory {path : String} (h : parts path ≠ []) :
    (∃ last, parts path = parts (Backend.outputDirectory path) ++ [last]) ∧
      isAbsolute (Backend.outputDirectory path) = isAbsolute path := by
  rw [parts_eq_spoken] at h ⊢
  rcases hpath : segments path with _ | ⟨first, body⟩
  · exact absurd hpath (segments_ne_nil path)
  rw [hpath] at h
  by_cases hroot : first = ""
  · subst hroot
    have hcut := parts_outputDirectory_of_root hpath h
    exact hcut
  · by_cases hdot : first = "."
    · subst hdot
      have hcut := parts_outputDirectory_of_dot hpath h
      exact hcut
    · exact parts_outputDirectory_of_name hpath hroot hdot h

end Path

end ProjectCompiler
