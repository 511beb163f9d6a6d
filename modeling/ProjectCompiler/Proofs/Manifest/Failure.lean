import ProjectCompiler.Proofs.Manifest.Outcome

/-!
# Failure — the manifests that cannot be lowered

Lowering reads the entries in order and stops at the first with which something is wrong. What may be
wrong is seen from the manifest alone: a name that is taken, a host that is not there, or a field that is
missing where it is needed. Hosts are not followed further than to their own entries, so that entries may
name themselves or each other as hosts.

- `Manifest.Obstructed`: an entry with which something is wrong;
- `Manifest.StopsAt`: the first such entry;
- `Manifest.toProject_fails_exactly`: lowering fails if and only if there is one, and what the error is.
-/

namespace ProjectCompiler

/-- A place of a list that is the first of its kind is the only first one. -/
theorem eq_of_first_places {α : Type} {P : List α → α → Prop} {earlier earlier' later later' : List α}
    {item item' : α} (h : earlier ++ item :: later = earlier' ++ item' :: later')
    (hitem : P earlier item) (hitem' : P earlier' item')
    (hfirst : ∀ before other after, earlier = before ++ other :: after → ¬ P before other)
    (hfirst' : ∀ before other after, earlier' = before ++ other :: after → ¬ P before other) :
    earlier = earlier' ∧ item = item' := by
  -- If the places differ, one of them comes before the other and is of the kind.
  rcases List.append_eq_append_iff.1 h with ⟨between, rfl, hrest⟩ | ⟨between, rfl, hrest⟩
  · cases between with
    | nil =>
      rw [List.nil_append, List.cons.injEq] at hrest
      exact ⟨(List.append_nil _).symm, hrest.1⟩
    | cons other between =>
      rw [List.cons_append, List.cons.injEq] at hrest
      obtain ⟨rfl, -⟩ := hrest
      exact absurd hitem (hfirst' _ _ _ rfl)
  · cases between with
    | nil =>
      rw [List.nil_append, List.cons.injEq] at hrest
      exact ⟨List.append_nil _, hrest.1.symm⟩
    | cons other between =>
      rw [List.cons_append, List.cons.injEq] at hrest
      obtain ⟨rfl, -⟩ := hrest
      exact absurd hitem' (hfirst _ _ _ rfl)

theorem TargetEntry.exists_missing?_iff {entry : TargetEntry} :
    (∃ field, entry.missing? = some field) ↔
      entry.platform = none ∨ entry.deploymentTarget = none := by
  unfold missing?
  cases entry.platform <;> cases entry.deploymentTarget <;> simp

namespace Manifest

variable {manifest : Manifest} {earlier : List TargetEntry} {entry : TargetEntry}

/-! ## Single entries -/

/-- Something is wrong with an entry that comes behind others. -/
inductive Obstructed (manifest : Manifest) (earlier : List TargetEntry) (entry : TargetEntry) : Prop
  | repeated (taken : entry.name ∈ earlier.map TargetEntry.name)
  | unknownHost {host : String} (named : entry.host = some host)
      (absent : ∀ other ∈ manifest.targets, other.name ≠ host)
  | incomplete (alone : entry.host = none)
      (lacks : entry.platform = none ∨ entry.deploymentTarget = none)
  /-- What is missing may be missing from another entry. -/
  | incompleteHost {host : String} {hostEntry : TargetEntry} (named : entry.host = some host)
      (found : manifest.target? host = some hostEntry)
      (lacks : hostEntry.platform = none ∨ hostEntry.deploymentTarget = none)

theorem obstructed_of_source {source : TargetEntry} (hsource : manifest.source? entry = some source)
    (hlacks : source.platform = none ∨ source.deploymentTarget = none) :
    manifest.Obstructed earlier entry := by
  unfold source? at hsource
  split at hsource
  · rename_i halone
    cases hsource
    exact .incomplete halone hlacks
  · rename_i host hnamed
    exact .incompleteHost hnamed hsource hlacks

/-- An entry is blamed only if something is wrong with it. -/
theorem Blames.obstructed {error : ModelError} (h : manifest.Blames earlier entry error) :
    manifest.Obstructed earlier entry := by
  cases h with
  | unknownTarget hhost hnone =>
    refine .unknownHost hhost fun other hother hname => hnone ?_
    exact List.mem_map.2 ⟨other, hother, hname⟩
  | missingField hsource hfield =>
    exact obstructed_of_source hsource (TargetEntry.exists_missing?_iff.1 ⟨_, hfield⟩)
  | duplicateTarget _ _ htaken => exact .repeated htaken

theorem admits_iff_not_obstructed :
    manifest.Admits earlier entry ↔ ¬ manifest.Obstructed earlier entry := by
  -- The source of an admitted entry rules out all but a name that is taken.
  constructor
  · rintro ⟨⟨source, hsource, hcomplete⟩, hnew⟩ hobstructed
    have hlacks : ¬ (source.platform = none ∨ source.deploymentTarget = none) := by
      rw [← TargetEntry.exists_missing?_iff, hcomplete]
      simp
    cases hobstructed with
    | repeated taken => exact hnew taken
    | unknownHost named absent =>
      rw [source?, named] at hsource
      obtain ⟨hmem, hname⟩ := mem_of_target? hsource
      exact absent source hmem hname
    | incomplete alone lacks =>
      rw [source?, alone] at hsource
      cases hsource
      exact hlacks lacks
    | incompleteHost named found lacks =>
      rw [source?, named] at hsource
      obtain rfl := Option.some.inj (hsource.symm.trans found)
      exact hlacks lacks
  · intro hclear
    refine ⟨?_, fun taken => hclear (.repeated taken)⟩
    cases hsource : manifest.source? entry with
    | none =>
      unfold source? at hsource
      split at hsource
      · cases hsource
      · rename_i host hnamed
        refine absurd (.unknownHost hnamed ?_) hclear
        rintro other hother rfl
        exact target?_eq_none_iff.1 hsource (List.mem_map_of_mem hother)
    | some source =>
      refine ⟨source, rfl, ?_⟩
      cases hmissing : source.missing? with
      | none => rfl
      | some field =>
        have hlacks := TargetEntry.exists_missing?_iff.1 ⟨field, hmissing⟩
        exact absurd (obstructed_of_source hsource hlacks) hclear

/-- Of several things that are wrong with an entry, one is told. -/
theorem Blames.unique {error other : ModelError} (h : manifest.Blames earlier entry error)
    (hother : manifest.Blames earlier entry other) : error = other := by
  -- No source is found for a host that is not there, and one source has one first missing field.
  have hfound : ∀ {host source}, entry.host = some host →
      host ∉ manifest.targets.map TargetEntry.name → manifest.source? entry ≠ some source := by
    intro host source hhost hnone hsource
    rw [source?, hhost] at hsource
    cases hsource.symm.trans (target?_eq_none_iff.2 hnone)
  cases h with
  | unknownTarget hhost hnone =>
    cases hother with
    | unknownTarget hhost' => rw [Option.some.inj (hhost.symm.trans hhost')]
    | missingField hsource | duplicateTarget hsource => exact absurd hsource (hfound hhost hnone)
  | missingField hsource hfield =>
    cases hother with
    | unknownTarget hhost hnone => exact absurd hsource (hfound hhost hnone)
    | missingField hsource' hfield' =>
      obtain rfl := Option.some.inj (hsource.symm.trans hsource')
      rw [Option.some.inj (hfield.symm.trans hfield')]
    | duplicateTarget hsource' hcomplete =>
      obtain rfl := Option.some.inj (hsource.symm.trans hsource')
      cases hfield.symm.trans hcomplete
  | duplicateTarget hsource hcomplete =>
    cases hother with
    | unknownTarget hhost hnone => exact absurd hsource (hfound hhost hnone)
    | missingField hsource' hfield' =>
      obtain rfl := Option.some.inj (hsource.symm.trans hsource')
      cases hfield'.symm.trans hcomplete
    | duplicateTarget => rfl

/-! ## The first obstructed entry -/

/-- The first entry with which something is wrong, and the entries before it. -/
structure StopsAt (manifest : Manifest) (earlier : List TargetEntry) (entry : TargetEntry) : Prop where
  stands : ∃ later, manifest.targets = earlier ++ entry :: later
  obstructed : manifest.Obstructed earlier entry
  clear : ∀ before other after, earlier = before ++ other :: after →
    ¬ manifest.Obstructed before other

theorem StopsAt.unique {earlier' : List TargetEntry} {entry' : TargetEntry}
    (h : manifest.StopsAt earlier entry) (h' : manifest.StopsAt earlier' entry') :
    earlier = earlier' ∧ entry = entry' := by
  obtain ⟨later, hlater⟩ := h.stands
  obtain ⟨later', hlater'⟩ := h'.stands
  exact eq_of_first_places (hlater.symm.trans hlater') h.obstructed h'.obstructed h.clear h'.clear

/-- A manifest is lowered unless something is wrong with one of its entries. Otherwise the first such
entry is blamed: for a host that no entry is for, else for the first field that its own entry or that of
its host lacks, else for its name. -/
theorem toProject_fails_exactly (manifest : Manifest) (supply : Supply) :
    ((∃ project after, manifest.toProject supply = (.ok project, after)) ↔
      ∀ earlier entry later, manifest.targets = earlier ++ entry :: later →
        ¬ manifest.Obstructed earlier entry) ∧
    ((∃ error after, manifest.toProject supply = (.error error, after)) ↔
      ∃ earlier entry later, manifest.targets = earlier ++ entry :: later ∧
        manifest.Obstructed earlier entry) ∧
    ∀ error, (∃ after, manifest.toProject supply = (.error error, after)) ↔
      ∃ earlier entry, manifest.StopsAt earlier entry ∧ manifest.Blames earlier entry error := by
  rcases manifest.toProject_ends supply with
    ⟨error, after, hrun, earlier, entry, later, hentry, hadmitted, hblames⟩ |
    ⟨project, after, hrun, -, -, hadmitted⟩
  · have hobstructed := hblames.obstructed
    have hstops : manifest.StopsAt earlier entry :=
      ⟨⟨later, hentry⟩, hobstructed, fun before other after hsplit =>
        admits_iff_not_obstructed.1 (hadmitted before other after hsplit)⟩
    rw [hrun]
    -- Lowering stopped at a first obstructed entry, and there is only one such entry and one blame.
    refine ⟨⟨?_, ?_⟩, ⟨?_, ?_⟩, fun other => ⟨?_, ?_⟩⟩
    · rintro ⟨project, after, hproject⟩
      cases hproject
    · exact fun hclear => absurd hobstructed (hclear earlier entry later hentry)
    · exact fun _ => ⟨earlier, entry, later, hentry, hobstructed⟩
    · exact fun _ => ⟨error, after, rfl⟩
    · rintro ⟨after, hother⟩
      cases hother
      exact ⟨earlier, entry, hstops, hblames⟩
    · rintro ⟨earlier', entry', hstops', hblames'⟩
      obtain ⟨rfl, rfl⟩ := hstops.unique hstops'
      exact ⟨after, by rw [hblames.unique hblames']⟩
  · have hclear : ∀ earlier entry later, manifest.targets = earlier ++ entry :: later →
        ¬ manifest.Obstructed earlier entry := fun earlier entry later hentry =>
      admits_iff_not_obstructed.1 (hadmitted earlier entry later hentry)
    rw [hrun]
    refine ⟨⟨fun _ => hclear, fun _ => ⟨project, after, rfl⟩⟩, ⟨?_, ?_⟩, fun error => ⟨?_, ?_⟩⟩
    · rintro ⟨error, after, herror⟩
      cases herror
    · rintro ⟨earlier, entry, later, hentry, hobstructed⟩
      exact absurd hobstructed (hclear earlier entry later hentry)
    · rintro ⟨after, herror⟩
      cases herror
    · rintro ⟨earlier, entry, ⟨⟨later, hentry⟩, hobstructed, -⟩, -⟩
      exact absurd hobstructed (hclear earlier entry later hentry)

/-- Entries that are their own hosts, or the hosts of each other, are lowered if they say where they
run. -/
example :
    let entry := fun name host => { TargetEntry.empty with
      name
      host := some host
      platform := some .ios
      deploymentTarget := some "17.0" }
    let manifest := { Manifest.empty with
      targets := [entry "Alone" "Alone", entry "Left" "Right", entry "Right" "Left"] }
    ((manifest.toProject ⟨1⟩).1.toOption.map fun project => project.targets.map Target.name) =
      some ["Alone", "Left", "Right"] := by
  decide +kernel

end Manifest

end ProjectCompiler
