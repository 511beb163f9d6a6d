import ProjectCompiler.Manifest.Error
import ProjectCompiler.Proofs.Manifest.Decoding
import ProjectCompiler.Proofs.Manifest.Outcome
import ProjectCompiler.Proofs.Toml.Ordered

/-!
# Inheritance — what a bundle has of its own and what of its host

A bundle starts with what its host has, and what its own entry writes is laid over that. Decoding tells a
key that is left out from one that is written, except for lists of files: left out, a list is empty, and an
empty list is taken for one that was left out. So a bundle can have other files than its host, but it
cannot be without files if its host has some.

- `Target.Inherits`: a bundle, its host and the table of its entry;
- `Project.Derives`: an item of a document and its target;
- `Manifest.bundles_inherit`: what every accepted text makes of its bundles.
-/

namespace ProjectCompiler

open Entries

theorem exists_of_toOption_any {ε α : Type} {x : Except ε α} {p : α → Bool}
    (h : x.toOption.any p = true) : ∃ a, x = .ok a ∧ p a = true := by
  cases x with
  | error => cases h
  | ok a => exact ⟨a, rfl, h⟩

/-! ## Fields with a fallback -/

/-- Texts are what is written under a name, or the fallback if nothing or an empty array is. -/
def Toml.SuppliesTexts (members : List (String × Toml)) (field : String)
    (fallback texts : List String) : Prop :=
  match find? members field with
  | none | some (.array []) => texts = fallback
  | some found => found.toTexts = .ok texts

namespace Toml.Supplies

variable {β : Type} {members : List (String × Toml)} {field : String} {decode : Toml → Decoded β}

/-- Who has nothing from a table has something from elsewhere. -/
theorem or_else {own : Option β} {fallback value : β}
    (h : Supplies members field (fun found => some <$> decode found) none own)
    (hvalue : some value = own.or (some fallback)) : Supplies members field decode fallback value := by
  unfold Supplies at h ⊢
  cases hfind : find? members field with
  | none =>
    rw [hfind] at h
    subst h
    exact Option.some.inj hvalue
  | some found =>
    rw [hfind] at h
    dsimp only at h ⊢
    rcases hdecoded : decode found with fault | decoded
    · rw [hdecoded] at h
      cases h
    · rw [hdecoded] at h
      cases h
      rw [Option.some.inj hvalue]

theorem texts_or_else {own fallback texts : List String} (h : Supplies members field toTexts [] own)
    (htexts : texts = if own = [] then fallback else own) :
    SuppliesTexts members field fallback texts := by
  unfold Supplies at h
  unfold SuppliesTexts
  cases hfind : find? members field with
  | none =>
    rw [hfind] at h
    rw [htexts, if_pos h]
  | some found =>
    rw [hfind] at h
    -- Only the empty array comes to no texts.
    obtain ⟨items, rfl, hitems⟩ := toList_yields toText found own h
    cases hitems with
    | nil => exact htexts
    | cons =>
      rw [htexts, if_neg (List.cons_ne_nil _ _)]
      exact h

end Toml.Supplies

/-! ## Bundles -/

/-- A bundle has what is written in the table of its entry, and the rest from its host. An empty list of
files counts as one that is not written. -/
structure Target.Inherits (bundle host : Target) (members : List (String × Toml)) : Prop where
  platform : Toml.Supplies members "platform" Toml.toTag host.platform bundle.platform
  deploymentTarget : Toml.Supplies members "deployment_target" Toml.toText host.deploymentTarget
    bundle.deploymentTarget
  language : Toml.Supplies members "language" Toml.toTag host.language bundle.language
  includeFiles : Toml.SuppliesTexts members "include_files" host.includeFiles bundle.includeFiles
  excludeFiles : Toml.SuppliesTexts members "exclude_files" host.excludeFiles bundle.excludeFiles

/-- If the table of an item names a host, the target of the item inherits from a target of that name. -/
def Project.Derives (project : Project) (item : Toml) (bundle : Target) : Prop :=
  ∀ members written, item = .table members → find? members "host" = some written →
    ∃ host ∈ project.targets, written = .str host.name ∧ bundle.host = some host.name ∧
      bundle.Inherits host members

theorem TargetEntry.Leans.inherits {entry hostEntry : TargetEntry} {bundle host : Target}
    {members : List (String × Toml)} (h : entry.Leans hostEntry bundle) (hhost : hostEntry.Stands host)
    (hwritten : entry.Written members) : bundle.Inherits host members := by
  have hlanguage : some bundle.language = entry.language.or (some host.language) := by
    rw [h.language, hhost.language]
    cases entry.language <;> rfl
  exact {
    platform := hwritten.platform.or_else (by rw [h.platform, hhost.platform])
    deploymentTarget := hwritten.deploymentTarget.or_else
      (by rw [h.deploymentTarget, hhost.deploymentTarget])
    language := hwritten.language.or_else hlanguage
    includeFiles := hwritten.includeFiles.texts_or_else (by rw [h.includeFiles, hhost.includeFiles])
    excludeFiles := hwritten.excludeFiles.texts_or_else (by rw [h.excludeFiles, hhost.excludeFiles]) }

namespace Manifest

variable {source sourceName : String} {manifest : Manifest} {project : Project}

theorem parse_eq_ok :
    parse source sourceName = .ok manifest ↔ ofText source = .ok manifest ∧ manifest.Valid := by
  rw [parse, ← validate_eq_ok]
  rcases ofText source with fault | decoded
  · simp
  · rcases hvalidate : decoded.validate with violation | ⟨⟩
    · simp only [hvalidate, reduceCtorEq, false_iff, not_and]
      rintro ⟨⟩
      simp [hvalidate]
    · simp only [hvalidate, Except.ok.injEq, iff_self_and]
      rintro rfl
      exact hvalidate

theorem derives_of_describes (hvalid : manifest.Valid)
    (hfaithful : manifest.Faithful manifest.targets project) {item : Toml} (hitem : item.Ordered)
    {entry : TargetEntry} (hread : TargetEntry.ofToml item = .ok entry)
    (hentry : entry ∈ manifest.targets) {bundle : Target}
    (hbundle : manifest.Describes project.declared entry bundle) : project.Derives item bundle := by
  rintro members written rfl hhost
  have hwritten := TargetEntry.ofToml_written hitem.nodup_keys entry hread
  obtain ⟨name, rfl, hname⟩ : ∃ name, written = .str name ∧ entry.host = some name := by
    have hsupplied := hwritten.host
    rw [Toml.Supplies, hhost] at hsupplied
    cases written with
    | str name => exact ⟨name, rfl, (Except.ok.inj hsupplied).symm⟩
    | _ => cases hsupplied
  obtain ⟨hostEntry, hfound, hleans⟩ := hbundle.hosted name hname
  -- A host of a valid manifest has no host itself, so its target has what its own entry says.
  obtain ⟨other, hother, hplain⟩ := hvalid.host entry hentry name hname
  obtain rfl := Option.some.inj (hfound.symm.trans hother)
  obtain ⟨hmem, rfl⟩ := mem_of_target? hfound
  have halone : hostEntry.host = none := hvalid.host_eq_none hmem hplain
  obtain ⟨host, hhostTarget, hdescribes⟩ := exists_of_forall₂ hfaithful.targets.flip hmem
  refine ⟨host, hhostTarget, by rw [hdescribes.name], ?_, ?_⟩
  · rw [hbundle.host, hname, hdescribes.name]
  · exact hleans.inherits (hdescribes.standalone halone) hwritten

/-- An accepted text is lowered, and its targets come from the items of its document, in their order. A
target with a host has each of five keys that its table writes, and what the host has in place of each
that it does not write; but an empty list of files is passed over. -/
theorem bundles_inherit {entries : List (String × Toml)} {items : List Toml}
    (h : parse source sourceName = .ok manifest) (hentries : Toml.parse? source = some entries)
    (hitems : find? entries "targets" = some (.array items)) (supply : Supply) :
    ∃ project after, manifest.toProject supply = (.ok project, after) ∧
      List.Forall₂ project.Derives items project.targets := by
  obtain ⟨htext, hvalid⟩ := parse_eq_ok.1 h
  obtain ⟨_, hparse, hmanifest⟩ := ofText_eq_ok.1 htext
  obtain rfl := Option.some.inj (hentries.symm.trans hparse)
  obtain ⟨project, after, -, hrun, -⟩ := toProject_makes hvalid supply
  have hfaithful := (manifest.toProject_ends.of_ok hrun).1
  have hordered := Toml.parse?_ordered hentries
  have hdecoded := forall₂_ofToml hordered.nodup_keys hmanifest hitems
  have hitemsOrdered : ∀ item ∈ items, item.Ordered := fun item hitem =>
    (hordered.of_find? hitems).of_mem_items hitem
  refine ⟨project, after, hrun, forall₂_trans ((List.forall₂_and_left _ _).2 ⟨hitemsOrdered, hdecoded⟩)
    ((List.forall₂_and_left _ _).2 ⟨fun entry hentry => hentry, hfaithful.targets⟩) ?_⟩
  rintro item entry bundle ⟨hitem, hread⟩ ⟨hentry, hbundle⟩
  exact derives_of_describes hvalid hfaithful hitem hread hentry hbundle

/-- A bundle that is to be without files, while its host has some. -/
theorem emptied_bundle_inherits :
    let text := "[project]\nname = \"Demo\"\n\n" ++
      "[[targets]]\nname = \"App\"\ntype = \"application\"\nplatform = \"ios\"\n" ++
      "deployment_target = \"15.0\"\nlanguage = \"swift\"\n" ++
      "include_files = [\"a\", \"b\"]\nexclude_files = [\"c\"]\n\n" ++
      "[[targets]]\nname = \"AppTests\"\ntype = \"unit-test-bundle\"\nhost = \"App\"\n" ++
      "include_files = []\nexclude_files = []\n"
    let written (field : String) (item : Toml) : Option (List String) := do
      (← find? (← item.entries?) field).toTexts.toOption
    ∃ manifest entries items project after,
      parse text defaultFileName = .ok manifest ∧ Toml.parse? text = some entries ∧
      find? entries "targets" = some (.array items) ∧
      manifest.toProject ⟨1⟩ = (.ok project, after) ∧
      List.Forall₂ project.Derives items project.targets ∧
      (items.map (written "include_files") = [some ["a", "b"], some []] ∧
        items.map (written "exclude_files") = [some ["c"], some []]) ∧
      project.targets.map Target.includeFiles = [["a", "b"], ["a", "b"]] ∧
      project.targets.map Target.excludeFiles = [["c"], ["c"]] := by
  intro text written
  let Written (items : List Toml) : Prop :=
    items.map (written "include_files") = [some ["a", "b"], some []] ∧
      items.map (written "exclude_files") = [some ["c"], some []]
  let Lowered (project : Project) : Prop :=
    project.targets.map Target.includeFiles = [["a", "b"], ["a", "b"]] ∧
      project.targets.map Target.excludeFiles = [["c"], ["c"]]
  have hcomputed : (Toml.parse? text).any (fun entries =>
      ((find? entries "targets").any fun found =>
        (found.toList Except.ok).toOption.any fun items => decide (Written items)) &&
      (ofToml (.table entries)).toOption.any fun manifest =>
        decide (manifest.validate = .ok ()) &&
          (manifest.toProject ⟨1⟩).1.toOption.any fun project => decide (Lowered project)) = true := by
    unfold Toml.parse? Toml.readDocument
    -- A literal is known by its characters; finding each of them in its bytes would take long.
    simp only [text, String.toList_append]
    repeat rw [String.toList_ofList]
    decide +kernel
  obtain ⟨entries, hentries, hchecked⟩ := (Option.any_eq_true _ _).1 hcomputed
  obtain ⟨hdocument, hchecked⟩ := Bool.and_eq_true_iff.1 hchecked
  obtain ⟨found, hfound, hlist⟩ := (Option.any_eq_true _ _).1 hdocument
  obtain ⟨items, hread, hwritten⟩ := exists_of_toOption_any hlist
  obtain ⟨manifest, hmanifest, hchecked⟩ := exists_of_toOption_any hchecked
  obtain ⟨hvalid, hlowered⟩ := Bool.and_eq_true_iff.1 hchecked
  obtain ⟨items', rfl, hsame⟩ := Toml.toList_yields Except.ok found items hread
  obtain rfl : items' = items := by
    rw [← List.forall₂_eq_eq_eq]
    exact hsame.imp fun _ _ heq => Except.ok.inj heq
  have hparse : parse text defaultFileName = .ok manifest := parse_eq_ok.2
    ⟨ofText_eq_ok.2 ⟨entries, hentries, hmanifest⟩, validate_eq_ok.1 (of_decide_eq_true hvalid)⟩
  obtain ⟨project, after, hrun, hderives⟩ := bundles_inherit hparse hentries hfound ⟨1⟩
  rw [hrun] at hlowered
  exact ⟨manifest, entries, items', project, after, hparse, hentries, hfound, hrun, hderives,
    of_decide_eq_true hwritten, of_decide_eq_true hlowered⟩

end Manifest

end ProjectCompiler
