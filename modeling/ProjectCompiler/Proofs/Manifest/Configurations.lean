import ProjectCompiler.Proofs.Manifest.Decoding
import ProjectCompiler.Proofs.Manifest.Outcome
import ProjectCompiler.Proofs.Toml.Tree

/-!
# Configurations — in which order a manifest's configurations stand

A document declares configurations in some order. Its tables are finished in the order of their names,
and from there on nothing changes the order any more: not decoding, and not lowering, which takes the
last configuration for the default. So the order of the document is lost unless it was the order of the
names.

- `Manifest.declaredNames`: the configurations that a document declares;
- `Manifest.configurations_in_name_order`: where they stand in the manifest and in the project.
-/

namespace ProjectCompiler

open Entries

/-! ## From a document to a manifest -/

namespace Manifest

/-- The configurations that a document declares, in its order. -/
def declaredNames (blocks : List Toml.Block) : List String :=
  Toml.declared "configurations" blocks

/-- A manifest has the configurations that its document declares, in the order of their names. -/
theorem ofText_configurations {text : String} {blocks : List Toml.Block} {manifest : Manifest}
    (hread : Toml.readDocument text = some blocks) (h : ofText text = .ok manifest)
    (hdeclared : declaredNames blocks ≠ []) :
    manifest.configurationNames.Perm (declaredNames blocks) ∧
      manifest.configurationNames.Pairwise (· < ·) := by
  obtain ⟨entries, hparse, hmanifest⟩ := ofText_eq_ok.1 h
  obtain ⟨hkeys, hfound⟩ := Toml.parse?_declared hread hparse hdeclared
  have hsupplied := (ofToml_written hkeys manifest hmanifest).configurations
  rcases hfound with ⟨items, hitems⟩ | ⟨members, hmembers, hperm, hsorted⟩
  · -- An array is no map, so such a document is no manifest.
    rw [Toml.Supplies, hitems] at hsupplied
    cases hsupplied
  · rw [Toml.Supplies, hmembers] at hsupplied
    have hnames : keys manifest.configurations = keys members := Toml.keys_toMap _ members _ hsupplied
    have hsome : manifest.configurations ≠ [] := by
      intro hnil
      rw [hnil] at hnames
      rw [← hnames] at hperm
      exact hdeclared hperm.nil_eq.symm
    have hconfigurations : manifest.configurationNames = keys members := by
      rw [configurationNames, if_neg (by simpa using hsome)]
      exact hnames
    rw [hconfigurations]
    exact ⟨hperm, hsorted⟩

end Manifest

/-! ## Lowering -/

namespace Manifest

theorem chooses_of_toProject {manifest : Manifest} {project : Project} {supply after : Supply}
    (h : manifest.toProject supply = (.ok project, after)) : manifest.Chooses project :=
  (manifest.toProject_ends.of_ok h).2.1

/-- A chosen default that is not `Release` is the greatest name, where names stand in their order. -/
theorem Chooses.default_greatest {manifest : Manifest} {project : Project}
    (h : manifest.Chooses project) (hsorted : project.declared.Pairwise (· < ·))
    (hnone : manifest.defaultConfiguration = none) (hrelease : "Release" ∉ project.declared)
    (hsome : project.declared ≠ []) :
    project.defaultConfiguration ∈ project.declared ∧
      ∀ name ∈ project.declared, name ≤ project.defaultConfiguration := by
  have hlast : project.defaultConfiguration = project.declared.getLast hsome := by
    rw [h.default, hnone, Option.getD_none, Project.chooseDefault_eq, if_neg hrelease,
      List.getLast?_eq_some_getLast hsome, Option.getD_some]
  rw [hlast]
  refine ⟨List.getLast_mem hsome, fun name hname => ?_⟩
  exact (hsorted.imp le_of_lt).rel_getLast hname

/-! ## The order -/

/-- Whatever order a document declares configurations in, the manifest has them in the order of their
names, and so has the project; it is the order of the document only if the document keeps to it. The
default that is chosen where none is given is the greatest name, unless there is `Release`. -/
theorem configurations_in_name_order {text : String} {blocks : List Toml.Block} {manifest : Manifest}
    (hread : Toml.readDocument text = some blocks) (hmanifest : ofText text = .ok manifest)
    (hdeclared : declaredNames blocks ≠ []) :
    (manifest.configurationNames.Perm (declaredNames blocks) ∧
        manifest.configurationNames.Pairwise (· < ·)) ∧
      (manifest.configurationNames = declaredNames blocks ↔
        (declaredNames blocks).Pairwise (· < ·)) ∧
      ∀ supply project after, manifest.toProject supply = (.ok project, after) →
        project.declared = manifest.configurationNames ∧
        (manifest.defaultConfiguration = none → "Release" ∉ declaredNames blocks →
          project.defaultConfiguration ∈ declaredNames blocks ∧
            ∀ name ∈ declaredNames blocks, name ≤ project.defaultConfiguration) := by
  obtain ⟨hperm, hsorted⟩ := ofText_configurations hread hmanifest hdeclared
  refine ⟨⟨hperm, hsorted⟩, ⟨fun heq => heq ▸ hsorted, fun hwritten => ?_⟩, ?_⟩
  · exact hperm.eq_of_pairwise (fun _ _ _ _ hab hba => absurd hab hba.not_gt) hsorted hwritten
  · intro supply project after hproject
    have hchooses := chooses_of_toProject hproject
    have hnames : project.declared = manifest.configurationNames := by
      rw [hchooses.declared]
      exact eraseDups_of_nodup (hsorted.imp ne_of_lt)
    refine ⟨hnames, fun hnone hrelease => ?_⟩
    rw [← hnames] at hperm hsorted
    have hgreatest := hchooses.default_greatest hsorted hnone (hperm.mem_iff.not.2 hrelease)
      (fun hnil => hdeclared (hnil ▸ hperm).nil_eq.symm)
    exact ⟨hperm.mem_iff.1 hgreatest.1, fun name hname =>
      hgreatest.2 name (hperm.mem_iff.2 hname)⟩

/-- `Staging` is declared before `Debug`. -/
theorem staging_comes_after_debug :
    let text := "[project]\nname = \"Demo\"\n\n[configurations.Staging]\n\n[configurations.Debug]\n"
    ∃ blocks manifest project after, Toml.readDocument text = some blocks ∧
      ofText text = .ok manifest ∧ manifest.toProject ⟨1⟩ = (.ok project, after) ∧
      declaredNames blocks = ["Staging", "Debug"] ∧
      manifest.configurationNames = ["Debug", "Staging"] ∧
      project.declared = ["Debug", "Staging"] ∧ project.defaultConfiguration = "Staging" := by
  intro text
  have hdeclared : (Toml.readDocument text).map declaredNames = some ["Staging", "Debug"] := by
    decide +kernel
  obtain ⟨blocks, hread, hblocks⟩ := Option.map_eq_some_iff.1 hdeclared
  have hcomputed : (match ofText text with
      | .ok manifest => manifest.defaultConfiguration.isNone && (manifest.toProject ⟨1⟩).1.isOk
      | .error _ => false) = true := by
    decide +kernel
  rcases hmanifest : ofText text with fault | manifest
  · rw [hmanifest] at hcomputed
    cases hcomputed
  · rw [hmanifest] at hcomputed
    obtain ⟨hnone, hok⟩ := (Bool.and_eq_true_iff).1 hcomputed
    rcases hproject : manifest.toProject ⟨1⟩ with ⟨error | project, after⟩
    · rw [hproject] at hok
      cases hok
    · obtain ⟨⟨hperm, hsorted⟩, -, hlowered⟩ :=
        configurations_in_name_order hread hmanifest (by rw [hblocks]; decide)
      obtain ⟨hnames, hdefault⟩ := hlowered _ _ _ hproject
      rw [hblocks] at hperm hdefault
      obtain ⟨hmem, hgreatest⟩ := hdefault (Option.isNone_iff_eq_none.1 hnone) (by decide)
      have horder : manifest.configurationNames = ["Debug", "Staging"] :=
        (hperm.trans (.swap _ _ _)).eq_of_pairwise
          (fun _ _ _ _ hab hba => absurd hab hba.not_gt) hsorted (by decide)
      refine ⟨blocks, manifest, project, after, hread, rfl, hproject, hblocks, horder,
        hnames.trans horder, ?_⟩
      rcases List.mem_pair.1 hmem with hstaging | hdebug
      · exact hstaging
      · have hle := hgreatest "Staging" (by decide)
        rw [hdebug] at hle
        exact absurd hle (by decide)

end Manifest

end ProjectCompiler
