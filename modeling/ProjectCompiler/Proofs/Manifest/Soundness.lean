import ProjectCompiler.Proofs.Compilation.Dependencies
import ProjectCompiler.Proofs.Manifest.Lowering

/-!
# Soundness — what validation is good for

Validation, lowering and compilation each have their own idea of what may be missing. A host that is
looked up while a bundle is lowered must say where it runs, which validation asks of it in another place,
and a host that is linked while the project is compiled must be there at all. Once a manifest is accepted,
none of this can go wrong any more.

- `Manifest.Lowered.sound`: the project of a valid manifest is sound;
- `Manifest.validation_sound`: an accepted manifest lowers, and its project compiles but for residual
  errors.
-/

namespace ProjectCompiler

variable {ν : Type}

namespace Manifest

variable {manifest : Manifest} {project : Project}

/-- Each target stands for an entry. -/
theorem Lowered.exists_entry (h : manifest.Lowered manifest.targets project) {target : Target}
    (htarget : target ∈ project.targets) : ∃ entry ∈ manifest.targets,
      entry.Declares manifest.configurationNames.eraseDups target := by
  rcases List.getElem_of_mem htarget with ⟨place, hplace, rfl⟩
  have hlength := h.targets.length_eq
  have hentry : place < manifest.targets.length := by omega
  exact ⟨_, List.getElem_mem hentry, h.targets.get hentry hplace⟩

/-- Each entry has a target that stands for it. -/
theorem Lowered.exists_target (h : manifest.Lowered manifest.targets project) {entry : TargetEntry}
    (hentry : entry ∈ manifest.targets) : ∃ target ∈ project.targets,
      entry.Declares manifest.configurationNames.eraseDups target := by
  rcases List.getElem_of_mem hentry with ⟨place, hplace, rfl⟩
  have hlength := h.targets.length_eq
  have htarget : place < project.targets.length := by omega
  exact ⟨_, List.getElem_mem htarget, h.targets.get hplace htarget⟩

/-- What validation checks of the entries holds of the targets. -/
theorem Lowered.sound (hvalid : manifest.Valid) (h : manifest.Lowered manifest.targets project)
    (hids : project.identities.Nodup) : project.Sound where
  names := by
    rw [TargetEntry.map_name_of_declares h.targets]
    exact hvalid.distinct
  identities := hids
  declared := h.declared ▸ nodup_eraseDups _
  default := by
    rw [h.declared, List.mem_eraseDups]
    exact h.default
  overrides := by
    intro target htarget
    rcases h.exists_entry htarget with ⟨entry, -, hdeclares⟩
    calc
      target.overrides = manifest.configurationNames.eraseDups := hdeclares.overrides
      _ = project.declared := h.declared.symm
  hosted := by
    intro target htarget
    rcases h.exists_entry htarget with ⟨entry, hentry, hdeclares⟩
    rw [hdeclares.host, hdeclares.isUnitTestBundle, hvalid.hosted entry hentry]
  host := by
    intro target htarget name hname
    rcases h.exists_entry htarget with ⟨entry, hentry, hdeclares⟩
    rcases hvalid.host entry hentry name (hdeclares.host ▸ hname) with ⟨hostEntry, hfound, hplain⟩
    rcases mem_of_target? hfound with ⟨hhostEntry, hhostName⟩
    rcases h.exists_target hhostEntry with ⟨host, hhost, hhostDeclares⟩
    refine ⟨host, hhost, hhostDeclares.name.trans hhostName, ?_⟩
    rw [hhostDeclares.isUnitTestBundle, hplain]

/-- An accepted manifest lowers to a project whose names are distinct, whose default configuration is
declared and whose targets override exactly the declared configurations. Compiled without an output
file, the project fails for a residual error only; and where dependencies had two layers before, they
have afterwards. -/
theorem validation_sound (manifest : Manifest) (supply : Supply)
    (h : manifest.validate = .ok ()) :
    ∃ project rest, manifest.toProject supply = (.ok project, rest) ∧
      (project.targets.map Target.name).Nodup ∧ project.declared.Nodup ∧
      project.defaultConfiguration ∈ project.declared ∧
      (∀ target ∈ project.targets, target.overrides = project.declared) ∧
      ∀ (policy : TestTargetPolicy) (later : Supply) (backend : Backend), backend.output = none →
        (∀ error, ((Pipeline.standard (ν := ν) policy).run project later backend).1 = .error error →
          error.Residual) ∧
        ∀ summary after, (Pipeline.standard (ν := ν) policy).run project later backend =
          (.ok summary, after) → backend.Layered → after.backend.Layered := by
  have hvalid : manifest.Valid := validate_eq_ok.1 h
  rcases toProject_makes hvalid supply with ⟨project, rest, new, hrun, hissued, hperm, hlowered⟩
  have hids : project.identities.Nodup := by
    rw [hperm.nodup_iff, List.nil_append]
    exact hissued.nodup
  have hsound : project.Sound := hlowered.sound hvalid hids
  refine ⟨project, rest, hrun, hsound.names, hsound.declared, hsound.default, hsound.overrides, ?_⟩
  intro policy later backend houtput
  constructor
  · intro error herror
    exact Pipeline.residual_of_run_standard hsound houtput herror
  · intro summary after hsuccess hbackend
    exact Pipeline.layered_of_run_standard hsound hbackend hsuccess

/-- A bundle that leaves everything to its host, declared before it. -/
theorem hosted_bundle_manifest_compiles :
    let manifest : Manifest := { Manifest.empty with
      projectName := "Demo"
      targets := [
        { TargetEntry.empty with
          name := "AppTests"
          type := .unitTestBundle
          host := some "App"
          configurations := [("Debug", Settings.empty)] },
        { TargetEntry.empty with
          name := "App"
          platform := some .ios
          deploymentTarget := some "17.0"
          schemes := [{ SchemeEntry.empty with name := "App" }] }] }
    ∃ project rest, manifest.toProject ⟨1⟩ = (.ok project, rest) ∧
      (∀ target ∈ project.targets, target.overrides = project.declared) ∧
      ∃ summary after, (Pipeline.standard (ν := Nat) .unique).run project rest Backend.empty =
        (.ok summary, after) ∧ after.backend.Layered := by
  intro manifest
  rcases validation_sound (ν := Nat) manifest ⟨1⟩ (by decide +kernel) with
    ⟨project, rest, hlower, -, -, -, hoverrides, hcompiles⟩
  refine ⟨project, rest, hlower, hoverrides, ?_⟩
  have hok : ((Pipeline.standard (ν := Nat) .unique).run project rest Backend.empty).1.isOk = true := by
    have hcomputed : (match manifest.toProject ⟨1⟩ with
        | (.ok project, rest) =>
            ((Pipeline.standard (ν := Nat) .unique).run project rest Backend.empty).1.isOk
        | (.error _, _) => false) = true := by
      decide +kernel
    rw [hlower] at hcomputed
    exact hcomputed
  rcases hrun : (Pipeline.standard (ν := Nat) .unique).run project rest Backend.empty with
    ⟨error | summary, after⟩
  · rw [hrun] at hok
    cases hok
  · exact ⟨summary, after, rfl,
      (hcompiles .unique rest Backend.empty rfl).2 summary after hrun Backend.layered_empty⟩

end Manifest

end ProjectCompiler
