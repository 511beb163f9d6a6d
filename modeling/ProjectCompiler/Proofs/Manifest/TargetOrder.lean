import ProjectCompiler.Proofs.Compilation.TargetOrder
import ProjectCompiler.Proofs.Manifest.Entries
import ProjectCompiler.Proofs.Manifest.Soundness

/-!
# TargetOrder — a manifest with its targets in another order

Validation and lowering go through the targets in the order of the manifest, and look hosts up by their
names. As names are distinct, it makes no difference where a host stands. So a manifest can be reordered:
it is accepted as before, its targets are the same, and under the policy that asks for a single test
bundle so is what is saved.

- `Manifest.Valid.perm`, `Manifest.contents_perm`: validation and lowering of a reordered manifest;
- `Manifest.target_order_immaterial`: all stages together.
-/

namespace ProjectCompiler

open scoped List

variable {ν : Type}

namespace Manifest

variable {manifest : Manifest} {entries : List TargetEntry}

/-! ## Looking targets up -/

theorem target?_perm (h : (manifest.targets.map TargetEntry.name).Nodup)
    (hperm : entries ~ manifest.targets) :
    target? { manifest with targets := entries } = manifest.target? := by
  have hentries : (entries.map TargetEntry.name).Nodup := (hperm.map _).nodup_iff.2 h
  funext name
  refine Option.ext fun entry => ?_
  have hreordered : target? { manifest with targets := entries } name = some entry ↔
      entry ∈ entries ∧ entry.name = name := target?_eq_some_iff hentries
  rw [hreordered, target?_eq_some_iff h, hperm.mem_iff]

/-! ## Validation and lowering -/

theorem Valid.perm (h : manifest.Valid) (hperm : entries ~ manifest.targets) :
    Valid { manifest with targets := entries } where
  named := h.named
  default := h.default
  distinct := (hperm.map _).nodup_iff.2 h.distinct
  hosted entry hentry := h.hosted entry (hperm.mem_iff.1 hentry)
  host entry hentry name hname := by
    rw [target?_perm h.distinct hperm]
    exact h.host entry (hperm.mem_iff.1 hentry) name hname
  standalone entry hentry := h.standalone entry (hperm.mem_iff.1 hentry)
  overrides entry hentry := h.overrides entry (hperm.mem_iff.1 hentry)

theorem contents_perm (h : (manifest.targets.map TargetEntry.name).Nodup)
    (hperm : entries ~ manifest.targets) :
    contents { manifest with targets := entries } = manifest.contents := by
  have hlower : lowerTarget { manifest with targets := entries } = manifest.lowerTarget := by
    funext entry
    unfold lowerTarget
    rw [target?_perm h hperm]
  have hentry : lowerEntry { manifest with targets := entries } = manifest.lowerEntry := by
    funext entry
    unfold lowerEntry
    rw [hlower]
    rfl
  funext entry
  rw [contents, contents, hentry]

/-! ## All stages -/

/-- If a test bundle must be the only one, the targets of an accepted manifest can be put in any order.
The manifest is accepted as before, and lowers to a project with the same targets, identities and order
apart; the project compiles or does not compile as before, and the same schemes and the same suppressed
targets are saved. -/
theorem target_order_immaterial (manifest : Manifest) (hvalid : manifest.validate = .ok ())
    (hunique : manifest.policy = .unique) (entries : List TargetEntry)
    (hperm : entries.Perm manifest.targets) (supply other : Supply) :
    let reordered := { manifest with targets := entries }
    reordered.validate = .ok () ∧
      ∃ project rest copy rest', manifest.toProject supply = (.ok project, rest) ∧
        reordered.toProject other = (.ok copy, rest') ∧
        (∃ contents : TargetEntry → Target,
          project.targets.map Target.anonymous = manifest.targets.map contents ∧
          copy.targets.map Target.anonymous = entries.map contents ∧
          { copy.anonymous with targets := [] } = { project.anonymous with targets := [] }) ∧
        ∀ (later later' : Supply) (output : Option String) (disk : Disk),
          let backend := { Backend.empty with output, disk }
          let first := (Pipeline.standard (ν := ν) manifest.policy).run project later backend
          let second := (Pipeline.standard (ν := ν) reordered.policy).run copy later' backend
          ((∃ summary, first.1 = .ok summary) ↔ ∃ summary, second.1 = .ok summary) ∧
            ∀ summary, first.1 = .ok summary → ∃ saved saved',
              first.2.backend.saved = some saved ∧ second.2.backend.saved = some saved' ∧
                saved'.schemes.Perm saved.schemes ∧
                saved'.suppressed.Perm saved.suppressed := by
  have hmanifest : manifest.Valid := validate_eq_ok.1 hvalid
  have hreordered : Valid { manifest with targets := entries } := hmanifest.perm hperm
  obtain ⟨project, rest, new, hrun, hissued, hids, hholds⟩ := toProject_holds hmanifest supply
  obtain ⟨copy, rest', new', hrun', hissued', hids', hholds'⟩ := toProject_holds hreordered other
  refine ⟨validate_eq_ok.2 hreordered, project, rest, copy, rest', hrun, hrun', ?_⟩
  have hproject : project.identities.Nodup := hids.nodup_iff.2 hissued.nodup
  have hcopy : copy.identities.Nodup := hids'.nodup_iff.2 hissued'.nodup
  have hnames : (project.targets.map Target.name).Nodup :=
    (hholds.lowered.sound hmanifest hproject).names
  -- Nothing but the order of the entries makes a difference to what the projects hold.
  have hcontents : copy.anonymous =
      { manifest.base with targets := entries.map manifest.contents } := by
    rw [hholds'.anonymous, contents_perm hmanifest.distinct hperm]
    rfl
  have htargets : project.targets.map Target.anonymous = manifest.targets.map manifest.contents :=
    congrArg Project.targets hholds.anonymous
  refine ⟨⟨manifest.contents, htargets, congrArg Project.targets hcontents, ?_⟩, ?_⟩
  · rw [hcontents, hholds.anonymous]
  · intro later later' output disk backend
    have hsame : copy.anonymous =
        { project.anonymous with targets := entries.map manifest.contents } := by
      rw [hcontents, hholds.anonymous]
    have hempty : backend.suppressed = [] ∧ backend.listed = [] := ⟨rfl, rfl⟩
    clear_value backend
    rw [hunique]
    exact Pipeline.standard_perm hnames hproject hcopy (htargets ▸ hperm.map _) hsame hempty.1
      hempty.2 later later'

/-- A bundle before its host and after it. -/
theorem bundle_before_or_after_host :
    let tests := { TargetEntry.empty with
      name := "AppTests"
      type := .unitTestBundle
      host := some "App"
      configurations := [("Debug", Settings.empty)] }
    let app := { TargetEntry.empty with
      name := "App"
      platform := some .ios
      deploymentTarget := some "17.0"
      schemes := [{ SchemeEntry.empty with name := "App" }] }
    let manifest := { Manifest.empty with projectName := "Demo", targets := [tests, app] }
    let reordered := { manifest with targets := [app, tests] }
    manifest.validate = .ok () ∧ [app, tests].Perm manifest.targets ∧
      ∃ project rest copy rest', manifest.toProject ⟨1⟩ = (.ok project, rest) ∧
        reordered.toProject ⟨50⟩ = (.ok copy, rest') ∧
        copy.targets.map Target.anonymous = (project.targets.map Target.anonymous).reverse ∧
        let first := (Pipeline.standard (ν := Nat) .unique).run project rest
          { Backend.empty with output := none, disk := Disk.empty }
        let second := (Pipeline.standard (ν := Nat) .unique).run copy rest'
          { Backend.empty with output := none, disk := Disk.empty }
        (∃ summary, second.1 = .ok summary) ∧ ∃ saved saved',
          first.2.backend.saved = some saved ∧ second.2.backend.saved = some saved' ∧
            saved'.schemes.Perm saved.schemes ∧ saved'.suppressed.Perm saved.suppressed := by
  intro tests app manifest reordered
  have hvalid : manifest.validate = .ok () := by decide +kernel
  have hperm : [app, tests].Perm manifest.targets := List.Perm.swap _ _ _
  have hcomputed : (match manifest.toProject ⟨1⟩ with
      | (.ok project, rest) => ((Pipeline.standard (ν := Nat) .unique).run project rest
          { Backend.empty with output := none, disk := Disk.empty }).1.isOk
      | (.error _, _) => false) = true := by
    decide +kernel
  obtain ⟨-, project, rest, copy, rest', hproject, hcopy, ⟨contents, htargets, htargets', -⟩,
    hruns⟩ := target_order_immaterial (ν := Nat) manifest hvalid rfl [app, tests] hperm ⟨1⟩ ⟨50⟩
  have hok : ((Pipeline.standard (ν := Nat) .unique).run project rest
      { Backend.empty with output := none, disk := Disk.empty }).1.isOk = true := by
    rw [hproject] at hcomputed
    exact hcomputed
  have hpolicy : manifest.policy = .unique := rfl
  have hrun := hruns rest rest' none Disk.empty
  dsimp only at hrun
  rw [hpolicy] at hrun
  obtain ⟨hiff, hsaved⟩ := hrun
  refine ⟨hvalid, hperm, project, rest, copy, rest', hproject, hcopy, ?_, ?_⟩
  · rw [htargets, htargets']
    rfl
  · dsimp only at hok ⊢
    rcases hresult : ((Pipeline.standard (ν := Nat) .unique).run project rest
      { Backend.empty with output := none, disk := Disk.empty }).1 with error | summary
    · rw [hresult] at hok
      cases hok
    · exact ⟨hiff.1 ⟨summary, hresult⟩, hsaved summary hresult⟩

end Manifest

end ProjectCompiler
