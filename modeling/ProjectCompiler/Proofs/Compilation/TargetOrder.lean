import ProjectCompiler.Proofs.Compilation.Output
import ProjectCompiler.Proofs.Compilation.Renaming
import ProjectCompiler.Proofs.Compilation.SavedSchemes
import Mathlib.Data.List.Forall2

/-!
# TargetOrder — targets in another order

If a test bundle must be the only one, nothing is decided by which target comes first. So projects that
differ in the order of their targets, and in identities, compile alike, and the same schemes are saved.

- `Project.Compilable.perm`, `Project.schemes_perm`: what compilation asks for and what is saved, for
  targets in another order;
- `Pipeline.standard_ok_iff`: when a run succeeds, with an output file or without;
- `Pipeline.standard_perm`: runs of projects that differ in this way.
-/

namespace ProjectCompiler

open scoped List

variable {ν : Type}

/-! ## The same targets -/

/-- There is one bundle or there is none to speak of, in whatever order. -/
theorem TestTargetPolicy.pick_unique_perm {bundles others : List Target} (h : bundles ~ others) :
    unique.pick bundles = unique.pick others := by
  rcases bundles with _ | ⟨first, _ | ⟨second, rest⟩⟩
  · rw [h.nil_eq]
  · rw [List.perm_singleton.1 h.symm]
  · -- With several bundles none is picked, and as many stand in the other list.
    have hlength := h.length_eq
    rcases others with _ | ⟨first', _ | ⟨second', rest'⟩⟩
    · simp at hlength
    · simp at hlength
    · rfl

namespace Project

variable {policy : TestTargetPolicy} {project : Project} {targets : List Target}

theorem unitTestTargets_perm (h : targets ~ project.targets) (target : Target) :
    unitTestTargets { project with targets } target ~ project.unitTestTargets target :=
  h.filter _

theorem identities_perm (h : targets ~ project.targets) :
    identities { project with targets } ~ project.identities :=
  ((h.flatMap_right _).append_left _).cons _

/-- What compilation asks for is asked of each target. -/
theorem Compilable.perm (hproject : project.Compilable policy) (h : targets ~ project.targets) :
    Compilable policy { project with targets } where
  represented target htarget := hproject.represented target (h.mem_iff.1 htarget)
  hosted target htarget host hhost := by
    obtain ⟨other, hother, hname, hne⟩ := hproject.hosted target (h.mem_iff.1 htarget) host hhost
    exact ⟨other, h.mem_iff.2 hother, hname, hne⟩
  declared target htarget := hproject.declared target (h.mem_iff.1 htarget)
  unambiguous hpolicy target htarget hschemes := by
    rw [(unitTestTargets_perm h target).length_eq]
    exact hproject.unambiguous hpolicy target (h.mem_iff.1 htarget) hschemes

theorem savedScheme_perm (h : targets ~ project.targets) (target : Target) (scheme : Scheme) :
    savedScheme .unique { project with targets } target scheme =
      project.savedScheme .unique target scheme := by
  have hpicked : pickedBundle? .unique { project with targets } target =
      project.pickedBundle? .unique target :=
    TestTargetPolicy.pick_unique_perm (unitTestTargets_perm h target)
  rw [savedScheme, savedScheme, hpicked]

theorem schemes_perm (h : targets ~ project.targets) :
    (savedList .unique { project with targets }).schemes ~
      (project.savedList .unique).schemes := by
  have hsaved : (fun target : Target =>
      target.schemes.map (savedScheme .unique { project with targets } target)) =
      fun target => target.schemes.map (project.savedScheme .unique target) := by
    funext target
    exact List.map_congr_left fun scheme _ => savedScheme_perm h target scheme
  rw [savedList, savedList, hsaved]
  exact h.flatMap_right _

/-- Contents in another order are the contents of the targets in another order. -/
theorem exists_perm_of_anonymous {contents : List Target}
    (h : contents ~ project.targets.map Target.anonymous) :
    ∃ targets, targets ~ project.targets ∧ targets.map Target.anonymous = contents := by
  have hmatch : List.Forall₂ (fun content (target : Target) => target.anonymous = content)
      (project.targets.map Target.anonymous) project.targets := by
    rw [List.forall₂_map_left_iff]
    exact List.forall₂_same.2 fun _ _ => rfl
  obtain ⟨targets, hcontents, hperm⟩ := List.perm_comp_forall₂ h hmatch
  refine ⟨targets, hperm, ?_⟩
  have hmap : targets.map Target.anonymous = contents.map fun content => content :=
    map_eq_map_of_forall₂ hcontents fun _ _ hsame => hsame
  rwa [List.map_id'] at hmap

end Project

/-! ## Whole runs -/

namespace Pipeline

variable {policy : TestTargetPolicy} {project copy : Project} {supply other : Supply}
  {backend : Backend}

/-- A run succeeds if the project meets all conditions and the list can be saved. -/
theorem standard_ok_iff (hnames : (project.targets.map Target.name).Nodup)
    (hids : project.identities.Nodup) :
    (∃ summary, ((Pipeline.standard (ν := ν) policy).run project supply backend).1 = .ok summary) ↔
      project.Compilable policy ∧
        ∀ path, backend.output = some path → backend.disk.Writable path := by
  rw [← Plan.fits_standard_iff hnames hids]
  constructor
  · rintro ⟨summary, hsummary⟩
    have hfits : Plan.Fits (Plan.standard policy project) := by
      rcases hresult : (Pipeline.standard (ν := ν) policy).run project supply backend
        with ⟨result, after⟩
      rw [hresult] at hsummary
      obtain rfl : result = .ok summary := hsummary
      exact fits_of_run_standard hids hresult
    refine ⟨hfits, fun path hpath => ?_⟩
    obtain ⟨entered, hdrawn, hrun⟩ := run_standard_of_fits (ν := ν) supply backend hids hfits
    by_contra hblocked
    obtain ⟨error, disk, hsave, -⟩ := Backend.save_of_not_writable
      (hdrawn.sameSaved.output.trans hpath) (hdrawn.sameSaved.disk.symm ▸ hblocked)
    rw [hrun, hsave] at hsummary
    cases hsummary
  · rintro ⟨hfits, hwritable⟩
    obtain ⟨entered, hdrawn, hrun⟩ := run_standard_of_fits (ν := ν) supply backend hids hfits
    rw [hrun]
    rcases houtput : backend.output with _ | path
    · rw [Backend.save_of_output_eq_none (hdrawn.sameSaved.output.trans houtput)]
      exact ⟨_, rfl⟩
    · obtain ⟨disk, hsave, -⟩ := Backend.save_of_writable
        (hdrawn.sameSaved.output.trans houtput)
        (hdrawn.sameSaved.disk.symm ▸ hwritable path houtput)
      rw [hsave]
      exact ⟨_, rfl⟩

/-- A run that starts from an empty scheme list and succeeds saves the list that the project
describes. -/
theorem saved_of_run_standard (hnames : (project.targets.map Target.name).Nodup)
    (hids : project.identities.Nodup) (hsuppressed : backend.suppressed = [])
    (hlisted : backend.listed = []) {summary : RunSummary}
    (hok : ((Pipeline.standard (ν := ν) policy).run project supply backend).1 = .ok summary) :
    ((Pipeline.standard (ν := ν) policy).run project supply backend).2.backend.saved =
      some (project.savedList policy) := by
  rcases hrun : (Pipeline.standard (ν := ν) policy).run project supply backend with ⟨result, after⟩
  rw [hrun] at hok
  obtain rfl : result = .ok summary := hok
  have hfits : Plan.Fits (Plan.standard policy project) := fits_of_run_standard hids hrun
  obtain ⟨entered, _, hdrawn, hafter⟩ := drawn_of_run_standard hids hrun
  have htargets := hdrawn.suppressed_snapshot hnames hids hfits hsuppressed
  have hschemes := hdrawn.schemes_snapshot hids hfits hlisted
  rw [hafter, Backend.snapshot, htargets, hschemes]

/-- Projects of the same contents, each with distinct identities, compile to the same result and the same
backend. -/
theorem run_standard_of_anonymous_eq (h : copy.anonymous = project.anonymous)
    (hids : project.identities.Nodup) (hcopy : copy.identities.Nodup) (policy : TestTargetPolicy)
    (supply other : Supply) (backend : Backend) :
    ((Pipeline.standard (ν := ν) policy).run copy other backend).1 =
        ((Pipeline.standard (ν := ν) policy).run project supply backend).1 ∧
      ((Pipeline.standard (ν := ν) policy).run copy other backend).2.backend =
        ((Pipeline.standard (ν := ν) policy).run project supply backend).2.backend := by
  obtain ⟨rename, hrename, rfl⟩ := Project.exists_renamed h hids hcopy
  exact run_standard_renamed hrename policy supply other backend

/-- Whether a run succeeds does not depend on the order of the targets, and neither does what is saved,
but for its own order. -/
theorem standard_perm (hnames : (project.targets.map Target.name).Nodup)
    (hids : project.identities.Nodup) (hcopy : copy.identities.Nodup)
    {contents : List Target} (hperm : contents ~ project.targets.map Target.anonymous)
    (h : copy.anonymous = { project.anonymous with targets := contents })
    (hsuppressed : backend.suppressed = []) (hlisted : backend.listed = [])
    (supply other : Supply) :
    let first := (Pipeline.standard (ν := ν) .unique).run project supply backend
    let second := (Pipeline.standard (ν := ν) .unique).run copy other backend
    ((∃ summary, first.1 = .ok summary) ↔ ∃ summary, second.1 = .ok summary) ∧
      ∀ summary, first.1 = .ok summary → ∃ saved reordered,
        first.2.backend.saved = some saved ∧ second.2.backend.saved = some reordered ∧
          reordered.schemes ~ saved.schemes ∧ reordered.suppressed ~ saved.suppressed := by
  dsimp only
  -- In between stands the project itself, its targets in the order of the copy.
  obtain ⟨targets, htargets, hcontents⟩ := Project.exists_perm_of_anonymous hperm
  let middle : Project := { project with targets }
  have hnames' : (middle.targets.map Target.name).Nodup := (htargets.map _).nodup_iff.2 hnames
  have hids' : middle.identities.Nodup := (Project.identities_perm htargets).nodup_iff.2 hids
  have hsame : copy.anonymous = middle.anonymous := by
    rw [h, ← hcontents]
    rfl
  obtain ⟨hresult, hbackend⟩ := run_standard_of_anonymous_eq (ν := ν) hsame hids' hcopy .unique
    supply other backend
  have hback : project.targets ~ middle.targets := htargets.symm
  have hcompilable : project.Compilable .unique ↔ middle.Compilable .unique :=
    ⟨fun hproject => hproject.perm htargets, fun hmiddle => hmiddle.perm hback⟩
  have hiff : (∃ summary, ((Pipeline.standard (ν := ν) .unique).run project supply backend).1 =
      .ok summary) ↔ ∃ summary, ((Pipeline.standard (ν := ν) .unique).run middle supply backend).1 =
        .ok summary := by
    rw [standard_ok_iff hnames hids, standard_ok_iff hnames' hids', hcompilable]
  rw [hresult, hbackend]
  refine ⟨hiff, fun summary hsummary => ?_⟩
  obtain ⟨summary', hsummary'⟩ := hiff.1 ⟨summary, hsummary⟩
  refine ⟨project.savedList .unique, middle.savedList .unique,
    saved_of_run_standard hnames hids hsuppressed hlisted hsummary,
    saved_of_run_standard hnames' hids' hsuppressed hlisted hsummary',
    Project.schemes_perm htargets, ?_⟩
  calc
    (middle.savedList .unique).suppressed ~ middle.targets.map Target.name :=
      Project.suppressed_perm hnames'
    _ ~ project.targets.map Target.name := htargets.map _
    _ ~ (project.savedList .unique).suppressed := (Project.suppressed_perm hnames).symm

end Pipeline

end ProjectCompiler
