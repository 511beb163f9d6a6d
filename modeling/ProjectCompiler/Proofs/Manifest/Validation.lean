import ProjectCompiler.Manifest.Violation
import Mathlib.Data.List.Nodup

/-!
# Validation — what a valid manifest can be relied on for

Validation goes through the manifest in order and reports the first violation. That there is none can be
said without an order: every part of the manifest meets a condition of its own.

- `Manifest.Valid`: all conditions;
- `Manifest.validate_eq_ok`: a manifest is accepted exactly if it meets them.
-/

namespace ProjectCompiler

/-- What validation checks. -/
structure Manifest.Valid (manifest : Manifest) : Prop where
  named : Blank.isBlank manifest.projectName = false
  default : ∀ name, manifest.defaultConfiguration = some name → name ∈ manifest.configurationNames
  distinct : (manifest.targets.map TargetEntry.name).Nodup
  /-- Unit-test bundles have a host, and nothing else has. -/
  hosted : ∀ entry ∈ manifest.targets, entry.host.isSome = entry.isUnitTestBundle
  /-- A host is a target that is no unit-test bundle. -/
  host : ∀ entry ∈ manifest.targets, ∀ name, entry.host = some name →
    ∃ hostEntry, manifest.target? name = some hostEntry ∧ hostEntry.isUnitTestBundle = false
  /-- A target without a host says where it runs. -/
  standalone : ∀ entry ∈ manifest.targets, entry.host = none →
    entry.platform.isSome ∧ entry.deploymentTarget.isSome
  overrides : ∀ entry ∈ manifest.targets, ∀ override ∈ entry.configurations,
    override.1 ∈ manifest.configurationNames

namespace Manifest

variable {manifest : Manifest} {entry : TargetEntry}

theorem hasConfiguration_iff {name : String} :
    manifest.hasConfiguration name = true ↔ name ∈ manifest.configurationNames := by
  simp [hasConfiguration]

theorem configurationNames_ne_nil (manifest : Manifest) : manifest.configurationNames ≠ [] := by
  unfold configurationNames
  split
  · simp
  · rename_i hsome
    simpa using hsome

theorem mem_of_target? {name : String} (h : manifest.target? name = some entry) :
    entry ∈ manifest.targets ∧ entry.name = name := by
  have hname := List.find?_some h
  exact ⟨List.mem_of_find?_eq_some h, by simpa using hname⟩

theorem target?_eq_none_iff {name : String} :
    manifest.target? name = none ↔ name ∉ manifest.targets.map TargetEntry.name := by
  simp [target?]

theorem target?_eq_some_iff (h : (manifest.targets.map TargetEntry.name).Nodup) {name : String}
    {entry : TargetEntry} :
    manifest.target? name = some entry ↔ entry ∈ manifest.targets ∧ entry.name = name := by
  constructor
  · exact mem_of_target?
  · rintro ⟨hentry, rfl⟩
    have hfound : (manifest.target? entry.name).isSome := by
      simpa [target?] using ⟨entry, hentry, rfl⟩
    obtain ⟨other, hother⟩ := Option.isSome_iff_exists.1 hfound
    obtain ⟨hmem, hname⟩ := mem_of_target? hother
    rw [hother, List.inj_on_of_nodup_map h hmem hentry hname]

/-- Only unit-test bundles have a host. -/
theorem Valid.host_eq_none (h : manifest.Valid) (hentry : entry ∈ manifest.targets)
    (htype : entry.isUnitTestBundle = false) : entry.host = none := by
  rw [← Option.not_isSome_iff_eq_none, h.hosted entry hentry, htype]
  simp

/-! ## Single conditions -/

theorem projectViolations_eq_nil : manifest.projectViolations = [] ↔
    Blank.isBlank manifest.projectName = false ∧
      ∀ name, manifest.defaultConfiguration = some name → name ∈ manifest.configurationNames := by
  rw [projectViolations, List.append_eq_nil_iff]
  refine and_congr (by simp) ?_
  cases manifest.defaultConfiguration with
  | none => simp
  | some name => simp [hasConfiguration_iff]

/-- Names are repeated if they stand twice in what is left or were seen before. -/
theorem repeated_go_eq_nil {seen names : List String} :
    repeated.go seen names = [] ↔ names.Nodup ∧ ∀ name ∈ names, name ∉ seen := by
  -- Each name is seen by all that follow.
  induction names generalizing seen with
  | nil => simp [repeated.go]
  | cons name rest ih =>
    rw [repeated.go, List.append_eq_nil_iff, ih, List.nodup_cons]
    constructor
    · rintro ⟨hname, hrest, hunseen⟩
      have hnew : name ∉ seen := by simpa using hname
      refine ⟨⟨fun hmem => hunseen name hmem List.mem_cons_self, hrest⟩, ?_⟩
      intro other hother hseen
      rcases List.mem_cons.1 hother with rfl | hother
      · exact hnew hseen
      · exact hunseen other hother (List.mem_cons_of_mem _ hseen)
    · rintro ⟨⟨hname, hrest⟩, hunseen⟩
      refine ⟨by simp [hunseen name List.mem_cons_self], hrest, ?_⟩
      intro other hother hseen
      rcases List.mem_cons.1 hseen with rfl | hseen
      · exact hname hother
      · exact hunseen other (List.mem_cons_of_mem _ hother) hseen

theorem nameViolations_eq_nil :
    manifest.nameViolations = [] ↔ (manifest.targets.map TargetEntry.name).Nodup := by
  simp [nameViolations, repeated, repeated_go_eq_nil]

theorem hostViolations_eq_nil : manifest.hostViolations entry = [] ↔
    entry.host.isSome = entry.isUnitTestBundle ∧ ∀ name, entry.host = some name →
      ∃ hostEntry, manifest.target? name = some hostEntry ∧ hostEntry.isUnitTestBundle = false := by
  unfold hostViolations
  -- A host is looked up only where one may be named.
  cases entry.host with
  | none => cases entry.isUnitTestBundle <;> simp
  | some name =>
    cases entry.isUnitTestBundle with
    | false => simp
    | true =>
      rcases hfound : manifest.target? name with _ | hostEntry
      · simp [hfound]
      · simp [hfound]

theorem standaloneViolations_eq_nil : standaloneViolations entry = [] ↔
    (entry.host = none → entry.platform.isSome ∧ entry.deploymentTarget.isSome) := by
  unfold standaloneViolations
  cases entry.host with
  | some name => simp
  | none => simp [Option.isSome_iff_ne_none]

theorem overrideViolations_eq_nil : manifest.overrideViolations entry = [] ↔
    ∀ override ∈ entry.configurations, override.1 ∈ manifest.configurationNames := by
  simp [overrideViolations, List.filter_eq_nil_iff, hasConfiguration_iff]

/-! ## All conditions -/

theorem violations_eq_nil : manifest.violations = [] ↔ manifest.Valid := by
  have htarget : ∀ entry, manifest.targetViolations entry = [] ↔
      (manifest.hostViolations entry = [] ∧ standaloneViolations entry = []) ∧
        manifest.overrideViolations entry = [] := by
    simp [targetViolations, and_assoc]
  simp only [violations, List.append_eq_nil_iff, List.flatMap_eq_nil_iff, htarget,
    projectViolations_eq_nil, nameViolations_eq_nil, hostViolations_eq_nil,
    standaloneViolations_eq_nil, overrideViolations_eq_nil]
  constructor
  · rintro ⟨⟨⟨hnamed, hdefault⟩, hdistinct⟩, htargets⟩
    exact {
      named := hnamed
      default := hdefault
      distinct := hdistinct
      hosted := fun entry hentry => (htargets entry hentry).1.1.1
      host := fun entry hentry => (htargets entry hentry).1.1.2
      standalone := fun entry hentry => (htargets entry hentry).1.2
      overrides := fun entry hentry => (htargets entry hentry).2 }
  · intro h
    refine ⟨⟨⟨h.named, h.default⟩, h.distinct⟩, fun entry hentry => ?_⟩
    exact ⟨⟨⟨h.hosted entry hentry, h.host entry hentry⟩, h.standalone entry hentry⟩,
      h.overrides entry hentry⟩

theorem validate_eq_ok : manifest.validate = .ok () ↔ manifest.Valid := by
  rw [← violations_eq_nil, validate]
  cases manifest.violations with
  | nil => simp
  | cons violation rest => simp

end Manifest

end ProjectCompiler
