import ProjectCompiler.Manifest.OfToml
import ProjectCompiler.Proofs.Manifest.Outcome
import ProjectCompiler.Proofs.Project.Flattening
import ProjectCompiler.Proofs.Project.Renaming

/-!
# Test bundles — declared or added

A manifest can declare a bundle of unit tests with no more than a name and a host. Then the host is made once
more from its entry, and the bundle starts from that. The same bundle can be added to the project that the rest
of the manifest is lowered to, and then it starts from the host in the project, with all overrides and schemes.
It comes to the same, because a bundle takes over only what both hosts have in common.

- `TargetEntry.tests`: the entry of a bundle that says nothing by itself;
- `Manifest.withTests`: a manifest with such an entry at its end;
- `Manifest.lowerEntry_withTests`: what is lowered for entries that were there before does not change;
- `Manifest.declared_tests_as_added`: the two projects differ in their identities only.
-/

namespace ProjectCompiler

open Stateful

/-! ## Bundles with nothing but a host -/

namespace TargetEntry

variable {entry : TargetEntry}

/-- The bundle of unit tests for an entry, named after it. -/
def tests (entry : TargetEntry) : TargetEntry :=
  { empty with
    name := entry.name ++ "Tests"
    type := .unitTestBundle
    host := some entry.name }

/-- Nothing is laid over what the bundle has from its host. -/
theorem hosted_tests (entry : TargetEntry) (host : Target) :
    entry.tests.hosted host = Target.unitTestBundle (entry.name ++ "Tests") host := by
  funext supply
  have hsettings : ∀ settings, Settings.merged settings entry.tests.settings = settings :=
    Settings.merged_empty
  unfold hosted
  simp only [hsettings]
  rfl

/-- Of its host a bundle sees no more than what the host's entry says by itself. -/
theorem unitTestBundle_of_stands {host other : Target} (hname : host.name = other.name)
    (h : entry.Stands host) (hother : entry.Stands other) (name : String) :
    Target.unitTestBundle name host = Target.unitTestBundle name other := by
  have hplatform := Option.some.inj (h.platform.trans hother.platform.symm)
  have hdeployment := Option.some.inj (h.deploymentTarget.trans hother.deploymentTarget.symm)
  unfold Target.unitTestBundle
  rw [hname, hplatform, hdeployment, h.language, h.includeFiles, h.excludeFiles, hother.language,
    hother.includeFiles, hother.excludeFiles]

end TargetEntry

namespace Manifest

variable {manifest : Manifest} {entry : TargetEntry}

/-- The manifest with a bundle of unit tests for one of its entries, at the end. -/
def withTests (manifest : Manifest) (entry : TargetEntry) : Manifest :=
  { manifest with targets := manifest.targets ++ [entry.tests] }

/-! ## What stays -/

theorem target?_withTests {name : String} {found : TargetEntry}
    (h : manifest.target? name = some found) :
    (manifest.withTests entry).target? name = some found := by
  rw [target?, withTests, List.find?_append, ← target?, h]
  rfl

theorem target?_of_mem (h : manifest.Valid) (hentry : entry ∈ manifest.targets) :
    manifest.target? entry.name = some entry :=
  (target?_eq_some_iff h.distinct).2 ⟨hentry, rfl⟩

theorem Valid.withTests (h : manifest.Valid) (hentry : entry ∈ manifest.targets)
    (htype : entry.isUnitTestBundle = false)
    (hfree : entry.name ++ "Tests" ∉ manifest.targets.map TargetEntry.name) :
    (manifest.withTests entry).Valid where
  named := h.named
  default := h.default
  distinct := by
    rw [Manifest.withTests, List.map_append, List.nodup_append]
    refine ⟨h.distinct, by simp, ?_⟩
    rintro name hname _ hlast rfl
    obtain rfl := List.mem_singleton.1 hlast
    exact hfree hname
  hosted := by
    refine List.forall_mem_append.2 ⟨h.hosted, List.forall_mem_singleton.2 rfl⟩
  host := by
    refine List.forall_mem_append.2 ⟨?_, List.forall_mem_singleton.2 ?_⟩
    · intro other hother name hname
      obtain ⟨hostEntry, hfound, hbundle⟩ := h.host other hother name hname
      exact ⟨hostEntry, target?_withTests hfound, hbundle⟩
    · rintro name hname
      obtain rfl : entry.name = name := Option.some.inj hname
      exact ⟨entry, target?_withTests (target?_of_mem h hentry), htype⟩
  standalone := by
    refine List.forall_mem_append.2 ⟨h.standalone, List.forall_mem_singleton.2 nofun⟩
  overrides := by
    refine List.forall_mem_append.2 ⟨h.overrides, List.forall_mem_singleton.2 nofun⟩

/-- Hosts were found among the entries before, and are found there still. -/
theorem lowerEntry_withTests (h : manifest.Valid) {other : TargetEntry}
    (hother : other ∈ manifest.targets) :
    (manifest.withTests entry).lowerEntry other = manifest.lowerEntry other := by
  have hlower : (manifest.withTests entry).lowerTarget other = manifest.lowerTarget other := by
    unfold lowerTarget
    rcases hhost : other.host with _ | name
    · rfl
    · obtain ⟨hostEntry, hfound, -⟩ := h.host other hother name hhost
      dsimp only
      rw [hfound, target?_withTests hfound]
  unfold lowerEntry
  rw [hlower]
  rfl

theorem contents_withTests (h : manifest.Valid) {other : TargetEntry}
    (hother : other ∈ manifest.targets) :
    (manifest.withTests entry).contents other = manifest.contents other := by
  rw [contents, contents, lowerEntry_withTests h hother]

/-! ## What is added -/

/-- A bundle for a host, with an override of each configuration. -/
def bundle (manifest : Manifest) (host : Target) : Fresh Target := do
  let target ← Target.unitTestBundle (host.name ++ "Tests") host
  manifest.configurationNames.eraseDups.foldlM Target.ensureConfiguration target

theorem bundle_alike (manifest : Manifest) (host : Target) :
    (manifest.bundle host).Alike Target.anonymous (manifest.bundle host) :=
  (Target.unitTestBundle_alike _ rfl).bind fun _ _ hmade =>
    Fresh.Alike.foldlM (fun name _ _ => Target.ensureConfiguration_alike name) hmade

/-- For the entry of a bundle its host is made once more, but any target that stands for the host's entry is as
good. -/
theorem lowerEntry_tests (h : manifest.Valid) (hentry : entry ∈ manifest.targets)
    (htype : entry.isUnitTestBundle = false) {host : Target} (hname : host.name = entry.name)
    (hstands : entry.Stands host) (supply : Supply) :
    ∃ middle, (manifest.withTests entry).lowerEntry entry.tests supply =
      (.ok (manifest.bundle host middle).1, (manifest.bundle host middle).2) := by
  obtain ⟨hplatform, hdeployment⟩ := h.standalone entry hentry (h.host_eq_none hentry htype)
  obtain ⟨other, middle, -, hrun, -, -, hstarts⟩ :=
    TargetEntry.standalone_makes hplatform hdeployment supply
  obtain ⟨-, -, hother, -⟩ := entry.standalone_ends.of_ok hrun
  have hlower : (manifest.withTests entry).lowerTarget entry.tests supply =
      (liftM (entry.tests.hosted other) : Building Target) middle := by
    have hfound : (manifest.withTests entry).target? entry.name = some entry :=
      target?_withTests (target?_of_mem h hentry)
    have hhost : entry.tests.host = some entry.name := rfl
    unfold lowerTarget
    rw [hhost]
    dsimp only
    rw [hfound]
    exact bind_of_ok hrun _
  have hsame : entry.tests.hosted other = Target.unitTestBundle (host.name ++ "Tests") host := by
    rw [TargetEntry.hosted_tests, hname]
    exact TargetEntry.unitTestBundle_of_stands (hstarts.name.trans hname.symm) hother hstands _
  refine ⟨middle, ?_⟩
  rw [hsame] at hlower
  -- The entry has no overrides and no schemes, so there is nothing to complete.
  rw [lowerEntry, bind_of_ok (hlower.trans (Building.lift_apply _ middle))]
  rfl

theorem anonymous_bundle (h : manifest.Valid) (hentry : entry ∈ manifest.targets)
    (htype : entry.isUnitTestBundle = false) {host : Target} (hname : host.name = entry.name)
    (hstands : entry.Stands host) (supply : Supply) :
    (manifest.bundle host supply).1.anonymous =
      (manifest.withTests entry).contents entry.tests := by
  obtain ⟨middle, hlower⟩ := lowerEntry_tests h hentry htype hname hstands supply
  rw [← anonymous_of_lowerEntry hlower]
  exact manifest.bundle_alike host supply middle

theorem Lowered.wellFormed (h : manifest.Valid) {project : Project}
    (hlowered : manifest.Lowered manifest.targets project) : project.WellFormed := by
  have hnodup := nodup_eraseDups manifest.configurationNames
  have hoverrides : ∀ target ∈ project.targets,
      target.overrides = manifest.configurationNames.eraseDups := by
    intro target htarget
    obtain ⟨entry, -, hdeclares⟩ := exists_of_forall₂ hlowered.targets htarget
    exact hdeclares.overrides
  exact {
    declared := hlowered.declared ▸ hnodup
    targets := TargetEntry.map_name_of_declares hlowered.targets ▸ h.distinct
    overrides := fun target htarget => hoverrides target htarget ▸ hnodup
    covered := by
      intro target htarget name hname
      rw [hoverrides target htarget]
      exact List.count_eq_one_of_mem hnodup (hlowered.declared ▸ hname) }

/-- The host is found in the project, and what is made for it comes last. -/
theorem addUnitTests_apply (h : manifest.Valid) (hentry : entry ∈ manifest.targets)
    (htype : entry.isUnitTestBundle = false)
    (hfree : entry.name ++ "Tests" ∉ manifest.targets.map TargetEntry.name) {project : Project}
    (hlowered : manifest.Lowered manifest.targets project)
    (hfaithful : manifest.Faithful manifest.targets project) (supply : Supply) :
    ∃ host, host.name = entry.name ∧ entry.Stands host ∧
      project.addUnitTests entry.name supply =
        (.ok { project with targets := project.targets ++ [(manifest.bundle host supply).1] },
          (manifest.bundle host supply).2) := by
  obtain ⟨host, hmem, hdescribes⟩ := exists_of_forall₂ hfaithful.targets.flip hentry
  have hnames : project.targets.map Target.name = manifest.targets.map TargetEntry.name :=
    map_eq_map_of_forall₂ hfaithful.targets fun _ _ hsame => hsame.name
  have hfound : project.target? entry.name = some host := by
    obtain ⟨found, hfound⟩ :=
      Option.isSome_iff_exists.1 (Project.target?_isSome.2 ⟨host, hmem, hdescribes.name⟩)
    obtain ⟨hfoundMem, hfoundName⟩ := Project.mem_of_target? hfound
    have hdistinct : (project.targets.map Target.name).Nodup := hnames ▸ h.distinct
    rw [hfound, List.inj_on_of_nodup_map hdistinct hfoundMem hmem
      (hfoundName.trans hdescribes.name.symm)]
  have hnew : (Target.unitTestBundle (host.name ++ "Tests") host supply).1.name ∉
      project.targets.map Target.name := by
    rw [hnames]
    show host.name ++ "Tests" ∉ _
    rwa [hdescribes.name]
  refine ⟨host, hdescribes.name, hdescribes.standalone (h.host_eq_none hentry htype), ?_⟩
  rw [Project.addUnitTests, hfound]
  refine (bind_of_ok (Building.lift_apply _ supply) _).trans ?_
  rw [Project.addTarget_of_new hnew, hlowered.declared]
  rfl

/-- The project with the bundle holds what the manifest with the bundle asks for. -/
theorem addUnitTests_holds (h : manifest.Valid) (hentry : entry ∈ manifest.targets)
    (htype : entry.isUnitTestBundle = false)
    (hfree : entry.name ++ "Tests" ∉ manifest.targets.map TargetEntry.name) {project : Project}
    (hholds : manifest.Holds manifest.targets project)
    (hfaithful : manifest.Faithful manifest.targets project) :
    Building.Makes (project.addUnitTests entry.name) project.identities Project.identities
      fun added => added.anonymous = { (manifest.withTests entry).base with
        targets :=
          (manifest.withTests entry).targets.map (manifest.withTests entry).contents } := by
  intro before
  obtain ⟨host, hname, hstands, hrun⟩ :=
    addUnitTests_apply h hentry htype hfree hholds.lowered hfaithful before
  rcases Project.addUnitTests_wellFormed (hholds.lowered.wellFormed h) entry.name before with
    ⟨error, after, hfailed, -⟩ | ⟨added, after, new, hadded, hissued, hperm, -⟩
  · rw [hrun] at hfailed
    cases hfailed
  · refine ⟨added, after, new, hadded, hissued, hperm, ?_⟩
    rw [hrun] at hadded
    obtain rfl := Except.ok.inj (congrArg Prod.fst hadded)
    have hold : manifest.targets.map (manifest.withTests entry).contents =
        manifest.targets.map manifest.contents :=
      List.map_congr_left fun other hother => contents_withTests h hother
    calc
      Project.anonymous { project with
          targets := project.targets ++ [(manifest.bundle host before).1] } =
          { project.anonymous with
            targets := project.anonymous.targets ++
              [(manifest.bundle host before).1.anonymous] } := by
        simp [Project.anonymous]
      _ = { manifest.base with
            targets := manifest.targets.map (manifest.withTests entry).contents ++
              [(manifest.withTests entry).contents entry.tests] } := by
        rw [hholds.anonymous, anonymous_bundle h hentry htype hname hstands, hold]
      _ = _ := by
        rw [withTests, List.map_append]
        rfl

/-- Let a bundle of unit tests be declared at the end of a valid manifest with no more than three keys: its
type, its host, which is a target of the manifest, and the name that belongs to it. The manifest is then
lowered to the project that is built by lowering the rest and adding a bundle of unit tests for the host.
Whatever identities are given out on the two ways, the projects are equal up to them. -/
theorem declared_tests_as_added (hvalid : manifest.validate = .ok ())
    (hentry : entry ∈ manifest.targets) (htype : entry.type ≠ .unitTestBundle)
    (hfree : ∀ other ∈ manifest.targets, other.name ≠ entry.name ++ "Tests")
    (supply supply' : Supply) :
    let tests := { TargetEntry.empty with
      name := entry.name ++ "Tests"
      type := .unitTestBundle
      host := some entry.name }
    TargetEntry.ofToml (.table [("host", .str entry.name), ("name", .str (entry.name ++ "Tests")),
        ("type", .str "unit-test-bundle")]) = .ok tests ∧
      ∃ declared added after after',
        toProject { manifest with targets := manifest.targets ++ [tests] } supply =
            (.ok declared, after) ∧
          (do (← manifest.toProject).addUnitTests entry.name : Building Project) supply' =
            (.ok added, after') ∧
          ∃ rename : Identity → Identity, Set.InjOn rename {id | id ∈ added.identities} ∧
            declared = added.renamed rename := by
  have h : manifest.Valid := validate_eq_ok.1 hvalid
  have hplain : entry.isUnitTestBundle = false := by simpa [TargetEntry.isUnitTestBundle] using htype
  have hfresh : entry.name ++ "Tests" ∉ manifest.targets.map TargetEntry.name := by
    simpa using hfree
  obtain ⟨declared, after, new, hdeclared, hissued, hperm, hholds⟩ :=
    toProject_holds (h.withTests hentry hplain hfresh) supply
  obtain ⟨project, middle, first, hproject, hfirst, hpermFirst, hlowered⟩ := toProject_holds h supply'
  obtain ⟨added, after', second, hadded, hsecond, hpermSecond, hanonymous⟩ := addUnitTests_holds h
    hentry hplain hfresh hlowered (manifest.toProject_ends.of_ok hproject).1 middle
  refine ⟨rfl, declared, added, after, after', hdeclared, (bind_of_ok hproject _).trans hadded, ?_⟩
  have hdistinct : declared.identities.Nodup := hperm.nodup_iff.2 hissued.nodup
  have hdistinct' : added.identities.Nodup :=
    (hpermSecond.trans (hpermFirst.append_right second)).nodup_iff.2 (hfirst.append hsecond).nodup
  exact Project.exists_renamed (hholds.anonymous.trans hanonymous.symm) hdistinct' hdistinct

/-- Of an application that says much by itself, the bundle declared and the bundle added are the same. -/
theorem tests_of_busy_application :
    let application := { TargetEntry.empty with
      name := "App", platform := some .macos, deploymentTarget := some "14.0"
      language := some .swift, includeFiles := ["Sources"]
      settings := Settings.empty.insert "FLAG" (.bool true)
      configurations := [("Release", Settings.empty.insert "SPEED" (.str "fast"))]
      schemes := [{ SchemeEntry.empty with name := "App" }] }
    let manifest := { Manifest.empty with projectName := "Demo", targets := [application] }
    manifest.validate = .ok () ∧
      ∃ declared added after after',
        (manifest.withTests application).toProject ⟨0⟩ = (.ok declared, after) ∧
        (do (← manifest.toProject).addUnitTests "App" : Building Project) ⟨100⟩ =
          (.ok added, after') ∧
        declared.targets.map Target.name = ["App", "AppTests"] ∧
        ∃ rename : Identity → Identity, Set.InjOn rename {id | id ∈ added.identities} ∧
          declared = added.renamed rename := by
  intro application manifest
  have hvalid : manifest.validate = .ok () := by decide +kernel
  have hentry : application ∈ manifest.targets := List.mem_singleton.2 rfl
  have htype : application.type ≠ .unitTestBundle := nofun
  have hfree : ∀ other ∈ manifest.targets, other.name ≠ application.name ++ "Tests" := by
    decide +kernel
  obtain ⟨-, declared, added, after, after', hdeclared, hadded, hrename⟩ :=
    declared_tests_as_added hvalid hentry htype hfree ⟨0⟩ ⟨100⟩
  have hnames : ((manifest.withTests application).toProject ⟨0⟩).1.map
      (fun project => project.targets.map Target.name) = .ok ["App", "AppTests"] := by
    decide +kernel
  refine ⟨hvalid, declared, added, after, after', hdeclared, hadded, ?_, hrename⟩
  have hrun : (manifest.withTests application).toProject ⟨0⟩ = (.ok declared, after) := hdeclared
  rw [hrun] at hnames
  exact Except.ok.inj hnames

end Manifest

end ProjectCompiler
