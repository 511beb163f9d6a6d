import ProjectCompiler.Proofs.Manifest.Validation
import ProjectCompiler.Proofs.Project.Growth

/-!
# Lowering — valid manifests become projects

Lowering makes a target for each entry, gives it the overrides that the project asks for, and then lays
the entry's own overrides and schemes over it. Of a valid manifest every entry can be lowered: if it has
a host, then the host's entry stands for itself.

- `TargetEntry.Starts`: the target of an entry before it is completed;
- `Manifest.Lowered`: the project after some entries, which is the invariant of the loop over them;
- `Manifest.toProject_makes`: a valid manifest becomes a project, all of its objects under new
  identities.
-/

namespace ProjectCompiler

open scoped List

/-! ## Schemes of an entry -/

theorem Scheme.id_setConfiguration (scheme : Scheme) (action : SchemeAction) (name : String) :
    (scheme.setConfiguration action name).id = scheme.id := by
  cases action <;> rfl

/-- What setting single configurations keeps of a scheme is kept by an entry. -/
theorem SchemeEntry.applyTo_keeps {α : Type} {view : Scheme → α}
    (h : ∀ (scheme : Scheme) action name, view (scheme.setConfiguration action name) = view scheme)
    (entry : SchemeEntry) (scheme : Scheme) : view (entry.applyTo scheme) = view scheme := by
  have hfold : ∀ (overrides : List (SchemeAction × String)) (start : Scheme),
      view (overrides.foldl (fun scheme override => scheme.setConfiguration override.1 override.2)
        start) = view start := by
    intro overrides
    induction overrides with
    | nil =>
      intro start
      rfl
    | cons override rest ih =>
      intro start
      exact (ih _).trans (h start _ _)
  rw [applyTo, hfold]
  cases entry.configuration with
  | none => rfl
  | some name => simp [Scheme.useConfiguration, SchemeAction.all, h]

theorem SchemeEntry.id_applyTo (entry : SchemeEntry) (scheme : Scheme) :
    (entry.applyTo scheme).id = scheme.id :=
  applyTo_keeps Scheme.id_setConfiguration entry scheme

/-! ## Single entries -/

namespace TargetEntry

variable {entry : TargetEntry}

/-- The target of an entry before overrides and schemes are laid over it. -/
structure Starts (entry : TargetEntry) (target : Target) : Prop where
  name : target.name = entry.name
  type : target.type = entry.type
  host : target.host = entry.host
  configurations : target.configurations = []

theorem standalone_makes (hplatform : entry.platform.isSome)
    (hdeployment : entry.deploymentTarget.isSome) :
    Building.Makes entry.standalone [] Target.identities entry.Starts := by
  rcases Option.isSome_iff_exists.1 hplatform with ⟨platform, hplatform⟩
  rcases Option.isSome_iff_exists.1 hdeployment with ⟨deploymentTarget, hdeployment⟩
  unfold standalone
  simp only [hplatform, hdeployment]
  refine Building.Makes.bind (Building.Makes.lift (Target.new_makes _ _ _ _)) ?_
  rintro target ⟨hname, htype, hconfigurations, -⟩
  exact Building.Makes.pure (List.Perm.refl _) ⟨hname, htype, rfl, hconfigurations⟩

/-- A target over the target of its host is named by it. -/
theorem hosted_makes {host : Target} (h : entry.host = some host.name) :
    (entry.hosted host).Makes [] Target.identities entry.Starts := by
  unfold hosted
  refine Fresh.Makes.bind (Target.unitTestBundle_makes entry.name host) ?_
  rintro target ⟨hname, hhost, hconfigurations⟩
  exact Fresh.Makes.pure (List.Perm.refl _) ⟨hname, rfl, hhost.trans h.symm, hconfigurations⟩

/-- Completing a target changes nothing but the settings of its overrides and its schemes. -/
theorem complete_makes {target : Target} (hnodup : target.overrides.Nodup)
    (h : ∀ override ∈ entry.configurations, override.1 ∈ target.overrides) :
    (entry.complete target).Makes target.identities Target.identities fun after =>
      after = { target with configurations := after.configurations, schemes := after.schemes } ∧
        after.overrides = target.overrides := by
  have hoverrides : (entry.configurations.foldlM (fun (target : Target) override =>
      target.editConfiguration override.1
        fun configuration => { configuration with settings := override.2 }) target).Makes
      target.identities Target.identities fun after =>
        after = { target with configurations := after.configurations } ∧
          after.overrides = target.overrides := by
    refine Fresh.Makes.foldlM (I := fun _ (after : Target) =>
      after = { target with configurations := after.configurations } ∧
        after.overrides = target.overrides) ?_ ⟨rfl, rfl⟩
    intro done override rest hsplit middle hmiddle
    rcases hmiddle with ⟨hsame, hnames⟩
    -- What an entry overrides is there already, so no override is added and the names stay.
    have hname : override.1 ∈ middle.overrides := by
      rw [hnames]
      exact h override (by simp [hsplit])
    have hdistinct : middle.overrides.Nodup := hnames ▸ hnodup
    refine (Target.editConfiguration_makes override.1 hdistinct (by simp) (by simp)).weaken ?_
    rintro after ⟨hafter, hafterNames⟩
    rw [eraseDups_append_singleton, if_pos hname, eraseDups_of_nodup hdistinct] at hafterNames
    exact ⟨by rw [hafter, hsame], hafterNames.trans hnames⟩
  unfold complete
  refine Fresh.Makes.bind hoverrides ?_
  rintro middle ⟨hsame, hnames⟩
  refine Fresh.Makes.foldlM (I := fun _ (after : Target) =>
    after = { target with configurations := after.configurations, schemes := after.schemes } ∧
      after.overrides = target.overrides) ?_ ⟨by rw [hsame], hnames⟩
  intro done scheme rest _ before hbefore
  rcases hbefore with ⟨hbeforeSame, hbeforeNames⟩
  refine (Target.addScheme_makes scheme.name scheme.id_applyTo).weaken ?_
  intro after hafter
  refine ⟨by rw [hafter, hbeforeSame], ?_⟩
  have hconfigurations : after.configurations = before.configurations := by rw [hafter]
  rw [Target.overrides, hconfigurations]
  exact hbeforeNames

/-- A target of the project that stands for an entry; it overrides the given configurations. -/
structure Declares (configurations : List String) (entry : TargetEntry) (target : Target) : Prop where
  name : target.name = entry.name
  type : target.type = entry.type
  host : target.host = entry.host
  overrides : target.overrides = configurations

theorem Declares.isUnitTestBundle {configurations : List String} {target : Target}
    (h : entry.Declares configurations target) :
    target.isUnitTestBundle = entry.isUnitTestBundle := by
  rw [Target.isUnitTestBundle, TargetEntry.isUnitTestBundle, h.type]

theorem map_name_of_declares {configurations : List String} {entries : List TargetEntry}
    {targets : List Target} (h : List.Forall₂ (Declares configurations) entries targets) :
    targets.map Target.name = entries.map TargetEntry.name := by
  induction h with
  | nil => rfl
  | cons hfirst _ ih => simp [hfirst.name, ih]

end TargetEntry

/-! ## The whole manifest -/

namespace Manifest

variable {manifest : Manifest} {entry : TargetEntry}

/-- The project after some entries. -/
structure Lowered (manifest : Manifest) (done : List TargetEntry) (project : Project) : Prop where
  declared : project.declared = manifest.configurationNames.eraseDups
  default : project.defaultConfiguration ∈ manifest.configurationNames
  targets : List.Forall₂ (TargetEntry.Declares manifest.configurationNames.eraseDups) done
    project.targets

theorem lowerTarget_makes (h : manifest.Valid) (hentry : entry ∈ manifest.targets) :
    Building.Makes (manifest.lowerTarget entry) [] Target.identities entry.Starts := by
  rcases hhost : entry.host with _ | name
  · rcases h.standalone entry hentry hhost with ⟨hplatform, hdeployment⟩
    unfold lowerTarget
    rw [hhost]
    exact TargetEntry.standalone_makes hplatform hdeployment
  · rcases h.host entry hentry name hhost with ⟨hostEntry, hfound, hbundle⟩
    rcases mem_of_target? hfound with ⟨hmem, hname⟩
    -- The host is no unit-test bundle, so it has no host of its own and stands for itself.
    have hnone : hostEntry.host = none := h.host_eq_none hmem hbundle
    rcases h.standalone hostEntry hmem hnone with ⟨hplatform, hdeployment⟩
    unfold lowerTarget
    rw [hhost]
    dsimp only
    rw [hfound]
    have hstandalone := (TargetEntry.standalone_makes hplatform hdeployment).drop []
    refine Building.Makes.bind hstandalone fun host hstarts => ?_
    have hhostName : entry.host = some host.name := by
      rw [hhost, hstarts.name, hname]
    exact Building.Makes.lift (TargetEntry.hosted_makes hhostName)

theorem foldl_editConfiguration (declared : List (String × Settings)) (project : Project) :
    ∃ configurations, declared.foldl (fun project declared => project.editConfiguration declared.1
        fun configuration => { configuration with settings := declared.2 }) project =
        { project with configurations } ∧
      configurations.map BuildConfiguration.name =
        project.configurations.map BuildConfiguration.name ∧
      configurations.map BuildConfiguration.id = project.configurations.map BuildConfiguration.id := by
  induction declared generalizing project with
  | nil => exact ⟨project.configurations, rfl, rfl, rfl⟩
  | cons first rest ih =>
    rcases ih (project.editConfiguration first.1
      fun configuration => { configuration with settings := first.2 }) with
      ⟨configurations, hfold, hnames, hids⟩
    refine ⟨configurations, hfold, hnames.trans ?_, hids.trans ?_⟩
    · exact BuildConfiguration.map_modifyFirst (by simp) first.1 _
    · exact BuildConfiguration.map_modifyFirst (by simp) first.1 _

/-- The default configuration is declared, whether the manifest names one or leaves it to the
project. -/
theorem getD_chooseDefault_mem (h : manifest.Valid) {project : Project}
    (hdeclared : project.declared = manifest.configurationNames.eraseDups) :
    manifest.defaultConfiguration.getD project.chooseDefault ∈ manifest.configurationNames := by
  rcases hgiven : manifest.defaultConfiguration with _ | name
  · have hsome : project.configurations ≠ [] := by
      intro hnone
      have hnil : manifest.configurationNames.eraseDups = [] := by
        rw [← hdeclared, Project.declared, hnone, List.map_nil]
      have hhead := List.head_mem manifest.configurationNames_ne_nil
      rw [← List.mem_eraseDups, hnil] at hhead
      cases hhead
    have hmem := Project.chooseDefault_mem hsome
    rw [hdeclared, List.mem_eraseDups] at hmem
    exact hmem
  · exact h.default name hgiven

/-- The configurations are those of the manifest, and the default is given or chosen among them. -/
structure Chooses (manifest : Manifest) (project : Project) : Prop where
  declared : project.declared = manifest.configurationNames.eraseDups
  default : project.defaultConfiguration = manifest.defaultConfiguration.getD project.chooseDefault

theorem lowerConfigurations_chooses (manifest : Manifest) :
    manifest.lowerConfigurations.Makes [] Project.identities fun project =>
      manifest.Chooses project ∧ project.targets = [] := by
  unfold lowerConfigurations
  refine Fresh.Makes.bind (Project.withConfigurations_makes _ _) ?_
  rintro project ⟨hsame, hdeclared⟩
  dsimp only
  rcases foldl_editConfiguration manifest.configurations { project with
    defaultConfiguration := manifest.defaultConfiguration.getD project.defaultConfiguration
    settings := manifest.settings } with ⟨configurations, hfold, hnames, hids⟩
  rw [hfold]
  have hchosen : project.defaultConfiguration = project.chooseDefault :=
    congrArg Project.defaultConfiguration hsame
  refine Fresh.Makes.pure ?_ ⟨⟨hnames.trans hdeclared, ?_⟩, by rw [hsame]⟩
  · simp only [Project.identities, hids]
    exact List.Perm.refl _
  · -- Settings do not change the names, and so not the choice either.
    have hchoice : project.chooseDefault = Project.chooseDefault { project with configurations } :=
      Project.chooseDefault_congr hnames.symm
    exact congrArg manifest.defaultConfiguration.getD (hchosen.trans hchoice)

theorem lowerConfigurations_makes (h : manifest.Valid) :
    manifest.lowerConfigurations.Makes [] Project.identities (manifest.Lowered []) := by
  refine (lowerConfigurations_chooses manifest).weaken ?_
  rintro project ⟨hchooses, htargets⟩
  refine ⟨hchooses.declared, ?_, ?_⟩
  · rw [hchooses.default]
    exact getD_chooseDefault_mem h hchooses.declared
  · rw [htargets]
    exact List.Forall₂.nil

/-- An entry that is still to come has a name of its own. -/
theorem Lowered.new_name (h : manifest.Valid) {done rest : List TargetEntry} {project : Project}
    (hproject : manifest.Lowered done project) (hsplit : manifest.targets = done ++ entry :: rest) :
    entry.name ∉ project.targets.map Target.name := by
  have hdistinct := h.distinct
  rw [hsplit, List.map_append, List.nodup_append] at hdistinct
  rw [TargetEntry.map_name_of_declares hproject.targets]
  intro hold
  exact hdistinct.2.2 entry.name hold entry.name (by simp) rfl

/-- One more entry: its target comes last and is completed there. -/
theorem addEntry_makes (h : manifest.Valid) {done rest : List TargetEntry}
    (hsplit : manifest.targets = done ++ entry :: rest) {project : Project}
    (hproject : manifest.Lowered done project) :
    Building.Makes (manifest.addEntry project entry) project.identities Project.identities
      (manifest.Lowered (done ++ [entry])) := by
  have hentry : entry ∈ manifest.targets := by simp [hsplit]
  have hnew : entry.name ∉ project.targets.map Target.name := Lowered.new_name h hproject hsplit
  unfold addEntry
  -- First the target by itself, with no overrides.
  refine Building.Makes.bind ((lowerTarget_makes h hentry).beside project.identities) ?_
  intro target hstarts
  have hnone : target.overrides = [] := by
    rw [Target.overrides, hstarts.configurations, List.map_nil]
  have hname : target.name ∉ project.targets.map Target.name := hstarts.name ▸ hnew
  -- In the project it gets one for each declared configuration.
  refine Building.Makes.bind (Project.addTarget_makes hname (hnone ▸ List.nodup_nil)) ?_
  rintro _ ⟨added, rfl, hadded, hoverrides⟩
  rw [hnone, List.nil_append, hproject.declared, eraseDups_of_nodup (nodup_eraseDups _)]
    at hoverrides
  -- Then it is looked up by its name, where it stands last, and completed.
  have hcomplete : (entry.complete added).Makes added.identities Target.identities fun after =>
      after = { added with configurations := after.configurations, schemes := after.schemes } ∧
        after.overrides = added.overrides := by
    refine TargetEntry.complete_makes (hoverrides ▸ nodup_eraseDups _) fun override hoverride => ?_
    rw [hoverrides, List.mem_eraseDups]
    exact h.overrides entry hentry override hoverride
  have haddedName : added.name = entry.name := by rw [hadded, hstarts.name]
  refine Building.Makes.lift ((Project.editTarget_makes rfl hnew haddedName hcomplete).weaken ?_)
  rintro _ ⟨changed, rfl, hchanged, hkept⟩
  refine ⟨hproject.declared, hproject.default, List.rel_append hproject.targets ?_⟩
  refine List.Forall₂.cons ?_ List.Forall₂.nil
  exact {
    name := by rw [hchanged, haddedName]
    type := by rw [hchanged, hadded, hstarts.type]
    host := by rw [hchanged, hadded, hstarts.host]
    overrides := hkept.trans hoverrides }

/-- A valid manifest becomes a project whose objects all stand under identities of their own. -/
theorem toProject_makes (h : manifest.Valid) :
    Building.Makes manifest.toProject [] Project.identities (manifest.Lowered manifest.targets) := by
  unfold toProject
  refine Building.Makes.bind (Building.Makes.lift (lowerConfigurations_makes h)) ?_
  intro project hproject
  refine Building.Makes.foldlM (I := manifest.Lowered) ?_ hproject
  intro done entry rest hsplit middle hmiddle
  exact addEntry_makes h hsplit hmiddle

end Manifest

end ProjectCompiler
