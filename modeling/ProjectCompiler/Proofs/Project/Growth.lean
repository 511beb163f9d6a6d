import ProjectCompiler.Proofs.Occurrences
import ProjectCompiler.Proofs.Project.Making
import ProjectCompiler.Proofs.Project.Nodes

/-!
# Growth — how projects and targets come about

Configurations are declared one by one, and a project takes in targets one by one. At each step
overrides are added where there are none. This module says of each operation what it makes and under
which identities.

- `BuildConfiguration.ensure_makes`: names of configurations stand at their first places;
- `Project.withConfigurations_makes`: a project before its targets;
- `Project.addTarget_makes`: a target gets the overrides that it lacks, in the project's order.
-/

namespace ProjectCompiler

open scoped List

/-! ## Configurations -/

namespace BuildConfiguration

theorem new_makes (name : String) : (new name).Makes [] (fun configuration => [configuration.id])
    fun configuration => configuration.name = name ∧ configuration.settings = Settings.empty := by
  unfold new
  refine Fresh.Makes.bind Fresh.freshIdentity_makes fun id _ => ?_
  exact Fresh.Makes.pure (List.Perm.refl _) ⟨rfl, rfl⟩

theorem find?_isSome {configurations : List BuildConfiguration} {name : String} :
    (find? configurations name).isSome ↔ name ∈ configurations.map BuildConfiguration.name := by
  simp [find?, List.find?_isSome]

/-- What is there stays in its place, and a new configuration comes last. -/
theorem ensure_fst (name : String) (configurations : List BuildConfiguration) (supply : Supply) :
    (ensure name configurations supply).1 =
      if name ∈ configurations.map BuildConfiguration.name then configurations
      else configurations ++ [{ id := ⟨supply.next⟩, name, settings := Settings.empty }] := by
  unfold ensure
  by_cases hname : name ∈ configurations.map BuildConfiguration.name
  · rw [if_pos (find?_isSome.2 hname), if_pos hname]
    rfl
  · rw [if_neg (find?_isSome.not.2 hname), if_neg hname]
    rfl

/-- A name that is there already changes nothing. -/
theorem ensure_makes (name : String) {configurations : List BuildConfiguration} {done : List String}
    (h : configurations.map BuildConfiguration.name = done.eraseDups) :
    (ensure name configurations).Makes (configurations.map BuildConfiguration.id)
      (List.map BuildConfiguration.id)
      fun after => after.map BuildConfiguration.name = (done ++ [name]).eraseDups := by
  have hmem : (find? configurations name).isSome ↔ name ∈ done := by
    rw [find?_isSome, h, List.mem_eraseDups]
  unfold ensure
  by_cases hname : name ∈ done
  · rw [if_pos (hmem.2 hname)]
    refine Fresh.Makes.pure (List.Perm.refl _) ?_
    rw [eraseDups_append_singleton, if_pos hname, h]
  · -- The new configuration comes last, under an identity beside those that are there.
    rw [if_neg fun hfound => hname (hmem.1 hfound)]
    refine Fresh.Makes.bind ((new_makes name).beside _) fun configuration hnew => ?_
    refine Fresh.Makes.pure (by simp) ?_
    rw [eraseDups_append_singleton, if_neg hname, List.map_append, h]
    simp [hnew.1]

/-- What a change keeps of one configuration is kept of all. -/
theorem map_modifyFirst {α : Type} {f : BuildConfiguration → α}
    {change : BuildConfiguration → BuildConfiguration} (h : ∀ configuration,
      f (change configuration) = f configuration) (name : String)
    (configurations : List BuildConfiguration) :
    (modifyFirst name change configurations).map f = configurations.map f := by
  induction configurations with
  | nil => rfl
  | cons configuration rest ih =>
    rw [modifyFirst]
    split
    · simp [h]
    · simp [ih]

end BuildConfiguration

/-! ## Overrides and schemes of a target -/

theorem Scheme.new_makes (name : String) :
    (Scheme.new name).Makes [] (fun scheme => [scheme.id]) fun scheme => scheme.name = name := by
  unfold Scheme.new
  refine Fresh.Makes.bind Fresh.freshIdentity_makes fun id _ => ?_
  exact Fresh.Makes.pure (List.Perm.refl _) rfl

namespace Target

theorem new_makes (name : String) (type : TargetType) (platform : Platform)
    (deploymentTarget : String) :
    (new name type platform deploymentTarget).Makes [] identities fun target =>
      target.name = name ∧ target.type = type ∧ target.configurations = [] ∧ target.schemes = [] := by
  unfold new
  refine Fresh.Makes.bind Fresh.freshIdentity_makes fun id _ => ?_
  exact Fresh.Makes.pure (by simp [identities]) ⟨rfl, rfl, rfl, rfl⟩

theorem unitTestBundle_makes (name : String) (host : Target) :
    (unitTestBundle name host).Makes [] identities fun target =>
      target.name = name ∧ target.host = some host.name ∧ target.configurations = [] := by
  unfold unitTestBundle
  refine Fresh.Makes.bind (new_makes _ _ _ _) ?_
  rintro target ⟨hname, -, hconfigurations, -⟩
  exact Fresh.Makes.pure (List.Perm.refl _) ⟨hname, rfl, hconfigurations⟩

/-- The names of the configurations that a target overrides. -/
def overrides (target : Target) : List String :=
  target.configurations.map BuildConfiguration.name

variable {target : Target}

/-- The identities of the overrides can be told apart from the rest. -/
theorem identities_perm (target : Target) : target.identities ~
    target.id :: target.schemes.map Scheme.id ++ target.configurations.map BuildConfiguration.id :=
  (List.perm_append_comm).cons target.id

theorem ensureConfiguration_makes (name : String) {done : List String}
    (h : target.overrides = done.eraseDups) :
    (target.ensureConfiguration name).Makes target.identities identities fun after =>
      after = { target with configurations := after.configurations } ∧
        after.overrides = (done ++ [name]).eraseDups := by
  unfold ensureConfiguration
  have hensure := (BuildConfiguration.ensure_makes name h).frame
    (target.id :: target.schemes.map Scheme.id)
  refine Fresh.Makes.bind (hensure.reorder target.identities_perm.symm)
    fun configurations hnames => ?_
  exact Fresh.Makes.pure (identities_perm _) ⟨rfl, hnames⟩

/-- An override is changed in its place, or it comes last if there was none. -/
theorem editConfiguration_makes (name : String) (hnodup : target.overrides.Nodup)
    {change : BuildConfiguration → BuildConfiguration}
    (hid : ∀ configuration, (change configuration).id = configuration.id)
    (hchange : ∀ configuration, (change configuration).name = configuration.name) :
    (target.editConfiguration name change).Makes target.identities identities fun after =>
      after = { target with configurations := after.configurations } ∧
        after.overrides = (target.overrides ++ [name]).eraseDups := by
  have hensure := ensureConfiguration_makes name (eraseDups_of_nodup hnodup).symm
  unfold editConfiguration
  refine Fresh.Makes.bind hensure fun middle hmiddle => ?_
  rcases hmiddle with ⟨hsame, hoverrides⟩
  refine Fresh.Makes.pure ?_ ⟨?_, ?_⟩
  · simp [identities, BuildConfiguration.map_modifyFirst hid]
  · rw [hsame]
  · exact (BuildConfiguration.map_modifyFirst hchange name _).trans hoverrides

theorem addScheme_makes (name : String) {change : Scheme → Scheme}
    (hid : ∀ scheme, (change scheme).id = scheme.id) :
    (target.addScheme name change).Makes target.identities identities fun after =>
      after = { target with schemes := after.schemes } := by
  unfold addScheme
  refine Fresh.Makes.bind ((Scheme.new_makes name).beside target.identities) fun scheme _ => ?_
  exact Fresh.Makes.pure (by simp [identities, hid]) rfl

end Target

/-! ## Targets of a project -/

namespace Project

/-- The names of the configurations that a project declares. -/
def declared (project : Project) : List String :=
  project.configurations.map BuildConfiguration.name

variable {project : Project}

theorem hasConfiguration_iff {name : String} :
    project.hasConfiguration name = true ↔ name ∈ project.declared := by
  simp [hasConfiguration, declared]

/-- Only names count for the configuration used when none is named. -/
theorem chooseDefault_eq (project : Project) : project.chooseDefault =
    if "Release" ∈ project.declared then "Release" else project.declared.getLast?.getD "" := by
  rw [chooseDefault, declared, List.getLast?_map]
  exact if_congr hasConfiguration_iff rfl rfl

theorem chooseDefault_congr {other : Project} (h : other.declared = project.declared) :
    other.chooseDefault = project.chooseDefault := by
  rw [chooseDefault_eq, chooseDefault_eq, h]

/-- The configuration used when none is named is declared, if there are any. -/
theorem chooseDefault_mem (h : project.configurations ≠ []) :
    project.chooseDefault ∈ project.declared := by
  unfold chooseDefault
  split
  · rename_i hrelease
    exact hasConfiguration_iff.1 hrelease
  · rw [List.getLast?_eq_some_getLast h]
    exact List.mem_map_of_mem (List.getLast_mem h)

/-- Every target gets an override of the name unless it has one, and so does the project. -/
theorem addConfiguration_makes (name : String) {done : List String}
    (h : project.declared = done.eraseDups)
    (hnodup : ∀ target ∈ project.targets, target.overrides.Nodup) :
    (project.addConfiguration name).Makes project.identities identities fun after =>
      after = { project with configurations := after.configurations, targets := after.targets } ∧
        after.declared = (done ++ [name]).eraseDups ∧
        List.Forall₂ (fun target after =>
          after = { target with configurations := after.configurations } ∧
            after.overrides = (target.overrides ++ [name]).eraseDups)
          project.targets after.targets := by
  have htargets := Fresh.Makes.mapM fun target (htarget : target ∈ project.targets) =>
    Target.ensureConfiguration_makes name (eraseDups_of_nodup (hnodup target htarget)).symm
  unfold addConfiguration
  refine Fresh.Makes.bind (htargets.frame (project.id :: project.configurations.map
    BuildConfiguration.id)) fun targets hoverrides => ?_
  -- The configuration comes between the project and its targets.
  have hensure := (BuildConfiguration.ensure_makes name h).frame
    (project.id :: targets.flatMap Target.identities)
  refine Fresh.Makes.bind (hensure.reorder (List.perm_append_comm.cons project.id))
    fun configurations hnames => ?_
  exact Fresh.Makes.pure (List.perm_append_comm.cons project.id) ⟨rfl, hnames, hoverrides⟩

theorem withConfigurations_makes (name : String) (configurations : List String) :
    (withConfigurations name configurations).Makes [] identities fun project =>
      project = {
        id := project.id
        name
        defaultConfiguration := project.chooseDefault
        settings := Settings.empty
        configurations := project.configurations
        targets := [] } ∧
      project.declared = configurations.eraseDups := by
  unfold withConfigurations
  refine Fresh.Makes.bind Fresh.freshIdentity_makes fun id _ => ?_
  dsimp only
  let bare : Project := {
    id
    name
    defaultConfiguration := ""
    settings := Settings.empty
    configurations := []
    targets := [] }
  -- What a declared name adds shows in the names only, so the invariant fixes everything else.
  have hfold : (configurations.foldlM addConfiguration bare).Makes bare.identities identities
      fun project => project = { bare with configurations := project.configurations } ∧
        project.declared = configurations.eraseDups := by
    refine Fresh.Makes.foldlM (I := fun (done : List String) (project : Project) =>
      project = { bare with configurations := project.configurations } ∧
        project.declared = done.eraseDups) ?_ ⟨rfl, rfl⟩
    intro done item rest _ project hproject
    rcases hproject with ⟨hsame, hdeclared⟩
    have htargets : project.targets = [] := by rw [hsame]
    refine (addConfiguration_makes item hdeclared (by simp [htargets])).weaken ?_
    rintro after ⟨hafter, hnames, hoverrides⟩
    -- Targets would get an override each, but there are none yet.
    rw [htargets, List.forall₂_nil_left_iff] at hoverrides
    exact ⟨by rw [hafter, hsame, hoverrides], hnames⟩
  refine Fresh.Makes.bind hfold fun project hproject => ?_
  rcases hproject with ⟨hsame, hdeclared⟩
  refine Fresh.Makes.pure (List.Perm.refl _) ⟨?_, hdeclared⟩
  rw [hsame]
  rfl

/-- A target of a new name is taken in last, with the overrides that it lacks. -/
theorem addTarget_makes {target : Target} (hname : target.name ∉ project.targets.map Target.name)
    (hnodup : target.overrides.Nodup) :
    Building.Makes (project.addTarget target) (project.identities ++ target.identities)
      identities fun after => ∃ added : Target,
        after = { project with targets := project.targets ++ [added] } ∧
        added = { target with configurations := added.configurations } ∧
        added.overrides = (target.overrides ++ project.declared).eraseDups := by
  -- The name is not refused.
  have hnew : (project.target? target.name).isSome = false := by
    rw [Bool.eq_false_iff, ne_eq, target?_isSome]
    rintro ⟨other, hother, hsame⟩
    exact hname (List.mem_map.2 ⟨other, hother, hsame⟩)
  -- The target grows beside the project, which keeps its identities meanwhile.
  have hfold : Building.Makes (project.configurations.foldlM (fun (target : Target) configuration =>
      liftM (target.ensureConfiguration configuration.name)) target)
        (project.identities ++ target.identities)
        (fun added => project.identities ++ added.identities) fun added =>
          added = { target with configurations := added.configurations } ∧
          added.overrides = (target.overrides ++ project.declared).eraseDups := by
    refine Building.Makes.foldlM (I := fun (done : List BuildConfiguration) (added : Target) =>
      added = { target with configurations := added.configurations } ∧
        added.overrides = (target.overrides ++ done.map BuildConfiguration.name).eraseDups) ?_ ?_
    · intro done configuration rest _ added hadded
      rcases hadded with ⟨hsame, hoverrides⟩
      have hensure := Target.ensureConfiguration_makes configuration.name hoverrides
      refine Building.Makes.lift ((hensure.frame project.identities).weaken ?_)
      rintro after ⟨hafter, hnames⟩
      refine ⟨by rw [hafter, hsame], ?_⟩
      rw [hnames, List.map_append, List.append_assoc]
      rfl
    · refine ⟨rfl, ?_⟩
      simp [eraseDups_of_nodup hnodup]
  unfold addTarget
  simp only [hnew, Bool.false_eq_true, if_false]
  refine Building.Makes.bind hfold ?_
  rintro added hadded
  refine Building.Makes.pure ?_ ⟨added, rfl, hadded⟩
  simp [identities]

/-- An edit of the last target, whose name no other has. -/
theorem editTarget_makes {name : String} {change : Target → Fresh Target} {before : List Target}
    {target : Target} {Q : Target → Prop} (hproject : project.targets = before ++ [target])
    (hnew : name ∉ before.map Target.name) (hname : target.name = name)
    (hchange : (change target).Makes target.identities Target.identities Q) :
    (project.editTarget name change).Makes project.identities identities fun after => ∃ changed,
      after = { project with targets := before ++ [changed] } ∧ Q changed := by
  have hedit : (editTarget.edit name change (before ++ [target])).Makes
      ((before ++ [target]).flatMap Target.identities) (List.flatMap Target.identities)
        fun targets => ∃ changed, targets = before ++ [changed] ∧ Q changed := by
    clear hproject
    -- Targets of other names are passed by until the last one is reached.
    induction before with
    | nil =>
      rw [List.nil_append, editTarget.edit, if_pos hname]
      have hsingle : (change target).Makes ([target].flatMap Target.identities)
          Target.identities Q := by simpa using hchange
      refine Fresh.Makes.bind hsingle fun changed hchanged => ?_
      exact Fresh.Makes.pure (by simp) ⟨changed, rfl, hchanged⟩
    | cons first rest ih =>
      have hfirst : first.name ≠ name := by
        rintro rfl
        exact hnew (by simp)
      have hrest : name ∉ rest.map Target.name := by
        intro hmem
        exact hnew (by simp [hmem])
      rw [List.cons_append, editTarget.edit, if_neg hfirst]
      refine Fresh.Makes.bind ((ih hrest).frame first.identities) ?_
      rintro _ ⟨changed, rfl, hchanged⟩
      exact Fresh.Makes.pure (List.Perm.refl _) ⟨changed, rfl, hchanged⟩
  unfold editTarget
  rw [hproject]
  have hframe := hedit.frame (project.id :: project.configurations.map BuildConfiguration.id)
  have hids : project.identities =
      project.id :: project.configurations.map BuildConfiguration.id ++
        (before ++ [target]).flatMap Target.identities := by
    rw [identities, hproject, List.cons_append]
  rw [hids]
  refine Fresh.Makes.bind hframe ?_
  rintro _ ⟨changed, rfl, hchanged⟩
  exact Fresh.Makes.pure (List.Perm.refl _) ⟨changed, rfl, hchanged⟩

end Project

end ProjectCompiler
