import ProjectCompiler.Proofs.Project.Workshop

/-!
# Flattening — one entry for each configuration, and one more for a new one

A target is flattened in the order of the project, whatever the order of its own overrides: they are
matched by name, and a name that is not found would be passed over. In a project that came about by its
operations every name is found. So a flattened target has an entry for each configuration, and a new
configuration adds one entry behind them, even where the target had an override of that name long before.

- `Target.Gains`: a target before and after a configuration is declared;
- `Project.WellFormed.flattenTarget_of_gains`: what this adds to the flattened target;
- `Workshop.flattening_complete_and_stable`: flattening over every history.
-/

namespace ProjectCompiler

/-- What holds of every item, wherever the supply stands, holds of all that is made of a list. -/
theorem Fresh.forall₂_mapM {α β : Type} {make : α → Fresh β} {R : α → β → Prop} {items : List α}
    (h : ∀ item ∈ items, ∀ supply, R item (make item supply).1) (supply : Supply) :
    List.Forall₂ R items (items.mapM make supply).1 := by
  induction items generalizing supply with
  | nil => exact List.Forall₂.nil
  | cons item rest ih =>
    rw [List.mapM_cons]
    refine List.Forall₂.cons (h item List.mem_cons_self supply) ?_
    exact ih (fun other hother => h other (List.mem_cons_of_mem _ hother)) _

theorem Settings.merged_empty (base : Settings) : merged base empty = base := by
  rw [merged, empty, Value.mergeEntries]

/-! ## Targets -/

namespace Target

/-- Under one name the target finds an override, the one that it had or else an empty one. Under the names
that it had it finds what it found before. -/
structure Gains (declared : String) (before after : Target) : Prop where
  name : after.name = before.name
  settings : after.settings = before.settings
  kept : ∀ other ∈ before.overrides, after.configuration? other = before.configuration? other
  gained : ∃ override, after.configuration? declared = some override ∧ override.name = declared ∧
    match before.configuration? declared with
    | some prior => override = prior
    | none => override.settings = Settings.empty

variable {target : Target} {name : String}

theorem configuration?_isSome : (target.configuration? name).isSome ↔ name ∈ target.overrides :=
  BuildConfiguration.find?_isSome

theorem name_of_configuration? {override : BuildConfiguration}
    (h : target.configuration? name = some override) : override.name = name := by
  simpa using List.find?_some h

/-- A name that is overridden once is found at the only override of it. -/
theorem filter_overrides (h : target.overrides.count name = 1) {override : BuildConfiguration}
    (hmem : override ∈ target.configurations) (hname : override.name = name) :
    target.configurations.filter (fun other => other.name = name) = [override] := by
  have hlength : (target.configurations.filter fun other => other.name = name).length = 1 := by
    rw [← h, overrides, List.count, List.countP_map, ← List.countP_eq_length_filter]
    exact List.countP_congr fun other _ => by simp
  obtain ⟨only, honly⟩ := List.length_eq_one_iff.1 hlength
  have hfound : override ∈ target.configurations.filter fun other => other.name = name :=
    List.mem_filter.2 ⟨hmem, by simpa using hname⟩
  rw [honly] at hfound ⊢
  rw [List.mem_singleton.1 hfound]

theorem ensureConfiguration_gains (target : Target) (name : String) (supply : Supply) :
    target.Gains name (target.ensureConfiguration name supply).1 := by
  have hafter : (target.ensureConfiguration name supply).1 = { target with
      configurations := (BuildConfiguration.ensure name target.configurations supply).1 } := rfl
  rw [hafter, BuildConfiguration.ensure_fst]
  by_cases hname : name ∈ target.configurations.map BuildConfiguration.name
  · rw [if_pos hname]
    obtain ⟨prior, hprior⟩ := Option.isSome_iff_exists.1 (configuration?_isSome.2 hname)
    refine ⟨rfl, rfl, fun _ _ => rfl, prior, hprior, name_of_configuration? hprior, ?_⟩
    rw [hprior]
  · -- The new override comes behind all others, so it is found only where nothing else is.
    rw [if_neg hname]
    have hnone : target.configuration? name = none := by
      rw [← Option.not_isSome_iff_eq_none, configuration?_isSome]
      exact hname
    let added : BuildConfiguration := { id := ⟨supply.next⟩, name, settings := Settings.empty }
    have hfind : ∀ other, configuration? { target with
        configurations := target.configurations ++ [added] } other =
          (target.configuration? other).or (BuildConfiguration.find? [added] other) :=
      fun other => List.find?_append
    refine ⟨rfl, rfl, fun other hother => ?_, added, ?_, rfl, ?_⟩
    · obtain ⟨prior, hprior⟩ := Option.isSome_iff_exists.1 (configuration?_isSome.2 hother)
      rw [hfind, hprior]
      rfl
    · rw [hfind, hnone]
      simp [BuildConfiguration.find?, added]
    · rw [hnone]

end Target

/-! ## Projects -/

namespace Project

variable {project : Project} {target after : Target} {name : String}

/-- A flattened target has one entry for each configuration, which lays the only override of its name
over what the target shares. -/
theorem WellFormed.flattenTarget_complete (h : project.WellFormed)
    (htarget : target ∈ project.targets) :
    List.Forall₂ (fun declared flattened => ∃ override,
        target.configurations.filter (fun other => other.name = declared.name) = [override] ∧
          flattened = { override with
            settings := Settings.merged target.settings override.settings })
      project.configurations (project.flattenTarget target) := by
  have hmatch := h.flattenTarget htarget
  rw [List.forall₂_iff_get] at hmatch ⊢
  refine ⟨hmatch.1, fun place hdeclared hflattened => ?_⟩
  obtain ⟨override, hmem, hname, hentry⟩ := hmatch.2 place hdeclared hflattened
  have honce : target.overrides.count (project.configurations.get ⟨place, hdeclared⟩).name = 1 :=
    h.covered target htarget _ (List.mem_map_of_mem (List.get_mem _ _))
  exact ⟨override, Target.filter_overrides honce hmem hname, hentry⟩

theorem WellFormed.map_name_flattenTarget (h : project.WellFormed)
    (htarget : target ∈ project.targets) :
    (project.flattenTarget target).map BuildConfiguration.name =
      project.flattenConfigurations.map BuildConfiguration.name := by
  have hdeclared : project.flattenConfigurations.map BuildConfiguration.name = project.declared := by
    rw [flattenConfigurations, List.map_map]
    rfl
  rw [hdeclared, map_eq_map_of_forall₂ (h.flattenTarget htarget) ?_]
  · rfl
  · rintro declared flattened ⟨override, -, hname, rfl⟩
    exact hname

/-- A new configuration comes behind all others, with nothing but the settings that they share. -/
theorem flattenConfigurations_addConfiguration (hnew : name ∉ project.declared) (supply : Supply) :
    ∃ added, added.name = name ∧ added.settings = Settings.empty ∧
      (project.addConfiguration name supply).1.configurations =
        project.configurations ++ [added] := by
  have hafter : (project.addConfiguration name supply).1.configurations =
      (BuildConfiguration.ensure name project.configurations
        (project.targets.mapM (fun target => target.ensureConfiguration name) supply).2).1 := rfl
  have hname : name ∉ project.configurations.map BuildConfiguration.name := hnew
  rw [hafter, BuildConfiguration.ensure_fst, if_neg hname]
  exact ⟨_, rfl, rfl, rfl⟩

/-- What is found for the configurations of the project stays, and an entry for the new one follows. It
comes from the override that the target had, if any. -/
theorem WellFormed.flattenTarget_of_gains (h : project.WellFormed)
    (htarget : target ∈ project.targets) (hgains : target.Gains name after) {grown : Project}
    {declared : BuildConfiguration} (hdeclared : declared.name = name)
    (hgrown : grown.configurations = project.configurations ++ [declared]) :
    ∃ added, added.name = name ∧
      (match target.configuration? name with
        | some prior => added.id = prior.id ∧
            added.settings = Settings.merged target.settings prior.settings
        | none => added.settings = target.settings) ∧
      grown.flattenTarget after = project.flattenTarget target ++ [added] := by
  obtain ⟨override, hoverride, hname, hprior⟩ := hgains.gained
  refine ⟨override.flattenedOver target.settings, hname, ?_, ?_⟩
  · -- Whether the target had an override of the name decides where the entry comes from.
    cases hfound : target.configuration? name with
    | none =>
      rw [hfound] at hprior
      rw [BuildConfiguration.flattenedOver, hprior, Settings.merged_empty]
    | some prior =>
      rw [hfound] at hprior
      rw [hprior]
      exact ⟨rfl, rfl⟩
  · rw [Project.flattenTarget, hgrown, List.filterMap_append, hgains.settings]
    congr 1
    · refine List.filterMap_congr fun configuration hconfiguration => ?_
      have hkept : configuration.name ∈ target.overrides :=
        h.mem_overrides htarget (List.mem_map_of_mem hconfiguration)
      rw [hgains.kept _ hkept]
    · rw [List.filterMap_cons_some (b := override.flattenedOver target.settings)]
      · rfl
      · rw [hdeclared, hoverride]
        rfl

end Project

/-! ## Every history -/

namespace Workshop

/-- A flattened target has exactly one entry for each configuration of its project, in the project's
order: the only override of the name, under its identity, laid over what the target shares. A
configuration of a new name adds one entry behind those of the project and of each target, and leaves
these as they are. The target's entry comes from the override of that name that it had, if any. -/
theorem flattening_complete_and_stable (supply : Supply) (actions : List Action) :
    let workshop := Action.performAll actions (empty supply)
    ∀ project ∈ workshop.projects,
      (∀ target ∈ project.targets,
        (project.flattenTarget target).map BuildConfiguration.name =
            project.flattenConfigurations.map BuildConfiguration.name ∧
          List.Forall₂ (fun declared flattened => ∃ override,
              target.configurations.filter (fun other => other.name = declared.name) = [override] ∧
                flattened = { override with
                  settings := Settings.merged target.settings override.settings })
            project.configurations (project.flattenTarget target)) ∧
      ∀ name, name ∉ project.declared → ∀ now : Supply,
        let grown := (project.addConfiguration name now).1
        (∃ added, added.name = name ∧ added.settings = project.settings ∧
          grown.flattenConfigurations = project.flattenConfigurations ++ [added]) ∧
        List.Forall₂ (fun before after => before.name = after.name ∧ ∃ added, added.name = name ∧
            (match before.configuration? name with
              | some prior => added.id = prior.id ∧
                  added.settings = Settings.merged before.settings prior.settings
              | none => added.settings = before.settings) ∧
            grown.flattenTarget after = project.flattenTarget before ++ [added])
          project.targets grown.targets := by
  intro workshop project hproject
  have hsound : workshop.Sound := Action.performAll_sound actions (empty_sound supply)
  have hwell : project.WellFormed := hsound.project hproject
  refine ⟨fun target htarget => ?_, fun name hnew now => ?_⟩
  · exact ⟨hwell.map_name_flattenTarget htarget, hwell.flattenTarget_complete htarget⟩
  · intro grown
    obtain ⟨added, hname, hempty, hgrown⟩ :=
      Project.flattenConfigurations_addConfiguration hnew now
    constructor
    · refine ⟨added.flattenedOver project.settings, hname, ?_, ?_⟩
      · rw [BuildConfiguration.flattenedOver, hempty, Settings.merged_empty]
      · have hsettings : grown.settings = project.settings := rfl
        rw [Project.flattenConfigurations, hgrown, List.map_append, hsettings]
        rfl
    · refine Fresh.forall₂_mapM (fun before hbefore later => ?_) now
      have hgains := before.ensureConfiguration_gains name later
      exact ⟨hgains.name.symm, hwell.flattenTarget_of_gains hbefore hgains hname hgrown⟩

/-- A target brings overrides in an order of its own, one of them for a configuration that is declared only
later. -/
theorem early_override_flattened :
    let flag := Settings.empty.insert "FLAG" (.bool true)
    let actions := [.newProject "Shop" ["Debug", "Release"],
      .newTarget "App" .application .ios "17.0", .editTarget 1 (.override "Beta" fun _ => flag),
      .editTarget 1 (.override "Release" id), .addTarget 0 1]
    let workshop := Action.performAll actions (empty ⟨1⟩)
    ∃ project ∈ workshop.projects, ∃ target, project.targets = [target] ∧
      target.overrides = ["Beta", "Release", "Debug"] ∧
      (project.flattenTarget target).map BuildConfiguration.name = ["Debug", "Release"] ∧
      "Beta" ∉ project.declared ∧
      let grown := (project.addConfiguration "Beta" workshop.supply).1
      ∃ after added, grown.targets = [after] ∧ added.name = "Beta" ∧ added.settings = flag ∧
        grown.flattenTarget after = project.flattenTarget target ++ [added] := by
  intro flag actions workshop
  let project := workshop.projects.head?.getD default
  let target := project.targets.head?.getD default
  have hproject : project ∈ workshop.projects := by decide +kernel
  have htargets : project.targets = [target] := by decide +kernel
  have hnew : "Beta" ∉ project.declared := by decide +kernel
  obtain ⟨hcomplete, hstable⟩ := flattening_complete_and_stable ⟨1⟩ actions project hproject
  obtain ⟨hnames, -⟩ := hcomplete target (by rw [htargets]; exact List.mem_singleton_self target)
  obtain ⟨-, hgrown⟩ := hstable "Beta" hnew workshop.supply
  rw [htargets, List.forall₂_cons_left_iff] at hgrown
  obtain ⟨after, rest, ⟨-, added, hname, hprior, hflattened⟩, hrest, hafter⟩ := hgrown
  rw [List.forall₂_nil_left_iff.1 hrest] at hafter
  refine ⟨project, hproject, target, htargets, by decide +kernel, hnames.trans (by decide +kernel),
    hnew, after, added, hafter, hname, ?_, hflattened⟩
  have hfound : target.configuration? "Beta" = some (target.configurations.head?.getD default) := by
    decide +kernel
  rw [hfound] at hprior
  rw [hprior.2]
  decide +kernel

end Workshop

end ProjectCompiler
