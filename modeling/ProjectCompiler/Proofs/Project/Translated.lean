import ProjectCompiler.Proofs.Project.Growth
import ProjectCompiler.Proofs.Project.Nodes
import Mathlib.Data.List.Flatten
import Mathlib.Data.List.Perm.Subperm

/-!
# Translated — the model objects that get native objects

A run gives native objects to the project, its configurations, its targets and their schemes, and of the
overrides of a target to those that stand for configurations of the project. Identities tell all of
these apart.

- `Project.translated`: the nodes of these objects;
- `Project.map_target_sublist_translated` and its like: what stands in it keeps its order;
- `Project.nodup_translated`: if names of configurations are distinct, each stands there once;
- `Project.length_translated`: how many they are.
-/

namespace ProjectCompiler

open List

namespace Project

variable {project : Project} {target : Target}

/-- The nodes of a target; of its overrides, those that stand for configurations of the project. -/
def translatedTarget (project : Project) (target : Target) : List Node :=
  .target target ::
    ((project.flattenTarget target).map Node.configuration ++ target.schemes.map Node.scheme)

def translated (project : Project) : List Node :=
  .project project :: (project.flattenConfigurations.map Node.configuration ++
    project.targets.flatMap project.translatedTarget)

/-- Every target overrides every configuration of the project. -/
def Overridden (project : Project) : Prop :=
  ∀ target ∈ project.targets, ∀ configuration ∈ project.configurations,
    (target.configuration? configuration.name).isSome

/-! ## Which nodes there are -/

theorem project_mem_translated (project : Project) : .project project ∈ project.translated :=
  mem_cons_self

theorem configuration_mem_translated {configuration : BuildConfiguration}
    (h : configuration ∈ project.flattenConfigurations) :
    .configuration configuration ∈ project.translated := by
  refine mem_cons_of_mem _ (mem_append_left _ ?_)
  exact mem_map_of_mem h

theorem mem_translated_of_target (h : target ∈ project.targets) {node : Node}
    (hnode : node ∈ project.translatedTarget target) : node ∈ project.translated := by
  refine mem_cons_of_mem _ (mem_append_right _ ?_)
  exact mem_flatMap.2 ⟨target, h, hnode⟩

theorem target_mem_translated (h : target ∈ project.targets) : .target target ∈ project.translated :=
  mem_translated_of_target h mem_cons_self

theorem override_mem_translated (h : target ∈ project.targets) {configuration : BuildConfiguration}
    (hconfiguration : configuration ∈ project.flattenTarget target) :
    .configuration configuration ∈ project.translated := by
  refine mem_translated_of_target h (mem_cons_of_mem _ (mem_append_left _ ?_))
  exact mem_map_of_mem hconfiguration

theorem scheme_mem_translated (h : target ∈ project.targets) {scheme : Scheme}
    (hscheme : scheme ∈ target.schemes) : .scheme scheme ∈ project.translated := by
  refine mem_translated_of_target h (mem_cons_of_mem _ (mem_append_right _ ?_))
  exact mem_map_of_mem hscheme

/-- What holds of all nodes that are translated, kind by kind. -/
theorem forall_mem_translated {P : Node → Prop} :
    (∀ node ∈ project.translated, P node) ↔
      P (.project project) ∧
      (∀ configuration ∈ project.flattenConfigurations, P (.configuration configuration)) ∧
      ∀ target ∈ project.targets, P (.target target) ∧
        (∀ configuration ∈ project.flattenTarget target, P (.configuration configuration)) ∧
        ∀ scheme ∈ target.schemes, P (.scheme scheme) := by
  simp only [translated, translatedTarget, forall_mem_cons, forall_mem_append, forall_mem_flatMap,
    forall_mem_map]

theorem mem_nodes_of_mem_translated {node : Node} (h : node ∈ project.translated) :
    node ∈ project.nodes := by
  have hall : ∀ node ∈ project.translated, node ∈ project.nodes := by
    refine forall_mem_translated.2 ⟨project.project_mem_nodes, ?_, ?_⟩
    · exact fun configuration hconfiguration => configuration_mem_nodes hconfiguration
    · intro target htarget
      exact ⟨target_mem_nodes htarget,
        fun configuration hconfiguration => override_mem_nodes htarget hconfiguration,
        fun scheme hscheme => scheme_mem_nodes htarget hscheme⟩
  exact hall node h

/-! ## Parts, in order -/

theorem map_configuration_sublist_translated :
    (project.flattenConfigurations.map Node.configuration).Sublist project.translated :=
  (sublist_append_left _ _).cons _

theorem map_target_sublist_translated :
    (project.targets.map Node.target).Sublist project.translated := by
  have hfirst : (project.targets.map Node.target).Sublist
      (project.targets.flatMap project.translatedTarget) := by
    rw [map_eq_flatMap]
    refine Sublist.flatMap_right _ fun target _ => ?_
    exact singleton_sublist.2 mem_cons_self
  exact (hfirst.trans (sublist_append_right _ _)).cons _

theorem map_override_sublist_translated (htarget : target ∈ project.targets) :
    ((project.flattenTarget target).map Node.configuration).Sublist project.translated := by
  have hown : ((project.flattenTarget target).map Node.configuration).Sublist
      (project.translatedTarget target) :=
    (sublist_append_left _ _).cons _
  have hall := sublist_flatten_of_mem (mem_map_of_mem (f := project.translatedTarget) htarget)
  exact ((hown.trans hall).trans (sublist_append_right _ _)).cons _

/-! ## Overrides -/

/-- There is one override for each configuration of the project, in its order. -/
theorem map_name_flattenTarget (h : project.Overridden) (htarget : target ∈ project.targets) :
    (project.flattenTarget target).map BuildConfiguration.name = project.declared := by
  have hsome : ∀ configuration ∈ project.configurations,
      ((target.configuration? configuration.name).map
        (BuildConfiguration.flattenedOver target.settings)).map BuildConfiguration.name =
          some configuration.name := by
    intro configuration hconfiguration
    obtain ⟨override, hoverride⟩ := Option.isSome_iff_exists.1
      (h target htarget configuration hconfiguration)
    have hname : override.name = configuration.name := by
      simpa using List.find?_some hoverride
    simp [hoverride, BuildConfiguration.flattenedOver, hname]
  calc
    (project.flattenTarget target).map BuildConfiguration.name
        = project.configurations.filterMap fun configuration =>
            ((target.configuration? configuration.name).map
              (BuildConfiguration.flattenedOver target.settings)).map BuildConfiguration.name :=
          map_filterMap
    _ = project.configurations.filterMap (some ∘ BuildConfiguration.name) :=
          filterMap_congr hsome
    _ = project.declared := by rw [filterMap_eq_map]; rfl

/-! ## Each once -/

theorem nodup_of_subperm {α : Type} {items more : List α} (h : items.Subperm more)
    (hnodup : more.Nodup) : items.Nodup := by
  obtain ⟨middle, hperm, hsublist⟩ := h
  exact hperm.nodup (hnodup.sublist hsublist)

/-- Overrides with distinct names are distinct objects of the target. -/
theorem subperm_flattenTarget (hids : project.identities.Nodup) (hnames : project.declared.Nodup)
    (h : project.Overridden) (htarget : target ∈ project.targets) :
    ((project.flattenTarget target).map BuildConfiguration.id).Subperm
      (target.configurations.map BuildConfiguration.id) := by
  have hdistinct : (project.flattenTarget target).Nodup := by
    refine Nodup.of_map BuildConfiguration.name ?_
    rw [map_name_flattenTarget h htarget]
    exact hnames
  have hnodup : ((project.flattenTarget target).map BuildConfiguration.id).Nodup := by
    refine hdistinct.map_on fun first hfirst second hsecond hid => ?_
    have hsame : Node.configuration first = .configuration second :=
      project.eq_of_id_eq hids (override_mem_nodes htarget hfirst)
        (override_mem_nodes htarget hsecond) hid
    exact Node.configuration.inj hsame
  refine hnodup.subperm fun id hid => ?_
  obtain ⟨configuration, hconfiguration, rfl⟩ := mem_map.1 hid
  obtain ⟨declared, -, hfound⟩ := mem_filterMap.1 hconfiguration
  obtain ⟨override, hoverride, rfl⟩ := Option.map_eq_some_iff.1 hfound
  exact mem_map.2 ⟨override, mem_of_find?_eq_some hoverride, rfl⟩

theorem subperm_translatedTarget (hids : project.identities.Nodup) (hnames : project.declared.Nodup)
    (h : project.Overridden) (htarget : target ∈ project.targets) :
    ((project.translatedTarget target).map Node.id).Subperm target.identities := by
  have hoverrides := subperm_flattenTarget hids hnames h htarget
  have hparts := (subperm_append_right (target.schemes.map Scheme.id)).2 hoverrides
  have hwhole := (subperm_cons target.id).2 hparts
  simpa [translatedTarget, Target.identities, Node.id, Function.comp_def] using hwhole

/-- No two nodes that are translated share an identity. -/
theorem nodup_translated (hids : project.identities.Nodup) (hnames : project.declared.Nodup)
    (h : project.Overridden) : (project.translated.map Node.id).Nodup := by
  have htargets : ∀ targets : List Target, (∀ target ∈ targets, target ∈ project.targets) →
      ((targets.flatMap project.translatedTarget).map Node.id).Subperm
        (targets.flatMap Target.identities) := by
    intro targets hall
    induction targets with
    | nil => exact Subperm.refl _
    | cons first rest ih =>
      have hfirst := subperm_translatedTarget hids hnames h (hall first mem_cons_self)
      have hrest := ih fun target htarget => hall target (mem_cons_of_mem _ htarget)
      simpa using hfirst.append hrest
  have hparts := (subperm_append_left (project.configurations.map BuildConfiguration.id)).2
    (htargets project.targets fun _ htarget => htarget)
  have hwhole := (subperm_cons project.id).2 hparts
  refine nodup_of_subperm ?_ hids
  simpa [translated, identities, flattenConfigurations, Node.id, BuildConfiguration.flattenedOver,
    Function.comp_def] using hwhole

/-- Of each target there are as many overrides as the project has configurations. -/
theorem length_translated (h : project.Overridden) :
    project.translated.length = 1 + project.configurations.length + project.targets.length +
      project.targets.length * project.configurations.length +
      (project.targets.flatMap Target.schemes).length := by
  have htargets : ∀ targets : List Target, (∀ target ∈ targets, target ∈ project.targets) →
      (targets.flatMap project.translatedTarget).length = targets.length +
        targets.length * project.configurations.length +
          (targets.flatMap Target.schemes).length := by
    intro targets hall
    induction targets with
    | nil => simp
    | cons first rest ih =>
      have hoverrides : (project.flattenTarget first).length = project.configurations.length := by
        have hmap := congrArg length (map_name_flattenTarget h (hall first mem_cons_self))
        simpa [declared] using hmap
      have hrest := ih fun target htarget => hall target (mem_cons_of_mem _ htarget)
      simp only [flatMap_cons, length_append, hrest, translatedTarget, length_cons, length_map,
        hoverrides, Nat.succ_mul]
      omega
  have hall := htargets project.targets fun _ htarget => htarget
  simp only [translated, length_cons, length_append, length_map, hall, flattenConfigurations]
  omega

end Project

end ProjectCompiler
