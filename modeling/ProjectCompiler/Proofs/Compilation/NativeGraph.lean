import ProjectCompiler.Proofs.Compilation.Attachments
import ProjectCompiler.Proofs.Compilation.SavedSchemes
import ProjectCompiler.Proofs.Pipeline.Keeping
import ProjectCompiler.Proofs.Project.Translated
import ProjectCompiler.Proofs.Project.WellFormed

/-!
# NativeGraph — the native graph is a picture of the project

A run makes native objects as it comes across nodes: a host may be made long before its turn, and every
pass of every generator flattens the configurations anew. Nodes are matched by identity alone. Still each
node that is translated has one native object, which no other node has, and the objects hold each other
as the nodes do.

- `Backend.Depicts`: a graph in which native objects stand for the objects of a project;
- `Plan.keys_perm_standard`: what stands in the graph after a run, each once;
- `Drawn.depicts`: the drawing of the standard pipeline is such a graph;
- `Pipeline.standard_depicts_project`: so is the graph after a run that succeeds, and how large it is.
-/

namespace ProjectCompiler

open Stateful

variable {ν : Type}

/-! ## Graphs that stand for a project -/

namespace Backend

variable (backend : Backend) (native : Identity → NativeId) (project : Project)

/-- A native configuration of a target stands for the override of a configuration of the project. -/
def DepictsOverride (target : Target) (configuration : BuildConfiguration) (id : NativeId) : Prop :=
  ∃ override, target.configuration? configuration.name = some override ∧ id = native override.id ∧
    backend.object? id = some (.configuration {
      name := configuration.name
      settings := Settings.merged target.settings override.settings })

/-- The dependencies of a target are its host, if it names one, and else there are none. -/
def DepictsHost : Option String → List NativeId → Prop
  | none, dependencies => dependencies = []
  | some name, dependencies =>
      ∃ host, project.target? name = some host ∧ dependencies = [native host.id]

def DepictsTarget (target : Target) : Prop :=
  ∃ productType configurations dependencies,
    target.type.productType? = some productType ∧
    backend.object? (native target.id) = some (.target {
      name := target.name
      productType
      sdkRoot := target.platform.sdkRoot
      deploymentTarget := target.deploymentTarget
      language := target.language.tag
      configurations
      dependencies }) ∧
    List.Forall₂ (backend.DepictsOverride native target) project.configurations configurations ∧
    DepictsHost native project target.host dependencies

def DepictsConfiguration (configuration : BuildConfiguration) : Prop :=
  backend.object? (native configuration.id) = some (.configuration {
    name := configuration.name
    settings := Settings.merged project.settings configuration.settings })

def DepictsProject : Prop :=
  ∃ products frameworks,
    backend.object? (native project.id) = some (.project {
      name := project.name
      defaultConfiguration := project.defaultConfiguration
      groups := [products, frameworks]
      targets := project.targets.map fun target => native target.id
      configurations := project.configurations.map fun configuration => native configuration.id }) ∧
    backend.object? products = some (.group { name := "Products" }) ∧
    backend.object? frameworks = some (.group { name := "Frameworks" })

/-- The native objects of a project, its configurations and its targets hold what these hold, in the
same order. -/
structure Depicts : Prop where
  root : backend.DepictsProject native project
  configurations : ∀ configuration ∈ project.configurations,
    backend.DepictsConfiguration native project configuration
  targets : ∀ target ∈ project.targets, backend.DepictsTarget native project target

variable {backend native project}

/-- Only the objects of the graph matter. -/
theorem Depicts.of_objects_eq {after : Backend} (h : backend.Depicts native project)
    (hobjects : after.objects = backend.objects) : after.Depicts native project := by
  have hobject : after.object? = backend.object? := by
    funext id
    rw [object?, object?, hobjects]
  constructor
  · rw [DepictsProject, hobject]
    exact h.root
  · intro configuration hconfiguration
    rw [DepictsConfiguration, hobject]
    exact h.configurations configuration hconfiguration
  · intro target htarget
    unfold DepictsTarget DepictsOverride
    rw [hobject]
    exact h.targets target htarget

end Backend

/-! ## What stands in the graph -/

namespace Plan

variable {policy : TestTargetPolicy} {project : Project} {target : Target}
  {configuration : BuildConfiguration}

theorem settle_mem_standard (h : configuration ∈ project.flattenConfigurations) :
    .settle configuration ∈ standard policy project := by
  have hpass : configurations project ∈ passes policy project := by simp [passes]
  refine mem_standard_of_mem_plan hpass (Pass.mem_plan_of_onConfiguration h ?_)
  simp [configurations, placeConfiguration]

theorem settle_override_mem_standard (htarget : target ∈ project.targets)
    (h : configuration ∈ project.flattenTarget target) :
    .settle configuration ∈ standard policy project := by
  have hpass : configurations project ∈ passes policy project := by simp [passes]
  refine mem_standard_of_mem_plan hpass (Pass.mem_plan_of_onTarget htarget ?_)
  refine List.mem_cons_of_mem _ (List.mem_flatMap.2 ⟨configuration, h, ?_⟩)
  simp [placeConfiguration]

theorem mem_mentions_of_settle (h : .settle configuration ∈ standard policy project) :
    .configuration configuration ∈ (standard policy project).flatMap Instruction.mentions :=
  List.mem_flatMap.2 ⟨_, h, by simp [Instruction.mentions]⟩

/-- If no instruction fails, exactly those nodes are named that get native objects. -/
theorem mem_mentions_standard (hfits : Fits (standard policy project)) {node : Node} :
    node ∈ (standard policy project).flatMap Instruction.mentions ↔ node ∈ project.translated := by
  constructor
  · intro h
    rcases List.mem_flatMap.1 h with ⟨instruction, hinstruction, hmention⟩
    exact translates_standard instruction hinstruction node hmention
  · have hall : ∀ node ∈ project.translated,
        node ∈ (standard policy project).flatMap Instruction.mentions := by
      refine Project.forall_mem_translated.2 ⟨?_, ?_, fun target htarget => ⟨?_, ?_, ?_⟩⟩
      · have hpass : projectStructure project ∈ passes policy project := by simp [passes]
        have hmem : .translate (.project project) ∈ standard policy project :=
          mem_standard_of_mem_plan hpass (by simp [Pass.plan, projectStructure])
        exact List.mem_flatMap.2 ⟨_, hmem, by simp [Instruction.mentions]⟩
      · exact fun _ h => mem_mentions_of_settle (settle_mem_standard h)
      · exact target_mem_mentions htarget
      · exact fun _ h => mem_mentions_of_settle (settle_override_mem_standard htarget h)
      · exact fun _ h => scheme_mem_mentions hfits htarget h
    exact hall node

theorem object_mem_keys_standard (hids : project.identities.Nodup)
    (hfits : Fits (standard policy project)) {id : Identity} :
    .object id ∈ Item.keys (Instruction.items (standard policy project)) ↔
      id ∈ project.translated.map Node.id := by
  constructor
  · intro h
    rcases List.mem_map.1 h with ⟨item, hitem, hkey⟩
    cases item with
    | group name => cases hkey
    | node node =>
      have hnode := (mem_mentions_standard hfits).1 (Instruction.names_of_mem_items hitem)
      exact List.mem_map.2 ⟨node, hnode, Key.object.inj hkey⟩
  · intro h
    rcases List.mem_map.1 h with ⟨node, hnode, rfl⟩
    have hitem := (legible_standard hids).node_mem_items ((mem_mentions_standard hfits).2 hnode)
    exact List.mem_map.2 ⟨_, hitem, rfl⟩

theorem group_mem_keys_standard {name : String} :
    .group name ∈ Item.keys (Instruction.items (standard policy project)) ↔
      name ∈ Generators.defaultGroups := by
  have hgroups : (standard policy project).flatMap Instruction.groups = Generators.defaultGroups :=
    groups_standard
  rw [← hgroups]
  constructor
  · intro h
    rcases List.mem_map.1 h with ⟨item, hitem, hkey⟩
    cases item with
    | node node => cases hkey
    | group other =>
      obtain rfl := Key.group.inj hkey
      exact Instruction.names_of_mem_items hitem
  · intro h
    exact List.mem_map.2 ⟨_, Instruction.group_mem_items h, rfl⟩

/-- One object for each node that is translated, and one for each group. -/
theorem keys_perm_standard (hids : project.identities.Nodup)
    (hdistinct : (project.translated.map Node.id).Nodup) (hfits : Fits (standard policy project)) :
    (Item.keys (Instruction.items (standard policy project))).Perm
      ((project.translated.map Node.id).map Key.object ++
        Generators.defaultGroups.map Key.group) := by
  have hobjects : ((project.translated.map Node.id).map Key.object).Nodup :=
    hdistinct.map fun _ _ => Key.object.inj
  have hgroups : (Generators.defaultGroups.map Key.group).Nodup := by
    have hnames : Generators.defaultGroups.Nodup := by decide
    exact hnames.map fun _ _ => Key.group.inj
  have hall : ((project.translated.map Node.id).map Key.object ++
      Generators.defaultGroups.map Key.group).Nodup := by
    refine List.nodup_append.2 ⟨hobjects, hgroups, ?_⟩
    intro first hfirst second hsecond hsame
    rcases List.mem_map.1 hfirst with ⟨id, -, rfl⟩
    rcases List.mem_map.1 hsecond with ⟨name, -, rfl⟩
    cases hsame
  refine (List.perm_ext_iff_of_nodup (Instruction.nodup_keys_items _) hall).2 fun key => ?_
  cases key with
  | object id =>
    rw [object_mem_keys_standard hids hfits]
    simp
  | group name =>
    rw [group_mem_keys_standard]
    simp

theorem hosts_sublist_translated :
    ((hosts project target).map Node.target).Sublist project.translated := by
  unfold hosts
  rcases hhost : target.host.bind project.target? with _ | host
  · exact List.nil_sublist _
  · rcases Option.bind_eq_some_iff.1 hhost with ⟨name, -, hfound⟩
    exact List.singleton_sublist.2
      (project.target_mem_translated (Project.mem_of_target? hfound).1)

/-- A host that is named is there, or linking it would fail. -/
theorem depictsHost_hosts (native : Identity → NativeId) (h : Fits (linkHost project target)) :
    Backend.DepictsHost native project target.host
      ((hosts project target).map fun host => native host.id) := by
  unfold linkHost at h
  unfold hosts
  rcases hname : target.host with _ | name
  · rfl
  · rw [hname] at h
    dsimp only at h
    rcases hfound : project.target? name with _ | host
    · rw [hfound] at h
      simp [fits_cons, fault?_fail] at h
    · exact ⟨host, hfound, by simp [hfound]⟩

theorem fits_linkHost_of_fits (h : Fits (standard policy project))
    (htarget : target ∈ project.targets) : Fits (linkHost project target) := by
  have hpass : targets project ∈ passes policy project := by simp [passes]
  intro instruction hmem
  refine h instruction (mem_standard_of_mem_plan hpass (Pass.mem_plan_of_onTarget htarget ?_))
  simp [targets, hmem]

end Plan

/-! ## The drawing of the standard pipeline -/

namespace Plan

section Numbers

variable {policy : TestTargetPolicy} {project : Project} (hids : project.identities.Nodup)
  (hdistinct : (project.translated.map Node.id).Nodup) (hfits : Fits (standard policy project))
  (start : Backend)

include hids hdistinct hfits

/-- Nodes that are translated get numbers of their own. -/
theorem nodup_numbers_standard :
    (project.translated.map fun node => number policy project start (.object node.id)).Nodup :=
  Item.nodup_numbers hdistinct fun _ hnode =>
    (object_mem_keys_standard hids hfits).2 (List.mem_map_of_mem hnode)

/-- Numbers are appended one after another, since each of them is new. -/
theorem joined_standard {α : Type} {items : List α} {node : α → Node}
    (hnodes : (items.map node).Sublist project.translated) :
    Item.joined (number policy project start) (items.map node) =
      items.map fun item => number policy project start (.object (node item).id) := by
  have hnumbers := (nodup_numbers_standard hids hdistinct hfits start).sublist (hnodes.map _)
  rw [Item.joined, foldl_appendNew, eraseDups_of_nodup hnumbers, List.map_map]
  rfl

end Numbers

end Plan

namespace Drawn

variable {policy : TestTargetPolicy} {project : Project} {start : Backend} {session : Session ν}
  {target : Target} {configuration : BuildConfiguration}

section Depicting

variable (hids : project.identities.Nodup) (h : Drawn (Plan.standard policy project) start session)

include hids h

theorem knows (hfits : Plan.Fits (Plan.standard policy project)) {node : Node}
    (hnode : node ∈ project.translated) :
    session.Knows node (Plan.number policy project start (.object node.id)) := by
  have hkey := (Plan.object_mem_keys_standard hids hfits).2 (List.mem_map_of_mem hnode)
  rw [Session.Knows, h.natives, if_pos hkey]

theorem object?_of_translated (hfits : Plan.Fits (Plan.standard policy project)) {node : Node}
    (hnode : node ∈ project.translated) :
    session.backend.object? (Plan.number policy project start (.object node.id)) =
      some (Item.drawn (Plan.number policy project start) (Plan.standard policy project)
        (.node node)) :=
  (h.object?_of_mem (Plan.legible_standard hids) ((Plan.mem_mentions_standard hfits).2 hnode)).2

/-- A configuration that is given settings ends up with these, since no other one has its identity. -/
theorem object?_of_settle (hsettle : .settle configuration ∈ Plan.standard policy project) :
    session.backend.object? (Plan.number policy project start (.object configuration.id)) =
      some (.configuration { name := configuration.name, settings := configuration.settings }) := by
  have hnode : ∀ other, .settle other ∈ Plan.standard policy project →
      .configuration other ∈ project.nodes := fun other hother =>
    Plan.within_standard _ hother _ (by simp [Instruction.mentions])
  have honly : ∀ other, .settle other ∈ Plan.standard policy project →
      other.id = configuration.id → other = configuration := fun other hother hid =>
    Node.configuration.inj (project.eq_of_id_eq hids (hnode other hother) (hnode _ hsettle) hid)
  have hobject := h.object?_of_mem (Plan.legible_standard hids) (Plan.mem_mentions_of_settle hsettle)
  rw [← Item.drawn_configuration_eq (Plan.number policy project start) hsettle honly]
  exact hobject.2

theorem depictsConfiguration (hconfiguration : configuration ∈ project.configurations) :
    session.backend.DepictsConfiguration (fun id => Plan.number policy project start (.object id))
      project configuration :=
  h.object?_of_settle hids (Plan.settle_mem_standard (List.mem_map_of_mem hconfiguration))

theorem depictsOverride (htarget : target ∈ project.targets)
    (hconfiguration : configuration ∈ project.configurations) {override : BuildConfiguration}
    (hoverride : target.configuration? configuration.name = some override) :
    session.backend.DepictsOverride (fun id => Plan.number policy project start (.object id))
      target configuration (Plan.number policy project start (.object override.id)) := by
  have hmem : override.flattenedOver target.settings ∈ project.flattenTarget target :=
    List.mem_filterMap.2 ⟨configuration, hconfiguration, by simp [hoverride]⟩
  have hname : override.name = configuration.name := by
    simpa using List.find?_some hoverride
  refine ⟨override, hoverride, rfl, ?_⟩
  rw [← hname]
  exact h.object?_of_settle hids (Plan.settle_override_mem_standard htarget hmem)

variable (hdistinct : (project.translated.map Node.id).Nodup)
  (hfits : Plan.Fits (Plan.standard policy project))

include hdistinct hfits

theorem depictsTarget (hoverridden : project.Overridden) (htarget : target ∈ project.targets) :
    session.backend.DepictsTarget (fun id => Plan.number policy project start (.object id))
      project target := by
  obtain ⟨native, -, hrep⟩ := h.exists_target_of_mem (Plan.legible_standard hids)
    (Plan.target_mem_mentions htarget)
  have hconfigurations := Plan.joined_standard hids hdistinct hfits start
    (Project.map_override_sublist_translated htarget)
  have hhosts : ((Plan.hosts project target).map Node.target).Sublist project.translated :=
    Plan.hosts_sublist_translated
  have hdependencies := Plan.joined_standard hids hdistinct hfits start hhosts
  have hobject := h.object?_of_translated hids hfits (project.target_mem_translated htarget)
  rw [Item.drawn_target_eq _ _ hrep.productType, Item.joinedTarget,
    Plan.children_target_configuration hids htarget, hconfigurations,
    Plan.children_target_target hids htarget, hdependencies] at hobject
  refine ⟨_, _, _, hrep.productType, hobject, ?_, ?_⟩
  · refine forall₂_map_filterMap fun configuration hconfiguration => ?_
    obtain ⟨override, hoverride⟩ := Option.isSome_iff_exists.1
      (hoverridden target htarget configuration hconfiguration)
    have hdepicts := h.depictsOverride hids htarget hconfiguration hoverride
    exact ⟨override.flattenedOver target.settings, by simp [hoverride], hdepicts⟩
  · exact Plan.depictsHost_hosts _ (Plan.fits_linkHost_of_fits hfits htarget)

theorem depictsProject :
    session.backend.DepictsProject (fun id => Plan.number policy project start (.object id))
      project := by
  have hgroup : ∀ name ∈ Generators.defaultGroups, session.backend.object?
      (Plan.number policy project start (.group name)) = some (.group { name }) := by
    intro name hname
    have hintroduced : name ∈ (Plan.standard policy project).flatMap Instruction.groups := by
      rw [Plan.groups_standard]
      exact hname
    have hobject := Draws.object?_of_item h (Instruction.group_mem_items hintroduced)
    rw [Item.key, Item.drawn, Item.blank] at hobject
    exact hobject
  have htargets := Plan.joined_standard hids hdistinct hfits start
    project.map_target_sublist_translated
  have hconfigurations := Plan.joined_standard hids hdistinct hfits start
    project.map_configuration_sublist_translated
  have hobject := h.object?_of_translated hids hfits project.project_mem_translated
  rw [Item.drawn_project_eq, Item.joinedProject, Plan.groupNames_standard,
    Plan.children_project_target hids, htargets, Plan.children_project_configuration hids,
    hconfigurations, Project.flattenConfigurations, List.map_map] at hobject
  exact ⟨_, _, hobject, hgroup "Products" (by decide), hgroup "Frameworks" (by decide)⟩

theorem depicts (hoverridden : project.Overridden) :
    session.backend.Depicts (fun id => Plan.number policy project start (.object id)) project where
  root := h.depictsProject hids hdistinct hfits
  configurations _ hconfiguration := h.depictsConfiguration hids hconfiguration
  targets _ htarget := h.depictsTarget hids hdistinct hfits hoverridden htarget

/-- The groups are the only objects that no node has. -/
theorem length_objects :
    session.backend.objects.length = start.objects.length + project.translated.length + 2 := by
  have hkeys := (Plan.keys_perm_standard hids hdistinct hfits).length_eq
  have hgroups : Generators.defaultGroups.length = 2 := rfl
  simp only [Item.keys, List.length_map, List.length_append, hgroups] at hkeys
  rw [h.objects, List.length_append, List.length_map, hkeys, Nat.add_assoc]

theorem length_natives (hnatives : (Entries.keys session.natives).Nodup) :
    session.natives.length = project.translated.length := by
  have hperm : (Entries.keys session.natives).Perm (project.translated.map Node.id) := by
    refine (List.perm_ext_iff_of_nodup hnatives hdistinct).2 fun id => ?_
    rw [← Plan.object_mem_keys_standard hids hfits, ← not_iff_not, ← Entries.find?_eq_none_iff,
      h.natives]
    simp
  simpa [Entries.keys] using hperm.length_eq

end Depicting

end Drawn

/-! ## Whole runs -/

namespace Pipeline

variable {policy : TestTargetPolicy} {project : Project} {supply : Supply} {backend : Backend}

/-- After a run that succeeds, the graph depicts the project: every node that is translated has a native
object of its own, and besides these the run made two groups. -/
theorem standard_depicts_project (hids : project.identities.Nodup) (hnames : project.declared.Nodup)
    (hoverridden : project.Overridden) {summary : RunSummary} {after : Session ν}
    (hrun : (Pipeline.standard policy).run project supply backend = (.ok summary, after)) :
    ∃ native : Identity → NativeId,
      (∀ node ∈ project.translated, after.Knows node (native node.id)) ∧
      (project.translated.map fun node => native node.id).Nodup ∧
      after.backend.Depicts native project ∧
      summary.translated = 1 + project.configurations.length + project.targets.length +
        project.targets.length * project.configurations.length +
        (project.targets.flatMap Target.schemes).length ∧
      after.backend.objects.length = backend.objects.length + summary.translated + 2 := by
  have hdistinct := project.nodup_translated hids hnames hoverridden
  have hfits : Plan.Fits (Plan.standard policy project) := fits_of_run_standard hids hrun
  have hnatives := (Pipeline.standard (ν := ν) policy).nodup_natives_run project supply backend
  rw [hrun] at hnatives
  obtain ⟨entered, disk, hdrawn, htranslated, rfl⟩ := session_of_run_standard hids hrun
  have hlength : summary.translated = project.translated.length :=
    htranslated.trans (hdrawn.length_natives hids hdistinct hfits hnatives)
  -- Saving leaves the graph and what is known of it alone.
  refine ⟨fun id => Plan.number policy project backend (.object id), ?_, ?_, ?_, ?_, ?_⟩
  · exact fun node hnode => hdrawn.knows hids hfits hnode
  · exact Plan.nodup_numbers_standard hids hdistinct hfits backend
  · have hdepicts := hdrawn.depicts hids hdistinct hfits hoverridden
    exact hdepicts.of_objects_eq rfl
  · rw [hlength, Project.length_translated hoverridden]
  · rw [hlength]
    have hobjects := hdrawn.length_objects hids hdistinct hfits
    exact hobjects

/-- A test bundle has the native target of its application made before that of a library which is
declared between them; all three override both configurations. -/
theorem bundle_before_host_depicted :
    let overrides (first : Nat) : List BuildConfiguration := [
      { id := ⟨first⟩, name := "Debug", settings := Settings.empty.insert "LEVEL" (.str "0") },
      { id := ⟨first + 1⟩, name := "Release", settings := Settings.empty }]
    let application := { (Target.new "App" .application .ios "17.0" ⟨10⟩).1 with
      settings := Settings.empty.insert "LEVEL" (.str "3")
      configurations := overrides 11
      schemes := [(Scheme.new "App" ⟨15⟩).1] }
    let library := { (Target.new "Core" .staticLibrary .ios "17.0" ⟨20⟩).1 with
      configurations := overrides 21 }
    let tests := { (Target.unitTestBundle "AppTests" application ⟨30⟩).1 with
      configurations := overrides 31 }
    let project := { (Project.new "Demo" ⟨0⟩).1 with targets := [tests, library, application] }
    ∃ summary after native,
      (Pipeline.standard (ν := Nat) .unique).run project ⟨40⟩ Backend.empty = (.ok summary, after) ∧
      native application.id = ⟨4⟩ ∧ native library.id = ⟨5⟩ ∧ after.backend.Depicts native project ∧
      summary.translated = 13 ∧ after.backend.objects.length = 15 := by
  intro overrides application library tests project
  have hoverridden : project.Overridden := by
    unfold Project.Overridden
    decide
  have hresult : ((Pipeline.standard (ν := Nat) .unique).run project ⟨40⟩ Backend.empty).1.isOk =
      true := by
    decide +kernel
  have hknown : Entries.find? ((Pipeline.standard (ν := Nat) .unique).run project ⟨40⟩
      Backend.empty).2.natives application.id = some ⟨4⟩ ∧
        Entries.find? ((Pipeline.standard (ν := Nat) .unique).run project ⟨40⟩
          Backend.empty).2.natives library.id = some ⟨5⟩ := by
    decide +kernel
  rcases hrun : (Pipeline.standard (ν := Nat) .unique).run project ⟨40⟩ Backend.empty with
    ⟨error | summary, after⟩
  · rw [hrun] at hresult
    cases hresult
  · rw [hrun] at hknown
    obtain ⟨native, hknows, -, hdepicts, htranslated, hobjects⟩ :=
      standard_depicts_project (by decide) (by decide) hoverridden hrun
    have happlication := hknows (.target application) (Project.target_mem_translated (by simp [project]))
    have hlibrary := hknows (.target library) (Project.target_mem_translated (by simp [project]))
    rw [htranslated] at hobjects
    exact ⟨summary, after, native, rfl, Option.some.inj (happlication.symm.trans hknown.1),
      Option.some.inj (hlibrary.symm.trans hknown.2), hdepicts, htranslated, hobjects⟩

end Pipeline

end ProjectCompiler
