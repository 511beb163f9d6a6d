import ProjectCompiler.Project.Node
import Mathlib.Data.List.Lattice
import Mathlib.Data.List.Nodup
import Mathlib.Data.List.Pairwise

/-!
# Nodes — the objects of a project

A project holds its configurations, its targets, and the overrides and schemes of these, each under an
identity. Compilation meets them as nodes: configurations and overrides flattened, everything else as
it is.

- `Project.identities`: the identities of all objects of a project;
- `Project.nodes`: the nodes that stand for them;
- `Node.project?`, `Node.target?`: nodes of one kind;
- `Project.eq_of_id_eq`: if no two objects share an identity, a node is known by it.
-/

namespace ProjectCompiler

/-! ## Nodes of one kind -/

def Node.project? : Node → Option Project
  | .project p => some p
  | .configuration _ | .target _ | .scheme _ => none

def Node.target? : Node → Option Target
  | .target t => some t
  | .project _ | .configuration _ | .scheme _ => none

theorem Node.project?_eq_some_iff {node : Node} {project : Project} :
    node.project? = some project ↔ node = .project project := by
  cases node <;> simp [project?]

theorem Node.target?_eq_some_iff {node : Node} {target : Target} :
    node.target? = some target ↔ node = .target target := by
  cases node <;> simp [target?]

/-! ## What is in a node -/

namespace Target

/-- The identities of a target, its overrides and its schemes. -/
def identities (target : Target) : List Identity :=
  target.id :: (target.configurations.map BuildConfiguration.id ++ target.schemes.map Scheme.id)

/-- The nodes of a target; overrides lie over the target's own settings. -/
def nodes (target : Target) : List Node :=
  .target target ::
    ((target.configurations.map fun configuration =>
      .configuration (configuration.flattenedOver target.settings)) ++
    target.schemes.map Node.scheme)

theorem map_id_nodes (target : Target) : target.nodes.map Node.id = target.identities := by
  simp [nodes, identities, Node.id, BuildConfiguration.flattenedOver, Function.comp_def]

end Target

namespace Project

variable {project : Project} {target : Target}

/-- The identities of a project and everything in it. -/
def identities (project : Project) : List Identity :=
  project.id :: (project.configurations.map BuildConfiguration.id ++
    project.targets.flatMap Target.identities)

def nodes (project : Project) : List Node :=
  .project project :: (project.flattenConfigurations.map Node.configuration ++
    project.targets.flatMap Target.nodes)

theorem map_id_nodes (project : Project) : project.nodes.map Node.id = project.identities := by
  have htargets : (project.targets.flatMap Target.nodes).map Node.id =
      project.targets.flatMap Target.identities := by
    rw [List.map_flatMap]
    simp only [Target.map_id_nodes]
  simp only [nodes, identities, List.map_cons, List.map_append, htargets]
  simp [flattenConfigurations, Node.id, BuildConfiguration.flattenedOver, Function.comp_def]

/-- A node is known by its identity. -/
theorem eq_of_id_eq (h : project.identities.Nodup) {first second : Node}
    (hfirst : first ∈ project.nodes) (hsecond : second ∈ project.nodes)
    (hid : first.id = second.id) : first = second := by
  rw [← map_id_nodes] at h
  exact List.inj_on_of_nodup_map h hfirst hsecond hid

/-- A scheme belongs to one target only. -/
theorem eq_of_scheme_mem (h : project.identities.Nodup) {other : Target} {scheme : Scheme}
    (htarget : target ∈ project.targets) (hother : other ∈ project.targets)
    (hscheme : scheme ∈ target.schemes) (hschemeOther : scheme ∈ other.schemes) : target = other := by
  have htargets : (project.targets.flatMap Target.identities).Nodup := by
    have hrest := (List.nodup_cons.1 h).2
    exact (List.nodup_append.1 hrest).2.1
  have hpairs := (List.nodup_flatMap.1 htargets).2
  have hmem : ∀ owner : Target, scheme ∈ owner.schemes → scheme.id ∈ owner.identities := by
    intro owner howner
    refine List.mem_cons_of_mem _ (List.mem_append_right _ ?_)
    exact List.mem_map_of_mem howner
  have : Std.Symm (Function.onFun List.Disjoint Target.identities) :=
    ⟨fun _ _ => List.Disjoint.symm⟩
  -- Two targets of one scheme would both hold its identity, and no identity stands in two targets.
  by_contra hne
  have hdisjoint := hpairs.forall htarget hother hne
  exact hdisjoint (hmem target hscheme) (hmem other hschemeOther)

/-! ## Which nodes there are -/

theorem project_mem_nodes (project : Project) : .project project ∈ project.nodes :=
  List.mem_cons_self

theorem configuration_mem_nodes {configuration : BuildConfiguration}
    (h : configuration ∈ project.flattenConfigurations) :
    .configuration configuration ∈ project.nodes := by
  refine List.mem_cons_of_mem _ (List.mem_append_left _ ?_)
  exact List.mem_map_of_mem h

theorem mem_nodes_of_target (h : target ∈ project.targets) {node : Node}
    (hnode : node ∈ target.nodes) : node ∈ project.nodes := by
  refine List.mem_cons_of_mem _ (List.mem_append_right _ ?_)
  exact List.mem_flatMap.2 ⟨target, h, hnode⟩

theorem target_mem_nodes (h : target ∈ project.targets) : .target target ∈ project.nodes :=
  mem_nodes_of_target h List.mem_cons_self

theorem target_of_mem_nodes (h : .target target ∈ project.nodes) : target ∈ project.targets := by
  simp only [nodes, List.mem_cons, List.mem_append, List.mem_map, List.mem_flatMap] at h
  rcases h with h | ⟨_, -, h⟩ | ⟨owner, howner, h⟩
  · cases h
  · cases h
  · -- Among the nodes of a target, the first one only is a target.
    simp only [Target.nodes, List.mem_cons, List.mem_append, List.mem_map] at h
    rcases h with h | ⟨_, -, h⟩ | ⟨_, -, h⟩
    · cases h
      exact howner
    · cases h
    · cases h

theorem scheme_mem_nodes (h : target ∈ project.targets) {scheme : Scheme}
    (hscheme : scheme ∈ target.schemes) : .scheme scheme ∈ project.nodes := by
  refine mem_nodes_of_target h (List.mem_cons_of_mem _ (List.mem_append_right _ ?_))
  exact List.mem_map_of_mem hscheme

/-- A flattened override is one of the target's own. -/
theorem override_mem_nodes (h : target ∈ project.targets) {configuration : BuildConfiguration}
    (hconfiguration : configuration ∈ project.flattenTarget target) :
    .configuration configuration ∈ project.nodes := by
  rcases List.mem_filterMap.1 hconfiguration with ⟨declared, -, hfound⟩
  rcases Option.map_eq_some_iff.1 hfound with ⟨override, hoverride, rfl⟩
  have hmem : override ∈ target.configurations := List.mem_of_find?_eq_some hoverride
  refine mem_nodes_of_target h (List.mem_cons_of_mem _ (List.mem_append_left _ ?_))
  exact List.mem_map.2 ⟨override, hmem, rfl⟩

/-! ## Targets by name -/

theorem mem_of_target? {name : String} (h : project.target? name = some target) :
    target ∈ project.targets ∧ target.name = name := by
  have hname := List.find?_some h
  exact ⟨List.mem_of_find?_eq_some h, by simpa using hname⟩

theorem target?_isSome {name : String} :
    (project.target? name).isSome ↔ ∃ target ∈ project.targets, target.name = name := by
  simp [target?, List.find?_isSome]

theorem mem_of_mem_unitTestTargets {bundle : Target} (h : bundle ∈ project.unitTestTargets target) :
    bundle ∈ project.targets ∧ bundle.isUnitTestBundle = true ∧ bundle.host = some target.name := by
  simpa [unitTestTargets] using h

end Project

end ProjectCompiler
