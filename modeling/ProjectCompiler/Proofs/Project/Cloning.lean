import ProjectCompiler.Proofs.Project.WellFormed

/-!
# Cloning — the same contents under new identities

A clone is made part by part, and every part of it gets an identity of its own. What a clone has in
common with its original is what stays of both when identities are taken away. A flattened copy is the
opposite: its contents may differ, and its identity is that of the configuration that it copies.

- `Node.objects`: a node and everything in it;
- `Node.anonymous`: a node without identities;
- `Node.clone_makes`: a clone has the contents of its original and nothing but new identities;
- `Project.WellFormed.flattenTarget`: a flattened target has the identities of its overrides, one for
  each configuration of the project.
-/

namespace ProjectCompiler

/-! ## Objects in nodes -/

def Target.objects (target : Target) : List Node :=
  .target target ::
    (target.configurations.map Node.configuration ++ target.schemes.map Node.scheme)

def Project.objects (project : Project) : List Node :=
  .project project ::
    (project.configurations.map Node.configuration ++ project.targets.flatMap Target.objects)

theorem Target.map_id_objects (target : Target) :
    target.objects.map Node.id = target.identities := by
  simp [objects, identities, Node.id, Function.comp_def]

theorem Project.map_id_objects (project : Project) :
    project.objects.map Node.id = project.identities := by
  simp [objects, identities, Node.id, Function.comp_def, List.map_flatMap, Target.map_id_objects]

namespace Node

/-- A node and everything in it. -/
def objects : Node → List Node
  | .project p => p.objects
  | .target t => t.objects
  | .configuration c => [.configuration c]
  | .scheme s => [.scheme s]

def identities : Node → List Identity
  | .project p => p.identities
  | .target t => t.identities
  | .configuration c => [c.id]
  | .scheme s => [s.id]

theorem map_id_objects (node : Node) : node.objects.map id = node.identities := by
  cases node with
  | project p => exact p.map_id_objects
  | target t => exact t.map_id_objects
  | configuration | scheme => rfl

def WellFormed : Node → Prop
  | .project p => p.WellFormed
  | .target t => t.overrides.Nodup
  | .configuration _ | .scheme _ => True

/-- What is in a well-formed node is well-formed. -/
theorem WellFormed.of_mem_objects {node object : Node} (h : node.WellFormed)
    (hobject : object ∈ node.objects) : object.WellFormed := by
  have htarget : ∀ target : Target, target.overrides.Nodup → ∀ object ∈ target.objects,
      object.WellFormed := by
    intro target hnodup object hobject
    simp only [Target.objects, List.mem_cons, List.mem_append, List.mem_map] at hobject
    rcases hobject with rfl | ⟨_, -, rfl⟩ | ⟨_, -, rfl⟩
    · exact hnodup
    · trivial
    · trivial
  cases node with
  | project p =>
    simp only [objects, Project.objects, List.mem_cons, List.mem_append, List.mem_map,
      List.mem_flatMap] at hobject
    rcases hobject with rfl | ⟨_, -, rfl⟩ | ⟨target, hmem, hobject⟩
    · exact h
    · trivial
    · exact htarget target (h.overrides target hmem) object hobject
  | target t => exact htarget t h object hobject
  | configuration | scheme =>
    rw [List.mem_singleton.1 hobject]
    trivial

end Node

/-! ## Contents -/

def BuildConfiguration.anonymous (configuration : BuildConfiguration) : BuildConfiguration :=
  { configuration with id := default }

def Scheme.anonymous (scheme : Scheme) : Scheme :=
  { scheme with id := default }

def Target.anonymous (target : Target) : Target :=
  { target with
    id := default
    configurations := target.configurations.map BuildConfiguration.anonymous
    schemes := target.schemes.map Scheme.anonymous }

def Project.anonymous (project : Project) : Project :=
  { project with
    id := default
    configurations := project.configurations.map BuildConfiguration.anonymous
    targets := project.targets.map Target.anonymous }

/-- The contents of a node, in order; no identity is part of them. -/
def Node.anonymous : Node → Node
  | .project p => .project p.anonymous
  | .target t => .target t.anonymous
  | .configuration c => .configuration c.anonymous
  | .scheme s => .scheme s.anonymous

theorem Target.overrides_anonymous (target : Target) :
    target.anonymous.overrides = target.overrides := by
  simp [overrides, anonymous, BuildConfiguration.anonymous, Function.comp_def]

theorem Project.declared_anonymous (project : Project) :
    project.anonymous.declared = project.declared := by
  simp [declared, anonymous, BuildConfiguration.anonymous, Function.comp_def]

/-- Whether names are as they should be does not depend on identities. -/
theorem Project.WellFormed.of_anonymous_eq {project copy : Project} (h : project.WellFormed)
    (hcopy : copy.anonymous = project.anonymous) : copy.WellFormed := by
  have hdeclared : copy.declared = project.declared := by
    rw [← copy.declared_anonymous, hcopy, project.declared_anonymous]
  have htargets : List.Forall₂ (fun target copied => target.anonymous = copied.anonymous)
      project.targets copy.targets := by
    rw [← List.forall₂_map_right_iff, ← List.forall₂_map_left_iff, List.forall₂_eq_eq_eq]
    exact (congrArg Project.targets hcopy).symm
  refine h.of_grows (hdeclared ▸ h.declared) (htargets.imp ?_) fun _ _ name hname =>
    Or.inl (hdeclared ▸ hname)
  intro target copied hsame
  have hname : copied.name = target.name := (congrArg Target.name hsame).symm
  have hoverrides : copied.overrides = target.overrides := by
    rw [← copied.overrides_anonymous, ← hsame, target.overrides_anonymous]
  exact ⟨hname, fun _ hmem => hoverrides ▸ hmem, fun hnodup => hoverrides ▸ hnodup⟩

theorem Node.WellFormed.of_anonymous_eq {node copy : Node} (h : node.WellFormed)
    (hcopy : copy.anonymous = node.anonymous) : copy.WellFormed := by
  cases node with
  | project project =>
    cases copy with
    | project copied => exact Project.WellFormed.of_anonymous_eq h (Node.project.inj hcopy)
    | target | configuration | scheme => cases hcopy
  | target target =>
    cases copy with
    | target copied =>
      have hsame := congrArg Target.overrides (Node.target.inj hcopy)
      rw [copied.overrides_anonymous, target.overrides_anonymous] at hsame
      show copied.overrides.Nodup
      rw [hsame]
      exact h
    | project | configuration | scheme => cases hcopy
  | configuration | scheme =>
    cases copy with
    | configuration | scheme => trivial
    | project | target => cases hcopy

/-! ## Clones -/

theorem BuildConfiguration.clone_makes (configuration : BuildConfiguration) :
    configuration.clone.Makes [] (fun copy => [copy.id])
      fun copy => copy.anonymous = configuration.anonymous := by
  unfold clone
  refine Fresh.Makes.bind Fresh.freshIdentity_makes fun id _ => ?_
  exact Fresh.Makes.pure (List.Perm.refl _) rfl

theorem Scheme.clone_makes (scheme : Scheme) :
    scheme.clone.Makes [] (fun copy => [copy.id]) fun copy => copy.anonymous = scheme.anonymous := by
  unfold clone
  refine Fresh.Makes.bind Fresh.freshIdentity_makes fun id _ => ?_
  exact Fresh.Makes.pure (List.Perm.refl _) rfl

/-- Clones of all items, if an item can be cloned. -/
theorem Fresh.Makes.clones {α : Type} {clone : α → Fresh α} {anonymous : α → α}
    {ids : α → List Identity} {items : List α}
    (hclone : ∀ item, (clone item).Makes [] ids fun copy => anonymous copy = anonymous item) :
    (items.mapM clone).Makes [] (List.flatMap ids)
      fun copies => copies.map anonymous = items.map anonymous := by
  have hnone : (items.flatMap fun _ => ([] : List Identity)).Perm [] := by simp
  refine ((Fresh.Makes.mapM fun item _ => hclone item).reorder hnone).weaken fun copies hcopies => ?_
  exact map_eq_map_of_forall₂ hcopies fun _ _ hsame => hsame

theorem Target.clone_makes (target : Target) :
    target.clone.Makes [] identities fun copy => copy.anonymous = target.anonymous := by
  unfold clone
  refine Fresh.Makes.bind Fresh.freshIdentity_makes fun id _ => ?_
  refine Fresh.Makes.bind ((Fresh.Makes.clones BuildConfiguration.clone_makes).beside [id])
    fun configurations hconfigurations => ?_
  refine Fresh.Makes.bind ((Fresh.Makes.clones Scheme.clone_makes).beside _)
    fun schemes hschemes => ?_
  refine Fresh.Makes.pure ?_ ?_
  · simp [identities, ← List.map_eq_flatMap]
  · simp only [anonymous, hconfigurations, hschemes]

theorem Project.clone_makes (project : Project) :
    project.clone.Makes [] identities fun copy => copy.anonymous = project.anonymous := by
  unfold clone
  refine Fresh.Makes.bind Fresh.freshIdentity_makes fun id _ => ?_
  refine Fresh.Makes.bind ((Fresh.Makes.clones BuildConfiguration.clone_makes).beside [id])
    fun configurations hconfigurations => ?_
  refine Fresh.Makes.bind ((Fresh.Makes.clones Target.clone_makes).beside _)
    fun targets htargets => ?_
  refine Fresh.Makes.pure ?_ ?_
  · simp [identities, ← List.map_eq_flatMap]
  · simp only [anonymous, hconfigurations, htargets]

namespace Node

def clone : Node → Fresh Node
  | .project p => do return .project (← p.clone)
  | .target t => do return .target (← t.clone)
  | .configuration c => do return .configuration (← c.clone)
  | .scheme s => do return .scheme (← s.clone)

theorem clone_makes (node : Node) :
    node.clone.Makes [] identities fun copy => copy.anonymous = node.anonymous := by
  cases node with
  | project p =>
    refine Fresh.Makes.bind p.clone_makes fun copy hcopy => ?_
    exact Fresh.Makes.pure (List.Perm.refl _) (congrArg Node.project hcopy)
  | target t =>
    refine Fresh.Makes.bind t.clone_makes fun copy hcopy => ?_
    exact Fresh.Makes.pure (List.Perm.refl _) (congrArg Node.target hcopy)
  | configuration c =>
    refine Fresh.Makes.bind c.clone_makes fun copy hcopy => ?_
    exact Fresh.Makes.pure (List.Perm.refl _) (congrArg Node.configuration hcopy)
  | scheme s =>
    refine Fresh.Makes.bind s.clone_makes fun copy hcopy => ?_
    exact Fresh.Makes.pure (List.Perm.refl _) (congrArg Node.scheme hcopy)

end Node

/-! ## Flattened copies -/

namespace Project

variable {project : Project} {target : Target}

theorem map_id_flattenConfigurations (project : Project) :
    project.flattenConfigurations.map BuildConfiguration.id =
      project.configurations.map BuildConfiguration.id := by
  simp [flattenConfigurations, BuildConfiguration.flattenedOver, Function.comp_def]

/-- Whatever target is flattened, its copies stand under identities of its overrides. -/
theorem map_id_flattenTarget_subset (project : Project) (target : Target) :
    (project.flattenTarget target).map BuildConfiguration.id ⊆
      target.configurations.map BuildConfiguration.id := by
  intro id hid
  obtain ⟨copy, hcopy, rfl⟩ := List.mem_map.1 hid
  obtain ⟨configuration, -, hsome⟩ := List.mem_filterMap.1 hcopy
  obtain ⟨override, hoverride, rfl⟩ := Option.map_eq_some_iff.1 hsome
  have hmem : override ∈ target.configurations := List.mem_of_find?_eq_some hoverride
  exact List.mem_map.2 ⟨override, hmem, rfl⟩

/-- A flattened target has one copy of an override for each configuration of the project. -/
theorem WellFormed.flattenTarget (h : project.WellFormed) (htarget : target ∈ project.targets) :
    List.Forall₂ (fun declared flattened => ∃ override ∈ target.configurations,
        override.name = declared.name ∧ flattened = override.flattenedOver target.settings)
      project.configurations (project.flattenTarget target) := by
  have hmatch : List.Forall₂ (fun declared flattened => ∃ override ∈ target.configurations,
      override.name = declared.name ∧ flattened = override.flattenedOver target.settings)
        project.configurations ((project.flattenTarget target).map fun copy => copy) := by
    refine forall₂_map_filterMap fun configuration hconfiguration => ?_
    -- The override of this name is looked up, and there is one.
    have hname : configuration.name ∈ target.overrides :=
      h.mem_overrides htarget (List.mem_map_of_mem hconfiguration)
    obtain ⟨override, hoverride⟩ :=
      Option.isSome_iff_exists.1 (BuildConfiguration.find?_isSome.2 hname)
    have hsome : target.configuration? configuration.name = some override := hoverride
    refine ⟨_, congrArg (Option.map _) hsome, override, List.mem_of_find?_eq_some hoverride, ?_, rfl⟩
    simpa using List.find?_some hoverride
  rwa [List.map_id'] at hmatch

end Project

end ProjectCompiler
