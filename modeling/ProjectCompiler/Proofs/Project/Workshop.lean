import ProjectCompiler.Proofs.Project.Cloning
import Mathlib.Data.List.Flatten

/-!
# Workshop — projects and loose objects over every history

Projects are made, edited and cloned next to targets, configurations and schemes that belong to no
project yet. A target that is added moves from one to the other, and whoever holds an object can clone
it or anything in it. A workshop is all that is held at one time, with the supply of identities.

- `Action.perform`: what can be done in a workshop;
- `Workshop.Sound`: what holds in a workshop at all times;
- `Action.step`, `Workshop.Step.sound`: every action takes some of what is held and puts back what is
  built from it, which keeps this;
- `Workshop.Step.of_error`: an action that fails is refused by a project, and no project changes;
- `Workshop.projects_stay_wellFormed`: projects over every history, and refused operations;
- `Workshop.identities_never_collide`: identities over every history, clones and flattened copies.
-/

namespace ProjectCompiler

open scoped List

/-! ## Edits in place -/

/-- An edit of a target that assigns no name, neither to the target nor to an override. -/
inductive TargetEdit
  /-- Assign to fields other than the name and those that hold objects. -/
  | assign (change : Target → Target)
  /-- Change the settings of an override, made empty first if there is none. -/
  | override (name : String) (change : Settings → Settings)
  | scheme (name : String) (change : Scheme → Scheme)

def TargetEdit.apply : TargetEdit → Target → Fresh Target
  | .assign change, target => return { change target with
      id := target.id
      name := target.name
      configurations := target.configurations
      schemes := target.schemes }
  | .override name change, target => target.editConfiguration name fun configuration =>
      { configuration with settings := change configuration.settings }
  | .scheme name change, target => target.addScheme name fun scheme =>
      { change scheme with id := scheme.id }

/-- An operation on a project by itself. -/
inductive ProjectEdit
  /-- Assign to fields other than those that hold objects. -/
  | assign (change : Project → Project)
  | addConfiguration (name : String)
  | editConfiguration (name : String) (change : Settings → Settings)
  | addApplication (name : String) (platform : Platform) (deploymentTarget : String)
      (language : Language)
  | addUnitTests (host : String)
  | editTarget (name : String) (edit : TargetEdit)

def ProjectEdit.apply : ProjectEdit → Project → Building Project
  | .assign change, project => return { change project with
      id := project.id
      configurations := project.configurations
      targets := project.targets }
  | .addConfiguration name, project => liftM (project.addConfiguration name)
  | .editConfiguration name change, project => return project.editConfiguration name fun configuration =>
      { configuration with settings := change configuration.settings }
  | .addApplication name platform deploymentTarget language, project =>
      project.addApplication name platform deploymentTarget language
  | .addUnitTests host, project => project.addUnitTests host
  | .editTarget name edit, project => liftM (project.editTarget name edit.apply)

theorem TargetEdit.apply_grows (edit : TargetEdit) {target : Target}
    (hnodup : target.overrides.Nodup) :
    (edit.apply target).Makes target.identities Target.identities target.Grows := by
  cases edit with
  | assign change =>
    exact Fresh.Makes.pure (List.Perm.refl _) (Target.grows_of_configurations_eq rfl rfl)
  | override name change => exact Target.editConfiguration_grows name hnodup (by simp) (by simp)
  | scheme name change => exact Target.addScheme_grows name (by simp)

theorem ProjectEdit.apply_wellFormed (edit : ProjectEdit) {project : Project}
    (h : project.WellFormed) :
    Building.Tries (edit.apply project) project.Refuses project.identities Project.identities
      Project.WellFormed := by
  cases edit with
  | assign change =>
    refine Building.Tries.of_makes (Building.Makes.pure (List.Perm.refl _) ?_)
    exact h.of_names_eq rfl rfl
  | addConfiguration name =>
    exact Building.Tries.of_makes (Building.Makes.lift (Project.addConfiguration_wellFormed h name))
  | editConfiguration name change =>
    refine Building.Tries.of_makes (Building.Makes.pure ?_ ?_)
    · simp [Project.identities, Project.editConfiguration, BuildConfiguration.map_modifyFirst]
    · exact Project.editConfiguration_wellFormed h name fun _ => rfl
  | addApplication name platform deploymentTarget language =>
    exact Project.addApplication_wellFormed h name platform deploymentTarget language
  | addUnitTests host => exact Project.addUnitTests_wellFormed h host
  | editTarget name edit =>
    refine Building.Tries.of_makes (Building.Makes.lift ?_)
    exact Project.editTarget_wellFormed h name fun target htarget =>
      edit.apply_grows (h.overrides target htarget)

/-! ## Workshops -/

/-- Everything that is held at one time. -/
structure Workshop where
  supply : Supply
  /-- Projects, and objects that are in no project. -/
  held : List Node

namespace Workshop

def empty (supply : Supply) : Workshop :=
  { supply, held := [] }

/-- What is held and everything in it. -/
def objects (workshop : Workshop) : List Node :=
  workshop.held.flatMap Node.objects

def projects (workshop : Workshop) : List Project :=
  workshop.held.filterMap Node.project?

/-- The project at a place, if that is one. -/
def project? (workshop : Workshop) (place : Nat) : Option Project :=
  workshop.held[place]?.bind Node.project?

/-- The target at a place, if that is one in no project. -/
def target? (workshop : Workshop) (place : Nat) : Option Target :=
  workshop.held[place]?.bind Node.target?

/-- Targets in projects and by themselves. -/
def targets (workshop : Workshop) : List Target :=
  workshop.objects.filterMap Node.target?

/-- What flattening returns, for every project and every target. -/
def flattened (workshop : Workshop) : List BuildConfiguration :=
  workshop.projects.flatMap fun project =>
    project.flattenConfigurations ++ workshop.targets.flatMap project.flattenTarget

/-- Nodes that can be cloned. -/
def visible (workshop : Workshop) : List Node :=
  workshop.objects ++ workshop.flattened.map Node.configuration

/-- Build a node next to what is kept. If that fails, `back` is kept as well. -/
def store (workshop : Workshop) (kept back : List Node) (build : Building Node) :
    Except ModelError Unit × Workshop :=
  match build workshop.supply with
  | (.ok node, supply) => (.ok (), { supply, held := kept ++ [node] })
  | (.error error, supply) => (.error error, { supply, held := kept ++ back })

end Workshop

/-- What can be done in a workshop. Places count what is held, targets or what is visible. -/
inductive Action
  | newProject (name : String) (configurations : List String)
  | newTarget (name : String) (type : TargetType) (platform : Platform) (deploymentTarget : String)
  | newBundle (name : String) (host : Nat)
  | newConfiguration (name : String)
  | newScheme (name : String)
  | clone (place : Nat)
  | editProject (place : Nat) (edit : ProjectEdit)
  /-- Move a target into a project. A target that is refused is gone. -/
  | addTarget (place target : Nat)
  /-- Edit a target that is in no project. -/
  | editTarget (place : Nat) (edit : TargetEdit)
  | renameTarget (place : Nat) (name : String)
  | drop (place : Nat)

namespace Action

/-- A place where there is nothing of the kind leaves the workshop alone. -/
def perform (action : Action) (workshop : Workshop) : Except ModelError Unit × Workshop :=
  match action with
  | .newProject name configurations => workshop.store workshop.held [] do
      return .project (← Project.withConfigurations name configurations)
  | .newTarget name type platform deploymentTarget => workshop.store workshop.held [] do
      return .target (← Target.new name type platform deploymentTarget)
  | .newBundle name host =>
      match workshop.targets[host]? with
      | some host => workshop.store workshop.held [] do
          return .target (← Target.unitTestBundle name host)
      | none => (.ok (), workshop)
  | .newConfiguration name => workshop.store workshop.held [] do
      return .configuration (← BuildConfiguration.new name)
  | .newScheme name => workshop.store workshop.held [] do
      return .scheme (← Scheme.new name)
  | .clone place =>
      match workshop.visible[place]? with
      | some node => workshop.store workshop.held [] (liftM node.clone)
      | none => (.ok (), workshop)
  | .editProject place edit =>
      match workshop.project? place with
      | some project =>
          workshop.store (workshop.held.erase (.project project)) [.project project] do
            return .project (← edit.apply project)
      | none => (.ok (), workshop)
  | .addTarget place target =>
      match workshop.project? place, workshop.target? target with
      | some project, some target =>
          workshop.store ((workshop.held.erase (.project project)).erase (.target target))
            [.project project] do return .project (← project.addTarget target)
      | _, _ => (.ok (), workshop)
  | .editTarget place edit =>
      match workshop.target? place with
      | some target =>
          workshop.store (workshop.held.erase (.target target)) [.target target] do
            return .target (← edit.apply target)
      | none => (.ok (), workshop)
  | .renameTarget place name =>
      match workshop.target? place with
      | some target =>
          workshop.store (workshop.held.erase (.target target)) [.target target] do
            return .target { target with name }
      | none => (.ok (), workshop)
  | .drop place =>
      match workshop.held[place]? with
      | some node => (.ok (), { workshop with held := workshop.held.erase node })
      | none => (.ok (), workshop)

/-- Actions one after another, whether they fail or not. -/
def performAll (actions : List Action) (workshop : Workshop) : Workshop :=
  actions.foldl (fun workshop action => (action.perform workshop).2) workshop

end Action

/-! ## What every action keeps -/

namespace Workshop

def identities (workshop : Workshop) : List Identity :=
  workshop.held.flatMap Node.identities

theorem map_id_objects (workshop : Workshop) :
    workshop.objects.map Node.id = workshop.identities := by
  simp [objects, identities, List.map_flatMap, Node.map_id_objects]

/-- Everything is well-formed and stands under an identity of its own that the supply gave out. -/
structure Sound (workshop : Workshop) : Prop where
  wellFormed : ∀ node ∈ workshop.held, node.WellFormed
  nodup : workshop.identities.Nodup
  below : ∀ id ∈ workshop.identities, id.number < workshop.supply.next

variable {workshop : Workshop}

theorem empty_sound (supply : Supply) : (empty supply).Sound where
  wellFormed _ hnode := nomatch hnode
  nodup := List.nodup_nil
  below _ hid := nomatch hid

theorem mem_of_project? {place : Nat} {project : Project}
    (h : workshop.project? place = some project) : .project project ∈ workshop.held := by
  obtain ⟨node, hplace, hnode⟩ := Option.bind_eq_some_iff.1 h
  exact Node.project?_eq_some_iff.1 hnode ▸ List.mem_of_getElem? hplace

theorem mem_of_target? {place : Nat} {target : Target}
    (h : workshop.target? place = some target) : .target target ∈ workshop.held := by
  obtain ⟨node, hplace, hnode⟩ := Option.bind_eq_some_iff.1 h
  exact Node.target?_eq_some_iff.1 hnode ▸ List.mem_of_getElem? hplace

theorem Sound.project (h : workshop.Sound) {project : Project}
    (hproject : project ∈ workshop.projects) : project.WellFormed := by
  obtain ⟨node, hnode, hsome⟩ := List.mem_filterMap.1 hproject
  obtain rfl := Node.project?_eq_some_iff.1 hsome
  exact h.wellFormed _ hnode

theorem Sound.of_mem_visible (h : workshop.Sound) {node : Node} (hnode : node ∈ workshop.visible) :
    node.WellFormed := by
  rcases List.mem_append.1 hnode with hobject | hcopy
  · obtain ⟨holder, hholder, hobject⟩ := List.mem_flatMap.1 hobject
    exact (h.wellFormed holder hholder).of_mem_objects hobject
  · obtain ⟨copy, -, rfl⟩ := List.mem_map.1 hcopy
    trivial

/-- Things may be dropped, and identities given out for nothing. -/
theorem Sound.drop (h : workshop.Sound) {supply : Supply} {held : List Node}
    (hsupply : workshop.supply.next ≤ supply.next) (hheld : held <+~ workshop.held) :
    Sound { supply, held } := by
  obtain ⟨middle, hperm, hsublist⟩ := hheld
  have hids : middle.flatMap Node.identities ~ held.flatMap Node.identities :=
    hperm.flatMap_right _
  have hfewer : middle.flatMap Node.identities <+ workshop.identities :=
    hsublist.flatMap Node.identities
  constructor
  · intro node hnode
    exact h.wellFormed node (hsublist.subset (hperm.mem_iff.2 hnode))
  · exact hids.nodup_iff.1 (h.nodup.sublist hfewer)
  · intro id hid
    exact Nat.lt_of_lt_of_le (h.below id (hfewer.subset (hids.mem_iff.2 hid))) hsupply

/-- What is built from things that are held stands under their identities and new ones. -/
theorem Sound.store (h : workshop.Sound) {kept taken back : List Node}
    (hheld : workshop.held ~ kept ++ taken) (hback : back <+ taken) {build : Building Node}
    {refusal : ModelError → Prop} (hbuild : build.Tries refusal (taken.flatMap Node.identities)
      Node.identities Node.WellFormed) : (workshop.store kept back build).2.Sound := by
  unfold Workshop.store
  rcases hbuild workshop.supply with ⟨error, after, hrun, hissued, -⟩ |
    ⟨node, after, new, hrun, hissued, hperm, hnode⟩
  · rw [hrun]
    exact h.drop hissued.grows ((hback.append_left kept).subperm.trans hheld.symm.subperm)
  · rw [hrun]
    have hids : (kept ++ [node]).flatMap Node.identities ~ workshop.identities ++ new := calc
      (kept ++ [node]).flatMap Node.identities
        = kept.flatMap Node.identities ++ node.identities := by simp
      _ ~ kept.flatMap Node.identities ++ (taken.flatMap Node.identities ++ new) :=
          hperm.append_left _
      _ = (kept ++ taken).flatMap Node.identities ++ new := by simp
      _ ~ workshop.identities ++ new := (hheld.symm.flatMap_right _).append_right new
    constructor
    · intro other hother
      rcases List.mem_append.1 hother with hkept | hlast
      · exact h.wellFormed other (hheld.mem_iff.2 (List.mem_append_left _ hkept))
      · obtain rfl := List.mem_singleton.1 hlast
        exact hnode
    · -- What was held stands below the supply, and what is new does not.
      refine hids.nodup_iff.2 (List.nodup_append.2 ⟨h.nodup, hissued.nodup, ?_⟩)
      rintro id hold _ hnew rfl
      have hbelow := h.below id hold
      have habove := (hissued.between id hnew).1
      omega
    · intro id hid
      rcases List.mem_append.1 (hids.mem_iff.1 hid) with hold | hnew
      · exact Nat.lt_of_lt_of_le (h.below id hold) hissued.grows
      · exact (hissued.between id hnew).2

/-- Some project that is held refuses an operation. -/
def Refuses (workshop : Workshop) (error : ModelError) : Prop :=
  ∃ project ∈ workshop.projects, project.Refuses error

/-- What an action may do: nothing, drop things, or build a node from things that it takes. Of these it
puts back some if it fails, at least all projects. -/
inductive Step (workshop : Workshop) : Except ModelError Unit × Workshop → Prop
  | stay : Step workshop (.ok (), workshop)
  | drop {held : List Node} (hheld : held <+~ workshop.held) :
      Step workshop (.ok (), { workshop with held })
  | store {kept back lost : List Node} {build : Building Node}
      (hheld : workshop.held ~ kept ++ (back ++ lost))
      (hlost : lost.filterMap Node.project? = [])
      (hbuild : build.Tries workshop.Refuses ((back ++ lost).flatMap Node.identities)
        Node.identities Node.WellFormed) :
      Step workshop (workshop.store kept back build)

theorem refuses_of_mem {project : Project} (h : .project project ∈ workshop.held)
    (error : ModelError) (herror : project.Refuses error) : workshop.Refuses error :=
  ⟨project, List.mem_filterMap.2 ⟨_, h, rfl⟩, herror⟩

variable {result : Except ModelError Unit × Workshop}

theorem Step.sound (hstep : workshop.Step result) (h : workshop.Sound) : result.2.Sound := by
  cases hstep with
  | stay => exact h
  | drop hheld => exact h.drop (Nat.le_refl _) hheld
  | store hheld hlost hbuild => exact h.store hheld (List.sublist_append_left _ _) hbuild

/-- An action fails because a project refuses it, and leaves all projects as they were. -/
theorem Step.of_error (hstep : workshop.Step result) {error : ModelError}
    (herror : result.1 = .error error) :
    workshop.Refuses error ∧ result.2.projects ~ workshop.projects := by
  cases hstep with
  | stay => cases herror
  | drop hheld => cases herror
  | @store kept back lost build hheld hlost hbuild =>
    unfold Workshop.store at herror ⊢
    rcases hbuild workshop.supply with ⟨reason, after, hrun, -, hreason⟩ |
      ⟨node, after, new, hrun, -, -, -⟩
    · rw [hrun] at herror ⊢
      cases herror
      refine ⟨hreason, ?_⟩
      calc
        (kept ++ back).filterMap Node.project?
          = (kept ++ (back ++ lost)).filterMap Node.project? := by
            simp only [List.filterMap_append, hlost, List.append_nil]
        _ ~ workshop.projects := hheld.symm.filterMap _
    · rw [hrun] at herror
      cases herror

end Workshop

namespace Action

open Workshop

variable {workshop : Workshop}

theorem tries_node {α : Type} (node : α → Node) {x : Building α} {old : List Identity}
    {ids : α → List Identity} {refusal : ModelError → Prop} {P : α → Prop}
    (hx : x.Tries refusal old ids P) (hids : ∀ a, (node a).identities = ids a)
    (h : ∀ a, P a → (node a).WellFormed) :
    Building.Tries (do return node (← x)) refusal old Node.identities Node.WellFormed := by
  refine Building.Tries.bind hx fun a ha => Building.Tries.of_makes ?_
  exact Building.Makes.pure (List.Perm.of_eq (hids a)) (h a ha)

/-- A node that is built of nothing comes next to what is held. -/
theorem step_new {build : Building Node}
    (hbuild : build.Tries workshop.Refuses [] Node.identities Node.WellFormed) :
    workshop.Step (workshop.store workshop.held [] build) := by
  have hheld : workshop.held ~ workshop.held ++ ([] ++ []) := by simp
  exact .store hheld rfl hbuild

/-- A node that is built of another takes its place. -/
theorem step_held {node : Node} (hnode : node ∈ workshop.held) {build : Building Node}
    (hbuild : build.Tries workshop.Refuses node.identities Node.identities Node.WellFormed) :
    workshop.Step (workshop.store (workshop.held.erase node) [node] build) := by
  have hheld : workshop.held ~ workshop.held.erase node ++ ([node] ++ []) :=
    (List.perm_cons_erase hnode).trans (List.perm_append_singleton node _).symm
  exact .store hheld rfl (by simpa using hbuild)

/-- Two different nodes of those that are held can be listed last. -/
theorem perm_erase_erase {held : List Node} {first second : Node} (hfirst : first ∈ held)
    (hsecond : second ∈ held) (hne : second ≠ first) :
    held ~ (held.erase first).erase second ++ ([first] ++ [second]) := by
  have hother : second ∈ held.erase first := (List.mem_erase_of_ne hne).2 hsecond
  calc
    held ~ first :: held.erase first := List.perm_cons_erase hfirst
    _ ~ [first, second] ++ (held.erase first).erase second := (List.perm_cons_erase hother).cons _
    _ ~ (held.erase first).erase second ++ [first, second] := List.perm_append_comm

/-- A node that is built of two others takes the place of the first. If it cannot be built, the second,
which is no project, is lost. -/
theorem step_both {node lost : Node} (hnode : node ∈ workshop.held) (hlost : lost ∈ workshop.held)
    (hne : lost ≠ node) (hproject : lost.project? = none) {build : Building Node}
    (hbuild : build.Tries workshop.Refuses (node.identities ++ lost.identities) Node.identities
      Node.WellFormed) :
    workshop.Step (workshop.store ((workshop.held.erase node).erase lost) [node] build) :=
  .store (perm_erase_erase hnode hlost hne) (by simp [hproject]) (by simpa using hbuild)

theorem step (action : Action) (h : workshop.Sound) : workshop.Step (action.perform workshop) := by
  cases action with
  | newProject name configurations =>
    have hnew := Building.Makes.lift (Project.withConfigurations_wellFormed name configurations)
    exact step_new (tries_node .project (.of_makes hnew) (fun _ => rfl) fun _ hproject => hproject)
  | newTarget name type platform deploymentTarget =>
    have hnew := Building.Makes.lift (Target.new_makes name type platform deploymentTarget)
    refine step_new (tries_node .target (.of_makes hnew) (fun _ => rfl) ?_)
    rintro target ⟨-, -, hnone, -⟩
    exact Target.nodup_overrides_of_none hnone
  | newBundle name host =>
    rw [perform]
    split
    · rename_i host _
      have hnew := Building.Makes.lift (Target.unitTestBundle_makes name host)
      refine step_new (tries_node .target (.of_makes hnew) (fun _ => rfl) ?_)
      rintro target ⟨-, -, hnone⟩
      exact Target.nodup_overrides_of_none hnone
    · exact .stay
  | newConfiguration name =>
    have hnew := Building.Makes.lift (BuildConfiguration.new_makes name)
    exact step_new (tries_node .configuration (.of_makes hnew) (fun _ => rfl) fun _ _ => trivial)
  | newScheme name =>
    have hnew := Building.Makes.lift (Scheme.new_makes name)
    exact step_new (tries_node .scheme (.of_makes hnew) (fun _ => rfl) fun _ _ => trivial)
  | clone place =>
    rw [perform]
    split
    · rename_i node hplace
      have hnode := h.of_mem_visible (List.mem_of_getElem? hplace)
      have hclone := node.clone_makes.weaken fun _ hcopy => hnode.of_anonymous_eq hcopy
      exact step_new (.of_makes (Building.Makes.lift hclone))
    · exact .stay
  | editProject place edit =>
    rw [perform]
    split
    · rename_i project hplace
      have hheld := mem_of_project? hplace
      have hedit := (edit.apply_wellFormed (h.wellFormed _ hheld)).weaken (refuses_of_mem hheld)
      exact step_held hheld (tries_node .project hedit (fun _ => rfl) fun _ hproject => hproject)
    · exact .stay
  | addTarget place target =>
    rw [perform]
    split
    · rename_i project target hproject htarget
      have hheld := mem_of_project? hproject
      have hloose := mem_of_target? htarget
      have hadd := (Project.addTarget_wellFormed (h.wellFormed _ hheld)
        (h.wellFormed _ hloose)).weaken (refuses_of_mem hheld)
      have hbuild := tries_node .project hadd (fun _ => rfl) fun _ hproject => hproject
      exact step_both hheld hloose nofun rfl hbuild
    · exact .stay
  | editTarget place edit =>
    rw [perform]
    split
    · rename_i target hplace
      have hheld := mem_of_target? hplace
      have hnodup : target.overrides.Nodup := h.wellFormed _ hheld
      have hedit := Building.Makes.lift (edit.apply_grows hnodup)
      refine step_held hheld (tries_node .target (.of_makes hedit) (fun _ => rfl) ?_)
      exact fun _ hgrows => hgrows.nodup hnodup
    · exact .stay
  | renameTarget place name =>
    rw [perform]
    split
    · rename_i target hplace
      have hheld := mem_of_target? hplace
      have hnodup : target.overrides.Nodup := h.wellFormed _ hheld
      exact step_held hheld (.of_makes (Building.Makes.pure (List.Perm.refl _) hnodup))
    · exact .stay
  | drop place =>
    rw [perform]
    split
    · exact .drop List.erase_sublist.subperm
    · exact .stay

theorem performAll_sound (actions : List Action) (h : workshop.Sound) :
    (performAll actions workshop).Sound := by
  induction actions generalizing workshop with
  | nil => exact h
  | cons action rest ih => exact ih ((action.step h).sound h)

end Action

/-! ## Every history -/

namespace Workshop

/-- Projects are well-formed at all times. An action fails only because a project refuses it, and leaves
all projects as they were. -/
theorem projects_stay_wellFormed (supply : Supply) (actions : List Action) :
    let workshop := Action.performAll actions (empty supply)
    (∀ project ∈ workshop.projects, project.WellFormed) ∧
      ∀ action error, (Action.perform action workshop).1 = .error error →
        (∃ project ∈ workshop.projects, project.Refuses error) ∧
          (Action.perform action workshop).2.projects ~ workshop.projects := by
  intro workshop
  have hsound : workshop.Sound := Action.performAll_sound actions (empty_sound supply)
  refine ⟨fun project hproject => hsound.project hproject, fun action error herror => ?_⟩
  exact (action.step hsound).of_error herror

/-- A clone of a target comes back under another name with the override that was declared meanwhile; one
that keeps its name is refused. -/
theorem renamed_clone_wellFormed :
    let actions := [.newProject "Shop" ["Debug", "Debug"],
      .editProject 0 (.addApplication "App" .ios "17.0" .swift),
      .editProject 0 (.editTarget "App" (.override "Beta" id)),
      .clone 2, .clone 2, .renameTarget 1 "Copy", .editProject 0 (.addConfiguration "Release"),
      .addTarget 2 1]
    let workshop := Action.performAll actions (empty ⟨1⟩)
    (∀ project ∈ workshop.projects, project.WellFormed) ∧
      workshop.projects.map (fun project => project.targets.map Target.overrides) =
        [[["Debug", "Beta", "Release"], ["Debug", "Beta", "Release"]]] ∧
      (Action.perform (.addTarget 1 0) workshop).1 = .error (.duplicateTarget "App") := by
  intro actions workshop
  exact ⟨(projects_stay_wellFormed ⟨1⟩ actions).1, by decide +kernel, by decide +kernel⟩

/-- No two objects share an identity, however they came about. A clone of anything has its contents
and shares no identity with what there is or ever was, and a flattened copy has the identity of what it
copies. -/
theorem identities_never_collide (supply : Supply) (actions : List Action) :
    let workshop := Action.performAll actions (empty supply)
    (workshop.objects.map Node.id).Nodup ∧
      (∀ object ∈ workshop.objects, object.id.number < workshop.supply.next) ∧
      (∀ node : Node,
        let copy := (node.clone workshop.supply).1
        copy.anonymous = node.anonymous ∧ ((workshop.objects ++ copy.objects).map Node.id).Nodup ∧
          ∀ object ∈ copy.objects, workshop.supply.next ≤ object.id.number) ∧
      ∀ project ∈ workshop.projects,
        project.flattenConfigurations.map BuildConfiguration.id =
          project.configurations.map BuildConfiguration.id ∧
        (∀ target : Target, (project.flattenTarget target).map BuildConfiguration.id ⊆
          target.configurations.map BuildConfiguration.id) ∧
        ∀ target ∈ project.targets,
          List.Forall₂ (fun declared flattened => ∃ override ∈ target.configurations,
              override.name = declared.name ∧ flattened.id = override.id)
            project.configurations (project.flattenTarget target) := by
  intro workshop
  have hsound : workshop.Sound := Action.performAll_sound actions (empty_sound supply)
  refine ⟨?_, ?_, fun node => ?_, fun project hproject =>
    ⟨?_, project.map_id_flattenTarget_subset, fun target htarget => ?_⟩⟩
  · rw [workshop.map_id_objects]
    exact hsound.nodup
  · intro object hobject
    refine hsound.below object.id ?_
    rw [← workshop.map_id_objects]
    exact List.mem_map_of_mem hobject
  · obtain ⟨copy, after, new, hrun, hissued, hperm, hsame⟩ := node.clone_makes workshop.supply
    rw [hrun]
    rw [List.nil_append, ← copy.map_id_objects] at hperm
    have hfresh : ∀ object ∈ copy.objects, workshop.supply.next ≤ object.id.number := by
      intro object hobject
      exact (hissued.between object.id (hperm.mem_iff.1 (List.mem_map_of_mem hobject))).1
    refine ⟨hsame, ?_, hfresh⟩
    rw [List.map_append, workshop.map_id_objects]
    refine List.nodup_append.2 ⟨hsound.nodup, hperm.nodup_iff.2 hissued.nodup, ?_⟩
    rintro id hold _ hnew rfl
    obtain ⟨object, hobject, rfl⟩ := List.mem_map.1 hnew
    exact Nat.not_lt_of_le (hfresh object hobject) (hsound.below object.id hold)
  · exact project.map_id_flattenConfigurations
  · refine ((hsound.project hproject).flattenTarget htarget).imp ?_
    rintro declared flattened ⟨override, hmem, hname, rfl⟩
    exact ⟨override, hmem, hname, rfl⟩

/-- The clone of a project stands under identities of its own, and so does that of a flattened copy. -/
theorem cloned_project_identities :
    let actions := [.newProject "Shop" ["Debug"],
      .editProject 0 (.addApplication "App" .ios "17.0" .swift),
      .editProject 0 (.editTarget "App" (.scheme "Demo" id)), .clone 0, .clone 11]
    let workshop := Action.performAll actions (empty ⟨1⟩)
    (workshop.objects.map Node.id).Nodup ∧
      workshop.held.map (fun node => (node.kind, node.identities.map Identity.number)) =
        [("project", [1, 2, 3, 4, 5]), ("project", [6, 7, 8, 9, 10]), ("configuration", [11])] := by
  intro actions workshop
  exact ⟨(identities_never_collide ⟨1⟩ actions).1, by decide +kernel⟩

end Workshop

end ProjectCompiler
