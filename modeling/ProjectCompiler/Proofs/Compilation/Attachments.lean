import ProjectCompiler.Proofs.Compilation.Drawn
import Mathlib.Data.List.Flatten

/-!
# Attachments — what native objects hold

A native project and a native target hold others, in lists for each kind. Instructions attach to them
one by one, in between others, and what is held already is not attached again. So these lists can be
read off the attachments alone.

- `Instruction.children`, `Instruction.groupNames`: what is attached to a node, in order;
- `Item.drawn_project_eq`, `Item.drawn_target_eq`, `Item.drawn_configuration_eq`: native objects, in full;
- `Plan.attachments_standard`: what the standard pipeline attaches.
-/

namespace ProjectCompiler

variable {ν : Type}

/-! ## Attachments of a node -/

namespace Instruction

/-- Parents, each with the child that is attached to it. -/
def attachments : Instruction → List (Node × Node)
  | attach parent child => [(parent, child)]
  | _ => []

/-- Projects, each with the name of a group that is made in it. -/
def grouped : Instruction → List (Project × String)
  | group project name => [(project, name)]
  | _ => []

/-- What is attached to the node of an identity, of one kind. -/
def held (parent : Identity) (kind : NativeKind) (links : List (Node × Node)) : List Node :=
  (links.filter fun link => link.1.id = parent ∧ link.2.nativeKind = kind).map Prod.snd

def children (parent : Identity) (kind : NativeKind) (plan : List Instruction) : List Node :=
  held parent kind (plan.flatMap attachments)

def groupNames (project : Identity) (plan : List Instruction) : List String :=
  ((plan.flatMap grouped).filter fun entry => entry.1.id = project).map Prod.snd

variable {first second : List Instruction} {instruction : Instruction} {id : Identity}
  {kind : NativeKind}

theorem held_append (links more : List (Node × Node)) :
    held id kind (links ++ more) = held id kind links ++ held id kind more := by
  simp [held]

theorem held_cons (parent child : Node) (links : List (Node × Node)) :
    held id kind ((parent, child) :: links) =
      (if parent.id = id ∧ child.nativeKind = kind then [child] else []) ++ held id kind links := by
  by_cases h : parent.id = id ∧ child.nativeKind = kind
  · simp [held, h]
  · simp [held, h]

theorem held_flatMap {α : Type} (items : List α) (links : α → List (Node × Node)) :
    held id kind (items.flatMap links) = items.flatMap fun item => held id kind (links item) := by
  simp [held, List.filter_flatMap, List.map_flatMap]

/-- One parent with several children of one kind. -/
theorem held_map {α : Type} {child : α → Node} {same : NativeKind}
    (hkind : ∀ item, (child item).nativeKind = same) (parent : Node) (items : List α) :
    held id kind (items.map fun item => (parent, child item)) =
      if parent.id = id ∧ same = kind then items.map child else [] := by
  by_cases h : parent.id = id ∧ same = kind
  · simp [held, List.filter_map, Function.comp_def, hkind, h]
  · simp [held, List.filter_map, Function.comp_def, hkind, h]

theorem children_append :
    children id kind (first ++ second) = children id kind first ++ children id kind second := by
  rw [children, List.flatMap_append, held_append]
  rfl

theorem groupNames_append :
    groupNames id (first ++ second) = groupNames id first ++ groupNames id second := by
  simp [groupNames, List.flatMap_append]

theorem children_attach {parent child : Node} (h : parent.id = id) :
    children id kind [.attach parent child] = if child.nativeKind = kind then [child] else [] := by
  by_cases hkind : child.nativeKind = kind <;> simp [children, attachments, held, h, hkind]

/-- An instruction about another node attaches nothing to this one. -/
theorem children_eq_nil (h : ¬ instruction.owner?.map Node.id = some id) :
    children id kind [instruction] = [] := by
  cases instruction with
  | attach parent child =>
    have hparent : parent.id ≠ id := fun hsame => h (congrArg some hsame)
    simp [children, attachments, held, hparent]
  | enter | translate | group | settle | suppress | list | stage | fail => rfl

theorem groupNames_eq_nil (h : ¬ instruction.owner?.map Node.id = some id) :
    groupNames id [instruction] = [] := by
  cases instruction with
  | group project name =>
    have hproject : project.id ≠ id := fun hsame => h (congrArg some hsame)
    simp [groupNames, grouped, hproject]
  | enter | translate | attach | settle | suppress | list | stage | fail => rfl

end Instruction

/-! ## Native objects in full -/

namespace Item

variable {number : Key → NativeId} {done : List Instruction}

/-- The numbers of nodes that are attached one after another. -/
def joined (number : Key → NativeId) (nodes : List Node) : List NativeId :=
  (nodes.map fun node => number (.object node.id)).foldl Backend.appendNew []

theorem joined_concat (nodes : List Node) (node : Node) :
    joined number (nodes ++ [node]) =
      Backend.appendNew (joined number nodes) (number (.object node.id)) := by
  simp [joined]

/-- A native project after some instructions. -/
def joinedProject (number : Key → NativeId) (done : List Instruction) (project : Project) :
    NativeProject where
  name := project.name
  defaultConfiguration := project.defaultConfiguration
  groups := (Instruction.groupNames project.id done).map fun name => number (.group name)
  targets := joined number (Instruction.children project.id .target done)
  configurations := joined number (Instruction.children project.id .configuration done)

/-- A native target after some instructions. -/
def joinedTarget (number : Key → NativeId) (done : List Instruction) (target : Target)
    (productType : String) : NativeTarget where
  name := target.name
  productType := productType
  sdkRoot := target.platform.sdkRoot
  deploymentTarget := target.deploymentTarget
  language := target.language.tag
  configurations := joined number (Instruction.children target.id .configuration done)
  dependencies := joined number (Instruction.children target.id .target done)

open Instruction

theorem drawn_project_eq (number : Key → NativeId) (done : List Instruction) (project : Project) :
    drawn number done (.node (.project project)) = .project (joinedProject number done project) := by
  induction done using List.reverseRecOn with
  | nil => rfl
  | append_singleton done instruction ih =>
    rw [drawn_concat, ih, redraw]
    simp only [joinedProject, children_append, groupNames_append]
    split
    · rename_i howner
      cases instruction with
      | attach parent child =>
        have hparent : parent.id = project.id := Option.some.inj howner
        -- A child goes to the list for its kind, and a native project has no list for some kinds.
        cases child <;>
          simp [alter, Backend.attached?, Node.nativeKind, children_attach hparent, joined_concat,
            groupNames, grouped, Node.id]
      | group other name =>
        have hother : other.id = project.id := Option.some.inj howner
        simp [alter, groupNames, grouped, children, held, attachments, hother]
      | enter | translate | settle | suppress | list | stage | fail =>
        simp [alter, groupNames, grouped, children, held, attachments]
    · rename_i hother
      have hchildren : ∀ kind, children project.id kind [instruction] = [] :=
        fun _ => children_eq_nil hother
      have hgroups : groupNames project.id [instruction] = [] := groupNames_eq_nil hother
      simp [hchildren, hgroups]

theorem drawn_target_eq (number : Key → NativeId) (done : List Instruction) {target : Target}
    {productType : String} (h : target.type.productType? = some productType) :
    drawn number done (.node (.target target)) =
      .target (joinedTarget number done target productType) := by
  induction done using List.reverseRecOn with
  | nil =>
    refine drawn_nil ?_
    rw [NativeObject.ofNode, h]
    rfl
  | append_singleton done instruction ih =>
    rw [drawn_concat, ih, redraw]
    simp only [joinedTarget, children_append]
    split
    · rename_i howner
      cases instruction with
      | attach parent child =>
        have hparent : parent.id = target.id := Option.some.inj howner
        cases child <;>
          simp [alter, Backend.attached?, Node.nativeKind, children_attach hparent, joined_concat,
            Node.id]
      | enter | translate | group | settle | suppress | list | stage | fail =>
        simp [alter, children, held, attachments]
    · rename_i hother
      have hchildren : ∀ kind, children target.id kind [instruction] = [] :=
        fun _ => children_eq_nil hother
      simp [hchildren]

/-- A configuration that is given the same settings every time. -/
theorem drawn_configuration_eq (number : Key → NativeId) {configuration : BuildConfiguration}
    (hsettle : .settle configuration ∈ done)
    (honly : ∀ other, .settle other ∈ done → other.id = configuration.id → other = configuration) :
    drawn number done (.node (.configuration configuration)) =
      .configuration { name := configuration.name, settings := configuration.settings } := by
  -- Before it is given settings it may have any; from then on it has these.
  have hcases : ∃ settings, drawn number done (.node (.configuration configuration)) =
      .configuration { name := configuration.name, settings } ∧
        (.settle configuration ∈ done → settings = configuration.settings) := by
    clear hsettle
    induction done using List.reverseRecOn with
    | nil => exact ⟨Settings.empty, rfl, nofun⟩
    | append_singleton done instruction ih =>
      obtain ⟨settings, hdrawn, hsettled⟩ := ih fun other hother =>
        honly other (List.mem_append_left _ hother)
      rw [drawn_concat, hdrawn, redraw]
      split
      · rename_i howner
        cases instruction with
        | settle other =>
          obtain rfl := honly other (by simp) (Option.some.inj howner)
          exact ⟨other.settings, rfl, fun _ => rfl⟩
        | attach parent child =>
          refine ⟨settings, ?_, fun hmem => hsettled (by simpa using hmem)⟩
          cases child <;> rfl
        | enter | translate | group | suppress | list | stage | fail =>
          exact ⟨settings, rfl, fun hmem => hsettled (by simpa using hmem)⟩
      · rename_i hother
        refine ⟨settings, rfl, fun hmem => hsettled ?_⟩
        rcases List.mem_append.1 hmem with hold | hlast
        · exact hold
        · obtain rfl := List.mem_singleton.1 hlast
          exact absurd rfl hother
  obtain ⟨settings, hdrawn, hsettled⟩ := hcases
  rw [hdrawn, hsettled hsettle]

end Item

/-! ## What the standard pipeline attaches -/

namespace Plan

variable {policy : TestTargetPolicy} {project : Project} {target : Target}

/-- The host of a target, if it has one that is there. -/
def hosts (project : Project) (target : Target) : List Target :=
  (target.host.bind project.target?).toList

/-- Targets with their hosts come first, then the configurations of the project, then those of
targets. -/
theorem attachments_standard :
    (standard policy project).flatMap Instruction.attachments =
      (project.targets.flatMap fun target =>
        (.project project, .target target) ::
          (hosts project target).map fun host => (.target target, .target host)) ++
      (project.flattenConfigurations.map fun configuration =>
        (.project project, .configuration configuration)) ++
      project.targets.flatMap fun target => (project.flattenTarget target).map fun configuration =>
        (.target target, .configuration configuration) := by
  have hnothing : ∀ {α : Type} (items : List α),
      items.flatMap (fun _ => ([] : List (Node × Node))) = [] := by
    simp
  have hschemes : ∀ target, (addSchemes policy project target).flatMap Instruction.attachments = [] :=
    flatMap_addSchemes_eq_nil (fun _ => rfl) (fun _ => rfl) (fun _ _ _ => rfl) fun _ => rfl
  have hhost : ∀ target, (linkHost project target).flatMap Instruction.attachments =
      (hosts project target).map fun host => (.target target, .target host) := by
    intro target
    unfold linkHost hosts
    rcases target.host with _ | name
    · rfl
    · dsimp only [Option.bind_some]
      rcases project.target? name with _ | host
      · rfl
      · rfl
  have henter : ∀ event, Instruction.attachments (.enter event) = [] := fun _ => rfl
  simp only [standard, passes, List.flatMap_append, List.flatMap_cons, List.flatMap_nil,
    List.append_nil, Pass.flatMap_plan henter]
  simp [projectStructure, targets, configurations, schemes, placeConfiguration,
    Instruction.attachments, List.flatMap_assoc, hnothing, hschemes, hhost,
    List.map_eq_flatMap]

theorem grouped_standard :
    (standard policy project).flatMap Instruction.grouped =
      Generators.defaultGroups.map fun name => (project, name) := by
  have hreads : ReadsLists Instruction.grouped := by
    constructor <;> intros <;> rfl
  have hschemes : ∀ target, (addSchemes policy project target).flatMap Instruction.grouped = [] :=
    flatMap_addSchemes_eq_nil (fun _ => rfl) (fun _ => rfl) (fun _ _ _ => rfl) fun _ => rfl
  rw [hreads.standard]
  simp [hschemes, Instruction.grouped, List.map_eq_flatMap]

/-- What a node holds in the end, if it is the node of a certain identity. -/
theorem children_standard (id : Identity) (kind : NativeKind) :
    Instruction.children id kind (standard policy project) =
      (project.targets.flatMap fun target =>
        (if project.id = id ∧ .target = kind then [.target target] else []) ++
          if target.id = id ∧ .target = kind then (hosts project target).map Node.target else []) ++
      (if project.id = id ∧ .configuration = kind then
        project.flattenConfigurations.map Node.configuration else []) ++
      project.targets.flatMap fun target =>
        if target.id = id ∧ .configuration = kind then
          (project.flattenTarget target).map Node.configuration else [] := by
  have htargets : ∀ parent (items : List Target), Instruction.held id kind (items.map fun host =>
      (parent, .target host)) =
        if parent.id = id ∧ .target = kind then items.map Node.target else [] :=
    Instruction.held_map fun _ => rfl
  have hconfigurations : ∀ parent (items : List BuildConfiguration),
      Instruction.held id kind (items.map fun configuration => (parent, .configuration configuration)) =
        if parent.id = id ∧ .configuration = kind then items.map Node.configuration else [] :=
    Instruction.held_map fun _ => rfl
  simp only [Instruction.children, attachments_standard, Instruction.held_append,
    Instruction.held_flatMap, Instruction.held_cons, htargets, hconfigurations]
  rfl

theorem groupNames_standard :
    Instruction.groupNames project.id (standard policy project) = Generators.defaultGroups := by
  simp [Instruction.groupNames, grouped_standard, List.filter_map, Function.comp_def]

section Children

variable (hids : project.identities.Nodup)

include hids

/-- A target is another object than the project. -/
theorem target_id_ne (htarget : target ∈ project.targets) : target.id ≠ project.id := by
  intro hid
  have hsame := project.eq_of_id_eq hids (project.target_mem_nodes htarget) project.project_mem_nodes
    hid
  cases hsame

/-- A target is another object than any other target. -/
theorem flatMap_of_target_id {α : Type} (htarget : target ∈ project.targets)
    (items : Target → List α) :
    (project.targets.flatMap fun other => if other.id = target.id then items other else []) =
      items target := by
  have hdistinct : (project.targets.map Target.id).Nodup := by
    have htargets := (List.nodup_append.1 (List.nodup_cons.1 hids).2).2.1
    refine htargets.sublist ?_
    rw [List.map_eq_flatMap]
    exact List.Sublist.flatMap_right _ fun target _ => by simp [Target.identities]
  obtain ⟨before, after, hsplit⟩ := List.append_of_mem htarget
  rw [hsplit, List.map_append, List.map_cons] at hdistinct
  obtain ⟨-, hafter, hdiffer⟩ := List.nodup_append.1 hdistinct
  have hbefore : (before.flatMap fun other => if other.id = target.id then items other else []) =
      [] := by
    refine List.flatMap_eq_nil_iff.2 fun other hother => if_neg fun hid => ?_
    exact hdiffer other.id (List.mem_map_of_mem hother) target.id List.mem_cons_self hid
  have hrest : (after.flatMap fun other => if other.id = target.id then items other else []) =
      [] := by
    refine List.flatMap_eq_nil_iff.2 fun other hother => if_neg fun hid => ?_
    exact (List.nodup_cons.1 hafter).1 (hid ▸ List.mem_map_of_mem hother)
  simp [hsplit, hbefore, hrest]

theorem children_project_target :
    Instruction.children project.id .target (standard policy project) =
      project.targets.map Node.target := by
  have hown : (project.targets.flatMap fun target => [Node.target target] ++
      if target.id = project.id then (hosts project target).map Node.target else []) =
      project.targets.flatMap fun target => [Node.target target] := by
    refine List.flatMap_congr fun target htarget => ?_
    simp [target_id_ne hids htarget]
  rw [List.map_eq_flatMap, ← hown, children_standard]
  simp

theorem children_project_configuration :
    Instruction.children project.id .configuration (standard policy project) =
      project.flattenConfigurations.map Node.configuration := by
  have hnone : (project.targets.flatMap fun target =>
      if target.id = project.id then (project.flattenTarget target).map Node.configuration else []) =
      [] :=
    List.flatMap_eq_nil_iff.2 fun target htarget => if_neg (target_id_ne hids htarget)
  have hnothing : project.targets.flatMap (fun _ => ([] : List Node)) = [] := by simp
  rw [children_standard]
  simp [hnone, hnothing]

theorem children_target_configuration (htarget : target ∈ project.targets) :
    Instruction.children target.id .configuration (standard policy project) =
      (project.flattenTarget target).map Node.configuration := by
  have hproject : project.id ≠ target.id := (target_id_ne hids htarget).symm
  have hown := flatMap_of_target_id hids htarget fun other =>
    (project.flattenTarget other).map Node.configuration
  rw [children_standard, ← hown]
  simp [hproject]

theorem children_target_target (htarget : target ∈ project.targets) :
    Instruction.children target.id .target (standard policy project) =
      (hosts project target).map Node.target := by
  have hproject : project.id ≠ target.id := (target_id_ne hids htarget).symm
  have hown := flatMap_of_target_id hids htarget fun other => (hosts project other).map Node.target
  rw [children_standard, ← hown]
  simp [hproject]

end Children

end Plan

end ProjectCompiler
