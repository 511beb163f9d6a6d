import ProjectCompiler.Proofs.Project.Growth
import Mathlib.Data.List.Forall2

/-!
# WellFormed — what a project keeps while it grows

Configurations and targets come in any order, and a target may bring overrides along. Whichever comes
second finds what the other side lacks, so that every target overrides every declared configuration
once. Edits in place keep this as long as no name is assigned: they can only add overrides.

- `Project.WellFormed`: distinct names on either side, one override for each configuration;
- `Target.Grows`: what an edit of a target may do to it;
- `Project.WellFormed.of_grows`: targets that grow keep a project well-formed;
- `Project.Refuses`: why an operation fails;
- `Project.addConfiguration_wellFormed`, `Project.addTarget_wellFormed` and their like: operations keep
  a project well-formed, or are refused.
-/

namespace ProjectCompiler

open scoped List

/-! ## Lists that correspond item by item -/

section Correspondence

variable {α β γ : Type} {R : α → β → Prop} {items : List α} {others : List β}

theorem map_eq_map_of_forall₂ {f : α → γ} {g : β → γ} (h : List.Forall₂ R items others)
    (hsame : ∀ item other, R item other → g other = f item) : others.map g = items.map f := by
  induction h with
  | nil => rfl
  | cons hfirst _ ih => rw [List.map_cons, List.map_cons, hsame _ _ hfirst, ih]

theorem exists_of_forall₂ (h : List.Forall₂ R items others) {other : β} (hmem : other ∈ others) :
    ∃ item ∈ items, R item other := by
  induction h with
  | nil => cases hmem
  | cons hfirst _ ih =>
    rcases List.mem_cons.1 hmem with rfl | hrest
    · exact ⟨_, List.mem_cons_self, hfirst⟩
    · rcases ih hrest with ⟨item, hitem, hrelated⟩
      exact ⟨item, List.mem_cons_of_mem _ hitem, hrelated⟩

theorem forall₂_trans {S : β → γ → Prop} {related : α → γ → Prop} {more : List γ}
    (h : List.Forall₂ R items others) (hmore : List.Forall₂ S others more)
    (hrelated : ∀ {item other one}, R item other → S other one → related item one) :
    List.Forall₂ related items more := by
  induction h generalizing more with
  | nil =>
    cases hmore
    exact List.Forall₂.nil
  | cons hfirst _ ih =>
    cases hmore with
    | cons hone hrest => exact List.Forall₂.cons (hrelated hfirst hone) (ih hrest)

/-- What is found for every item is related to the items, in their order. -/
theorem forall₂_map_filterMap {related : α → γ → Prop} {find : α → Option β} {image : β → γ}
    (h : ∀ item ∈ items, ∃ found, find item = some found ∧ related item (image found)) :
    List.Forall₂ related items ((items.filterMap find).map image) := by
  induction items with
  | nil => exact List.Forall₂.nil
  | cons item rest ih =>
    obtain ⟨found, hfound, hrelated⟩ := h item List.mem_cons_self
    rw [List.filterMap_cons_some hfound, List.map_cons]
    exact List.Forall₂.cons hrelated (ih fun other hother => h other (List.mem_cons_of_mem _ hother))

end Correspondence

/-! ## Targets -/

namespace Target

/-- The same name, the same overrides and perhaps more, and no name is repeated by that. -/
structure Grows (before after : Target) : Prop where
  name : after.name = before.name
  overrides : before.overrides ⊆ after.overrides
  nodup : before.overrides.Nodup → after.overrides.Nodup

variable {target after : Target}

theorem nodup_overrides_of_none (h : target.configurations = []) : target.overrides.Nodup := by
  rw [overrides, h]
  exact List.nodup_nil

theorem Grows.refl (target : Target) : target.Grows target :=
  ⟨rfl, fun _ hname => hname, fun hnodup => hnodup⟩

theorem grows_of_configurations_eq (hname : after.name = target.name)
    (hconfigurations : after.configurations = target.configurations) : target.Grows after := by
  have hoverrides : after.overrides = target.overrides :=
    congrArg (List.map BuildConfiguration.name) hconfigurations
  exact ⟨hname, fun _ hmem => hoverrides ▸ hmem, fun hnodup => hoverrides ▸ hnodup⟩

/-- Names that come along are appended where they are missing. -/
theorem grows_of_overrides_eq {more : List String} (hname : after.name = target.name)
    (hoverrides : after.overrides = (target.overrides ++ more).eraseDups) : target.Grows after where
  name := hname
  overrides name hmem := by
    rw [hoverrides, List.mem_eraseDups]
    exact List.mem_append_left _ hmem
  nodup _ := by
    rw [hoverrides]
    exact nodup_eraseDups _

theorem editConfiguration_grows (name : String) (hnodup : target.overrides.Nodup)
    {change : BuildConfiguration → BuildConfiguration}
    (hid : ∀ configuration, (change configuration).id = configuration.id)
    (hchange : ∀ configuration, (change configuration).name = configuration.name) :
    (target.editConfiguration name change).Makes target.identities identities target.Grows := by
  refine (editConfiguration_makes name hnodup hid hchange).weaken ?_
  rintro after ⟨hsame, hoverrides⟩
  exact grows_of_overrides_eq (by rw [hsame]) hoverrides

theorem addScheme_grows (name : String) {change : Scheme → Scheme}
    (hid : ∀ scheme, (change scheme).id = scheme.id) :
    (target.addScheme name change).Makes target.identities identities target.Grows := by
  refine (addScheme_makes name hid).weaken fun after hsame => ?_
  exact grows_of_configurations_eq (by rw [hsame]) (by rw [hsame])

end Target

/-! ## Projects -/

namespace Project

/-- Names are distinct on either side, and every target overrides every configuration once. -/
structure WellFormed (project : Project) : Prop where
  declared : project.declared.Nodup
  targets : (project.targets.map Target.name).Nodup
  overrides : ∀ target ∈ project.targets, target.overrides.Nodup
  covered : ∀ target ∈ project.targets, ∀ name ∈ project.declared, target.overrides.count name = 1

variable {project after : Project}

theorem WellFormed.mem_overrides (h : project.WellFormed) {target : Target}
    (htarget : target ∈ project.targets) {name : String} (hname : name ∈ project.declared) :
    name ∈ target.overrides := by
  have honce := h.covered target htarget name hname
  exact List.count_pos_iff.1 (honce ▸ Nat.one_pos)

theorem WellFormed.of_grows (h : project.WellFormed) (hdeclared : after.declared.Nodup)
    (htargets : List.Forall₂ Target.Grows project.targets after.targets)
    (hcovered : ∀ target ∈ after.targets, ∀ name ∈ after.declared,
      name ∈ project.declared ∨ name ∈ target.overrides) : after.WellFormed := by
  have hnodup : ∀ target ∈ after.targets, target.overrides.Nodup := by
    intro target htarget
    obtain ⟨before, hbefore, hgrows⟩ := exists_of_forall₂ htargets htarget
    exact hgrows.nodup (h.overrides before hbefore)
  refine ⟨hdeclared, ?_, hnodup, ?_⟩
  · rw [map_eq_map_of_forall₂ htargets fun before target hgrows => hgrows.name]
    exact h.targets
  · intro target htarget name hname
    refine List.count_eq_one_of_mem (hnodup target htarget) ?_
    rcases hcovered target htarget name hname with hold | hnew
    · -- The target had this override before it grew.
      obtain ⟨before, hbefore, hgrows⟩ := exists_of_forall₂ htargets htarget
      exact hgrows.overrides (h.mem_overrides hbefore hold)
    · exact hnew

/-- What names and overrides do not depend on may change. -/
theorem WellFormed.of_names_eq (h : project.WellFormed) (hdeclared : after.declared = project.declared)
    (htargets : after.targets = project.targets) : after.WellFormed := by
  refine h.of_grows (hdeclared ▸ h.declared) ?_ fun target _ name hname => Or.inl (hdeclared ▸ hname)
  rw [htargets, List.forall₂_same]
  exact fun target _ => Target.Grows.refl target

theorem withConfigurations_wellFormed (name : String) (configurations : List String) :
    (withConfigurations name configurations).Makes [] identities WellFormed := by
  refine (withConfigurations_makes name configurations).weaken ?_
  rintro project ⟨hsame, hdeclared⟩
  have htargets : project.targets = [] := by rw [hsame]
  exact ⟨hdeclared ▸ nodup_eraseDups _, by simp [htargets], by simp [htargets], by simp [htargets]⟩

theorem addConfiguration_wellFormed (h : project.WellFormed) (name : String) :
    (project.addConfiguration name).Makes project.identities identities WellFormed := by
  have hdone : project.declared = project.declared.eraseDups := (eraseDups_of_nodup h.declared).symm
  refine (addConfiguration_makes name hdone h.overrides).weaken ?_
  rintro after ⟨-, hdeclared, hoverrides⟩
  refine h.of_grows (hdeclared ▸ nodup_eraseDups _) (hoverrides.imp ?_) ?_
  · rintro target grown ⟨hsame, hnames⟩
    exact Target.grows_of_overrides_eq (by rw [hsame]) hnames
  · intro target htarget other hother
    rw [hdeclared, List.mem_eraseDups, List.mem_append, List.mem_singleton] at hother
    rcases hother with hold | rfl
    · exact Or.inl hold
    · obtain ⟨before, -, -, hnames⟩ := exists_of_forall₂ hoverrides htarget
      simp [hnames]

theorem editConfiguration_wellFormed (h : project.WellFormed) (name : String)
    {change : BuildConfiguration → BuildConfiguration}
    (hchange : ∀ configuration, (change configuration).name = configuration.name) :
    (project.editConfiguration name change).WellFormed :=
  h.of_names_eq (BuildConfiguration.map_modifyFirst hchange name _) rfl

/-- Targets of other names are passed by, and so are those behind the first of the name. -/
theorem edit_grows (name : String) {change : Target → Fresh Target} {targets : List Target}
    (hchange : ∀ target ∈ targets,
      (change target).Makes target.identities Target.identities target.Grows) :
    (editTarget.edit name change targets).Makes (targets.flatMap Target.identities)
      (List.flatMap Target.identities) (List.Forall₂ Target.Grows targets) := by
  induction targets with
  | nil => exact Fresh.Makes.pure (List.Perm.refl _) List.Forall₂.nil
  | cons first rest ih =>
    rw [editTarget.edit]
    split
    · have hfirst := (hchange first List.mem_cons_self).frame (rest.flatMap Target.identities)
      refine Fresh.Makes.bind (hfirst.reorder List.perm_append_comm) fun changed hgrows => ?_
      refine Fresh.Makes.pure List.perm_append_comm (List.Forall₂.cons hgrows ?_)
      exact List.forall₂_same.2 fun target _ => Target.Grows.refl target
    · have hrest := ih fun target htarget => hchange target (List.mem_cons_of_mem _ htarget)
      refine Fresh.Makes.bind (hrest.frame first.identities) fun others hothers => ?_
      exact Fresh.Makes.pure (List.Perm.refl _)
        (List.Forall₂.cons (Target.Grows.refl first) hothers)

theorem editTarget_wellFormed (h : project.WellFormed) (name : String)
    {change : Target → Fresh Target} (hchange : ∀ target ∈ project.targets,
      (change target).Makes target.identities Target.identities target.Grows) :
    (project.editTarget name change).Makes project.identities identities WellFormed := by
  have hedit := (edit_grows name hchange).frame
    (project.id :: project.configurations.map BuildConfiguration.id)
  unfold editTarget
  refine Fresh.Makes.bind hedit fun targets htargets => ?_
  refine Fresh.Makes.pure (List.Perm.refl _) ?_
  exact h.of_grows h.declared htargets fun _ _ name hname => Or.inl hname

/-! ## Operations that may be refused -/

/-- Why an operation on a project fails: the name of a new target is taken, or that of a host is
unknown. -/
def Refuses (project : Project) : ModelError → Prop
  | .duplicateTarget name => name ∈ project.targets.map Target.name
  | .unknownTarget name => name ∉ project.targets.map Target.name
  | .missingField _ _ => False

theorem target?_isSome_iff {name : String} :
    (project.target? name).isSome ↔ name ∈ project.targets.map Target.name := by
  rw [target?_isSome, List.mem_map]

/-- A target of a name that is taken is refused before anything is made for it. -/
theorem addTarget_refused {target : Target} (h : target.name ∈ project.targets.map Target.name)
    (supply : Supply) :
    project.addTarget target supply = (.error (.duplicateTarget target.name), supply) := by
  have htaken : (project.target? target.name).isSome = true := target?_isSome_iff.2 h
  unfold addTarget
  rw [if_pos htaken]
  rfl

theorem WellFormed.addTarget (h : project.WellFormed) {added : Target}
    (hname : added.name ∉ project.targets.map Target.name) (hnodup : added.overrides.Nodup)
    (hcovered : project.declared ⊆ added.overrides) :
    WellFormed { project with targets := project.targets ++ [added] } where
  declared := h.declared
  targets := by
    rw [List.map_append, List.map_singleton, ← List.concat_eq_append]
    exact h.targets.concat hname
  overrides other hother := by
    rcases List.mem_append.1 hother with hold | hlast
    · exact h.overrides other hold
    · obtain rfl := List.mem_singleton.1 hlast
      exact hnodup
  covered other hother name hdeclared := by
    rcases List.mem_append.1 hother with hold | hlast
    · exact h.covered other hold name hdeclared
    · obtain rfl := List.mem_singleton.1 hlast
      exact List.count_eq_one_of_mem hnodup (hcovered hdeclared)

theorem addTarget_wellFormed (h : project.WellFormed) {target : Target}
    (hnodup : target.overrides.Nodup) :
    Building.Tries (project.addTarget target) project.Refuses
      (project.identities ++ target.identities) identities WellFormed := by
  intro before
  by_cases hname : target.name ∈ project.targets.map Target.name
  · exact Or.inl ⟨_, before, addTarget_refused hname before, Supply.Issued.nil before, hname⟩
  · obtain ⟨after, supply, new, hrun, hissued, hperm, added, rfl, hsame, hoverrides⟩ :=
      addTarget_makes hname hnodup before
    refine Or.inr ⟨_, supply, new, hrun, hissued, hperm, h.addTarget ?_ ?_ ?_⟩
    · rwa [hsame]
    · rw [hoverrides]
      exact nodup_eraseDups _
    · intro name hdeclared
      rw [hoverrides, List.mem_eraseDups]
      exact List.mem_append_right _ hdeclared

theorem addApplication_wellFormed (h : project.WellFormed) (name : String) (platform : Platform)
    (deploymentTarget : String) (language : Language) :
    Building.Tries (project.addApplication name platform deploymentTarget language)
      project.Refuses project.identities identities WellFormed := by
  have hnew := (Target.new_makes name .application platform deploymentTarget).beside
    project.identities
  refine Building.Tries.bind (Building.Tries.of_makes (Building.Makes.lift hnew)) ?_
  rintro target ⟨-, -, hnone, -⟩
  exact addTarget_wellFormed h (Target.nodup_overrides_of_none hnone)

theorem addUnitTests_wellFormed (h : project.WellFormed) (host : String) :
    Building.Tries (project.addUnitTests host) project.Refuses project.identities identities
      WellFormed := by
  unfold addUnitTests
  rcases hhost : project.target? host with _ | hostTarget
  · have hunknown : host ∉ project.targets.map Target.name := by
      rw [← target?_isSome_iff, hhost]
      exact Bool.false_ne_true
    exact Building.Tries.throw hunknown
  · have hbundle := (Target.unitTestBundle_makes (hostTarget.name ++ "Tests") hostTarget).beside
      project.identities
    refine Building.Tries.bind (Building.Tries.of_makes (Building.Makes.lift hbundle)) ?_
    rintro target ⟨-, -, hnone⟩
    exact addTarget_wellFormed h (Target.nodup_overrides_of_none hnone)

end Project

end ProjectCompiler
