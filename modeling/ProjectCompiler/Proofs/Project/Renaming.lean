import ProjectCompiler.Proofs.Project.Cloning
import Mathlib.Data.Set.Function

/-!
# Renaming — the same project under other identities

A project under other identities has the same contents, and everything that is looked up in it by
name is found under its new identity. A clone is such a project: it has the contents of its original,
and no two objects of either share an identity.

- `Project.renamed`, `Target.renamed` and their like: other identities for the objects within;
- `Project.flattenTarget_renamed` and its like: look-ups and flattening by names do not see them;
- `Project.exists_renamed`: two projects of the same contents differ by a renaming.
-/

namespace ProjectCompiler

variable (rename : Identity → Identity)

/-! ## Other identities -/

def BuildConfiguration.renamed (configuration : BuildConfiguration) : BuildConfiguration :=
  { configuration with id := rename configuration.id }

def Scheme.renamed (scheme : Scheme) : Scheme :=
  { scheme with id := rename scheme.id }

def Target.renamed (target : Target) : Target :=
  { target with
    id := rename target.id
    configurations := target.configurations.map (BuildConfiguration.renamed rename)
    schemes := target.schemes.map (Scheme.renamed rename) }

def Project.renamed (project : Project) : Project :=
  { project with
    id := rename project.id
    configurations := project.configurations.map (BuildConfiguration.renamed rename)
    targets := project.targets.map (Target.renamed rename) }

def Node.renamed : Node → Node
  | .project p => .project (p.renamed rename)
  | .configuration c => .configuration (c.renamed rename)
  | .target t => .target (t.renamed rename)
  | .scheme s => .scheme (s.renamed rename)

theorem Node.id_renamed (node : Node) : (node.renamed rename).id = rename node.id := by
  cases node <;> rfl

theorem Node.text_renamed (node : Node) : (node.renamed rename).text = node.text := by
  cases node <;> rfl

theorem Target.identities_renamed (target : Target) :
    (target.renamed rename).identities = target.identities.map rename := by
  simp [identities, renamed, BuildConfiguration.renamed, Scheme.renamed, Function.comp_def]

theorem Project.identities_renamed (project : Project) :
    (project.renamed rename).identities = project.identities.map rename := by
  simp [identities, renamed, BuildConfiguration.renamed, Target.identities_renamed,
    Function.comp_def, List.map_flatMap, List.flatMap_map]

theorem Target.anonymous_renamed (target : Target) :
    (target.renamed rename).anonymous = target.anonymous := by
  simp [anonymous, renamed, BuildConfiguration.renamed, BuildConfiguration.anonymous,
    Scheme.renamed, Scheme.anonymous, Function.comp_def]

theorem Project.anonymous_renamed (project : Project) :
    (project.renamed rename).anonymous = project.anonymous := by
  simp [anonymous, renamed, BuildConfiguration.renamed, BuildConfiguration.anonymous,
    Target.anonymous_renamed, Function.comp_def]

/-! ## Look-up and flattening -/

theorem BuildConfiguration.find?_renamed (configurations : List BuildConfiguration) (name : String) :
    find? (configurations.map (renamed rename)) name =
      (find? configurations name).map (renamed rename) := by
  rw [find?, List.find?_map]
  rfl

namespace Project

variable (project : Project) (target : Target)

theorem target?_renamed (name : String) :
    (project.renamed rename).target? name = (project.target? name).map (Target.renamed rename) := by
  rw [target?, renamed, List.find?_map]
  rfl

theorem unitTestTargets_renamed :
    (project.renamed rename).unitTestTargets (target.renamed rename) =
      (project.unitTestTargets target).map (Target.renamed rename) := by
  rw [unitTestTargets, renamed, List.filter_map]
  rfl

theorem hasConfiguration_renamed (name : String) :
    (project.renamed rename).hasConfiguration name = project.hasConfiguration name := by
  rw [hasConfiguration, renamed, List.any_map]
  rfl

theorem flattenConfigurations_renamed :
    (project.renamed rename).flattenConfigurations =
      project.flattenConfigurations.map (BuildConfiguration.renamed rename) := by
  simp [flattenConfigurations, renamed, BuildConfiguration.renamed, BuildConfiguration.flattenedOver]

theorem flattenTarget_renamed :
    (project.renamed rename).flattenTarget (target.renamed rename) =
      (project.flattenTarget target).map (BuildConfiguration.renamed rename) := by
  have hfound : ∀ configuration : BuildConfiguration,
      ((target.renamed rename).configuration? (configuration.renamed rename).name).map
          (BuildConfiguration.flattenedOver (target.renamed rename).settings) =
        ((target.configuration? configuration.name).map
          (BuildConfiguration.flattenedOver target.settings)).map
            (BuildConfiguration.renamed rename) := by
    intro configuration
    have hfind : (target.renamed rename).configuration? configuration.name =
        (target.configuration? configuration.name).map (BuildConfiguration.renamed rename) :=
      BuildConfiguration.find?_renamed rename target.configurations configuration.name
    show Option.map _ ((target.renamed rename).configuration? configuration.name) = _
    rw [hfind]
    rcases target.configuration? configuration.name with _ | override
    · rfl
    · rfl
  rw [flattenTarget, flattenTarget, List.map_filterMap, renamed, List.filterMap_map]
  exact List.filterMap_congr fun configuration _ => hfound configuration

end Project

/-! ## Contents and identities -/

/-- Items are known by two lists that together tell one item from another. -/
theorem eq_of_map_eq_of_map_eq {α β γ : Type} {f : α → β} {g : α → γ} {items others : List α}
    (h : ∀ item other, f item = f other → g item = g other → item = other)
    (hf : items.map f = others.map f) (hg : items.map g = others.map g) : items = others := by
  induction items generalizing others with
  | nil => simpa using hf.symm
  | cons item rest ih =>
    cases others with
    | nil => cases hf
    | cons other more =>
      obtain ⟨hfirst, hrest⟩ := List.cons.inj hf
      obtain ⟨hfirst', hrest'⟩ := List.cons.inj hg
      rw [h item other hfirst hfirst', ih hrest hrest']

theorem BuildConfiguration.eq_of_anonymous_eq {first second : BuildConfiguration}
    (h : first.anonymous = second.anonymous) (hid : first.id = second.id) : first = second := by
  cases first
  cases second
  simp_all [anonymous]

/-- Configurations of the same contents have equally many identities, so that what stands behind these is
the same too. -/
theorem BuildConfiguration.append_ids_inj {first second : List BuildConfiguration}
    {rest more : List Identity} (h : first.map anonymous = second.map anonymous)
    (hids : first.map BuildConfiguration.id ++ rest = second.map BuildConfiguration.id ++ more) :
    first = second ∧ rest = more := by
  have hlength : (first.map BuildConfiguration.id).length =
      (second.map BuildConfiguration.id).length := by
    simpa using congrArg List.length h
  obtain ⟨hsame, hrest⟩ := List.append_inj hids hlength
  exact ⟨eq_of_map_eq_of_map_eq (fun _ _ => eq_of_anonymous_eq) h hsame, hrest⟩

theorem Scheme.eq_of_anonymous_eq {first second : Scheme} (h : first.anonymous = second.anonymous)
    (hid : first.id = second.id) : first = second := by
  cases first
  cases second
  simp_all [anonymous]

theorem Target.length_identities_of_anonymous_eq {first second : Target}
    (h : first.anonymous = second.anonymous) :
    first.identities.length = second.identities.length := by
  have hconfigurations := congrArg (fun target => target.configurations.length) h
  have hschemes := congrArg (fun target => target.schemes.length) h
  simp only [anonymous, List.length_map] at hconfigurations hschemes
  simp [identities, hconfigurations, hschemes]

theorem Target.eq_of_anonymous_eq {first second : Target} (h : first.anonymous = second.anonymous)
    (hids : first.identities = second.identities) : first = second := by
  obtain ⟨hid, hrest⟩ := List.cons.inj hids
  have hconfigurations := congrArg Target.configurations h
  have hschemes := congrArg Target.schemes h
  simp only [anonymous] at hconfigurations hschemes
  obtain ⟨hsameConfigurations, hschemeIds⟩ :=
    BuildConfiguration.append_ids_inj hconfigurations hrest
  have hsameSchemes := eq_of_map_eq_of_map_eq (fun _ _ => Scheme.eq_of_anonymous_eq) hschemes
    hschemeIds
  cases first
  cases second
  simp_all [anonymous]

theorem eq_of_map_anonymous_eq {first second : List Target}
    (h : first.map Target.anonymous = second.map Target.anonymous)
    (hids : first.flatMap Target.identities = second.flatMap Target.identities) :
    first = second := by
  induction first generalizing second with
  | nil => simpa using h.symm
  | cons target rest ih =>
    cases second with
    | nil => cases h
    | cons other more =>
      obtain ⟨hfirst, hrest⟩ := List.cons.inj h
      -- Targets of the same contents have equally many identities.
      obtain ⟨hsame, hmore⟩ := List.append_inj hids (Target.length_identities_of_anonymous_eq hfirst)
      rw [Target.eq_of_anonymous_eq hfirst hsame, ih hrest hmore]

namespace Project

variable {project copy : Project}

theorem length_identities_of_anonymous_eq (h : copy.anonymous = project.anonymous) :
    copy.identities.length = project.identities.length := by
  have hconfigurations := congrArg (fun p => p.configurations.length) h
  have htargets := congrArg (fun p => p.targets.map fun target => target.identities.length) h
  have hlength : ∀ target : Target, target.anonymous.identities.length = target.identities.length := by
    intro target
    simp [Target.identities, Target.anonymous]
  simp only [anonymous, List.length_map, List.map_map, Function.comp_def, hlength]
    at hconfigurations htargets
  simp [identities, List.length_flatMap, hconfigurations, htargets]

/-- A project is known by its contents and the identities in it. -/
theorem eq_of_anonymous_eq (h : copy.anonymous = project.anonymous)
    (hids : copy.identities = project.identities) : copy = project := by
  obtain ⟨hid, hrest⟩ := List.cons.inj hids
  have hconfigurations := congrArg Project.configurations h
  have htargets := congrArg Project.targets h
  simp only [anonymous] at hconfigurations htargets
  obtain ⟨hsameConfigurations, htargetIds⟩ :=
    BuildConfiguration.append_ids_inj hconfigurations hrest
  have hsameTargets := eq_of_map_anonymous_eq htargets htargetIds
  cases copy
  cases project
  simp_all [anonymous]

/-- Projects of the same contents, each with distinct identities, differ by a renaming. -/
theorem exists_renamed (h : copy.anonymous = project.anonymous) (hids : project.identities.Nodup)
    (hcopy : copy.identities.Nodup) :
    ∃ rename : Identity → Identity, Set.InjOn rename {id | id ∈ project.identities} ∧
      copy = project.renamed rename := by
  have hlength := length_identities_of_anonymous_eq h
  -- Each identity becomes the one at the same place.
  let rename := fun id => copy.identities.getD (project.identities.idxOf id) default
  have hmap : project.identities.map rename = copy.identities := by
    refine List.ext_getElem (by simpa using hlength.symm) fun position hfirst hsecond => ?_
    have hlt : position < project.identities.length := by simpa using hfirst
    simp [rename, hids.idxOf_getElem position hlt, hsecond]
  refine ⟨rename, ?_, ?_⟩
  · intro first hfirst second hsecond heq
    exact List.inj_on_of_nodup_map (hmap ▸ hcopy) hfirst hsecond heq
  · refine eq_of_anonymous_eq (h.trans (anonymous_renamed rename project).symm) ?_
    rw [identities_renamed, hmap]

/-- A clone differs from its original by a renaming. -/
theorem clone_eq_renamed (hids : project.identities.Nodup) (supply : Supply) :
    ∃ rename : Identity → Identity, Set.InjOn rename {id | id ∈ project.identities} ∧
      (project.clone supply).1 = project.renamed rename := by
  obtain ⟨copy, after, new, hrun, hissued, hperm, hsame⟩ := project.clone_makes supply
  have hcopy : copy.identities.Nodup := hperm.nodup_iff.2 hissued.nodup
  rw [hrun]
  exact exists_renamed hsame hids hcopy

end Project

end ProjectCompiler
