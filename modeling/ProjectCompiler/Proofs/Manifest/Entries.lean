import ProjectCompiler.Proofs.Manifest.Lowering
import ProjectCompiler.Proofs.Project.Contents

/-!
# Entries — one target for each entry

Lowering adds the targets of a manifest to a project one by one. But what stands in the project so far
is not looked at while a target is made: a host is looked up among the entries. So the target of an entry
has contents of its own, whatever stands before or after it.

- `Manifest.lowerEntry`: the target of an entry, by itself;
- `Manifest.addEntry_of_new`: in a project it comes last, and nothing else changes;
- `Manifest.lowerEntry_alike`: its contents are the same whenever it is made;
- `Manifest.toProject_entries`: the targets of a valid manifest are those of its entries.
-/

namespace ProjectCompiler

open Stateful
open scoped List

/-! ## Targets that come last -/

namespace Project

variable {project : Project} {target : Target} {name : String}

/-- A target of a new name comes last, with the overrides that it lacks. -/
theorem addTarget_of_new (h : target.name ∉ project.targets.map Target.name) (supply : Supply) :
    project.addTarget target supply =
      let placed := project.declared.foldlM Target.ensureConfiguration target supply
      (.ok { project with targets := project.targets ++ [placed.1] }, placed.2) := by
  have hnew : (project.target? target.name).isSome = false := by
    rw [Bool.eq_false_iff, ne_eq, target?_isSome]
    rintro ⟨other, hother, hsame⟩
    exact h (List.mem_map.2 ⟨other, hother, hsame⟩)
  unfold addTarget
  simp only [hnew, Bool.false_eq_true, if_false]
  rw [Building.foldlM_lift fun (target : Target) (configuration : BuildConfiguration) =>
    target.ensureConfiguration configuration.name, bind_of_ok (Building.lift_apply _ supply)]
  rw [declared, List.foldlM_map]
  rfl

/-- The edit of a name passes by all targets of other names. -/
theorem editTarget_of_last {before : List Target} (h : name ∉ before.map Target.name)
    (hname : target.name = name) (change : Target → Fresh Target) (supply : Supply) :
    editTarget { project with targets := before ++ [target] } name change supply =
      ({ project with targets := before ++ [(change target supply).1] },
        (change target supply).2) := by
  have hedit : editTarget.edit name change (before ++ [target]) supply =
      (before ++ [(change target supply).1], (change target supply).2) := by
    induction before with
    | nil =>
      rw [List.nil_append, editTarget.edit, if_pos hname]
      rfl
    | cons first rest ih =>
      have hfirst : first.name ≠ name := by
        rintro rfl
        exact h (by simp)
      have hrest : name ∉ rest.map Target.name := by
        intro hmem
        exact h (by simp [hmem])
      rw [List.cons_append, editTarget.edit, if_neg hfirst]
      show ((first :: (editTarget.edit name change (rest ++ [target]) supply).1),
        (editTarget.edit name change (rest ++ [target]) supply).2) = _
      rw [ih hrest]
      rfl
  show ({ project with targets :=
      (editTarget.edit name change (before ++ [target]) supply).1 },
    (editTarget.edit name change (before ++ [target]) supply).2) = _
  rw [hedit]

end Project

/-! ## Single entries -/

namespace SchemeEntry

theorem anonymous_setConfiguration (scheme : Scheme) (action : SchemeAction) (name : String) :
    (scheme.setConfiguration action name).anonymous =
      scheme.anonymous.setConfiguration action name := by
  cases action <;> rfl

theorem anonymous_applyTo (entry : SchemeEntry) (scheme : Scheme) :
    (entry.applyTo scheme).anonymous = entry.applyTo scheme.anonymous := by
  have hfold : ∀ (overrides : List (SchemeAction × String)) (start : Scheme),
      (overrides.foldl (fun scheme override => scheme.setConfiguration override.1 override.2)
        start).anonymous =
      overrides.foldl (fun scheme override => scheme.setConfiguration override.1 override.2)
        start.anonymous := by
    intro overrides
    induction overrides with
    | nil =>
      intro start
      rfl
    | cons override rest ih =>
      intro start
      rw [List.foldl_cons, List.foldl_cons, ih, anonymous_setConfiguration]
  rw [applyTo, applyTo, hfold]
  cases entry.configuration with
  | none => rfl
  | some name => rfl

end SchemeEntry

namespace TargetEntry

variable {target other : Target}

/-- Give the target of an entry an override of each configuration, and then what the entry says. -/
def place (configurations : List String) (entry : TargetEntry) (target : Target) : Fresh Target := do
  entry.complete (← configurations.foldlM Target.ensureConfiguration target)

theorem standalone_alike (entry : TargetEntry) :
    Building.Alike Target.anonymous entry.standalone entry.standalone := by
  unfold standalone
  rcases entry.platform with _ | platform
  · exact Building.Alike.throw _
  · rcases entry.deploymentTarget with _ | deploymentTarget
    · exact Building.Alike.throw _
    · refine (Building.Alike.lift (Target.new_alike _ _ _ _)).bind fun made made' hmade => ?_
      refine Building.Alike.pure ?_
      exact congrArg (fun made : Target => { made with
        language := entry.language.getD .objc
        includeFiles := entry.includeFiles
        excludeFiles := entry.excludeFiles
        host := entry.host
        settings := entry.settings }) hmade

theorem hosted_alike (entry : TargetEntry) (h : target.anonymous = other.anonymous) :
    (entry.hosted target).Alike Target.anonymous (entry.hosted other) := by
  unfold hosted
  refine (Target.unitTestBundle_alike entry.name h).bind fun made made' hmade => ?_
  refine Fresh.Alike.pure ?_
  exact congrArg (fun made : Target => { made with
    type := entry.type
    platform := entry.platform.getD made.platform
    deploymentTarget := entry.deploymentTarget.getD made.deploymentTarget
    language := entry.language.getD made.language
    includeFiles := filesOr entry.includeFiles made.includeFiles
    excludeFiles := filesOr entry.excludeFiles made.excludeFiles
    settings := Settings.merged made.settings entry.settings }) hmade

theorem complete_alike (entry : TargetEntry) (h : target.anonymous = other.anonymous) :
    (entry.complete target).Alike Target.anonymous (entry.complete other) := by
  unfold complete
  refine Fresh.Alike.bind (Fresh.Alike.foldlM (fun override _ _ =>
    Target.editConfiguration_alike override.1 fun _ => rfl) h) fun made made' hmade => ?_
  exact Fresh.Alike.foldlM (fun scheme _ _ =>
    Target.addScheme_alike scheme.name scheme.anonymous_applyTo) hmade

theorem place_alike (configurations : List String) (entry : TargetEntry)
    (h : target.anonymous = other.anonymous) :
    (entry.place configurations target).Alike Target.anonymous
      (entry.place configurations other) := by
  unfold place
  refine Fresh.Alike.bind (Fresh.Alike.foldlM (fun name _ _ =>
    Target.ensureConfiguration_alike name) h) fun made made' hmade => ?_
  exact entry.complete_alike hmade

end TargetEntry

/-! ## The whole manifest -/

namespace Manifest

variable {manifest : Manifest} {entry : TargetEntry} {project : Project} {target : Target}
  {supply middle after : Supply}

/-- The target of an entry, by itself. -/
def lowerEntry (manifest : Manifest) (entry : TargetEntry) : Building Target := do
  entry.place manifest.configurationNames.eraseDups (← manifest.lowerTarget entry)

theorem lowerTarget_alike (manifest : Manifest) (entry : TargetEntry) :
    Building.Alike Target.anonymous (manifest.lowerTarget entry) (manifest.lowerTarget entry) := by
  unfold lowerTarget
  rcases entry.host with _ | hostName
  · exact entry.standalone_alike
  · dsimp only
    rcases manifest.target? hostName with _ | hostEntry
    · exact Building.Alike.throw _
    · refine hostEntry.standalone_alike.bind fun host host' hhost => ?_
      exact Building.Alike.lift (entry.hosted_alike hhost)

theorem lowerEntry_alike (manifest : Manifest) (entry : TargetEntry) :
    Building.Alike Target.anonymous (manifest.lowerEntry entry) (manifest.lowerEntry entry) := by
  unfold lowerEntry
  refine (manifest.lowerTarget_alike entry).bind fun made made' hmade => ?_
  exact Building.Alike.lift (entry.place_alike _ hmade)

/-- What the target of an entry holds, if there is one. -/
def contents (manifest : Manifest) (entry : TargetEntry) : Target :=
  match (manifest.lowerEntry entry ⟨0⟩).1 with
  | .ok target => target.anonymous
  | .error _ => default

theorem anonymous_of_lowerEntry (h : manifest.lowerEntry entry supply = (.ok target, after)) :
    target.anonymous = manifest.contents entry := by
  have hsame := manifest.lowerEntry_alike entry supply ⟨0⟩
  rw [h] at hsame
  rw [contents]
  rcases hresult : (manifest.lowerEntry entry ⟨0⟩).1 with error | made
  · rw [hresult] at hsame
    cases hsame
  · rw [hresult] at hsame
    exact Except.ok.inj hsame

/-- An entry of a new name adds its target, and nothing else. -/
theorem addEntry_of_new (hnew : entry.name ∉ project.targets.map Target.name)
    (hdeclared : project.declared = manifest.configurationNames.eraseDups)
    (hlower : manifest.lowerTarget entry supply = (.ok target, middle))
    (hname : target.name = entry.name) :
    ∃ placed after, manifest.lowerEntry entry supply = (.ok placed, after) ∧
      manifest.addEntry project entry supply =
        (.ok { project with targets := project.targets ++ [placed] }, after) := by
  have hplaced : ∀ (configurations : List String) (target : Target) (supply : Supply),
      (configurations.foldlM Target.ensureConfiguration target supply).1.name = target.name := by
    intro configurations
    induction configurations with
    | nil => exact fun _ _ => rfl
    | cons name rest ih => exact fun target supply => ih _ _
  let placed := entry.place manifest.configurationNames.eraseDups target middle
  refine ⟨placed.1, placed.2, ?_, ?_⟩
  · rw [lowerEntry, bind_of_ok hlower, Building.lift_apply]
  · rw [addEntry, bind_of_ok hlower, bind_of_ok (Project.addTarget_of_new (hname ▸ hnew) middle),
      Building.lift_apply, Project.editTarget_of_last hnew ((hplaced _ _ _).trans hname), hdeclared]
    rfl

/-- What a project holds before any target. -/
def base (manifest : Manifest) : Project :=
  (manifest.lowerConfigurations ⟨0⟩).1.anonymous

theorem lowerConfigurations_alike (manifest : Manifest) :
    manifest.lowerConfigurations.Alike Project.anonymous manifest.lowerConfigurations := by
  have hfold : ∀ (declared : List (String × Settings)) (start : Project),
      (declared.foldl (fun project declared => project.editConfiguration declared.1
        fun configuration => { configuration with settings := declared.2 }) start).anonymous =
      declared.foldl (fun project declared => project.editConfiguration declared.1
        fun configuration => { configuration with settings := declared.2 }) start.anonymous := by
    intro declared
    induction declared with
    | nil => exact fun _ => rfl
    | cons first rest ih =>
      intro start
      have hfirst : ∀ configuration : BuildConfiguration,
          BuildConfiguration.anonymous { configuration with settings := first.2 } =
            { configuration.anonymous with settings := first.2 } := fun _ => rfl
      rw [List.foldl_cons, List.foldl_cons, ih, Project.anonymous_editConfiguration hfirst]
  unfold lowerConfigurations
  refine (Project.withConfigurations_alike _ _).bind fun made made' hmade => ?_
  refine Fresh.Alike.pure ?_
  rw [hfold, hfold]
  have hstart : Project.anonymous { made with
        defaultConfiguration := manifest.defaultConfiguration.getD made.defaultConfiguration
        settings := manifest.settings } =
      Project.anonymous { made' with
        defaultConfiguration := manifest.defaultConfiguration.getD made'.defaultConfiguration
        settings := manifest.settings } :=
    congrArg (fun made : Project => { made with
      defaultConfiguration := manifest.defaultConfiguration.getD made.defaultConfiguration
      settings := manifest.settings }) hmade
  rw [hstart]

/-- The project after some entries, with what it holds. -/
structure Holds (manifest : Manifest) (done : List TargetEntry) (project : Project) : Prop where
  lowered : manifest.Lowered done project
  anonymous : project.anonymous = { manifest.base with targets := done.map manifest.contents }

theorem lowerConfigurations_holds (h : manifest.Valid) :
    Building.Makes (liftM manifest.lowerConfigurations) [] Project.identities
      (manifest.Holds []) := by
  intro before
  obtain ⟨project, after, new, hrun, hissued, hperm, hlowered⟩ := lowerConfigurations_makes h before
  refine ⟨project, after, new, ?_, hissued, hperm, hlowered, ?_⟩
  · rw [Building.lift_apply, hrun]
  · have hsame : project.anonymous = manifest.base := by
      have halike := manifest.lowerConfigurations_alike before ⟨0⟩
      rwa [hrun] at halike
    have hnone : project.targets = [] := List.forall₂_nil_left_iff.1 hlowered.targets
    have htargets : manifest.base.targets = [] := by
      rw [← hsame, Project.anonymous, hnone, List.map_nil]
    rw [hsame, List.map_nil, ← htargets]

theorem addEntry_holds (h : manifest.Valid) {done rest : List TargetEntry}
    (hsplit : manifest.targets = done ++ entry :: rest) (hproject : manifest.Holds done project) :
    Building.Makes (manifest.addEntry project entry) project.identities Project.identities
      (manifest.Holds (done ++ [entry])) := by
  have hentry : entry ∈ manifest.targets := by simp [hsplit]
  have hnew : entry.name ∉ project.targets.map Target.name :=
    Lowered.new_name h hproject.lowered hsplit
  intro before
  obtain ⟨project', after, new, hrun, hissued, hperm, hlowered⟩ :=
    addEntry_makes h hsplit hproject.lowered before
  refine ⟨project', after, new, hrun, hissued, hperm, hlowered, ?_⟩
  obtain ⟨target, middle, -, hlower, -, -, hstarts⟩ := lowerTarget_makes h hentry before
  obtain ⟨placed, _, hplaced, hadded⟩ :=
    addEntry_of_new hnew hproject.lowered.declared hlower hstarts.name
  rw [hadded] at hrun
  obtain rfl := Except.ok.inj (congrArg Prod.fst hrun)
  calc
    Project.anonymous { project with targets := project.targets ++ [placed] } =
        { project.anonymous with
          targets := project.anonymous.targets ++ [placed.anonymous] } := by
      simp [Project.anonymous]
    _ = { manifest.base with targets := (done ++ [entry]).map manifest.contents } := by
      rw [hproject.anonymous, anonymous_of_lowerEntry hplaced, List.map_append]
      rfl

/-- The project of a valid manifest holds what its entries hold, in their order. -/
theorem toProject_holds (h : manifest.Valid) :
    Building.Makes manifest.toProject [] Project.identities (manifest.Holds manifest.targets) := by
  unfold toProject
  refine Building.Makes.bind (lowerConfigurations_holds h) fun project hproject => ?_
  refine Building.Makes.foldlM (I := manifest.Holds) ?_ hproject
  intro done entry rest hsplit middle hmiddle
  exact addEntry_holds h hsplit hmiddle

end Manifest

end ProjectCompiler
