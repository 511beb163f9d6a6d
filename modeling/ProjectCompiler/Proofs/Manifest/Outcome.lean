import ProjectCompiler.Proofs.Manifest.Entries
import ProjectCompiler.Proofs.Project.Layers

/-!
# Outcome — what lowering makes of an entry, or why it fails

Lowering does not rely on validation. Entries may repeat names, name hosts that are not there or that have
hosts themselves, and say too little about where they run. Whatever a manifest says, each entry either
becomes a target with all that the entry and its host's entry say, or it is blamed for an error.

- `Manifest.Describes`: an entry and a target that holds what the entry asks for;
- `Manifest.Blames`: an entry and the error that it causes;
- `Manifest.addEntry_ends`: one or the other comes of every entry;
- `Manifest.toProject_ends`: what comes of all entries.
-/

namespace ProjectCompiler

open Stateful

/-! ## Computations that end in one of two ways -/

namespace Building

variable {α β : Type}

/-- The computation fails for one of certain reasons or makes what it is asked for. -/
def Ends (x : Building α) (refusal : ModelError → Prop) (Q : α → Prop) : Prop :=
  ∀ before, (∃ error after, x before = (.error error, after) ∧ refusal error) ∨
    ∃ a after, x before = (.ok a, after) ∧ Q a

namespace Ends

variable {x : Building α} {refusal : ModelError → Prop} {P : α → Prop} {Q : β → Prop}

theorem of_ok (hx : Ends x refusal P) {before after : Supply} {a : α}
    (h : x before = (.ok a, after)) : P a := by
  rcases hx before with ⟨error, _, hrun, -⟩ | ⟨made, _, hrun, hmade⟩
  · rw [hrun] at h
    cases h
  · rw [hrun] at h
    cases h
    exact hmade

theorem throw {error : ModelError} (h : refusal error) :
    Ends (MonadExcept.throw error : Building α) refusal P :=
  fun before => .inl ⟨error, before, rfl, h⟩

theorem lift {x : Fresh α} (h : ∀ before, P (x before).1) : Ends (liftM x) refusal P :=
  fun before => .inr ⟨(x before).1, (x before).2, rfl, h before⟩

theorem weaken {other : ModelError → Prop} {Q : α → Prop} (hx : Ends x refusal P)
    (herror : ∀ error, refusal error → other error) (h : ∀ a, P a → Q a) : Ends x other Q := by
  intro before
  rcases hx before with ⟨error, after, hrun, hrefused⟩ | ⟨a, after, hrun, ha⟩
  · exact .inl ⟨error, after, hrun, herror error hrefused⟩
  · exact .inr ⟨a, after, hrun, h a ha⟩

theorem bind {f : α → Building β} (hx : Ends x refusal P)
    (hf : ∀ a, P a → Ends (f a) refusal Q) : Ends (x >>= f) refusal Q := by
  intro before
  rcases hx before with ⟨error, after, hrun, herror⟩ | ⟨a, middle, hrun, ha⟩
  · exact .inl ⟨error, after, bind_of_error hrun f, herror⟩
  · rw [bind_of_ok hrun f]
    exact hf a ha middle

/-- A loop fails at the first item that fails. All items before it have been done. -/
theorem foldlM {items : List β} {f : α → β → Building α} {I : List β → α → Prop} {a : α}
    {refusal : List β → β → ModelError → Prop}
    (hf : ∀ done item rest, items = done ++ item :: rest → ∀ a, I done a →
      Ends (f a item) (refusal done item) (I (done ++ [item]))) (ha : I [] a) :
    Ends (items.foldlM f a) (fun error => ∃ done item rest, items = done ++ item :: rest ∧
      (∃ a, I done a) ∧ refusal done item error) (I items) := by
  induction items using List.reverseRecOn with
  | nil => exact fun before => .inr ⟨a, before, rfl, ha⟩
  | append_singleton items item ih =>
    rw [List.foldlM_append]
    intro before
    have hbefore := ih fun done other rest hitems => hf done other (rest ++ [item]) (by simp [hitems])
    rcases hbefore before with
      ⟨error, after, hrun, done, other, rest, rfl, hdone, herror⟩ | ⟨middle, after, hrun, hmiddle⟩
    · refine .inl ⟨error, after, bind_of_error hrun _, done, other, rest ++ [item], ?_, hdone, herror⟩
      simp
    · have hlast := hf items item [] rfl middle hmiddle after
      rw [bind_of_ok hrun, List.foldlM_cons]
      rcases hlast with ⟨error, later, hrun', herror⟩ | ⟨b, later, hrun', hb⟩
      · exact .inl ⟨error, later, bind_of_error hrun' _, items, item, [], rfl, ⟨middle, hmiddle⟩,
          herror⟩
      · exact .inr ⟨b, later, bind_of_ok hrun' _, hb⟩

end Ends

end Building

/-! ## Schemes of an entry -/

/-- The configuration that an action uses if nothing is said about it. -/
def SchemeAction.usual : SchemeAction → String
  | .profile | .archive => "Release"
  | .test | .launch | .analyze => "Debug"

namespace SchemeEntry

/-- Each action has the configuration given for it alone, or the one for all actions, or the usual one. -/
structure Describes (entry : SchemeEntry) (scheme : Scheme) : Prop where
  name : scheme.name = entry.name
  configurations : ∀ action, scheme.configurationFor action =
    ((Entries.find? (Entries.ofPairs entry.overrides) action).or entry.configuration).getD
      action.usual

theorem configurationFor_foldl (overrides : List (SchemeAction × String)) (scheme : Scheme)
    (action : SchemeAction) :
    (overrides.foldl (fun scheme override => scheme.setConfiguration override.1 override.2)
      scheme).configurationFor action =
        (Entries.find? (Entries.ofPairs overrides) action).getD (scheme.configurationFor action) := by
  induction overrides using List.reverseRecOn with
  | nil => rfl
  | append_singleton overrides override ih =>
    rw [List.foldl_append, List.foldl_cons, List.foldl_nil, Scheme.configurationFor_setConfiguration,
      Entries.ofPairs_append_singleton]
    by_cases haction : action = override.1
    · rw [if_pos haction, haction, Entries.find?_insert_self, Option.getD_some]
    · rw [if_neg haction, Entries.find?_insert_ne _ _ haction, ih]

theorem configurationFor_applyTo (entry : SchemeEntry) (scheme : Scheme) (action : SchemeAction) :
    (entry.applyTo scheme).configurationFor action =
      ((Entries.find? (Entries.ofPairs entry.overrides) action).or entry.configuration).getD
        (scheme.configurationFor action) := by
  rw [applyTo, configurationFor_foldl]
  cases Entries.find? (Entries.ofPairs entry.overrides) action with
  | some name => rfl
  | none =>
    cases entry.configuration with
    | none => rfl
    | some name => cases action <;> rfl

theorem name_setConfiguration (scheme : Scheme) (action : SchemeAction) (name : String) :
    (scheme.setConfiguration action name).name = scheme.name := by
  cases action <;> rfl

theorem describes_applyTo (entry : SchemeEntry) (supply : Supply) :
    entry.Describes (entry.applyTo (Scheme.new entry.name supply).1) where
  name := applyTo_keeps name_setConfiguration entry _
  configurations action := by
    rw [configurationFor_applyTo]
    cases action <;> rfl

end SchemeEntry

/-! ## What entries ask for -/

namespace TargetEntry

/-- The first field that a target must have and the entry lacks. -/
def missing? (entry : TargetEntry) : Option String :=
  if entry.platform = none then some "platform"
  else if entry.deploymentTarget = none then some "deployment_target"
  else none

/-- The target has what its entry says and nothing else. -/
structure Stands (entry : TargetEntry) (target : Target) : Prop where
  platform : some target.platform = entry.platform
  deploymentTarget : some target.deploymentTarget = entry.deploymentTarget
  language : target.language = entry.language.getD .objc
  includeFiles : target.includeFiles = entry.includeFiles
  excludeFiles : target.excludeFiles = entry.excludeFiles
  settings : target.settings = entry.settings

/-- The target has what its entry says, and what the host's entry says where its own says nothing. An empty
list of files says nothing. -/
structure Leans (entry host : TargetEntry) (target : Target) : Prop where
  platform : some target.platform = entry.platform.or host.platform
  deploymentTarget : some target.deploymentTarget = entry.deploymentTarget.or host.deploymentTarget
  language : target.language = (entry.language.or host.language).getD .objc
  includeFiles : target.includeFiles =
    if entry.includeFiles = [] then host.includeFiles else entry.includeFiles
  excludeFiles : target.excludeFiles =
    if entry.excludeFiles = [] then host.excludeFiles else entry.excludeFiles
  settings : target.settings = Settings.merged
    ⟨[("TEST_HOST", .str s!"$(BUILT_PRODUCTS_DIR)/{host.name}.app/{host.name}"),
      ("BUNDLE_LOADER", .str "$(TEST_HOST)")]⟩ entry.settings

end TargetEntry

namespace Manifest

/-- The entry that must say where a target runs: that of the host, if there is one. -/
def source? (manifest : Manifest) (entry : TargetEntry) : Option TargetEntry :=
  match entry.host with
  | none => some entry
  | some host => manifest.target? host

/-- Why lowering fails at an entry that comes behind others. A host that is not there comes before a field
that is missing, and this before a name that is taken. -/
inductive Blames (manifest : Manifest) (earlier : List TargetEntry) (entry : TargetEntry) :
    ModelError → Prop
  | unknownTarget {host : String} (hhost : entry.host = some host)
      (hnone : host ∉ manifest.targets.map TargetEntry.name) :
      Blames manifest earlier entry (.unknownTarget host)
  | missingField {source : TargetEntry} {field : String}
      (hsource : manifest.source? entry = some source) (hfield : source.missing? = some field) :
      Blames manifest earlier entry (.missingField source.name field)
  | duplicateTarget {source : TargetEntry} (hsource : manifest.source? entry = some source)
      (hcomplete : source.missing? = none)
      (htaken : entry.name ∈ earlier.map TargetEntry.name) :
      Blames manifest earlier entry (.duplicateTarget entry.name)

/-- Nothing is wrong with an entry that comes behind others. -/
structure Admits (manifest : Manifest) (earlier : List TargetEntry) (entry : TargetEntry) : Prop where
  source : ∃ source, manifest.source? entry = some source ∧ source.missing? = none
  new : entry.name ∉ earlier.map TargetEntry.name

/-- A target before overrides and schemes are laid over it. -/
structure Outlines (manifest : Manifest) (entry : TargetEntry) (target : Target) : Prop where
  name : target.name = entry.name
  type : target.type = entry.type
  host : target.host = entry.host
  standalone : entry.host = none → entry.Stands target
  hosted : ∀ name, entry.host = some name →
    ∃ host, manifest.target? name = some host ∧ entry.Leans host target

/-- A target with all that its entry asks for. Of the given configurations it overrides each, with the
settings of the entry or without any; further overrides follow. -/
structure Describes (manifest : Manifest) (declared : List String) (entry : TargetEntry)
    (target : Target) : Prop extends manifest.Outlines entry target where
  overrides : target.configurations.map BuildConfiguration.layer =
    Entries.ofPairs (declared.map (fun name => (name, Settings.empty)) ++ entry.configurations)
  schemes : List.Forall₂ SchemeEntry.Describes entry.schemes target.schemes

/-- A project with the targets of some entries, in their order. -/
structure Faithful (manifest : Manifest) (entries : List TargetEntry) (project : Project) : Prop where
  name : project.name = manifest.projectName
  settings : project.settings = manifest.settings
  configurations : project.configurations.map BuildConfiguration.layer =
    if manifest.configurations = [] then [("Debug", Settings.empty), ("Release", Settings.empty)]
    else Entries.ofPairs manifest.configurations
  default : match manifest.defaultConfiguration with
    | some name => project.defaultConfiguration = name
    | none =>
        if "Release" ∈ project.declared then project.defaultConfiguration = "Release"
        else project.declared.getLast? = some project.defaultConfiguration
  targets : List.Forall₂ (manifest.Describes project.declared) entries project.targets

end Manifest

/-! ## Single entries -/

namespace TargetEntry

variable {entry : TargetEntry} {target host : Target}

/-- An entry stands for itself unless a field is missing. -/
theorem standalone_ends (entry : TargetEntry) :
    Building.Ends entry.standalone
      (fun error => ∃ field, entry.missing? = some field ∧ error = .missingField entry.name field)
      fun target => entry.missing? = none ∧ entry.Starts target ∧ entry.Stands target ∧
        target.schemes = [] := by
  unfold standalone missing?
  rcases hplatform : entry.platform with _ | platform
  · exact .throw ⟨"platform", rfl, rfl⟩
  · rcases hdeployment : entry.deploymentTarget with _ | deploymentTarget
    · exact .throw ⟨"deployment_target", rfl, rfl⟩
    · intro before
      refine .inr ⟨_, _, rfl, rfl, ⟨rfl, rfl, rfl, rfl⟩, ?_, rfl⟩
      exact ⟨hplatform.symm, hdeployment.symm, rfl, rfl, rfl, rfl⟩

theorem filesOr_eq (own inherited : List String) :
    filesOr own inherited = if own = [] then inherited else own := by
  cases own <;> rfl

theorem hosted_leans {hostEntry : TargetEntry} (hname : host.name = hostEntry.name)
    (hstands : hostEntry.Stands host) (supply : Supply) :
    entry.Leans hostEntry (entry.hosted host supply).1 where
  platform := by
    show some (entry.platform.getD host.platform) = _
    rw [← hstands.platform]
    cases entry.platform <;> rfl
  deploymentTarget := by
    show some (entry.deploymentTarget.getD host.deploymentTarget) = _
    rw [← hstands.deploymentTarget]
    cases entry.deploymentTarget <;> rfl
  language := by
    show entry.language.getD host.language = _
    rw [hstands.language]
    cases entry.language <;> rfl
  includeFiles := by
    show filesOr entry.includeFiles host.includeFiles = _
    rw [filesOr_eq, hstands.includeFiles]
  excludeFiles := by
    show filesOr entry.excludeFiles host.excludeFiles = _
    rw [filesOr_eq, hstands.excludeFiles]
  settings := by
    rw [← hname]
    rfl

/-- Overrides and schemes are laid over a target that has no schemes yet. -/
theorem complete_fst (entry : TargetEntry) (hnone : target.schemes = []) (supply : Supply) :
    ∃ configurations schemes,
      (entry.complete target supply).1 = { target with configurations, schemes } ∧
      configurations.map BuildConfiguration.layer =
        entry.configurations.foldl (fun entries layer => Entries.insert entries layer.1 layer.2)
          (target.configurations.map BuildConfiguration.layer) ∧
      List.Forall₂ SchemeEntry.Describes entry.schemes schemes := by
  obtain ⟨configurations, hedited, hlayers⟩ :=
    Target.foldlM_editConfiguration target entry.configurations supply
  have hloop := Fresh.foldlM_holds (I := fun (done : List SchemeEntry) (after : Target) =>
      ∃ schemes, after = { target with configurations, schemes } ∧
        List.Forall₂ SchemeEntry.Describes done schemes)
    (f := fun target scheme => target.addScheme scheme.name scheme.applyTo) ?_
    ⟨[], hedited.trans (by rw [← hnone]), List.Forall₂.nil⟩ entry.schemes
  · obtain ⟨schemes, hafter, hschemes⟩ := hloop _
    exact ⟨configurations, schemes, hafter, hlayers, hschemes⟩
  · rintro done scheme _ supply ⟨schemes, rfl, hschemes⟩
    refine ⟨_, rfl, List.rel_append hschemes ?_⟩
    exact List.Forall₂.cons (scheme.describes_applyTo supply) List.Forall₂.nil

end TargetEntry

namespace Manifest

variable {manifest : Manifest} {entry : TargetEntry} {target : Target} {project : Project}
  {earlier : List TargetEntry}

theorem lowerTarget_ends (manifest : Manifest) (earlier : List TargetEntry) (entry : TargetEntry) :
    Building.Ends (manifest.lowerTarget entry) (manifest.Blames earlier entry) fun target =>
      manifest.Outlines entry target ∧ target.configurations = [] ∧ target.schemes = [] ∧
        ∃ source, manifest.source? entry = some source ∧ source.missing? = none := by
  have hblames : ∀ source, manifest.source? entry = some source → ∀ error,
      (∃ field, source.missing? = some field ∧ error = .missingField source.name field) →
        manifest.Blames earlier entry error := by
    rintro source hsource _ ⟨field, hfield, rfl⟩
    exact .missingField hsource hfield
  unfold lowerTarget
  rcases hhost : entry.host with _ | name
  · have hsource : manifest.source? entry = some entry := by rw [source?, hhost]
    refine entry.standalone_ends.weaken (hblames entry hsource) ?_
    rintro target ⟨hcomplete, hstarts, hstands, hschemes⟩
    refine ⟨⟨hstarts.name, hstarts.type, hstarts.host, fun _ => hstands, ?_⟩,
      hstarts.configurations, hschemes, entry, hsource, hcomplete⟩
    intro name hname
    rw [hhost] at hname
    cases hname
  · dsimp only
    rcases hfound : manifest.target? name with _ | hostEntry
    · exact .throw (.unknownTarget hhost (target?_eq_none_iff.1 hfound))
    · have hsource : manifest.source? entry = some hostEntry := by simp only [source?, hhost, hfound]
      obtain ⟨-, rfl⟩ := mem_of_target? hfound
      refine .bind (hostEntry.standalone_ends.weaken (hblames hostEntry hsource) fun _ h => h) ?_
      rintro host ⟨hcomplete, hstarts, hstands, -⟩
      refine .lift fun supply => ⟨⟨rfl, rfl, ?_, ?_, ?_⟩, rfl, rfl, hostEntry, hsource, hcomplete⟩
      · rw [hhost, ← hstarts.name]
        rfl
      · intro hnone
        rw [hhost] at hnone
        cases hnone
      · intro name hname
        obtain rfl := Option.some.inj (hhost.symm.trans hname)
        exact ⟨hostEntry, hfound, TargetEntry.hosted_leans hstarts.name hstands supply⟩

theorem Outlines.complete (h : manifest.Outlines entry target)
    (configurations : List BuildConfiguration) (schemes : List Scheme) :
    manifest.Outlines entry { target with configurations, schemes } where
  name := h.name
  type := h.type
  host := h.host
  standalone hnone := { h.standalone hnone with }
  hosted name hname :=
    have ⟨host, hfound, hleans⟩ := h.hosted name hname
    ⟨host, hfound, { hleans with }⟩

theorem describes_place (h : manifest.Outlines entry target) (hconfigurations : target.configurations = [])
    (hschemes : target.schemes = []) (declared : List String) (supply : Supply) :
    manifest.Describes declared entry (entry.place declared target supply).1 := by
  obtain ⟨bare, hensured, hbare⟩ := Target.foldlM_ensureConfiguration hconfigurations declared supply
  have hplace : (entry.place declared target supply).1 =
      (entry.complete { target with configurations := bare }
        (declared.foldlM Target.ensureConfiguration target supply).2).1 := by
    rw [← hensured]
    rfl
  have hnone : Target.schemes { target with configurations := bare } = [] := hschemes
  obtain ⟨configurations, schemes, hcomplete, hlayers, hdescribed⟩ :=
    entry.complete_fst hnone (declared.foldlM Target.ensureConfiguration target supply).2
  rw [hplace, hcomplete]
  refine ⟨h.complete configurations schemes, ?_, hdescribed⟩
  rw [hlayers, hbare, Entries.ofPairs_append]

theorem addEntry_ends (hnames : project.targets.map Target.name = earlier.map TargetEntry.name)
    (hdeclared : project.declared = manifest.configurationNames.eraseDups) :
    Building.Ends (manifest.addEntry project entry) (manifest.Blames earlier entry) fun after =>
      manifest.Admits earlier entry ∧ ∃ target,
        after = { project with targets := project.targets ++ [target] } ∧
          manifest.Describes project.declared entry target := by
  intro before
  rcases manifest.lowerTarget_ends earlier entry before with
    ⟨error, after, hlower, herror⟩ |
    ⟨target, after, hlower, houtlines, hconfigurations, hschemes, source, hsource, hcomplete⟩
  · exact .inl ⟨error, after, bind_of_error hlower _, herror⟩
  · by_cases htaken : entry.name ∈ earlier.map TargetEntry.name
    · have hold : target.name ∈ project.targets.map Target.name := by
        rw [houtlines.name, hnames]
        exact htaken
      have hrefused := Project.addTarget_refused hold after
      refine .inl ⟨_, after, (bind_of_ok hlower _).trans (bind_of_error hrefused _), ?_⟩
      rw [houtlines.name]
      exact .duplicateTarget hsource hcomplete htaken
    · have hnew : entry.name ∉ project.targets.map Target.name := by rwa [hnames]
      obtain ⟨placed, later, hplaced, hadded⟩ :=
        addEntry_of_new hnew hdeclared hlower houtlines.name
      refine .inr ⟨_, later, hadded, ⟨⟨source, hsource, hcomplete⟩, htaken⟩, placed, rfl, ?_⟩
      rw [lowerEntry, bind_of_ok hlower, Building.lift_apply] at hplaced
      obtain rfl := Except.ok.inj (congrArg Prod.fst hplaced)
      rw [hdeclared]
      exact describes_place houtlines hconfigurations hschemes _ after

/-! ## The whole manifest -/

theorem layers_lowerConfigurations (manifest : Manifest) (supply : Supply) :
    (manifest.lowerConfigurations supply).1.configurations.map BuildConfiguration.layer =
      if manifest.configurations = [] then [("Debug", Settings.empty), ("Release", Settings.empty)]
      else Entries.ofPairs manifest.configurations := by
  let bare := (Project.withConfigurations manifest.projectName manifest.configurationNames supply).1
  let start := { bare with
    defaultConfiguration := manifest.defaultConfiguration.getD bare.defaultConfiguration
    settings := manifest.settings }
  have hbare : start.configurations.map BuildConfiguration.layer =
      Entries.ofPairs (manifest.configurationNames.map fun name => (name, Settings.empty)) :=
    Project.layers_withConfigurations _ _ supply
  have hdeclared : ∀ layer ∈ manifest.configurations, layer.1 ∈ start.declared := by
    intro layer hlayer
    have hnames : start.declared = manifest.configurationNames.eraseDups := by
      rw [Project.declared, ← BuildConfiguration.keys_layers, hbare, Entries.keys_ofPairs]
      simp [Entries.keys, Function.comp_def]
    rw [hnames, List.mem_eraseDups, configurationNames, if_neg (by simpa using List.ne_nil_of_mem hlayer)]
    exact List.mem_map_of_mem hlayer
  calc
    (manifest.lowerConfigurations supply).1.configurations.map BuildConfiguration.layer
      = manifest.configurations.foldl
          (fun entries layer => Entries.insert entries layer.1 layer.2)
          (start.configurations.map BuildConfiguration.layer) :=
        Project.layers_foldl_editConfiguration hdeclared
    _ = Entries.ofPairs (manifest.configurationNames.map (fun name => (name, Settings.empty)) ++
          manifest.configurations) := by
        rw [hbare, Entries.ofPairs_append]
    _ = _ := by
        unfold configurationNames
        cases manifest.configurations with
        | nil => rfl
        | cons first rest => exact Entries.ofPairs_keys_append _ _

/-- The default is the given one, or else `Release`, or else the last one. -/
theorem Chooses.given_or_chosen (h : manifest.Chooses project) :
    match manifest.defaultConfiguration with
    | some name => project.defaultConfiguration = name
    | none =>
        if "Release" ∈ project.declared then project.defaultConfiguration = "Release"
        else project.declared.getLast? = some project.defaultConfiguration := by
  have hdefault := h.default
  cases hgiven : manifest.defaultConfiguration with
  | some name =>
    rw [hgiven] at hdefault
    exact hdefault
  | none =>
    rw [hgiven, Option.getD_none, Project.chooseDefault_eq] at hdefault
    dsimp only
    split
    · rename_i hrelease
      rw [hdefault, if_pos hrelease]
    · rename_i hrelease
      have hsome : project.declared ≠ [] := by
        obtain ⟨name, hname⟩ := List.exists_mem_of_ne_nil _ manifest.configurationNames_ne_nil
        rw [h.declared]
        exact List.ne_nil_of_mem (List.mem_eraseDups.2 hname)
      rw [hdefault, if_neg hrelease, List.getLast?_eq_some_getLast hsome, Option.getD_some]

/-- The configurations of the manifest with their settings, and no target so far. -/
theorem lowerConfigurations_faithful (manifest : Manifest) (supply : Supply) :
    manifest.Faithful [] (manifest.lowerConfigurations supply).1 ∧
      manifest.Chooses (manifest.lowerConfigurations supply).1 := by
  obtain ⟨project, after, -, hrun, -, -, hchooses, hnone⟩ :=
    manifest.lowerConfigurations_chooses supply
  obtain ⟨bare, middle, -, hbare, -, -, hsame, -⟩ :=
    Project.withConfigurations_makes manifest.projectName manifest.configurationNames supply
  have hproject : (manifest.lowerConfigurations supply).1 = project := by rw [hrun]
  have hedited : ∃ configurations, project = { bare with
      defaultConfiguration := manifest.defaultConfiguration.getD bare.defaultConfiguration
      settings := manifest.settings
      configurations } := by
    obtain ⟨configurations, hfold, -⟩ := foldl_editConfiguration manifest.configurations { bare with
      defaultConfiguration := manifest.defaultConfiguration.getD bare.defaultConfiguration
      settings := manifest.settings }
    refine ⟨configurations, ?_⟩
    rw [← hproject, ← hfold]
    have hmade : (Project.withConfigurations manifest.projectName manifest.configurationNames
      supply).1 = bare := by rw [hbare]
    rw [← hmade]
    rfl
  obtain ⟨configurations, hedited⟩ := hedited
  have hlayers := manifest.layers_lowerConfigurations supply
  rw [hproject] at hlayers ⊢
  refine ⟨⟨?_, ?_, hlayers, hchooses.given_or_chosen, ?_⟩, hchooses⟩
  · rw [hedited, hsame]
  · rw [hedited]
  · rw [hnone]
    exact List.Forall₂.nil

/-- Whatever a manifest says, it becomes a project that is faithful to it, or its first entry that is not
admitted is blamed. -/
theorem toProject_ends (manifest : Manifest) :
    Building.Ends manifest.toProject
      (fun error => ∃ earlier entry later, manifest.targets = earlier ++ entry :: later ∧
        (∀ before other after, earlier = before ++ other :: after → manifest.Admits before other) ∧
        manifest.Blames earlier entry error)
      fun project => manifest.Faithful manifest.targets project ∧ manifest.Chooses project ∧
        ∀ before other after, manifest.targets = before ++ other :: after →
          manifest.Admits before other := by
  -- What holds after some entries: they were all admitted, and there are their targets.
  let I (done : List TargetEntry) (project : Project) : Prop :=
    manifest.Faithful done project ∧ manifest.Chooses project ∧
      ∀ before other after, done = before ++ other :: after → manifest.Admits before other
  have hstart : ∀ supply, I [] (manifest.lowerConfigurations supply).1 := by
    intro supply
    obtain ⟨hfaithful, hchooses⟩ := manifest.lowerConfigurations_faithful supply
    exact ⟨hfaithful, hchooses, by simp⟩
  have hstep : ∀ done entry rest, manifest.targets = done ++ entry :: rest → ∀ project,
      I done project → Building.Ends (manifest.addEntry project entry) (manifest.Blames done entry)
        (I (done ++ [entry])) := by
    rintro done entry rest - project ⟨hfaithful, hchooses, hadmitted⟩
    have hnames : project.targets.map Target.name = done.map TargetEntry.name :=
      map_eq_map_of_forall₂ hfaithful.targets fun _ _ h => h.name
    refine (addEntry_ends hnames hchooses.declared).weaken (fun _ herror => herror) ?_
    rintro _ ⟨hadmits, target, rfl, hdescribes⟩
    refine ⟨{ hfaithful with targets := ?_ }, ⟨hchooses.declared, hchooses.default⟩, ?_⟩
    · exact List.rel_append hfaithful.targets (List.Forall₂.cons hdescribes List.Forall₂.nil)
    · intro before other after hsplit
      rcases List.eq_nil_or_concat after with rfl | ⟨between, last, rfl⟩
      · obtain ⟨rfl, hlast⟩ := List.append_inj' hsplit rfl
        obtain rfl := List.singleton_inj.1 hlast
        exact hadmits
      · have hmoved : done ++ [entry] = (before ++ other :: between) ++ [last] := by simp [hsplit]
        exact hadmitted before other between (List.append_inj' hmoved rfl).1
  refine .bind (.lift (P := I []) hstart) fun project hproject => ?_
  refine (Building.Ends.foldlM hstep hproject).weaken ?_ fun _ hdone => hdone
  rintro error ⟨done, entry, rest, hsplit, ⟨middle, -, -, hadmitted⟩, hblames⟩
  exact ⟨done, entry, rest, hsplit, hadmitted, hblames⟩

/-- A project that a manifest is lowered to has what the manifest says, whether or not the manifest is
valid: its name, its configurations and their settings, its default, and a target for each entry, with the
overrides and schemes of the entry. -/
theorem lowering_faithful {manifest : Manifest} {project : Project} {supply after : Supply}
    (h : manifest.toProject supply = (.ok project, after)) :
    manifest.Faithful manifest.targets project := by
  obtain ⟨hfaithful, -⟩ := manifest.toProject_ends.of_ok h
  exact hfaithful

/-- A bundle with some keys of its own comes before its host. It overrides a configuration that is not
declared, so the manifest is not valid. -/
theorem invalid_manifest_lowered :
    let flag := Settings.empty.insert "FLAG" (.bool true)
    let tests := { TargetEntry.empty with
      name := "AppTests"
      type := .unitTestBundle
      host := some "App"
      deploymentTarget := some "16.0"
      excludeFiles := ["Old/**"]
      configurations := [("Staging", flag), ("Debug", flag)]
      schemes := [SchemeEntry.mk "Tests" (some "Debug") [(.archive, "Staging")]] }
    let app := { TargetEntry.empty with
      name := "App"
      platform := some .ios
      deploymentTarget := some "17.0"
      language := some .swift
      includeFiles := ["App/**"] }
    let manifest := { Manifest.empty with projectName := "Demo", targets := [tests, app] }
    manifest.validate ≠ .ok () ∧
      ∃ project after, manifest.toProject ⟨1⟩ = (.ok project, after) ∧
        project.defaultConfiguration = "Release" ∧ ∃ target rest, project.targets = target :: rest ∧
          target.platform = .ios ∧ target.deploymentTarget = "16.0" ∧ target.language = .swift ∧
          target.includeFiles = ["App/**"] ∧ target.excludeFiles = ["Old/**"] ∧
          target.configurations.map BuildConfiguration.layer =
            [("Debug", flag), ("Release", Settings.empty), ("Staging", flag)] := by
  intro flag tests app manifest
  refine ⟨by decide +kernel, ?_⟩
  have hok : (manifest.toProject ⟨1⟩).1.isOk = true := by decide +kernel
  rcases hrun : manifest.toProject ⟨1⟩ with ⟨error | project, after⟩
  · rw [hrun] at hok
    cases hok
  · have hfaithful := lowering_faithful hrun
    have hdeclared : project.declared = ["Debug", "Release"] := by
      rw [Project.declared, ← BuildConfiguration.keys_layers, hfaithful.configurations]
      rfl
    refine ⟨project, after, rfl, ?_, ?_⟩
    · have hdefault := hfaithful.default
      rw [hdeclared] at hdefault
      exact hdefault
    · obtain ⟨target, rest, hdescribes, -, htargets⟩ :=
        List.forall₂_cons_left_iff.1 hfaithful.targets
      obtain ⟨host, hfound, hleans⟩ := hdescribes.hosted "App" rfl
      obtain rfl : app = host := Option.some.inj hfound
      refine ⟨target, rest, htargets, Option.some.inj hleans.platform,
        Option.some.inj hleans.deploymentTarget, hleans.language, hleans.includeFiles,
        hleans.excludeFiles, ?_⟩
      rw [hdescribes.overrides, hdeclared]
      decide +kernel

end Manifest

end ProjectCompiler
