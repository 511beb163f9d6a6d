import ProjectCompiler.Proofs.Compilation.Standard

/-!
# Success — which projects compile

A run of the standard pipeline calls the backend at every step, and each of these calls can fail. But
the instructions of a run only name objects of the project, and all that the backend can object to is
then a matter of the project itself. What remains are four conditions, and a run succeeds exactly if
they hold.

- `Project.Compilable`: the four conditions;
- `Plan.fits_standard_iff`: no instruction fails exactly if they hold;
- `Pipeline.standard_succeeds_iff`: neither does the run.
-/

namespace ProjectCompiler

variable {ν : Type}

/-- What the standard pipeline asks of a project. -/
structure Project.Compilable (policy : TestTargetPolicy) (project : Project) : Prop where
  /-- Every target has a product type. -/
  represented : ∀ target ∈ project.targets, ∀ tag, target.type ≠ .other tag
  /-- A host is another target of the project. -/
  hosted : ∀ target ∈ project.targets, ∀ host, target.host = some host →
    ∃ other ∈ project.targets, other.name = host ∧ other ≠ target
  /-- Schemes use declared configurations. -/
  declared : ∀ target ∈ project.targets, ∀ scheme ∈ target.schemes, ∀ action,
    ∃ configuration ∈ project.configurations, configuration.name = scheme.configurationFor action
  /-- If the test bundle must be the only one, it is where a scheme needs it. -/
  unambiguous : policy = .unique → ∀ target ∈ project.targets, target.schemes ≠ [] →
    (project.unitTestTargets target).length ≤ 1

/-! ## Single conditions -/

theorem Target.fault?_eq_none {target : Target} :
    (Node.target target).fault? = none ↔ ∀ tag, target.type ≠ .other tag := by
  rw [Node.fault?, NativeObject.ofNode]
  cases htype : target.type with
  | other tag => simp [TargetType.productType?]
  | application | unitTestBundle | framework | staticLibrary => simp [TargetType.productType?]

namespace Generators

variable {policy : TestTargetPolicy} {project : Project} {target : Target}

theorem firstUnknownConfiguration?_eq_none {scheme : Scheme} :
    firstUnknownConfiguration? project scheme = none ↔
      ∀ action, ∃ configuration ∈ project.configurations,
        configuration.name = scheme.configurationFor action := by
  have hdeclared : ∀ name, project.hasConfiguration name = true ↔
      ∃ configuration ∈ project.configurations, configuration.name = name := by
    simp [Project.hasConfiguration]
  -- The search goes through a list, which holds every action there is.
  have hall : ∀ action : SchemeAction, action ∈ SchemeAction.all := by
    intro action
    cases action <;> decide
  rw [firstUnknownConfiguration?, List.find?_eq_none]
  constructor
  · intro h action
    have hmem : (action, scheme.configurationFor action) ∈ scheme.configurations :=
      List.mem_map.2 ⟨action, hall action, rfl⟩
    rw [← hdeclared]
    simpa using h _ hmem
  · intro h pair hpair
    rcases List.mem_map.1 hpair with ⟨action, -, rfl⟩
    have hknown := (hdeclared _).2 (h action)
    simp [hknown]

/-- There is a test bundle to speak of, or rightly none, unless there are too many. -/
theorem exists_unitTestTarget_iff :
    (∃ test, unitTestTarget policy project target = .ok test) ↔
      (policy = .unique → (project.unitTestTargets target).length ≤ 1) := by
  unfold unitTestTarget
  -- Only of two or more bundles does the policy speak.
  rcases project.unitTestTargets target with _ | ⟨first, _ | ⟨second, rest⟩⟩
  · simp
  · simp
  · cases policy with
    | firstMatch => simp
    | unique => simp

end Generators

/-! ## Instructions that fit -/

namespace Plan

variable {policy : TestTargetPolicy} {project : Project} {target : Target}

/-- Instructions none of which fails by itself. -/
def Fits (plan : List Instruction) : Prop :=
  ∀ instruction ∈ plan, instruction.fault? = none

theorem fits_nil : Fits [] := by
  simp [Fits]

theorem fits_cons {instruction : Instruction} {rest : List Instruction} :
    Fits (instruction :: rest) ↔ instruction.fault? = none ∧ Fits rest := by
  simp [Fits]

theorem fits_flatMap {α : Type} {items : List α} {plan : α → List Instruction} :
    Fits (items.flatMap plan) ↔ ∀ item ∈ items, Fits (plan item) := by
  simp only [Fits, List.forall_mem_flatMap]

theorem fault?_translate {node : Node} : (Instruction.translate node).fault? = node.fault? := by
  simp [Instruction.fault?, Instruction.mentions, Instruction.refusal?]

theorem fault?_suppress : (Instruction.suppress target).fault? = (Node.target target).fault? := by
  simp [Instruction.fault?, Instruction.mentions, Instruction.refusal?]

theorem fault?_fail (error : PipelineError) : (Instruction.fail error).fault? = some error :=
  rfl

theorem fault?_attach_eq_none {parent child : Node} :
    (Instruction.attach parent child).fault? = none ↔
      (parent.fault? = none ∧ child.fault? = none) ∧ parent.attachable child = true := by
  simp [Instruction.fault?_eq_none, Instruction.mentions, Instruction.refusal?]

theorem attachable_of_mem_nodes (hids : project.identities.Nodup) {parent child : Node}
    (hparent : parent ∈ project.nodes) (hchild : child ∈ project.nodes) (hne : parent ≠ child) :
    parent.attachable child = parent.nativeKind.holds child.nativeKind := by
  have hid : parent.id ≠ child.id := by
    intro hsame
    exact hne (project.eq_of_id_eq hids hparent hchild hsame)
  simp [Node.attachable, hid]

/-- Attaching one target of the project to another fails only if they are the same. -/
theorem fits_link_iff (hids : project.identities.Nodup)
    (hrepresented : ∀ target ∈ project.targets, (Node.target target).fault? = none)
    (htarget : target ∈ project.targets) {host : Target} (hhost : host ∈ project.targets) :
    Fits [.translate (.target host), .attach (.target target) (.target host)] ↔ host ≠ target := by
  have hattachable : (Node.target target).attachable (.target host) = true ↔ host ≠ target := by
    constructor
    · rintro hattachable rfl
      simp [Node.attachable] at hattachable
    · intro hne
      have hnodes : Node.target target ≠ .target host := by
        intro hsame
        exact hne (Node.target.inj hsame).symm
      rw [attachable_of_mem_nodes hids (project.target_mem_nodes htarget)
        (project.target_mem_nodes hhost) hnodes]
      rfl
  rw [← hattachable]
  simp [fits_cons, fits_nil, fault?_translate, fault?_attach_eq_none, hrepresented target htarget,
    hrepresented host hhost]

theorem fits_linkHost_iff (hnames : (project.targets.map Target.name).Nodup)
    (hids : project.identities.Nodup)
    (hrepresented : ∀ target ∈ project.targets, (Node.target target).fault? = none)
    (htarget : target ∈ project.targets) :
    Fits (linkHost project target) ↔ ∀ host, target.host = some host →
      ∃ other ∈ project.targets, other.name = host ∧ other ≠ target := by
  unfold linkHost
  rcases hhost : target.host with _ | host
  · simp [Fits]
  · dsimp only
    rcases hfound : project.target? host with _ | hostTarget
    · have hnone : ¬ ∃ other ∈ project.targets, other.name = host := by
        rw [← Project.target?_isSome, hfound]
        simp
      simp only [fits_cons, fault?_fail, reduceCtorEq, false_and, false_iff]
      intro h
      rcases h host rfl with ⟨other, hother, hname, -⟩
      exact hnone ⟨other, hother, hname⟩
    · rcases Project.mem_of_target? hfound with ⟨hmem, hname⟩
      rw [fits_link_iff hids hrepresented htarget hmem]
      constructor
      · intro hne other hother
        obtain rfl := Option.some.inj hother
        exact ⟨hostTarget, hmem, hname, hne⟩
      · intro h
        rcases h host rfl with ⟨other, hother, hotherName, hne⟩
        -- The host is the only target of its name.
        obtain rfl : other = hostTarget :=
          List.inj_on_of_nodup_map hnames hother hmem (hotherName.trans hname.symm)
        exact hne

theorem fits_placeConfiguration (hids : project.identities.Nodup) {owner : Node}
    (howner : owner ∈ project.nodes) (hfits : owner.fault? = none)
    (hholds : owner.nativeKind.holds .configuration = true) {configuration : BuildConfiguration}
    (h : .configuration configuration ∈ project.nodes) :
    Fits (placeConfiguration owner configuration) := by
  have hne : owner ≠ .configuration configuration := by
    rintro rfl
    cases hholds
  have hattachable : owner.attachable (.configuration configuration) = true := by
    rw [attachable_of_mem_nodes hids howner h hne]
    exact hholds
  have hnode : (Node.configuration configuration).fault? = none := rfl
  have hsettle : (Instruction.settle configuration).fault? = none := rfl
  simp [placeConfiguration, fits_cons, fits_nil, fault?_translate, fault?_attach_eq_none, hnode,
    hsettle, hfits, hattachable]

theorem fits_addScheme_iff (hfits : (Node.target target).fault? = none) {test : Option Target}
    (htest : ∀ bundle ∈ test, (Node.target bundle).fault? = none) (scheme : Scheme) :
    Fits (addScheme project target test scheme) ↔
      ∀ action, ∃ configuration ∈ project.configurations,
        configuration.name = scheme.configurationFor action := by
  rw [← Generators.firstUnknownConfiguration?_eq_none, addScheme]
  rcases Generators.firstUnknownConfiguration? project scheme with _ | ⟨action, configuration⟩
  · have hnode : (Node.scheme scheme).fault? = none := rfl
    have hlist : (Instruction.list target test scheme).fault? = none := by
      refine Instruction.fault?_eq_none.2 ⟨?_, rfl⟩
      intro node hmem
      simp only [Instruction.mentions, List.mem_cons, List.mem_append, List.mem_map,
        Option.mem_toList, List.not_mem_nil, or_false] at hmem
      rcases hmem with rfl | ⟨bundle, hbundle, rfl⟩ | rfl
      · exact hfits
      · exact htest bundle hbundle
      · exact hnode
    simp [fits_cons, fits_nil, fault?_translate, hnode, hlist]
  · simp [fits_cons, fault?_fail]

theorem fits_addSchemes_iff
    (hrepresented : ∀ target ∈ project.targets, (Node.target target).fault? = none)
    (htarget : target ∈ project.targets) :
    Fits (addSchemes policy project target) ↔
      (∀ scheme ∈ target.schemes, ∀ action, ∃ configuration ∈ project.configurations,
        configuration.name = scheme.configurationFor action) ∧
      (policy = .unique → target.schemes ≠ [] →
        (project.unitTestTargets target).length ≤ 1) := by
  have hfits := hrepresented target htarget
  unfold addSchemes
  split
  · rename_i hnone
    simp [hnone, Fits]
  · rename_i error hfound hsome
    -- An error is the verdict on several bundles.
    have hmany : ¬ (policy = .unique → (project.unitTestTargets target).length ≤ 1) := by
      rw [← Generators.exists_unitTestTarget_iff]
      rintro ⟨test, htest⟩
      rw [hfound] at htest
      cases htest
    simp only [fits_cons, fault?_fail, reduceCtorEq, false_and, false_iff, not_and]
    intro _ h
    exact hmany fun hpolicy => h hpolicy hsome
  · rename_i hfound _
    have hfew := Generators.exists_unitTestTarget_iff.1 ⟨_, hfound⟩
    have htest : ∀ bundle ∈ (none : Option Target), (Node.target bundle).fault? = none := by simp
    rw [fits_flatMap]
    simp only [fits_addScheme_iff hfits htest]
    constructor
    · intro hdeclared
      exact ⟨hdeclared, fun hpolicy _ => hfew hpolicy⟩
    · intro h
      exact h.1
  · rename_i bundle hfound _
    have hfew := Generators.exists_unitTestTarget_iff.1 ⟨_, hfound⟩
    have hbundle : (Node.target bundle).fault? = none :=
      hrepresented bundle (Project.mem_of_mem_unitTestTargets (mem_of_unitTestTarget hfound)).1
    have htest : ∀ other ∈ some bundle, (Node.target other).fault? = none := by simpa using hbundle
    rw [fits_cons, fits_cons, fits_flatMap, fault?_translate, fault?_suppress]
    simp only [fits_addScheme_iff hfits htest]
    constructor
    · rintro ⟨-, -, hdeclared⟩
      exact ⟨hdeclared, fun hpolicy _ => hfew hpolicy⟩
    · intro h
      exact ⟨hbundle, hbundle, h.1⟩

theorem fits_projectStructure : Fits (projectStructure project).onProject := by
  have hproject : (Node.project project).fault? = none := rfl
  have hgroup : ∀ name, (Instruction.group project name).fault? = none := fun _ => rfl
  simp [Fits, projectStructure, fault?_translate, hproject, hgroup]

theorem fits_targets_iff (hids : project.identities.Nodup) (htarget : target ∈ project.targets) :
    Fits ((targets project).onTarget target) ↔
      (Node.target target).fault? = none ∧ Fits (linkHost project target) := by
  have hproject : (Node.project project).fault? = none := rfl
  have hattachable : (Node.project project).attachable (.target target) = true :=
    attachable_of_mem_nodes hids project.project_mem_nodes (project.target_mem_nodes htarget) nofun
  simp only [targets, fits_cons, fault?_translate, fault?_attach_eq_none, hproject, hattachable]
  tauto

theorem fits_configurations (hids : project.identities.Nodup) {configuration : BuildConfiguration}
    (h : configuration ∈ project.flattenConfigurations) :
    Fits ((configurations project).onConfiguration configuration) := by
  have hproject : (Node.project project).fault? = none := rfl
  simp only [configurations, fits_cons, fault?_translate]
  exact ⟨hproject, fits_placeConfiguration hids project.project_mem_nodes hproject rfl
    (project.configuration_mem_nodes h)⟩

theorem fits_overrides (hids : project.identities.Nodup) (htarget : target ∈ project.targets)
    (hfits : (Node.target target).fault? = none) :
    Fits ((configurations project).onTarget target) := by
  simp only [configurations, fits_cons, fault?_translate, fits_flatMap]
  refine ⟨hfits, ?_⟩
  intro configuration hconfiguration
  exact fits_placeConfiguration hids (project.target_mem_nodes htarget) hfits rfl
    (project.override_mem_nodes htarget hconfiguration)

theorem fits_schemes_iff : Fits ((schemes policy project).onTarget target) ↔
    (Node.target target).fault? = none ∧ Fits (addSchemes policy project target) := by
  simp only [schemes, fits_cons, fault?_translate, fault?_suppress]
  tauto

/-- No instruction fails exactly if the project meets all four conditions. -/
theorem fits_standard_iff (hnames : (project.targets.map Target.name).Nodup)
    (hids : project.identities.Nodup) :
    Fits (standard policy project) ↔ project.Compilable policy := by
  rw [Fits, forall_mem_standard fun _ => rfl]
  constructor
  · rintro ⟨-, htargets, -, -, hschemes, -⟩
    have hlinked := fun target htarget => (fits_targets_iff hids htarget).1 (htargets target htarget)
    -- A host can be spoken of only once all targets have native objects, so this comes first.
    have hrepresented : ∀ target ∈ project.targets, (Node.target target).fault? = none := by
      intro target htarget
      exact (hlinked target htarget).1
    have hadded := fun target htarget =>
      (fits_addSchemes_iff hrepresented htarget).1 (fits_schemes_iff.1 (hschemes target htarget)).2
    exact {
      represented := fun target htarget => Target.fault?_eq_none.1 (hrepresented target htarget)
      hosted := fun target htarget =>
        (fits_linkHost_iff hnames hids hrepresented htarget).1 (hlinked target htarget).2
      declared := fun target htarget => (hadded target htarget).1
      unambiguous := fun hpolicy target htarget => (hadded target htarget).2 hpolicy }
  · intro h
    have hrepresented : ∀ target ∈ project.targets, (Node.target target).fault? = none := by
      intro target htarget
      exact Target.fault?_eq_none.2 (h.represented target htarget)
    refine ⟨fits_projectStructure, ?_, fun _ => fits_configurations hids, ?_, ?_, rfl, rfl⟩
    · intro target htarget
      have hlink := (fits_linkHost_iff hnames hids hrepresented htarget).2 (h.hosted target htarget)
      exact (fits_targets_iff hids htarget).2 ⟨hrepresented target htarget, hlink⟩
    · intro target htarget
      exact fits_overrides hids htarget (hrepresented target htarget)
    · intro target htarget
      have hadd := (fits_addSchemes_iff hrepresented htarget).2
        ⟨h.declared target htarget, fun hpolicy => h.unambiguous hpolicy target htarget⟩
      exact fits_schemes_iff.2 ⟨hrepresented target htarget, hadd⟩

end Plan

/-! ## Whole runs -/

namespace Pipeline

variable {policy : TestTargetPolicy} {project : Project} {supply : Supply} {backend : Backend}

/-- A run without an output file succeeds exactly if the project meets all four conditions. -/
theorem standard_succeeds_iff (policy : TestTargetPolicy) (project : Project) (supply : Supply)
    (backend : Backend) (hnames : (project.targets.map Target.name).Nodup)
    (hids : project.identities.Nodup) (houtput : backend.output = none) :
    (∃ summary, ((Pipeline.standard (ν := ν) policy).run project supply backend).1 = .ok summary) ↔
      project.Compilable policy := by
  rw [← Plan.fits_standard_iff hnames hids]
  constructor
  · rintro ⟨summary, hsummary⟩
    rcases hrun : (Pipeline.standard (ν := ν) policy).run project supply backend with ⟨result, after⟩
    rw [hrun] at hsummary
    obtain rfl : result = .ok summary := hsummary
    exact fits_of_run_standard hids hrun
  · intro hfits
    obtain ⟨entered, hdraws, hrun⟩ := run_standard_of_fits (ν := ν) supply backend hids hfits
    have hnone : entered.backend.output = none := hdraws.sameSaved.output.trans houtput
    rw [hrun, Backend.save_apply, hnone]
    exact ⟨_, rfl⟩

/-- An application with a scheme and a test bundle compiles, the bundle declared first. -/
theorem hosted_bundle_succeeds :
    let application := { (Target.new "App" .application .ios "17.0" ⟨10⟩).1 with
      schemes := [(Scheme.new "App" ⟨15⟩).1] }
    let tests := (Target.unitTestBundle "AppTests" application ⟨20⟩).1
    let project := { (Project.new "Demo" ⟨0⟩).1 with targets := [tests, application] }
    ∃ summary, ((Pipeline.standard (ν := Nat) .unique).run project ⟨30⟩ Backend.empty).1 =
      .ok summary := by
  intro application tests project
  have htargets : ∀ target ∈ project.targets, target = tests ∨ target = application := by
    simp [project]
  have hcompilable : project.Compilable .unique := by
    constructor
    · intro target htarget tag
      rcases htargets target htarget with rfl | rfl
      · nofun
      · nofun
    · intro target htarget host hhost
      rcases htargets target htarget with rfl | rfl
      · exact ⟨application, by simp [project], Option.some.inj hhost, by decide⟩
      · cases hhost
    · intro target htarget scheme hscheme action
      rcases htargets target htarget with rfl | rfl
      · cases hscheme
      · obtain rfl := List.mem_singleton.1 hscheme
        cases action <;> decide
    · intro _ target htarget _
      rcases htargets target htarget with rfl | rfl
      · decide
      · decide
  exact (standard_succeeds_iff .unique project ⟨30⟩ Backend.empty (by decide) (by decide) rfl).2
    hcompilable

end Pipeline

end ProjectCompiler