import ProjectCompiler.Proofs.Compilation.Outcome
import ProjectCompiler.Proofs.Compilation.Plan
import ProjectCompiler.Proofs.Project.Translated

/-!
# Standard — runs of the standard pipeline

What the standard pipeline does to a project is told by its instructions. If no two objects of the
project share an identity, the instructions are legible, so a run leaves their drawing or stops at the
first of them that fails by itself.

- `Plan.forall_mem_standard`, `Plan.mem_standard_of_mem_plan`: the instructions, pass by pass;
- `Plan.translates_standard`: they name objects only that get native ones;
- `Plan.legible_standard`: they tell the objects of a project apart;
- `Pipeline.run_standard_of_fault`: a run that fails, and why;
- `Pipeline.run_standard_of_fits`: a run that enters all callbacks, and what it then saves;
- `Pipeline.session_of_run_standard`, `Pipeline.drawn_of_run_standard`: what stands in the session and in
  the graph after a run that succeeds.
-/

namespace ProjectCompiler

open Stateful

variable {ν : Type}

/-! ## Instructions of a pass -/

namespace Pass

variable {project : Project}

/-- What holds of all instructions of a pass, entering callbacks apart. -/
theorem forall_mem_plan {P : Instruction → Prop} (henter : ∀ event, P (.enter event))
    (pass : Pass) :
    (∀ instruction ∈ pass.plan project, P instruction) ↔
      (∀ instruction ∈ pass.onProject, P instruction) ∧
      (∀ configuration ∈ project.flattenConfigurations,
        ∀ instruction ∈ pass.onConfiguration configuration, P instruction) ∧
      (∀ target ∈ project.targets, ∀ instruction ∈ pass.onTarget target, P instruction) ∧
      ∀ instruction ∈ pass.onLeave, P instruction := by
  simp only [plan, List.forall_mem_append, List.forall_mem_cons, List.forall_mem_flatMap,
    List.not_mem_nil, false_implies, implies_true, henter, true_and, and_true, and_assoc]

/-- What is read off all instructions of a pass, if nothing is read off entering callbacks. -/
theorem flatMap_plan {α : Type} {f : Instruction → List α} (henter : ∀ event, f (.enter event) = [])
    (pass : Pass) :
    (pass.plan project).flatMap f =
      pass.onProject.flatMap f ++
        (project.flattenConfigurations.flatMap fun configuration =>
          (pass.onConfiguration configuration).flatMap f) ++
        (project.targets.flatMap fun target => (pass.onTarget target).flatMap f) ++
        pass.onLeave.flatMap f := by
  simp [plan, henter, List.flatMap_assoc]

theorem mem_plan_of_onConfiguration {pass : Pass} {configuration : BuildConfiguration}
    {instruction : Instruction} (h : configuration ∈ project.flattenConfigurations)
    (hmem : instruction ∈ pass.onConfiguration configuration) : instruction ∈ pass.plan project := by
  simp only [plan, List.mem_append, List.mem_flatMap, List.mem_cons]
  exact Or.inl (Or.inl (Or.inr ⟨configuration, h, Or.inl (Or.inr hmem)⟩))

theorem mem_plan_of_onTarget {pass : Pass} {target : Target} {instruction : Instruction}
    (h : target ∈ project.targets) (hmem : instruction ∈ pass.onTarget target) :
    instruction ∈ pass.plan project := by
  simp only [plan, List.mem_append, List.mem_flatMap, List.mem_cons]
  exact Or.inl (Or.inr ⟨target, h, Or.inl (Or.inr hmem)⟩)

end Pass

namespace Plan

variable {policy : TestTargetPolicy} {project : Project}

theorem forall_mem_standard {P : Instruction → Prop} (henter : ∀ event, P (.enter event)) :
    (∀ instruction ∈ standard policy project, P instruction) ↔
      (∀ instruction ∈ (projectStructure project).onProject, P instruction) ∧
      (∀ target ∈ project.targets, ∀ instruction ∈ (targets project).onTarget target,
        P instruction) ∧
      (∀ configuration ∈ project.flattenConfigurations,
        ∀ instruction ∈ (configurations project).onConfiguration configuration, P instruction) ∧
      (∀ target ∈ project.targets, ∀ instruction ∈ (configurations project).onTarget target,
        P instruction) ∧
      (∀ target ∈ project.targets, ∀ instruction ∈ (schemes policy project).onTarget target,
        P instruction) ∧
      P (.translate (.project project)) ∧ P .stage := by
  simp only [standard, passes, List.forall_mem_flatMap, List.forall_mem_cons,
    Pass.forall_mem_plan henter]
  -- Callbacks that do nothing drop out here, and the project is translated more than once.
  simp [projectStructure, targets, configurations, schemes]
  tauto

/-- What is read off instructions about groups and the scheme list only. -/
structure ReadsLists {α : Type} (f : Instruction → List α) : Prop where
  enter : ∀ event, f (.enter event) = []
  translate : ∀ node, f (.translate node) = []
  attach : ∀ parent child, f (.attach parent child) = []
  settle : ∀ configuration, f (.settle configuration) = []
  stage : f .stage = []
  fail : ∀ error, f (.fail error) = []

namespace ReadsLists

variable {α : Type} {f : Instruction → List α}

theorem linkHost (h : ReadsLists f) (target : Target) :
    (Plan.linkHost project target).flatMap f = [] := by
  unfold Plan.linkHost
  split
  · rfl
  · split
    · simp [h.fail]
    · simp [h.translate, h.attach]

theorem placeConfiguration (h : ReadsLists f) (owner : Node) (configuration : BuildConfiguration) :
    (Plan.placeConfiguration owner configuration).flatMap f = [] := by
  simp [Plan.placeConfiguration, h.translate, h.settle, h.attach]

theorem standard (h : ReadsLists f) :
    (Plan.standard policy project).flatMap f =
      (Generators.defaultGroups.flatMap fun name => f (.group project name)) ++
        project.targets.flatMap fun target =>
          f (.suppress target) ++ (addSchemes policy project target).flatMap f := by
  have hnothing : ∀ {β : Type} (items : List β), items.flatMap (fun _ => ([] : List α)) = [] := by
    simp
  simp only [Plan.standard, passes, List.flatMap_append, List.flatMap_cons, List.flatMap_nil,
    List.append_nil, Pass.flatMap_plan h.enter]
  simp [projectStructure, targets, configurations, schemes, h.translate, h.attach, h.stage,
    h.linkHost, h.placeConfiguration, List.flatMap_map, List.flatMap_assoc, hnothing]

end ReadsLists

/-- Nothing is read off schemes by what ignores their instructions. -/
theorem flatMap_addSchemes_eq_nil {α : Type} {f : Instruction → List α}
    (htranslate : ∀ node, f (.translate node) = []) (hsuppress : ∀ target, f (.suppress target) = [])
    (hlist : ∀ target test scheme, f (.list target test scheme) = [])
    (hfail : ∀ error, f (.fail error) = []) (target : Target) :
    (addSchemes policy project target).flatMap f = [] := by
  have hscheme : ∀ test scheme, (addScheme project target test scheme).flatMap f = [] := by
    intro test scheme
    unfold addScheme
    split
    · simp [hfail]
    · simp [htranslate, hlist]
  unfold addSchemes
  split <;> simp [htranslate, hsuppress, hfail, List.flatMap_assoc, hscheme]

/-! ## Legible instructions -/

/-- Instructions that name objects of the project only. -/
def Within (project : Project) (plan : List Instruction) : Prop :=
  ∀ instruction ∈ plan, ∀ node ∈ instruction.mentions, node ∈ project.nodes

/-- Instructions that name only objects that get native ones. -/
def Translates (project : Project) (plan : List Instruction) : Prop :=
  ∀ instruction ∈ plan, ∀ node ∈ instruction.mentions, node ∈ project.translated

theorem translates_linkHost {target : Target} (h : target ∈ project.targets) :
    Translates project (linkHost project target) := by
  have htarget := project.target_mem_translated h
  unfold linkHost
  split
  · simp [Translates]
  · split
    · simp [Translates, Instruction.mentions]
    · rename_i hostTarget hfound
      have hhost := project.target_mem_translated (Project.mem_of_target? hfound).1
      simp [Translates, Instruction.mentions, htarget, hhost]

theorem translates_placeConfiguration {owner : Node} (howner : owner ∈ project.translated)
    {configuration : BuildConfiguration} (h : .configuration configuration ∈ project.translated) :
    Translates project (placeConfiguration owner configuration) := by
  simp [Translates, placeConfiguration, Instruction.mentions, howner, h]

theorem translates_addScheme {target : Target} (h : target ∈ project.targets) {test : Option Target}
    (htest : ∀ bundle ∈ test, bundle ∈ project.targets) {scheme : Scheme}
    (hscheme : scheme ∈ target.schemes) : Translates project (addScheme project target test scheme) := by
  have htarget := project.target_mem_translated h
  have hnode := project.scheme_mem_translated h hscheme
  unfold addScheme
  split
  · simp [Translates, Instruction.mentions]
  · intro instruction hmem node hmention
    simp only [List.mem_cons, List.not_mem_nil, or_false] at hmem
    -- First the scheme by itself, then the scheme with its target and its test bundle.
    rcases hmem with rfl | rfl
    · obtain rfl := List.mem_singleton.1 hmention
      exact hnode
    · simp only [Instruction.mentions, List.mem_cons, List.mem_append, List.mem_map,
        Option.mem_toList, List.not_mem_nil, or_false] at hmention
      rcases hmention with rfl | ⟨bundle, hbundle, rfl⟩ | rfl
      · exact htarget
      · exact project.target_mem_translated (htest bundle hbundle)
      · exact hnode

/-- The test bundle of a target is a target of the project. -/
theorem mem_of_unitTestTarget {target bundle : Target}
    (h : Generators.unitTestTarget policy project target = .ok (some bundle)) :
    bundle ∈ project.unitTestTargets target := by
  unfold Generators.unitTestTarget at h
  split at h <;> simp_all

theorem translates_addSchemes {target : Target} (h : target ∈ project.targets) :
    Translates project (addSchemes policy project target) := by
  unfold addSchemes
  split
  · simp [Translates]
  · simp [Translates, Instruction.mentions]
  · intro instruction hmem
    rcases List.mem_flatMap.1 hmem with ⟨scheme, hscheme, hmem⟩
    exact translates_addScheme h (by simp) hscheme instruction hmem
  · rename_i bundle hfound _
    have hbundle : bundle ∈ project.targets :=
      (Project.mem_of_mem_unitTestTargets (mem_of_unitTestTarget hfound)).1
    have hnode := project.target_mem_translated hbundle
    intro instruction hmem
    simp only [List.mem_cons] at hmem
    rcases hmem with rfl | rfl | hmem
    · simpa [Instruction.mentions] using hnode
    · simpa [Instruction.mentions] using hnode
    · rcases List.mem_flatMap.1 hmem with ⟨scheme, hscheme, hmem⟩
      exact translates_addScheme h (by simpa using hbundle) hscheme instruction hmem

/-- All nodes that are named get native objects. -/
theorem translates_standard : Translates project (standard policy project) := by
  have hproject := project.project_mem_translated
  rw [Translates, forall_mem_standard (by simp [Instruction.mentions])]
  -- Pass by pass; an override is named in its flattened form, which is the node that stands for it.
  refine ⟨?_, ?_, ?_, ?_, ?_, ?_, by simp [Instruction.mentions]⟩
  · simp [projectStructure, Instruction.mentions, hproject]
  · intro target htarget
    have hnode := project.target_mem_translated htarget
    simp only [targets, List.forall_mem_cons]
    exact ⟨by simp [Instruction.mentions, hproject], by simp [Instruction.mentions, hnode],
      by simp [Instruction.mentions, hproject, hnode], translates_linkHost htarget⟩
  · intro configuration hconfiguration
    have hnode := project.configuration_mem_translated hconfiguration
    simp only [configurations, List.forall_mem_cons]
    exact ⟨by simp [Instruction.mentions, hproject], translates_placeConfiguration hproject hnode⟩
  · intro target htarget
    have hnode := project.target_mem_translated htarget
    simp only [configurations, List.forall_mem_cons, List.forall_mem_flatMap]
    refine ⟨by simp [Instruction.mentions, hnode], ?_⟩
    intro configuration hconfiguration
    exact translates_placeConfiguration hnode (project.override_mem_translated htarget hconfiguration)
  · intro target htarget
    have hnode := project.target_mem_translated htarget
    simp only [schemes, List.forall_mem_cons]
    exact ⟨by simp [Instruction.mentions, hnode], by simp [Instruction.mentions, hnode],
      translates_addSchemes htarget⟩
  · simp [Instruction.mentions, hproject]

/-- All nodes that are named are objects of the project. -/
theorem within_standard : Within project (standard policy project) := by
  intro instruction hinstruction node hnode
  exact Project.mem_nodes_of_mem_translated (translates_standard instruction hinstruction node hnode)

theorem mem_standard_of_mem_plan {pass : Pass} (hpass : pass ∈ passes policy project)
    {instruction : Instruction} (h : instruction ∈ pass.plan project) :
    instruction ∈ standard policy project :=
  List.mem_flatMap.2 ⟨pass, hpass, h⟩

theorem translate_mem_standard {target : Target} (htarget : target ∈ project.targets) :
    .translate (.target target) ∈ standard policy project := by
  have hpass : targets project ∈ passes policy project := by simp [passes]
  exact mem_standard_of_mem_plan hpass (Pass.mem_plan_of_onTarget htarget (by simp [targets]))

theorem target_mem_mentions {target : Target} (htarget : target ∈ project.targets) :
    .target target ∈ (standard policy project).flatMap Instruction.mentions := by
  refine List.mem_flatMap.2 ⟨_, translate_mem_standard htarget, ?_⟩
  simp [Instruction.mentions]

theorem groups_standard :
    (standard policy project).flatMap Instruction.groups = Generators.defaultGroups := by
  have hreads : ReadsLists Instruction.groups := by
    constructor <;> intros <;> rfl
  have hschemes : ∀ target, (addSchemes policy project target).flatMap Instruction.groups = [] :=
    flatMap_addSchemes_eq_nil (fun _ => rfl) (fun _ => rfl) (fun _ _ _ => rfl) fun _ => rfl
  rw [hreads.standard]
  simp [hschemes, Instruction.groups]

theorem legible_standard (h : project.identities.Nodup) :
    Instruction.Legible (standard policy project) where
  nodes := by
    intro first hfirst second hsecond hid
    rcases List.mem_flatMap.1 hfirst with ⟨one, hone, hfirst⟩
    rcases List.mem_flatMap.1 hsecond with ⟨other, hother, hsecond⟩
    exact project.eq_of_id_eq h (within_standard one hone first hfirst)
      (within_standard other hother second hsecond) hid
  groups := by
    rw [groups_standard]
    decide

end Plan

/-! ## Runs -/

namespace Pipeline

variable {policy : TestTargetPolicy} {project : Project} {supply : Supply} {backend : Backend}

/-- A run carries out its instructions and then saves the list. -/
theorem run_standard (policy : TestTargetPolicy) (project : Project) (supply : Supply)
    (backend : Backend) :
    (Pipeline.standard (ν := ν) policy).run project supply backend =
      match Instruction.performAll (Plan.standard policy project)
          (Session.start project supply backend) with
      | (.error error, entered) => (.error error, entered)
      | (.ok _, entered) =>
          match Session.commit entered with
          | (.error error, after) => (.error error, after)
          | (.ok _, after) =>
              (.ok { order := (Generators.standard (ν := ν) policy).map fun generator =>
                       generator.info.name,
                     translated := after.natives.length }, after) := by
  have hrun := run_apply (ordered_standard (ν := ν) policy) project supply backend
  rw [enterAll_standard] at hrun
  exact hrun

/-- The first instruction that fails by itself ends the run. -/
theorem run_standard_of_fault (hids : project.identities.Nodup) {error : PipelineError}
    (h : (Plan.standard policy project).findSome? Instruction.fault? = some error) :
    ∃ after, (Pipeline.standard (ν := ν) policy).run project supply backend =
      (.error error, after) := by
  have hlegible : Instruction.Legible (Plan.standard policy project) := Plan.legible_standard hids
  have hresult := Draws.performAll_result (ν := ν) hlegible project supply backend
  rw [h] at hresult
  rcases hrun : Instruction.performAll (ν := ν) (Plan.standard policy project)
    (Session.start project supply backend) with ⟨result, entered⟩
  rw [hrun] at hresult
  obtain rfl : result = .error error := hresult
  exact ⟨entered, by rw [run_standard, hrun]⟩

/-- If no instruction fails, the whole drawing stands when the list is saved. -/
theorem run_standard_of_fits (supply : Supply) (backend : Backend) (hids : project.identities.Nodup)
    (h : ∀ instruction ∈ Plan.standard policy project, instruction.fault? = none) :
    ∃ entered : Session ν,
      Drawn (Plan.standard policy project) backend entered ∧
      (Pipeline.standard (ν := ν) policy).run project supply backend =
        match Backend.save entered.backend with
        | (.error error, backend) => (.error (.persist error), { entered with backend })
        | (.ok _, backend) =>
            (.ok { order := (Generators.standard (ν := ν) policy).map fun generator =>
                     generator.info.name,
                   translated := entered.natives.length },
              { entered with backend, staged := false }) := by
  have hlegible : Instruction.Legible (Plan.standard policy project) := Plan.legible_standard hids
  have hstart : Draws (ν := ν) (Instruction.items (Plan.standard policy project)) backend
      (Instruction.items []) [] (Session.start project supply backend) :=
    Draws.start_nil (Instruction.nodup_keys_items _) project supply
  have hwhole : [] ++ Plan.standard policy project <+: Plan.standard policy project :=
    List.prefix_rfl
  rcases Draws.performAll_of_fits hlegible hwhole hstart h with ⟨entered, hrun, hdraws⟩
  rw [List.nil_append] at hdraws
  -- The list is staged by the last instruction.
  have hstaged : entered.staged = true := by
    rw [hdraws.staged]
    simp [Plan.standard, Plan.passes, Pass.plan, Plan.schemes]
  refine ⟨entered, hdraws, ?_⟩
  rw [run_standard, hrun]
  simp only [Session.commit_apply, hstaged, if_true]
  rcases Backend.save entered.backend with ⟨result, saved⟩
  cases result with
  | error error => rfl
  | ok answer => rfl

/-- A run that succeeds is one in which no instruction fails. -/
theorem fits_of_run_standard (hids : project.identities.Nodup) {summary : RunSummary}
    {after : Session ν}
    (h : (Pipeline.standard policy).run project supply backend = (.ok summary, after)) :
    ∀ instruction ∈ Plan.standard policy project, instruction.fault? = none := by
  rcases hfault : (Plan.standard policy project).findSome? Instruction.fault? with _ | error
  · exact List.findSome?_eq_none_iff.1 hfault
  · obtain ⟨failed, hfailed⟩ : ∃ failed : Session ν,
        (Pipeline.standard policy).run project supply backend = (.error error, failed) :=
      run_standard_of_fault hids hfault
    rw [h] at hfailed
    cases hfailed

/-- The session after a run that succeeds is the one that the instructions lead to, but for what the
save changed. -/
theorem session_of_run_standard (hids : project.identities.Nodup) {summary : RunSummary}
    {after : Session ν}
    (h : (Pipeline.standard policy).run project supply backend = (.ok summary, after)) :
    ∃ (entered : Session ν) (disk : Disk), Drawn (Plan.standard policy project) backend entered ∧
      summary.translated = entered.natives.length ∧
      after = { entered with
        staged := false
        backend := { entered.backend with
          saved := some entered.backend.snapshot
          saveCount := entered.backend.saveCount + 1
          disk } } := by
  have hfits := fits_of_run_standard hids h
  rcases run_standard_of_fits (ν := ν) supply backend hids hfits with ⟨entered, hdrawn, hrun⟩
  rw [hrun] at h
  rcases hsave : Backend.save entered.backend with ⟨error | answer, final⟩
  · rw [hsave] at h
    cases h
  · rw [hsave] at h
    cases h
    rcases Backend.save_eq_ok hsave with ⟨disk, rfl⟩
    exact ⟨entered, disk, hdrawn, rfl, rfl⟩

/-- After a run that succeeds, the whole drawing stands, and the list is saved as it is drawn. -/
theorem drawn_of_run_standard (hids : project.identities.Nodup) {summary : RunSummary}
    {after : Session ν}
    (h : (Pipeline.standard policy).run project supply backend = (.ok summary, after)) :
    ∃ (entered : Session ν) (disk : Disk), Drawn (Plan.standard policy project) backend entered ∧
      after.backend = { entered.backend with
        saved := some entered.backend.snapshot
        saveCount := entered.backend.saveCount + 1
        disk } := by
  obtain ⟨entered, disk, hdrawn, -, rfl⟩ := session_of_run_standard hids h
  exact ⟨entered, disk, hdrawn, rfl⟩

end Pipeline

end ProjectCompiler
