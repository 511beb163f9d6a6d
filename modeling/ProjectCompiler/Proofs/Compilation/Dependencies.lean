import ProjectCompiler.Proofs.Compilation.Attachments
import ProjectCompiler.Proofs.Project.Growth

/-!
# Dependencies — compiling projects whose hosts are in order

If every host is a target that is no unit-test bundle, and only unit-test bundles have hosts, then no
instruction of a run asks for a host that is not there or for an attachment that is refused. What can
still go wrong are three things: a target has no product type, a scheme uses an undeclared
configuration, or it has too many test bundles to choose from.

- `Project.Sound`: projects whose names, overrides and hosts are in order;
- `Plan.residual_of_fault`: why an instruction of such a project can fail;
- `Backend.Layered`: dependencies have two layers, and `Drawn.layered`: they do at the end of a run.
-/

namespace ProjectCompiler

variable {ν : Type}

/-- A project in which names are distinct, every target overrides exactly the declared configurations,
and unit-test bundles, and only they, are hosted by targets that are none. -/
structure Project.Sound (project : Project) : Prop where
  names : (project.targets.map Target.name).Nodup
  identities : project.identities.Nodup
  declared : project.declared.Nodup
  default : project.defaultConfiguration ∈ project.declared
  overrides : ∀ target ∈ project.targets, target.overrides = project.declared
  hosted : ∀ target ∈ project.targets, target.host.isSome = target.isUnitTestBundle
  host : ∀ target ∈ project.targets, ∀ name, target.host = some name →
    ∃ other ∈ project.targets, other.name = name ∧ other.isUnitTestBundle = false

/-- The errors that are left to a run on a sound project. -/
inductive PipelineError.Residual : PipelineError → Prop
  | translation (object : String) (reason : BackendError) : Residual (.translation object reason)
  | unknownConfiguration (scheme configuration : String) (action : SchemeAction) :
      Residual (.unknownConfiguration scheme configuration action)
  | ambiguousTestTarget (target : String) (candidates : List String) :
      Residual (.ambiguousTestTarget target candidates)

namespace Project.Sound

variable {project : Project} {target host : Target}

/-- The target that hosts a unit-test bundle is no such bundle, so it has no host of its own. -/
theorem of_host (h : project.Sound) (htarget : target ∈ project.targets)
    (hhost : target.host.bind project.target? = some host) :
    target.isUnitTestBundle = true ∧ host ∈ project.targets ∧ host.isUnitTestBundle = false ∧
      host.host = none := by
  rcases Option.bind_eq_some_iff.1 hhost with ⟨name, hname, hfound⟩
  have hbundle : target.isUnitTestBundle = true := by
    rw [← h.hosted target htarget, hname]
    rfl
  rcases mem_of_target? hfound with ⟨hmem, hhostName⟩
  rcases h.host target htarget name hname with ⟨other, hother, hotherName, hplain⟩
  -- The host is the only target of its name.
  obtain rfl : other = host :=
    List.inj_on_of_nodup_map h.names hother hmem (hotherName.trans hhostName.symm)
  refine ⟨hbundle, hmem, hplain, ?_⟩
  rw [← Option.not_isSome_iff_eq_none, h.hosted other hmem, hplain]
  simp

theorem target?_of_host (h : project.Sound) (htarget : target ∈ project.targets) {name : String}
    (hname : target.host = some name) : ∃ host, project.target? name = some host := by
  rcases h.host target htarget name hname with ⟨other, hother, hotherName, -⟩
  exact Option.isSome_iff_exists.1 (target?_isSome.2 ⟨other, hother, hotherName⟩)

end Project.Sound

/-! ## Errors of a run -/

namespace Instruction

/-- Nodes fail because they have no native object. -/
theorem residual_or_refusal {instruction : Instruction} {error : PipelineError}
    (h : instruction.fault? = some error) :
    error.Residual ∨ instruction.refusal? = some error := by
  rw [fault?, Option.or_eq_some_iff] at h
  rcases h with hnode | ⟨-, hrefusal⟩
  · refine Or.inl ?_
    rcases List.exists_of_findSome?_eq_some hnode with ⟨node, -, hfault⟩
    unfold Node.fault? at hfault
    split at hfault
    · cases hfault
    · cases hfault
      exact PipelineError.Residual.translation _ _
  · exact Or.inr hrefusal

end Instruction

namespace Plan

variable {policy : TestTargetPolicy} {project : Project} {target : Target}

/-- Instructions that are refused for a residual error only. -/
def Mild (plan : List Instruction) : Prop :=
  ∀ instruction ∈ plan, ∀ error, instruction.refusal? = some error → error.Residual

theorem mild_nil : Mild [] := by
  simp [Mild]

theorem mild_cons {instruction : Instruction} {rest : List Instruction} :
    Mild (instruction :: rest) ↔
      (∀ error, instruction.refusal? = some error → error.Residual) ∧ Mild rest := by
  simp [Mild]

theorem mild_cons_of_refusal_none {instruction : Instruction} {rest : List Instruction}
    (h : instruction.refusal? = none) (hrest : Mild rest) : Mild (instruction :: rest) := by
  refine mild_cons.2 ⟨?_, hrest⟩
  intro error herror
  rw [h] at herror
  cases herror

theorem mild_flatMap {α : Type} {items : List α} {plan : α → List Instruction}
    (h : ∀ item ∈ items, Mild (plan item)) : Mild (items.flatMap plan) := by
  intro instruction hmem
  rcases List.mem_flatMap.1 hmem with ⟨item, hitem, hmem⟩
  exact h item hitem instruction hmem

/-- Nothing is refused when one object of the project is attached to another that holds its kind. -/
theorem refusal?_attach (hids : project.identities.Nodup) {parent child : Node}
    (hparent : parent ∈ project.nodes) (hchild : child ∈ project.nodes) (hne : parent ≠ child)
    (hholds : parent.nativeKind.holds child.nativeKind = true) :
    (Instruction.attach parent child).refusal? = none := by
  have hattachable : parent.attachable child = true := by
    rw [attachable_of_mem_nodes hids hparent hchild hne, hholds]
  simp [Instruction.refusal?, hattachable]

theorem mild_linkHost (h : project.Sound) (htarget : target ∈ project.targets) :
    Mild (linkHost project target) := by
  unfold linkHost
  rcases hname : target.host with _ | name
  · exact mild_nil
  · dsimp only
    rcases h.target?_of_host htarget hname with ⟨host, hfound⟩
    rw [hfound]
    have hhost : target.host.bind project.target? = some host := by
      rw [hname]
      exact hfound
    rcases h.of_host htarget hhost with ⟨hbundle, hmem, hplain, -⟩
    -- One is a unit-test bundle and the other is none.
    have hne : Node.target target ≠ .target host := by
      intro hsame
      rw [Node.target.inj hsame, hplain] at hbundle
      cases hbundle
    refine mild_cons_of_refusal_none rfl (mild_cons_of_refusal_none ?_ mild_nil)
    exact refusal?_attach h.identities (project.target_mem_nodes htarget)
      (project.target_mem_nodes hmem) hne rfl

theorem mild_placeConfiguration (hids : project.identities.Nodup) {owner : Node}
    (howner : owner ∈ project.nodes) (hholds : owner.nativeKind.holds .configuration = true)
    {configuration : BuildConfiguration} (h : .configuration configuration ∈ project.nodes) :
    Mild (placeConfiguration owner configuration) := by
  have hne : owner ≠ .configuration configuration := by
    rintro rfl
    cases hholds
  have hattach := refusal?_attach hids howner h hne hholds
  exact mild_cons_of_refusal_none rfl
    (mild_cons_of_refusal_none rfl (mild_cons_of_refusal_none hattach mild_nil))

theorem mild_addScheme (test : Option Target) (scheme : Scheme) :
    Mild (addScheme project target test scheme) := by
  unfold addScheme
  split
  · refine mild_cons.2 ⟨?_, mild_nil⟩
    intro error herror
    cases herror
    exact PipelineError.Residual.unknownConfiguration _ _ _
  · exact mild_cons_of_refusal_none rfl (mild_cons_of_refusal_none rfl mild_nil)

theorem mild_addSchemes : Mild (addSchemes policy project target) := by
  unfold addSchemes
  split
  · exact mild_nil
  · rename_i reason hfound _
    refine mild_cons.2 ⟨?_, mild_nil⟩
    intro error herror
    obtain rfl : reason = error := Option.some.inj herror
    unfold Generators.unitTestTarget at hfound
    split at hfound <;> cases hfound
    exact PipelineError.Residual.ambiguousTestTarget _ _
  · exact mild_flatMap fun scheme _ => mild_addScheme none scheme
  · rename_i bundle _ _
    exact mild_cons_of_refusal_none rfl (mild_cons_of_refusal_none rfl
      (mild_flatMap fun scheme _ => mild_addScheme (some bundle) scheme))

theorem mild_standard (h : project.Sound) : Mild (standard policy project) := by
  have hproject := project.project_mem_nodes
  rw [Mild, forall_mem_standard (by simp [Instruction.refusal?])]
  refine ⟨?_, ?_, ?_, ?_, ?_, by simp [Instruction.refusal?], by simp [Instruction.refusal?]⟩
  · simp [projectStructure, Instruction.refusal?]
  · intro target htarget
    have hattach := refusal?_attach h.identities hproject (project.target_mem_nodes htarget)
      (by simp) rfl
    exact mild_cons_of_refusal_none rfl (mild_cons_of_refusal_none rfl
      (mild_cons_of_refusal_none hattach (mild_linkHost h htarget)))
  · intro configuration hconfiguration
    have hnode := project.configuration_mem_nodes hconfiguration
    exact mild_cons_of_refusal_none rfl (mild_placeConfiguration h.identities hproject rfl hnode)
  · intro target htarget
    refine mild_cons_of_refusal_none rfl (mild_flatMap fun configuration hconfiguration => ?_)
    exact mild_placeConfiguration h.identities (project.target_mem_nodes htarget) rfl
      (project.override_mem_nodes htarget hconfiguration)
  · intro target htarget
    exact mild_cons_of_refusal_none rfl (mild_cons_of_refusal_none rfl mild_addSchemes)

/-- Whatever fails first fails for a residual error. -/
theorem residual_of_fault (h : project.Sound) {error : PipelineError}
    (hfault : (standard policy project).findSome? Instruction.fault? = some error) :
    error.Residual := by
  rcases List.exists_of_findSome?_eq_some hfault with ⟨instruction, hmem, herror⟩
  rcases Instruction.residual_or_refusal herror with hresidual | hrefusal
  · exact hresidual
  · exact mild_standard h instruction hmem error hrefusal

end Plan

/-! ## Dependencies between targets -/

namespace Instruction

/-- The targets that an instruction makes depend on others, and on which. -/
def links : Instruction → List (Target × Target)
  | attach (.target parent) (.target child) => [(parent, child)]
  | _ => []

end Instruction

namespace Plan

variable {policy : TestTargetPolicy} {project : Project}

/-- Every target depends on its host, if that is a target, and on nothing else. -/
theorem links_standard :
    (standard policy project).flatMap Instruction.links = project.targets.flatMap fun target =>
      (target.host.bind project.target?).toList.map fun host => (target, host) := by
  -- Of what is attached, those are links that lead from one target to another.
  have hlinks : ∀ instruction : Instruction, instruction.links =
      instruction.attachments.filterMap fun link => link.1.target?.bind fun parent =>
        link.2.target?.map fun child => (parent, child) := by
    intro instruction
    cases instruction with
    | attach parent child => cases parent <;> cases child <;> rfl
    | enter | translate | group | settle | suppress | list | stage | fail => rfl
  rw [List.flatMap_congr fun instruction _ => hlinks instruction, ← List.filterMap_flatMap,
    attachments_standard]
  simp [Node.target?, hosts, List.filterMap_append, List.filterMap_flatMap, List.filterMap_map]

/-- A target is attached to another only because it is its host. -/
theorem host_of_attach {target host : Target}
    (h : .attach (.target target) (.target host) ∈ standard policy project) :
    target.host.bind project.target? = some host := by
  have hlink : (target, host) ∈ (standard policy project).flatMap Instruction.links :=
    List.mem_flatMap.2 ⟨_, h, by simp [Instruction.links]⟩
  rw [links_standard] at hlink
  rcases List.mem_flatMap.1 hlink with ⟨other, -, hmem⟩
  rcases List.mem_map.1 hmem with ⟨found, hfound, heq⟩
  cases heq
  exact Option.mem_toList.1 hfound

end Plan

/-- The native target of a unit-test bundle. -/
def NativeTarget.IsUnitTestBundle (native : NativeTarget) : Prop :=
  TargetType.unitTestBundle.productType? = some native.productType

theorem NativeTarget.Represents.isUnitTestBundle_iff {number : Key → NativeId}
    {done : List Instruction} {target : Target} {native : NativeTarget}
    (h : native.Represents number done target) :
    native.IsUnitTestBundle ↔ target.isUnitTestBundle = true := by
  have hproduct := h.productType
  unfold NativeTarget.IsUnitTestBundle
  rw [← hproduct, Target.isUnitTestBundle, decide_eq_true_iff]
  cases target.type <;> simp [TargetType.productType?]

/-- Every dependency leads from a unit-test bundle to a target that is none and depends on nothing. -/
def Backend.Layered (backend : Backend) : Prop :=
  ∀ id native, backend.object? id = some (.target native) → ∀ dependency ∈ native.dependencies,
    native.IsUnitTestBundle ∧ ∃ host, backend.object? dependency = some (.target host) ∧
      ¬ host.IsUnitTestBundle ∧ host.dependencies = []

theorem Backend.layered_empty : Backend.empty.Layered := by
  intro id native hobject
  simp [Backend.object?, Backend.empty] at hobject

namespace Drawn

variable {policy : TestTargetPolicy} {project : Project} {start : Backend} {session : Session ν}
  {target : Target} {native : NativeTarget}

/-- What a native target of the run depends on is the native target of its host. -/
theorem host_of_dependency (hsound : project.Sound) (htarget : target ∈ project.targets)
    (hrep : native.Represents (Instruction.number (Plan.standard policy project) start)
      (Plan.standard policy project) target) {dependency : NativeId}
    (hmem : dependency ∈ native.dependencies) :
    ∃ host, target.host.bind project.target? = some host ∧
      dependency = Instruction.number (Plan.standard policy project) start (.object host.id) := by
  rcases hrep.attached dependency hmem with ⟨parent, host, hattach, hid, hnumber⟩
  -- What has the identity of the target is the target.
  obtain rfl : parent = .target target := by
    have hparent : parent ∈ project.nodes :=
      Plan.within_standard _ hattach parent (by simp [Instruction.mentions])
    exact project.eq_of_id_eq hsound.identities hparent (project.target_mem_nodes htarget) hid
  exact ⟨host, Plan.host_of_attach hattach, hnumber⟩

/-- An object beyond those of the start that is a target stands for a target of the project. -/
theorem exists_represented (h : Drawn (Plan.standard policy project) start session) {id : NativeId}
    (hnew : start.objects.length ≤ id.index)
    (hobject : session.backend.object? id = some (.target native)) :
    ∃ target ∈ project.targets, native.Represents
      (Instruction.number (Plan.standard policy project) start) (Plan.standard policy project)
        target := by
  rw [Backend.object?, h.objects, List.getElem?_append_right hnew, List.getElem?_map] at hobject
  rcases Option.map_eq_some_iff.1 hobject with ⟨item, hitem, hdrawn⟩
  cases item with
  | group name => cases hdrawn
  | node node =>
    have hmem : .node node ∈ Instruction.items (Plan.standard policy project) :=
      List.mem_of_getElem? hitem
    have hfits := h.fits node hmem
    have hnode : node ∈ project.nodes := by
      rcases List.mem_flatMap.1 (Instruction.names_of_mem_items hmem) with
        ⟨instruction, hinstruction, hmention⟩
      exact Plan.within_standard instruction hinstruction node hmention
    -- The kind of the object is the kind of the node.
    have hkind : node.nativeKind = .target := by
      rw [← Item.kind_drawn hfits, hdrawn]
      rfl
    cases node with
    | project p => cases hkind
    | configuration c => cases hkind
    | scheme s => cases hkind
    | target target =>
      rcases Item.drawn_target hfits with ⟨native', hnative, hrep⟩
      obtain rfl : native' = native := NativeObject.target.inj (hnative.symm.trans hdrawn)
      exact ⟨target, Project.target_of_mem_nodes hnode, hrep⟩

/-- The run adds dependencies of two layers only. -/
theorem layered (hsound : project.Sound) (h : Drawn (Plan.standard policy project) start session)
    (hstart : start.Layered) : session.backend.Layered := by
  have hold : ∀ id object, start.object? id = some object →
      session.backend.object? id = some object := by
    intro id object hobject
    rw [Backend.object?] at hobject
    rcases List.getElem?_eq_some_iff.1 hobject with ⟨hlt, -⟩
    rw [Backend.object?, h.objects, List.getElem?_append_left hlt]
    exact hobject
  intro id native hobject dependency hdependency
  rcases Nat.lt_or_ge id.index start.objects.length with hlt | hnew
  · -- Objects that were there before stay as they are.
    have hbefore : start.object? id = some (.target native) := by
      rw [Backend.object?, h.objects, List.getElem?_append_left hlt] at hobject
      exact hobject
    rcases hstart id native hbefore dependency hdependency with ⟨hbundle, host, hhost, hplain⟩
    exact ⟨hbundle, host, hold dependency _ hhost, hplain⟩
  · rcases h.exists_represented hnew hobject with ⟨target, htarget, hrep⟩
    rcases host_of_dependency hsound htarget hrep hdependency with ⟨host, hhost, rfl⟩
    rcases hsound.of_host htarget hhost with ⟨hbundle, hmem, hplain, hnone⟩
    refine ⟨hrep.isUnitTestBundle_iff.2 hbundle, ?_⟩
    rcases h.exists_target_of_mem (Plan.legible_standard hsound.identities)
      (Plan.target_mem_mentions hmem) with ⟨nativeHost, hnativeHost, hhostRep⟩
    refine ⟨nativeHost, hnativeHost, ?_, ?_⟩
    · rw [hhostRep.isUnitTestBundle_iff, hplain]
      simp
    · -- A dependency of the host would be its own host, and it has none.
      rw [List.eq_nil_iff_forall_not_mem]
      intro other hother
      rcases host_of_dependency hsound hmem hhostRep hother with ⟨farther, hfarther, -⟩
      rw [hnone] at hfarther
      cases hfarther

end Drawn

/-! ## Runs on sound projects -/

namespace Pipeline

variable {policy : TestTargetPolicy} {project : Project} {supply : Supply} {backend : Backend}

/-- Without an output file, a run on a sound project fails for a residual error only. -/
theorem residual_of_run_standard (h : project.Sound) (houtput : backend.output = none)
    {error : PipelineError}
    (hrun : ((Pipeline.standard (ν := ν) policy).run project supply backend).1 = .error error) :
    error.Residual := by
  rcases hfault : (Plan.standard policy project).findSome? Instruction.fault? with _ | reason
  · -- Nothing fails before the list is saved, and saving writes no file.
    have hfits := List.findSome?_eq_none_iff.1 hfault
    rcases run_standard_of_fits (ν := ν) supply backend h.identities hfits with
      ⟨entered, hdrawn, hsaved⟩
    have hnone : entered.backend.output = none := hdrawn.sameSaved.output.trans houtput
    rw [hsaved, Backend.save_apply, hnone] at hrun
    cases hrun
  · obtain ⟨after, hfailed⟩ : ∃ after : Session ν,
        (Pipeline.standard policy).run project supply backend = (.error reason, after) :=
      run_standard_of_fault h.identities hfault
    rw [hfailed] at hrun
    obtain rfl : reason = error := Except.error.inj hrun
    exact Plan.residual_of_fault h hfault

theorem layered_of_run_standard (h : project.Sound) (hbackend : backend.Layered)
    {summary : RunSummary} {after : Session ν}
    (hrun : (Pipeline.standard policy).run project supply backend = (.ok summary, after)) :
    after.backend.Layered := by
  rcases drawn_of_run_standard h.identities hrun with ⟨entered, disk, hdrawn, hafter⟩
  have hlayered : entered.backend.Layered := Drawn.layered h hdrawn hbackend
  -- Saving leaves the graph alone.
  rw [hafter]
  exact hlayered

end Pipeline

end ProjectCompiler
