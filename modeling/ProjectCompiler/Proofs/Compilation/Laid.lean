import ProjectCompiler.Proofs.Compilation.Kinds
import ProjectCompiler.Proofs.Compilation.Policies
import ProjectCompiler.Proofs.Pipeline.Laying

/-!
# Laid — what can still go wrong after targets and configurations

The generators before the last one lay the project, its targets and its configurations. Once they have
succeeded, all targets have native objects, and what the last generator asks of the backend is then granted:
only a verdict on the model itself can end the run. This holds on any backend to start from, as long as nodes
of different kinds do not share an identity.

- `Session.Laid`: a session in which all targets of the project are laid;
- `Instruction.Granted`: the instructions that cannot fail in such a session;
- `Plan.Fails`: a plan whose first instruction that is not granted is an error;
- `Pipeline.laid_of_laying`: how a run without schemes leaves such a session.
-/

namespace ProjectCompiler

open Stateful

variable {ν : Type}

/-! ## Objects of the kinds of nodes -/

namespace Session

/-- The second session is matched if the first one is. -/
def KeepsMatched (nodes : List Node) (before after : Session ν) : Prop :=
  before.Matched nodes → after.Matched nodes

instance (nodes : List Node) : IsPreorder (Session ν) (KeepsMatched nodes) where
  refl _ h := h
  trans _ _ _ first second h := second (first h)

variable {nodes : List Node}

theorem native_keepsMatched {node : Node} (hnode : node ∈ nodes) :
    Moves (KeepsMatched nodes) (native (ν := ν) node) :=
  fun _ h => h.native hnode

theorem edit_keepsMatched {α : Type} {change : Edit α} (hkeeps : Moves Backend.Keeps change)
    (wrap : BackendError → PipelineError) :
    Moves (KeepsMatched nodes) (edit (ν := ν) wrap change) := by
  intro session h
  rw [edit_apply]
  exact h.of_natives_eq (hkeeps session.backend) rfl

end Session

namespace Instruction

variable {nodes : List Node} {instruction : Instruction}

theorem perform_keepsMatched (h : ∀ node ∈ instruction.mentions, node ∈ nodes) :
    Moves (Session.KeepsMatched nodes) (instruction.perform (ν := ν)) := by
  -- Each instruction looks nodes up that it mentions, and then makes one edit at most.
  cases instruction with
  | enter event => exact fun session hsession => hsession
  | translate node =>
    exact (Session.native_keepsMatched (h node (by simp [mentions]))).bind fun _ => Moves.pure _
  | group project name =>
    refine (Session.native_keepsMatched (h _ (by simp [mentions]))).bind fun id => ?_
    refine (Session.edit_keepsMatched ?_ _).bind fun _ => Moves.pure _
    exact (Operation.createGroup id name).perform_keeps
  | attach parent child =>
    refine (Session.native_keepsMatched (h parent (by simp [mentions]))).bind fun nativeParent => ?_
    refine (Session.native_keepsMatched (h child (by simp [mentions]))).bind fun nativeChild => ?_
    exact Session.edit_keepsMatched (Operation.attach nativeParent nativeChild).perform_keeps _
  | settle configuration =>
    refine (Session.native_keepsMatched (h _ (by simp [mentions]))).bind fun id => ?_
    exact Session.edit_keepsMatched
      (Operation.setBuildSettings id configuration.settings).perform_keeps _
  | suppress target =>
    refine (Session.native_keepsMatched (h _ (by simp [mentions]))).bind fun id => ?_
    exact Session.edit_keepsMatched (Operation.suppress id).perform_keeps _
  | list target test scheme =>
    have htest : Moves (Session.KeepsMatched nodes) (Session.nativeTarget? (ν := ν) test) := by
      cases test with
      | none => exact Moves.pure _
      | some bundle =>
        exact (Session.native_keepsMatched (h _ (by simp [mentions]))).bind fun _ => Moves.pure _
    refine (Session.native_keepsMatched (h _ (by simp [mentions]))).bind fun nativeTarget => ?_
    refine htest.bind fun nativeTest => ?_
    refine (Session.native_keepsMatched (h _ (by simp [mentions]))).bind fun id => ?_
    exact Session.edit_keepsMatched (Backend.fillScheme_keeps nativeTarget nativeTest scheme id) _
  | stage => exact fun session hsession => hsession
  | fail error => exact Moves.throw error

theorem performAll_keepsMatched {project : Project} {plan : List Instruction}
    (h : Plan.Within project plan) :
    Moves (Session.KeepsMatched project.nodes) (performAll (ν := ν) plan) :=
  Moves.forM fun instruction hinstruction => perform_keepsMatched (h instruction hinstruction)

/-- A node that was translated on the way is known at the end. -/
theorem exists_knows_of_performAll {plan : List Instruction} {session after : Session ν} {node : Node}
    (h : performAll plan session = (.ok (), after)) (hnode : .translate node ∈ plan) :
    ∃ id, after.Knows node id := by
  induction plan generalizing session with
  | nil => cases hnode
  | cons instruction rest ih =>
    rw [performAll_cons] at h
    rcases hfirst : instruction.perform session with ⟨error | answer, middle⟩
    · rw [bind_of_error hfirst] at h
      cases h
    · rw [bind_of_ok hfirst] at h
      rcases List.mem_cons.1 hnode with rfl | hrest
      · -- It is known right after its own instruction, and remembered from then on.
        rcases hnative : Session.native node session with ⟨error | id, found⟩
        · rw [perform, bind_of_error hnative] at hfirst
          cases hfirst
        · rw [perform, bind_of_ok hnative] at hfirst
          cases hfirst
          have hremembers := performAll_remembers rest middle
          rw [h] at hremembers
          exact ⟨id, hremembers.knows node id (Session.knows_of_native hnative)⟩
      · exact ih h hrest

end Instruction

/-! ## Sessions in which all targets are laid -/

/-- All targets are known, and what is known has objects of the kinds of the project's nodes. -/
structure Session.Laid (project : Project) (session : Session ν) : Prop where
  matched : session.Matched project.nodes
  targets : ∀ target ∈ project.targets, ∃ id, session.Knows (.target target) id

namespace Session.Laid

variable {project : Project} {session : Session ν} {target : Target} {scheme : Scheme} {id : NativeId}

theorem native_target (h : session.Laid project) (htarget : target ∈ project.targets) :
    ∃ id, session.native (.target target) = (.ok id, session) ∧ session.Knows (.target target) id := by
  obtain ⟨id, hknown⟩ := h.targets target htarget
  exact ⟨id, Session.native_of_knows hknown, hknown⟩

theorem object_target (h : session.Laid project) (hkinds : KindsApart project.nodes)
    (htarget : target ∈ project.targets) (hknown : session.Knows (.target target) id) :
    ∃ native, session.backend.object? id = some (.target native) := by
  obtain ⟨object, hobject, hkind⟩ :=
    h.matched.object hkinds (project.target_mem_nodes htarget) hknown
  obtain ⟨native, rfl⟩ := NativeObject.exists_target hkind
  exact ⟨native, hobject⟩

theorem object_scheme (h : session.Laid project) (hkinds : KindsApart project.nodes)
    (htarget : target ∈ project.targets) (hscheme : scheme ∈ target.schemes)
    (hknown : session.Knows (.scheme scheme) id) :
    ∃ native, session.backend.object? id = some (.scheme native) := by
  obtain ⟨object, hobject, hkind⟩ :=
    h.matched.object hkinds (project.scheme_mem_nodes htarget hscheme) hknown
  obtain ⟨native, rfl⟩ := NativeObject.exists_scheme hkind
  exact ⟨native, hobject⟩

theorem of_native (h : session.Laid project) {node : Node} (hnode : node ∈ project.nodes) :
    (session.native node).2.Laid project where
  matched := h.matched.native hnode
  targets target htarget :=
    have ⟨id, hknown⟩ := h.targets target htarget
    ⟨id, (Session.native_remembers node session).knows _ id hknown⟩

theorem performAll (h : session.Laid project) {plan : List Instruction}
    (hwithin : Plan.Within project plan) :
    (Instruction.performAll plan session).2.Laid project where
  matched := Instruction.performAll_keepsMatched hwithin session h.matched
  targets target htarget :=
    have ⟨id, hknown⟩ := h.targets target htarget
    ⟨id, (Instruction.performAll_remembers plan session).knows _ id hknown⟩

end Session.Laid

/-! ## Instructions that are granted -/

/-- What can be asked for once all targets are laid. -/
inductive Instruction.Granted (project : Project) : Instruction → Prop
  | enter (event : Event) : Granted project (.enter event)
  | project : Granted project (.translate (.project project))
  | target {target : Target} (htarget : target ∈ project.targets) :
      Granted project (.translate (.target target))
  | suppress {target : Target} (htarget : target ∈ project.targets) :
      Granted project (.suppress target)
  | scheme {target : Target} {scheme : Scheme} (htarget : target ∈ project.targets)
      (hscheme : scheme ∈ target.schemes) : Granted project (.translate (.scheme scheme))
  | list {target : Target} {test : Option Target} {scheme : Scheme}
      (htarget : target ∈ project.targets) (htest : ∀ bundle ∈ test, bundle ∈ project.targets)
      (hscheme : scheme ∈ target.schemes) : Granted project (.list target test scheme)

namespace Instruction.Granted

variable {project : Project} {instruction : Instruction} {session : Session ν}

theorem mem_nodes (h : instruction.Granted project) :
    ∀ node ∈ instruction.mentions, node ∈ project.nodes := by
  cases h with
  | enter event => simp [mentions]
  | project => simpa [mentions] using project.project_mem_nodes
  | target htarget | suppress htarget => simpa [mentions] using project.target_mem_nodes htarget
  | scheme htarget hscheme => simpa [mentions] using project.scheme_mem_nodes htarget hscheme
  | list htarget htest hscheme =>
    intro node hnode
    simp only [mentions, List.mem_cons, List.mem_append, List.mem_map, Option.mem_toList,
      List.not_mem_nil, or_false] at hnode
    rcases hnode with rfl | ⟨bundle, hbundle, rfl⟩ | rfl
    · exact project.target_mem_nodes htarget
    · exact project.target_mem_nodes (htest bundle hbundle)
    · exact project.scheme_mem_nodes htarget hscheme

theorem exists_native (node : Node) {object : NativeObject} (h : NativeObject.ofNode node = .ok object)
    (session : Session ν) : ∃ id after, session.native node = (.ok id, after) := by
  rw [Session.native_apply, h]
  rcases Entries.find? session.natives node.id with _ | id
  · exact ⟨_, _, rfl⟩
  · exact ⟨id, session, rfl⟩

theorem exists_nativeTarget? (hlaid : session.Laid project) {test : Option Target}
    (htest : ∀ bundle ∈ test, bundle ∈ project.targets) :
    ∃ nativeTest : Option NativeId,
      Session.nativeTarget? test session = (.ok nativeTest, session) ∧
        ∀ id ∈ nativeTest, ∃ bundle ∈ project.targets, session.Knows (.target bundle) id := by
  cases test with
  | none => exact ⟨none, rfl, by simp⟩
  | some bundle =>
    obtain ⟨id, hnative, hknown⟩ := hlaid.native_target (htest bundle rfl)
    refine ⟨some id, bind_of_ok hnative _, ?_⟩
    intro other hother
    obtain rfl := Option.some.inj hother
    exact ⟨bundle, htest bundle rfl, hknown⟩

/-- A scheme goes on the list, under whatever number it is known or becomes known. -/
theorem perform_list (hlaid : session.Laid project) (hkinds : KindsApart project.nodes)
    {target : Target} {test : Option Target} {scheme : Scheme} (htarget : target ∈ project.targets)
    (htest : ∀ bundle ∈ test, bundle ∈ project.targets) (hscheme : scheme ∈ target.schemes) :
    ∃ after, (Instruction.list target test scheme).perform session = (.ok (), after) := by
  obtain ⟨id, hnative, hknown⟩ := hlaid.native_target htarget
  obtain ⟨nativeTest, htests, hbundles⟩ := exists_nativeTarget? hlaid htest
  obtain ⟨number, middle, hnumber⟩ := exists_native (.scheme scheme) rfl session
  -- What is known by now is of the right kind, so the edit goes through.
  have hmiddle := hlaid.of_native (project.scheme_mem_nodes htarget hscheme)
  have hremembers := Session.native_remembers (.scheme scheme) session
  rw [hnumber] at hmiddle hremembers
  obtain ⟨s, hs⟩ := hmiddle.object_scheme hkinds htarget hscheme (Session.knows_of_native hnumber)
  obtain ⟨t, ht⟩ := hmiddle.object_target hkinds htarget (hremembers.knows _ _ hknown)
  have hb : ∀ bundle ∈ nativeTest, ∃ b, middle.backend.object? bundle = some (.target b) := by
    intro bundle hbundle
    obtain ⟨test, htest, hknown⟩ := hbundles bundle hbundle
    exact hmiddle.object_target hkinds htest (hremembers.knows _ _ hknown)
  have hfilled := Backend.fillScheme_apply scheme hs ht hb
  rw [perform, bind_of_ok hnative, bind_of_ok htests, bind_of_ok hnumber]
  exact ⟨_, Session.edit_of_ok hfilled⟩

theorem perform (h : instruction.Granted project) (hlaid : session.Laid project)
    (hkinds : KindsApart project.nodes) :
    ∃ after, instruction.perform session = (.ok (), after) := by
  cases h with
  | enter event => exact ⟨_, rfl⟩
  | project =>
    obtain ⟨id, after, hnative⟩ := exists_native (.project project) rfl session
    exact ⟨after, bind_of_ok hnative _⟩
  | target htarget =>
    obtain ⟨id, hnative, -⟩ := hlaid.native_target htarget
    exact ⟨session, bind_of_ok hnative _⟩
  | suppress htarget =>
    obtain ⟨id, hnative, -⟩ := hlaid.native_target htarget
    exact ⟨_, bind_of_ok hnative _⟩
  | scheme htarget hscheme =>
    obtain ⟨id, after, hnative⟩ := exists_native (.scheme _) rfl session
    exact ⟨after, bind_of_ok hnative _⟩
  | list htarget htest hscheme => exact perform_list hlaid hkinds htarget htest hscheme

end Instruction.Granted

namespace Plan

variable {project : Project} {plan first second : List Instruction} {error : PipelineError}

/-- All instructions are granted up to one that fails by itself. -/
def Fails (project : Project) (error : PipelineError) (plan : List Instruction) : Prop :=
  ∃ done rest, plan = done ++ .fail error :: rest ∧
    ∀ instruction ∈ done, instruction.Granted project

namespace Fails

theorem head (rest : List Instruction) : Fails project error (.fail error :: rest) :=
  ⟨[], rest, rfl, by simp⟩

theorem append_left (hfirst : ∀ instruction ∈ first, instruction.Granted project)
    (h : Fails project error second) : Fails project error (first ++ second) := by
  obtain ⟨done, rest, rfl, hdone⟩ := h
  refine ⟨first ++ done, rest, by simp, ?_⟩
  intro instruction hinstruction
  exact (List.mem_append.1 hinstruction).elim (hfirst instruction) (hdone instruction)

theorem append_right (h : Fails project error first) (second : List Instruction) :
    Fails project error (first ++ second) := by
  obtain ⟨done, rest, rfl, hdone⟩ := h
  exact ⟨done, rest ++ second, by simp, hdone⟩

/-- Items that are granted come before one that fails. -/
theorem flatMap {α : Type} {before after : List α} {item : α} {part : α → List Instruction}
    (hbefore : ∀ other ∈ before, ∀ instruction ∈ part other, instruction.Granted project)
    (h : Fails project error (part item)) :
    Fails project error ((before ++ item :: after).flatMap part) := by
  rw [List.flatMap_append, List.flatMap_cons]
  refine append_left ?_ (h.append_right _)
  intro instruction hinstruction
  obtain ⟨other, hother, hmem⟩ := List.mem_flatMap.1 hinstruction
  exact hbefore other hother instruction hmem

/-- Carried out when all targets are laid, the plan ends with its error. -/
theorem performAll (h : Fails project error plan) {session : Session ν} (hlaid : session.Laid project)
    (hkinds : KindsApart project.nodes) :
    ∃ after, Instruction.performAll plan session = (.error error, after) := by
  obtain ⟨done, rest, rfl, hdone⟩ := h
  induction done generalizing session with
  | nil => exact ⟨session, bind_of_error rfl _⟩
  | cons instruction more ih =>
    have hgranted := hdone instruction List.mem_cons_self
    obtain ⟨middle, hfirst⟩ := hgranted.perform hlaid hkinds
    -- The session stays one in which all targets are laid.
    have hwithin : Within project [instruction] := by
      intro other hother
      rw [List.mem_singleton.1 hother]
      exact hgranted.mem_nodes
    have hmiddle := hlaid.performAll hwithin
    have hone : Instruction.performAll [instruction] session = (.ok (), middle) := by
      rw [Instruction.performAll_cons]
      exact bind_of_ok hfirst _
    rw [hone] at hmiddle
    obtain ⟨after, hrun⟩ := ih hmiddle fun other hother => hdone other (List.mem_cons_of_mem _ hother)
    exact ⟨after, (bind_of_ok hfirst _).trans hrun⟩

end Fails

/-- The instructions before those about schemes. -/
def laying (project : Project) : List Instruction :=
  [projectStructure project, targets project, configurations project].flatMap fun pass =>
    pass.plan project

theorem standard_eq_laying (policy : TestTargetPolicy) (project : Project) :
    standard policy project = laying project ++ (schemes policy project).plan project := by
  simp [standard, laying, passes]

theorem within_laying (project : Project) : Within project (laying project) := by
  -- The policy does not matter, so any will do.
  have hstandard : Within project (standard .unique project) := within_standard
  rw [standard_eq_laying] at hstandard
  exact fun instruction hinstruction => hstandard instruction (List.mem_append_left _ hinstruction)

theorem translate_mem_laying {target : Target} (htarget : target ∈ project.targets) :
    .translate (.target target) ∈ laying project := by
  have hpass : targets project ∈
      [projectStructure project, targets project, configurations project] := by simp
  exact List.mem_flatMap.2
    ⟨targets project, hpass, Pass.mem_plan_of_onTarget htarget (by simp [targets])⟩

end Plan

/-! ## The pipeline without schemes -/

namespace Pipeline

/-- A run without schemes that succeeds lays all targets, by instructions with which any standard run
begins. -/
theorem laid_of_laying {project : Project} {supply : Supply} {backend : Backend}
    {summary : RunSummary} (h : ((laying (ν := ν) []).run project supply backend).1 = .ok summary) :
    ∃ entered : Session ν,
      Instruction.performAll (Plan.laying project) (Session.start project supply backend) =
          (.ok (), entered) ∧
        entered.Laid project := by
  have hrun : (laying (ν := ν) []).run project supply backend =
      (.ok summary, ((laying (ν := ν) []).run project supply backend).2) := by rw [← h]
  obtain ⟨generators, entered, -, hordered, hentered, -⟩ := run_eq_ok hrun
  obtain rfl : (laying []).generators = generators := Except.ok.inj hordered
  have hplan : Instruction.performAll (Plan.laying project)
      (Session.start (ν := ν) project supply backend) = (.ok (), entered) := by
    rw [← hentered]
    exact (enterAll_passes rfl (.cons Generators.projectStructure_walksAs
      (.cons Generators.targets_walksAs (.cons Generators.configurations_walksAs .nil)))
      supply backend).symm
  refine ⟨entered, hplan, ?_, ?_⟩
  · have hkeeps := Instruction.performAll_keepsMatched (ν := ν) (Plan.within_laying project)
      (Session.start project supply backend) nofun
    rwa [hplan] at hkeeps
  · intro target htarget
    exact Instruction.exists_knows_of_performAll hplan (Plan.translate_mem_laying htarget)

end Pipeline

end ProjectCompiler
