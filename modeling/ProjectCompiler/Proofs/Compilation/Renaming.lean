import ProjectCompiler.Proofs.Compilation.Standard
import ProjectCompiler.Proofs.Project.Renaming

/-!
# Renaming — compilation does not depend on identities

Identities only tell objects apart. The instructions of the standard pipeline are found by names and
places, so a project under other identities gets the same instructions under these identities; and a
session that knows the same native objects under the other identities answers them alike, as long as
no two identities become one.

- `Plan.standard_renamed`: the instructions of a renamed project are the renamed instructions;
- `Agree`: two runs that do the same to sessions whose known nodes are renamed;
- `Pipeline.standard_identity_independent`: the result and the backend of a run stay the same.
-/

namespace ProjectCompiler

open Stateful

variable {ν α β : Type}

/-! ## Renamed instructions -/

section Renamed

variable (rename : Identity → Identity)

def Event.renamed : Event → Event
  | .visitConfiguration generator configuration =>
      .visitConfiguration generator (configuration.renamed rename)
  | .leaveConfiguration generator configuration =>
      .leaveConfiguration generator (configuration.renamed rename)
  | .visitTarget generator target => .visitTarget generator (target.renamed rename)
  | .leaveTarget generator target => .leaveTarget generator (target.renamed rename)
  | event => event

def Instruction.renamed : Instruction → Instruction
  | enter event => enter (event.renamed rename)
  | translate node => translate (node.renamed rename)
  | group project name => group (project.renamed rename) name
  | attach parent child => attach (parent.renamed rename) (child.renamed rename)
  | settle configuration => settle (configuration.renamed rename)
  | suppress target => suppress (target.renamed rename)
  | list target test scheme =>
      list (target.renamed rename) (test.map (Target.renamed rename)) (scheme.renamed rename)
  | stage => stage
  | fail error => fail error

/-- A pass that does the same to objects under other identities. -/
structure Pass.RenamesTo (first second : Pass) : Prop where
  name : second.name = first.name
  onProject : second.onProject = first.onProject.map (Instruction.renamed rename)
  onConfiguration : ∀ configuration : BuildConfiguration,
    second.onConfiguration (configuration.renamed rename) =
      (first.onConfiguration configuration).map (Instruction.renamed rename)
  onTarget : ∀ target : Target, second.onTarget (target.renamed rename) =
    (first.onTarget target).map (Instruction.renamed rename)
  onLeave : second.onLeave = first.onLeave.map (Instruction.renamed rename)

theorem Pass.RenamesTo.plan {rename : Identity → Identity} {first second : Pass}
    (h : Pass.RenamesTo rename first second) (project : Project) :
    second.plan (project.renamed rename) =
      (first.plan project).map (Instruction.renamed rename) := by
  simp only [Pass.plan, Project.flattenConfigurations_renamed, List.flatMap_map, List.map_append,
    List.map_cons, List.map_flatMap, List.map_nil, h.name, h.onProject, h.onConfiguration, h.onLeave,
    Instruction.renamed, Event.renamed]
  simp only [Project.renamed, List.flatMap_map, h.onTarget]

namespace Plan

variable (policy : TestTargetPolicy) (project : Project) (target : Target)

theorem projectStructure_renamed :
    Pass.RenamesTo rename (projectStructure project) (projectStructure (project.renamed rename)) where
  name := rfl
  onProject := by
    simp [projectStructure, Instruction.renamed, Node.renamed, Function.comp_def]
  onConfiguration _ := rfl
  onTarget _ := rfl
  onLeave := rfl

theorem linkHost_renamed : linkHost (project.renamed rename) (target.renamed rename) =
    (linkHost project target).map (Instruction.renamed rename) := by
  have hhost : (target.renamed rename).host = target.host := rfl
  rw [linkHost, linkHost, hhost]
  rcases target.host with _ | host
  · rfl
  · dsimp only
    rw [Project.target?_renamed]
    rcases project.target? host with _ | hostTarget
    · rfl
    · rfl

theorem targets_renamed :
    Pass.RenamesTo rename (targets project) (targets (project.renamed rename)) where
  name := rfl
  onProject := rfl
  onConfiguration _ := rfl
  onTarget target := by
    simp [targets, linkHost_renamed, Instruction.renamed, Node.renamed]
  onLeave := rfl

theorem configurations_renamed :
    Pass.RenamesTo rename (configurations project) (configurations (project.renamed rename)) where
  name := rfl
  onProject := rfl
  onConfiguration _ := rfl
  onTarget target := by
    simp only [configurations, Project.flattenTarget_renamed, List.flatMap_map, List.map_cons,
      List.map_flatMap]
    rfl
  onLeave := rfl

theorem addScheme_renamed (test : Option Target) (scheme : Scheme) :
    addScheme (project.renamed rename) (target.renamed rename) (test.map (Target.renamed rename))
        (scheme.renamed rename) =
      (addScheme project target test scheme).map (Instruction.renamed rename) := by
  have hunknown : Generators.firstUnknownConfiguration? (project.renamed rename)
      (scheme.renamed rename) = Generators.firstUnknownConfiguration? project scheme := by
    simp only [Generators.firstUnknownConfiguration?, Project.hasConfiguration_renamed]
    rfl
  rw [addScheme, addScheme, hunknown]
  rcases Generators.firstUnknownConfiguration? project scheme with _ | ⟨action, configuration⟩
  · rfl
  · rfl

theorem unitTestTarget_renamed :
    Generators.unitTestTarget policy (project.renamed rename) (target.renamed rename) =
      (Generators.unitTestTarget policy project target).map (Option.map (Target.renamed rename)) := by
  simp only [Generators.unitTestTarget, Project.unitTestTargets_renamed]
  rcases project.unitTestTargets target with _ | ⟨first, _ | ⟨second, rest⟩⟩
  · rfl
  · rfl
  · cases policy with
    | firstMatch => rfl
    | unique =>
      -- The error names targets, by names alone.
      have hnames : (rest.map (Target.renamed rename)).map Target.name = rest.map Target.name := by
        simp [Target.renamed, Function.comp_def]
      simp only [List.map_cons, Except.map, hnames]
      rfl

theorem addSchemes_renamed :
    addSchemes policy (project.renamed rename) (target.renamed rename) =
      (addSchemes policy project target).map (Instruction.renamed rename) := by
  have hschemes : (target.renamed rename).schemes = target.schemes.map (Scheme.renamed rename) := rfl
  have hadd := addScheme_renamed rename project target
  rw [addSchemes, addSchemes, hschemes, unitTestTarget_renamed]
  rcases target.schemes with _ | ⟨scheme, rest⟩
  · rfl
  · rcases Generators.unitTestTarget policy project target with error | _ | test
    · rfl
    · have hnone := hadd none
      rw [Option.map_none] at hnone
      simp only [Except.map, Option.map_none, List.map_cons, List.flatMap_cons, List.flatMap_map,
        List.map_append, List.map_flatMap, hnone]
    · have hsome := hadd (some test)
      rw [Option.map_some] at hsome
      simp only [Except.map, Option.map_some, List.map_cons, List.flatMap_cons, List.flatMap_map,
        List.map_append, List.map_flatMap, hsome]
      rfl

theorem schemes_renamed :
    Pass.RenamesTo rename (schemes policy project) (schemes policy (project.renamed rename)) where
  name := rfl
  onProject := rfl
  onConfiguration _ := rfl
  onTarget target := by
    simp [schemes, addSchemes_renamed, Instruction.renamed, Node.renamed]
  onLeave := rfl

/-- A renamed project is compiled by the same instructions, renamed. -/
theorem standard_renamed : standard policy (project.renamed rename) =
    (standard policy project).map (Instruction.renamed rename) := by
  simp only [standard, passes, List.flatMap_cons, List.flatMap_nil, List.map_append, List.map_nil,
    (projectStructure_renamed rename project).plan, (targets_renamed rename project).plan,
    (configurations_renamed rename project).plan, (schemes_renamed rename policy project).plan]

end Plan

end Renamed

/-! ## Sessions that know renamed nodes -/

/-- A look-up is not disturbed by a renaming under which no two of the keys become one. -/
theorem Entries.find?_rename {κ α : Type} [DecidableEq κ] {rename : κ → κ} {entries : List (κ × α)}
    {key : κ} (h : ∀ entry ∈ entries, rename entry.1 = rename key → entry.1 = key) :
    find? (entries.map fun entry => (rename entry.1, entry.2)) (rename key) = find? entries key := by
  induction entries with
  | nil => rfl
  | cons entry rest ih =>
    obtain ⟨first, value⟩ := entry
    have hrest := ih fun other hother => h other (List.mem_cons_of_mem _ hother)
    by_cases hfirst : first = key
    · simp [find?, hfirst]
    · have hne : rename first ≠ rename key := fun heq => hfirst (h _ List.mem_cons_self heq)
      rw [List.map_cons, find?, find?, if_neg hne, if_neg hfirst, hrest]

/-- The second session is at the same point as the first, with its nodes renamed. What is known stands
under identities of the project. -/
structure Session.Alike (rename : Identity → Identity) (ids : List Identity)
    (first second : Session ν) : Prop where
  backend : second.backend = first.backend
  natives : second.natives = first.natives.map fun entry => (rename entry.1, entry.2)
  known : ∀ entry ∈ first.natives, entry.1 ∈ ids
  staged : second.staged = first.staged

/-- The runs give the same result and lead from sessions that are alike to such sessions. -/
def Agree (rename : Identity → Identity) (ids : List Identity) (x y : Run ν α) : Prop :=
  ∀ first second, first.Alike rename ids second →
    (y second).1 = (x first).1 ∧ (x first).2.Alike rename ids (y second).2

namespace Agree

variable {rename : Identity → Identity} {ids : List Identity} {x y : Run ν α}

theorem pure (a : α) : Agree rename ids (Pure.pure a : Run ν α) (Pure.pure a) :=
  fun _ _ h => ⟨rfl, h⟩

theorem throw (error : PipelineError) :
    Agree rename ids (MonadExcept.throw error : Run ν α) (MonadExcept.throw error) :=
  fun _ _ h => ⟨rfl, h⟩

/-- Runs that agree are in step, their results read as they are. -/
theorem iff_inStep : Agree rename ids x y ↔ InStep (Session.Alike rename ids) id id x y := by
  have hresult : ∀ result : Except PipelineError α, (result.map id).mapError id = result := by
    intro result
    cases result <;> rfl
  simp only [Agree, InStep, hresult]

theorem bind {f g : α → Run ν β} (hx : Agree rename ids x y)
    (hf : ∀ a, Agree rename ids (f a) (g a)) : Agree rename ids (x >>= f) (y >>= g) :=
  iff_inStep.2 ((iff_inStep.1 hx).bind fun a => iff_inStep.1 (hf a))

theorem enter (event other : Event) :
    Agree (ν := ν) rename ids (Session.enter event) (Session.enter other) :=
  fun _ _ h => ⟨rfl, h.backend, h.natives, h.known, h.staged⟩

theorem stage : Agree (ν := ν) rename ids
    (modify fun session => { session with staged := true })
    (modify fun session => { session with staged := true }) :=
  fun _ _ h => ⟨rfl, h.backend, h.natives, h.known, rfl⟩

theorem edit (wrap : BackendError → PipelineError) (change : Edit α) :
    Agree (ν := ν) rename ids (Session.edit wrap change) (Session.edit wrap change) := by
  intro first second h
  rw [Session.edit_apply, Session.edit_apply, h.backend]
  exact ⟨rfl, rfl, h.natives, h.known, h.staged⟩

/-- A node is known in both sessions or in neither. -/
theorem native (hrename : Set.InjOn rename {id | id ∈ ids}) (node : Node) (hnode : node.id ∈ ids) :
    Agree (ν := ν) rename ids (Session.native node) (Session.native (node.renamed rename)) := by
  intro first second h
  have hfind : Entries.find? second.natives (node.renamed rename).id =
      Entries.find? first.natives node.id := by
    rw [h.natives, node.id_renamed]
    exact Entries.find?_rename fun entry hentry heq => hrename (h.known entry hentry) hnode heq
  have hobject : NativeObject.ofNode (node.renamed rename) = NativeObject.ofNode node := by
    cases node <;> rfl
  rw [Session.native_apply, Session.native_apply, hfind, hobject, node.text_renamed, h.backend]
  rcases Entries.find? first.natives node.id with _ | id
  · rcases NativeObject.ofNode node with error | object
    · exact ⟨rfl, h⟩
    · refine ⟨rfl, rfl, ?_, ?_, h.staged⟩
      · simp [h.natives, node.id_renamed]
      · intro entry hentry
        rcases List.mem_append.1 hentry with hold | hnew
        · exact h.known entry hold
        · rw [List.mem_singleton.1 hnew]
          exact hnode
  · exact ⟨rfl, h⟩

theorem nativeTarget? (hrename : Set.InjOn rename {id | id ∈ ids}) {test : Option Target}
    (htest : ∀ target ∈ test, target.id ∈ ids) :
    Agree (ν := ν) rename ids (Session.nativeTarget? test)
      (Session.nativeTarget? (test.map (Target.renamed rename))) := by
  cases test with
  | none => exact pure none
  | some target => exact (native hrename (.target target) (htest target rfl)).bind fun _ => pure _

theorem perform (hrename : Set.InjOn rename {id | id ∈ ids}) (instruction : Instruction)
    (h : ∀ node ∈ instruction.mentions, node.id ∈ ids) :
    Agree (ν := ν) rename ids instruction.perform (instruction.renamed rename).perform := by
  cases instruction with
  | enter event => exact enter event _
  | translate node =>
    exact (native hrename node (h node (by simp [Instruction.mentions]))).bind fun _ => pure _
  | group project name =>
    refine (native hrename (.project project) (h _ (by simp [Instruction.mentions]))).bind
      fun id => ?_
    exact (edit _ _).bind fun _ => pure _
  | attach parent child =>
    refine (native hrename parent (h parent (by simp [Instruction.mentions]))).bind fun nativeParent => ?_
    exact (native hrename child (h child (by simp [Instruction.mentions]))).bind fun nativeChild => edit _ _
  | settle configuration =>
    exact (native hrename (.configuration configuration)
      (h _ (by simp [Instruction.mentions]))).bind fun id => edit _ _
  | suppress target =>
    exact (native hrename (.target target) (h _ (by simp [Instruction.mentions]))).bind
      fun id => edit _ _
  | list target test scheme =>
    refine (native hrename (.target target) (h _ (by simp [Instruction.mentions]))).bind
      fun nativeTarget => ?_
    have htest : ∀ bundle ∈ test, bundle.id ∈ ids := by
      intro bundle hbundle
      exact h (.target bundle) (by simp [Instruction.mentions, Option.mem_def.1 hbundle])
    refine (nativeTarget? hrename htest).bind fun nativeTest => ?_
    exact (native hrename (.scheme scheme) (h _ (by simp [Instruction.mentions]))).bind
      fun id => edit _ _
  | stage => exact stage
  | fail error => exact throw error

theorem performAll (hrename : Set.InjOn rename {id | id ∈ ids}) {plan : List Instruction}
    (h : ∀ instruction ∈ plan, ∀ node ∈ instruction.mentions, node.id ∈ ids) :
    Agree (ν := ν) rename ids (Instruction.performAll plan)
      (Instruction.performAll (plan.map (Instruction.renamed rename))) := by
  induction plan with
  | nil => exact pure ()
  | cons instruction rest ih =>
    have hrest := ih fun other hother => h other (List.mem_cons_of_mem _ hother)
    exact (perform hrename instruction (h instruction List.mem_cons_self)).bind fun _ => hrest

theorem commit : Agree (ν := ν) rename ids Session.commit Session.commit := by
  intro first second h
  rw [Session.commit_apply, Session.commit_apply, h.staged, h.backend]
  split
  · rcases Backend.save first.backend with ⟨error | answer, backend⟩
    · exact ⟨rfl, rfl, h.natives, h.known, rfl⟩
    · exact ⟨rfl, rfl, h.natives, h.known, rfl⟩
  · exact ⟨rfl, h⟩

end Agree

/-! ## Runs -/

namespace Pipeline

variable {policy : TestTargetPolicy} {project : Project}

theorem run_standard_renamed {rename : Identity → Identity}
    (hrename : Set.InjOn rename {id | id ∈ project.identities}) (policy : TestTargetPolicy)
    (supply other : Supply) (backend : Backend) :
    ((Pipeline.standard (ν := ν) policy).run (project.renamed rename) other backend).1 =
        ((Pipeline.standard (ν := ν) policy).run project supply backend).1 ∧
      ((Pipeline.standard (ν := ν) policy).run (project.renamed rename) other backend).2.backend =
        ((Pipeline.standard (ν := ν) policy).run project supply backend).2.backend := by
  have hstart : (Session.start (ν := ν) project supply backend).Alike rename project.identities
      (Session.start (project.renamed rename) other backend) :=
    ⟨rfl, rfl, nofun, rfl⟩
  have hwithin : ∀ instruction ∈ Plan.standard policy project, ∀ node ∈ instruction.mentions,
      node.id ∈ project.identities := by
    intro instruction hinstruction node hnode
    rw [← Project.map_id_nodes]
    exact List.mem_map_of_mem (Plan.within_standard instruction hinstruction node hnode)
  obtain ⟨hresult, hentered⟩ := Agree.performAll (ν := ν) hrename hwithin _ _ hstart
  rw [run_standard, run_standard, Plan.standard_renamed]
  rcases hfirst : Instruction.performAll (ν := ν) (Plan.standard policy project)
    (Session.start project supply backend) with ⟨result, entered⟩
  rcases hsecond : Instruction.performAll (ν := ν)
    ((Plan.standard policy project).map (Instruction.renamed rename))
    (Session.start (project.renamed rename) other backend) with ⟨result', entered'⟩
  rw [hfirst, hsecond] at hresult hentered
  obtain rfl : result' = result := hresult
  cases result' with
  | error error => exact ⟨rfl, hentered.backend⟩
  | ok answer =>
    obtain ⟨hcommitted, hafter⟩ := Agree.commit entered entered' hentered
    dsimp only
    rcases hcommit : Session.commit entered with ⟨committed, after⟩
    rcases hcommit' : Session.commit entered' with ⟨committed', after'⟩
    rw [hcommit, hcommit'] at hcommitted hafter
    obtain rfl : committed' = committed := hcommitted
    cases committed' with
    | error error => exact ⟨rfl, hafter.backend⟩
    | ok was =>
      have hcount : after'.natives.length = after.natives.length := by
        rw [hafter.natives, List.length_map]
      exact ⟨by dsimp only; rw [hcount], hafter.backend⟩

/-- Under other identities, none of which two objects share, a project compiles to the same result and
the same backend; so does its clone. -/
theorem standard_identity_independent (policy : TestTargetPolicy) (project : Project)
    (hids : project.identities.Nodup) (supply other : Supply) (backend : Backend) :
    let outcome := (Pipeline.standard (ν := ν) policy).run project supply backend
    (∀ rename : Identity → Identity, Set.InjOn rename {id | id ∈ project.identities} →
      let renamed := (Pipeline.standard (ν := ν) policy).run (project.renamed rename) other backend
      renamed.1 = outcome.1 ∧ renamed.2.backend = outcome.2.backend) ∧
    ∀ source : Supply,
      let cloned := (Pipeline.standard (ν := ν) policy).run (project.clone source).1 other backend
      cloned.1 = outcome.1 ∧ cloned.2.backend = outcome.2.backend := by
  refine ⟨fun rename hrename => run_standard_renamed hrename policy supply other backend, ?_⟩
  intro source
  obtain ⟨rename, hrename, hclone⟩ := project.clone_eq_renamed hids source
  rw [hclone]
  exact run_standard_renamed hrename policy supply other backend

/-- An application with a scheme and its tests, moved up by a hundred and cloned. -/
theorem moved_identities_compile_alike :
    let application := { (Target.new "App" .application .ios "17.0" ⟨10⟩).1 with
      schemes := [(Scheme.new "App" ⟨15⟩).1] }
    let tests := (Target.unitTestBundle "AppTests" application ⟨20⟩).1
    let project := { (Project.new "Demo" ⟨0⟩).1 with targets := [tests, application] }
    let up : Identity → Identity := fun id => ⟨id.number + 100⟩
    let pipeline := Pipeline.standard (ν := Nat) .unique
    (project.identities.Nodup ∧ Set.InjOn up {id | id ∈ project.identities}) ∧
      let outcome := pipeline.run project ⟨60⟩ Backend.empty
      (let moved := pipeline.run (project.renamed up) ⟨60⟩ Backend.empty
       moved.1 = outcome.1 ∧ moved.2.backend = outcome.2.backend) ∧
      let cloned := pipeline.run (project.clone ⟨30⟩).1 ⟨60⟩ Backend.empty
      cloned.1 = outcome.1 ∧ cloned.2.backend = outcome.2.backend := by
  intro application tests project up pipeline
  have hids : project.identities.Nodup := by decide
  have hup : Set.InjOn up {id | id ∈ project.identities} := by
    rintro ⟨first⟩ - ⟨second⟩ - heq
    exact congrArg Identity.mk (Nat.add_right_cancel (Identity.mk.inj heq))
  obtain ⟨hmoved, hcloned⟩ :=
    standard_identity_independent (ν := Nat) .unique project hids ⟨60⟩ ⟨60⟩ Backend.empty
  -- The runs are not evaluated: nothing more is asked of the project.
  clear_value up project
  subst pipeline
  exact ⟨⟨hids, hup⟩, hmoved up hup, hcloned ⟨30⟩⟩

end Pipeline

end ProjectCompiler
