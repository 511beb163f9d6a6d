import ProjectCompiler.Generators.Schemes
import ProjectCompiler.Proofs.Compilation.Instruction
import ProjectCompiler.Proofs.Pipeline.Calls
import Mathlib.Data.List.Forall2

/-!
# Plan — the instructions of the standard pipeline

The standard pipeline decides what to do by the model alone. What it does to a project is one list of
instructions, a pass for each of its four generators, and the run carries that list out.

- `Plan.standard`: the instructions of a run;
- `Pipeline.enterAll_passes`: the callbacks of generators carry out their passes;
- `Pipeline.enterAll_standard`: the callbacks of a run together carry them out.
-/

namespace ProjectCompiler

open Stateful

variable {ν : Type}

/-! ## What each generator does -/

/-- The walk of one generator over the model. -/
structure Pass where
  name : String
  onProject : List Instruction := []
  onConfiguration : BuildConfiguration → List Instruction := fun _ => []
  onTarget : Target → List Instruction := fun _ => []
  onLeave : List Instruction := []

namespace Pass

def plan (pass : Pass) (project : Project) : List Instruction :=
  .enter (.visitProject pass.name) :: pass.onProject ++
    (project.flattenConfigurations.flatMap fun configuration =>
      .enter (.visitConfiguration pass.name configuration) :: pass.onConfiguration configuration ++
        [.enter (.leaveConfiguration pass.name configuration)]) ++
    (project.targets.flatMap fun target =>
      .enter (.visitTarget pass.name target) :: pass.onTarget target ++
        [.enter (.leaveTarget pass.name target)]) ++
    .enter (.leaveProject pass.name) :: pass.onLeave

end Pass

namespace Plan

variable (policy : TestTargetPolicy) (project : Project)

def projectStructure : Pass where
  name := "project-structure"
  onProject :=
    .translate (.project project) :: Generators.defaultGroups.map (.group project)

/-- A target depends on its host. -/
def linkHost (target : Target) : List Instruction :=
  match target.host with
  | none => []
  | some host =>
      match project.target? host with
      | none => [.fail (.unresolvedHost target.name host)]
      | some hostTarget =>
          [.translate (.target hostTarget), .attach (.target target) (.target hostTarget)]

def targets : Pass where
  name := "target"
  onTarget target :=
    .translate (.project project) :: .translate (.target target) ::
      .attach (.project project) (.target target) :: linkHost project target

def placeConfiguration (owner : Node) (configuration : BuildConfiguration) : List Instruction :=
  [.translate (.configuration configuration), .settle configuration,
    .attach owner (.configuration configuration)]

def configurations : Pass where
  name := "configuration"
  onConfiguration configuration :=
    .translate (.project project) :: placeConfiguration (.project project) configuration
  onTarget target :=
    .translate (.target target) ::
      (project.flattenTarget target).flatMap (placeConfiguration (.target target))

def addScheme (target : Target) (test : Option Target) (scheme : Scheme) : List Instruction :=
  match Generators.firstUnknownConfiguration? project scheme with
  | some (action, configuration) =>
      [.fail (.unknownConfiguration scheme.name configuration action)]
  | none => [.translate (.scheme scheme), .list target test scheme]

/-- The schemes of a target; its test bundle matters only if there are some. -/
def addSchemes (target : Target) : List Instruction :=
  match target.schemes, Generators.unitTestTarget policy project target with
  | [], _ => []
  | _, .error error => [.fail error]
  | schemes, .ok none => schemes.flatMap (addScheme project target none)
  | schemes, .ok (some test) =>
      .translate (.target test) :: .suppress test ::
        schemes.flatMap (addScheme project target (some test))

def schemes : Pass where
  name := "scheme"
  onProject := [.translate (.project project)]
  onTarget target :=
    .translate (.target target) :: .suppress target :: addSchemes policy project target
  onLeave := [.stage]

def passes : List Pass :=
  [projectStructure project, targets project, configurations project, schemes policy project]

/-- All instructions of a run of the standard pipeline. -/
def standard : List Instruction :=
  (passes policy project).flatMap fun pass => pass.plan project

end Plan

/-! ## Edits of known objects -/

namespace Session

theorem edit_bind {α β : Type} (wrap : BackendError → PipelineError) (x : Edit α)
    (f : α → Edit β) :
    edit (ν := ν) wrap (x >>= f) = edit wrap x >>= fun a => edit wrap (f a) := by
  funext session
  rcases hx : x session.backend with ⟨result, backend⟩
  cases result with
  | error error =>
    rw [bind_of_error (edit_of_error hx), edit_of_error (bind_of_error hx f)]
  | ok a =>
    rw [bind_of_ok (edit_of_ok hx), edit_apply, bind_of_ok hx, edit_apply]

theorem edit_forM {α : Type} (wrap : BackendError → PipelineError) (items : List α)
    (f : α → Edit Unit) :
    edit (ν := ν) wrap (items.forM f) = items.forM fun item => edit wrap (f item) := by
  induction items with
  | nil => rfl
  | cons item rest ih =>
    have hcons : (item :: rest).forM f = f item >>= fun _ => rest.forM f := rfl
    rw [hcons, edit_bind, ih]
    rfl

end Session

namespace CarriesOut

variable {project : Project} {known : List (Node × NativeId)}

/-- A look-up that is answered from what is known. -/
theorem native_bind_of_mem {β : Type} {node : Node} {id : NativeId} (h : (node, id) ∈ known)
    {session : Session ν} (hsession : session.Recalls project known) (f : NativeId → Run ν β) :
    (Session.native node >>= f) session = f id session :=
  bind_of_ok (Session.native_of_knows (hsession.knows _ h)) f

theorem single {x : Run ν Unit} {instruction : Instruction}
    (h : ∀ session, session.Recalls project known → x session = instruction.perform session) :
    CarriesOut project known x [instruction] := by
  intro session hsession
  have hall : Instruction.performAll (ν := ν) [instruction] = instruction.perform := by
    simp [Instruction.performAll]
  rw [hall, h session hsession]

theorem group {native : NativeId} (h : (.project project, native) ∈ known) (name : String) :
    CarriesOut (ν := ν) project known
      (Session.edit .backend (Backend.createGroup native name) >>= fun _ => pure ())
      [.group project name] := by
  apply single
  intro session hsession
  rw [Instruction.perform, native_bind_of_mem h hsession]

theorem attach {parent child : Node} {nativeParent nativeChild : NativeId}
    (hparent : (parent, nativeParent) ∈ known) (hchild : (child, nativeChild) ∈ known) :
    CarriesOut (ν := ν) project known
      (Session.edit .backend (Backend.attach nativeParent nativeChild)) [.attach parent child] := by
  apply single
  intro session hsession
  rw [Instruction.perform, native_bind_of_mem hparent hsession, native_bind_of_mem hchild hsession]

theorem settle {configuration : BuildConfiguration} {native : NativeId}
    (h : (.configuration configuration, native) ∈ known) :
    CarriesOut (ν := ν) project known
      (Session.edit .backend (Backend.setBuildSettings native configuration.settings))
      [.settle configuration] := by
  apply single
  intro session hsession
  rw [Instruction.perform, native_bind_of_mem h hsession]

theorem suppress {target : Target} {native : NativeId} (h : (.target target, native) ∈ known) :
    CarriesOut (ν := ν) project known (Session.edit .backend (Backend.suppress native))
      [.suppress target] := by
  apply single
  intro session hsession
  rw [Instruction.perform, native_bind_of_mem h hsession]

theorem fail (error : PipelineError) :
    CarriesOut (ν := ν) project known (throw error) [.fail error] :=
  single fun _ _ => rfl

theorem stage : CarriesOut (ν := ν) project known
    (modify fun session => { session with staged := true }) [.stage] :=
  single fun _ _ => rfl

/-- Of a test bundle with its number, if there is one, both are known or neither is needed. -/
theorem nativeTarget?_of_mem {test : Option (Target × NativeId)}
    (h : ∀ entry ∈ test, (.target entry.1, entry.2) ∈ known) {session : Session ν}
    (hsession : session.Recalls project known) :
    Session.nativeTarget? (test.map Prod.fst) session = (.ok (test.map Prod.snd), session) := by
  cases test with
  | none => rfl
  | some entry => exact native_bind_of_mem (h entry rfl) hsession _

theorem list {target : Target} {test : Option (Target × NativeId)} {scheme : Scheme}
    {nativeTarget native : NativeId} (htarget : (.target target, nativeTarget) ∈ known)
    (htest : ∀ entry ∈ test, (.target entry.1, entry.2) ∈ known)
    (hscheme : (.scheme scheme, native) ∈ known) :
    CarriesOut (ν := ν) project known
      (Session.edit .backend
        (Backend.fillScheme nativeTarget (test.map Prod.snd) scheme native))
      [.list target (test.map Prod.fst) scheme] := by
  apply single
  intro session hsession
  rw [Instruction.perform, native_bind_of_mem htarget hsession,
    bind_of_ok (nativeTarget?_of_mem htest hsession), native_bind_of_mem hscheme hsession]

end CarriesOut

/-! ## Generators carry out their passes -/

/-- Hooks that nobody handles. -/
def Pipeline.unhandled (_ : Hook) : Run ν Unit :=
  pure ()

theorem Pipeline.fire_nil (depth : Nat) : Pipeline.fire (ν := ν) [] depth = Pipeline.unhandled := by
  funext hook
  cases depth with
  | zero => rfl
  | succ depth => rfl

/-- Each callback carries out its part of a pass. -/
structure Generator.WalksAs (generator : Generator ν) (project : Project) (pass : Pass) :
    Prop where
  name : generator.info.name = pass.name
  visitProject : CarriesOut project []
    ((generator.visitProject project).run Pipeline.unhandled) pass.onProject
  visitConfiguration : ∀ configuration, CarriesOut project []
    ((generator.visitConfiguration configuration).run Pipeline.unhandled)
    (pass.onConfiguration configuration)
  leaveConfiguration : ∀ configuration, CarriesOut project []
    ((generator.leaveConfiguration configuration).run Pipeline.unhandled) []
  visitTarget : ∀ target, CarriesOut project []
    ((generator.visitTarget target).run Pipeline.unhandled) (pass.onTarget target)
  leaveTarget : ∀ target, CarriesOut project []
    ((generator.leaveTarget target).run Pipeline.unhandled) []
  leaveProject : CarriesOut project []
    ((generator.leaveProject project).run Pipeline.unhandled) pass.onLeave

namespace CarriesOut

open Program

variable {project : Project} {known : List (Node × NativeId)} {plan : List Instruction}

theorem done : CarriesOut (ν := ν) project known
    ((pure () : Program ν Unit).run Pipeline.unhandled) [] :=
  nil

theorem request_project {rest : Project → Program ν Unit}
    (h : CarriesOut project known ((rest project).run Pipeline.unhandled) plan) :
    CarriesOut project known ((Program.project >>= rest).run Pipeline.unhandled) plan := by
  intro session hsession
  have hproject : (Program.project (ν := ν)).run Pipeline.unhandled session =
      (.ok project, session) := by
    rw [← hsession.project]
    rfl
  rw [run_bind, bind_of_ok hproject]
  exact h session hsession

theorem request_native {node : Node} {rest : NativeId → Program ν Unit}
    (h : ∀ id, CarriesOut project ((node, id) :: known) ((rest id).run Pipeline.unhandled) plan) :
    CarriesOut project known ((Program.native node >>= rest).run Pipeline.unhandled)
      (.translate node :: plan) := by
  rw [run_bind, run_native]
  exact native h

/-- A request that carries out one instruction, and what follows it. -/
theorem request_then {program : Program ν Unit} {rest : Program ν Unit} {instruction : Instruction}
    (h : CarriesOut project known (program.run Pipeline.unhandled) [instruction])
    (hrest : CarriesOut project known (rest.run Pipeline.unhandled) plan) :
    CarriesOut project known ((program >>= fun _ => rest).run Pipeline.unhandled)
      (instruction :: plan) := by
  rw [run_bind]
  exact append h hrest

end CarriesOut

namespace Generators

open CarriesOut Program

variable {project : Project} {known : List (Node × NativeId)}

theorem projectStructure_walksAs :
    (projectStructure (ν := ν)).WalksAs project (Plan.projectStructure project) where
  name := rfl
  visitProject := by
    refine request_native fun nativeProject => ?_
    -- The list of group instructions, taken as one short list for each name.
    rw [run_forM, ← List.flatMap_singleton' (List.map _ _), List.flatMap_map]
    refine CarriesOut.forM fun name _ => ?_
    rw [run_bind]
    exact CarriesOut.group List.mem_cons_self name
  visitConfiguration _ := done
  leaveConfiguration _ := done
  visitTarget _ := done
  leaveTarget _ := done
  leaveProject := done

theorem linkHost_carriesOut {target : Target} {native : NativeId} {host : String}
    (hhost : target.host = some host) (h : (.target target, native) ∈ known) :
    CarriesOut (ν := ν) project known
      ((linkHost project target native host).run Pipeline.unhandled)
      (Plan.linkHost project target) := by
  rw [linkHost, Plan.linkHost, hhost]
  dsimp only
  rcases project.target? host with _ | hostTarget
  · exact CarriesOut.fail _
  · exact request_native fun nativeHost =>
      CarriesOut.attach (List.mem_cons_of_mem _ h) List.mem_cons_self

theorem targets_walksAs : (targets (ν := ν)).WalksAs project (Plan.targets project) where
  name := rfl
  visitProject := done
  visitConfiguration _ := done
  leaveConfiguration _ := done
  visitTarget target := by
    refine request_project <| request_native fun nativeProject => request_native fun native => ?_
    refine request_then (CarriesOut.attach (by simp) List.mem_cons_self) ?_
    rcases hhost : target.host with _ | host
    · rw [Plan.linkHost, hhost]
      exact done
    · exact linkHost_carriesOut hhost List.mem_cons_self
  leaveTarget _ := done
  leaveProject := done

theorem placeConfiguration_carriesOut {owner : Node} {nativeOwner : NativeId}
    (configuration : BuildConfiguration) (h : (owner, nativeOwner) ∈ known) :
    CarriesOut (ν := ν) project known
      ((placeConfiguration nativeOwner configuration).run Pipeline.unhandled)
      (Plan.placeConfiguration owner configuration) :=
  request_native fun _ =>
    request_then (CarriesOut.settle List.mem_cons_self)
      (CarriesOut.attach (List.mem_cons_of_mem _ h) List.mem_cons_self)

theorem configurations_walksAs :
    (configurations (ν := ν)).WalksAs project (Plan.configurations project) where
  name := rfl
  visitProject := done
  visitConfiguration configuration :=
    request_project <| request_native fun nativeProject =>
      placeConfiguration_carriesOut configuration List.mem_cons_self
  leaveConfiguration _ := done
  visitTarget target := by
    refine request_project <| request_native fun nativeTarget => ?_
    rw [run_forM]
    exact CarriesOut.forM fun configuration _ =>
      placeConfiguration_carriesOut configuration List.mem_cons_self
  leaveTarget _ := done
  leaveProject := done

theorem addScheme_carriesOut {target : Target} {nativeTarget : NativeId}
    {test : Option (Target × NativeId)} (scheme : Scheme)
    (htarget : (.target target, nativeTarget) ∈ known)
    (htest : ∀ entry ∈ test, (.target entry.1, entry.2) ∈ known) :
    CarriesOut (ν := ν) project known
      ((addScheme project nativeTarget (test.map Prod.snd) scheme).run Pipeline.unhandled)
      (Plan.addScheme project target (test.map Prod.fst) scheme) := by
  rw [addScheme, Plan.addScheme]
  rcases firstUnknownConfiguration? project scheme with _ | ⟨action, configuration⟩
  · refine request_native fun native => ?_
    -- One instruction stands for four requests, the third of them a loop over actions.
    have hlist : CarriesOut (ν := ν) project ((.scheme scheme, native) :: known) _ _ :=
      CarriesOut.list (List.mem_cons_of_mem _ htarget)
        (fun entry hentry => List.mem_cons_of_mem _ (htest entry hentry)) List.mem_cons_self
    simp only [Backend.fillScheme, Session.edit_bind, Session.edit_forM] at hlist
    simp only [run_bind, run_forM]
    exact hlist
  · exact CarriesOut.fail _

theorem addSchemes_carriesOut {target : Target} {nativeTarget : NativeId}
    (test : Option (Target × NativeId)) (schemes : List Scheme)
    (htarget : (.target target, nativeTarget) ∈ known)
    (htest : ∀ entry ∈ test, (.target entry.1, entry.2) ∈ known) :
    CarriesOut (ν := ν) project known
      ((schemes.forM (addScheme project nativeTarget (test.map Prod.snd))).run Pipeline.unhandled)
      (schemes.flatMap (Plan.addScheme project target (test.map Prod.fst))) := by
  rw [run_forM]
  exact CarriesOut.forM fun scheme _ => addScheme_carriesOut scheme htarget htest

theorem schemes_walksAs (policy : TestTargetPolicy) :
    (schemes (ν := ν) policy).WalksAs project (Plan.schemes policy project) where
  name := rfl
  visitProject := request_native fun _ => done
  visitConfiguration _ := done
  leaveConfiguration _ := done
  visitTarget target := by
    refine request_project <| request_native fun nativeTarget => ?_
    refine request_then (CarriesOut.suppress List.mem_cons_self) ?_
    rw [Plan.addSchemes]
    -- Without schemes, no test bundle is looked for.
    rcases target.schemes with _ | ⟨first, rest⟩
    · exact done
    · dsimp only
      rw [suppressTest]
      rcases unitTestTarget policy project target with error | _ | test
      · exact CarriesOut.fail error
      · exact addSchemes_carriesOut none (first :: rest) List.mem_cons_self nofun
      · dsimp only
        rw [Program.bind_assoc]
        refine request_native fun nativeTest => ?_
        rw [Program.bind_assoc]
        refine request_then (CarriesOut.suppress List.mem_cons_self) ?_
        exact addSchemes_carriesOut (some (test, nativeTest)) (first :: rest)
          (List.mem_cons_of_mem _ List.mem_cons_self) (by simp)
  leaveTarget _ := done
  leaveProject := CarriesOut.stage

end Generators

/-! ## The whole run -/

namespace CarriesOut

variable {project : Project}

/-- Entering one callback. -/
theorem enterWith_single {event : Event} {program : Program ν Unit} {plan : List Instruction}
    (h : CarriesOut project [] (program.run Pipeline.unhandled) plan) :
    CarriesOut project [] (Pipeline.enterWith Pipeline.unhandled [⟨event, program⟩])
      (.enter event :: plan) := by
  have hsingle : Pipeline.enterWith Pipeline.unhandled [⟨event, program⟩] =
      Session.enter event >>= fun _ => program.run Pipeline.unhandled := by
    simp [Pipeline.enterWith]
  rw [hsingle]
  exact enter event h

/-- Entering callbacks that come in groups, a group for each item of a list. -/
theorem enterWith_flatMap {α : Type} {items : List α} {callbacks : α → List (Callback ν)}
    {plan : α → List Instruction}
    (h : ∀ item, CarriesOut project [] (Pipeline.enterWith Pipeline.unhandled (callbacks item))
      (plan item)) :
    CarriesOut project [] (Pipeline.enterWith Pipeline.unhandled (items.flatMap callbacks))
      (items.flatMap plan) := by
  induction items with
  | nil => exact nil
  | cons item rest ih =>
    rw [List.flatMap_cons, List.flatMap_cons, Pipeline.enterWith_append]
    exact append (h item) ih

end CarriesOut

namespace Generator.WalksAs

variable {project : Project} {generator : Generator ν} {pass : Pass}

theorem walk (h : generator.WalksAs project pass) :
    CarriesOut project [] (Pipeline.enterWith Pipeline.unhandled
      (generator.walk project)) (pass.plan project) := by
  rw [Generator.walk, Pass.plan, ← h.name]
  simp only [Pipeline.enterWith_append]
  -- In order: the project, its configurations, its targets, and the project on leaving.
  refine CarriesOut.append (CarriesOut.append (CarriesOut.append ?_ ?_) ?_) ?_
  · exact CarriesOut.enterWith_single h.visitProject
  · refine CarriesOut.enterWith_flatMap fun configuration => ?_
    rw [← List.singleton_append, Pipeline.enterWith_append]
    exact CarriesOut.append (CarriesOut.enterWith_single (h.visitConfiguration configuration))
      (CarriesOut.enterWith_single (h.leaveConfiguration configuration))
  · refine CarriesOut.enterWith_flatMap fun target => ?_
    rw [← List.singleton_append, Pipeline.enterWith_append]
    exact CarriesOut.append (CarriesOut.enterWith_single (h.visitTarget target))
      (CarriesOut.enterWith_single (h.leaveTarget target))
  · exact CarriesOut.enterWith_single h.leaveProject

end Generator.WalksAs

namespace Pipeline

theorem ordered_standard (policy : TestTargetPolicy) :
    (Pipeline.standard (ν := ν) policy).ordered = .ok (Generators.standard policy) :=
  rfl

/-- Without plugins, generators that walk as passes carry these passes out. -/
theorem enterAll_passes {pipeline : Pipeline ν} (hplugins : pipeline.plugins = [])
    {project : Project} {generators : List (Generator ν)} {passes : List Pass}
    (h : List.Forall₂ (fun generator pass => generator.WalksAs project pass) generators passes)
    (supply : Supply) (backend : Backend) :
    enterAll pipeline.plugins (pipeline.callbacks project generators)
        (Session.start project supply backend) =
      Instruction.performAll (passes.flatMap fun pass => pass.plan project)
        (Session.start project supply backend) := by
  have hpasses : CarriesOut (ν := ν) project []
      (enterWith unhandled (generators.flatMap fun generator => generator.walk project))
      (passes.flatMap fun pass => pass.plan project) := by
    induction h with
    | nil => exact CarriesOut.nil
    | cons hfirst _ ih =>
      rw [List.flatMap_cons, List.flatMap_cons, enterWith_append]
      exact CarriesOut.append hfirst.walk ih
  have hcallbacks : pipeline.callbacks project generators =
      generators.flatMap fun generator => generator.walk project := by
    refine congrArg (fun walk => generators.flatMap walk) (funext fun generator => ?_)
    simp [callbacksFor, hplugins]
  rw [enterAll_eq_enterWith, hcallbacks]
  -- Hooks are fired, but there is no plugin to handle them.
  rw [hplugins, fire_nil]
  exact hpasses _ ⟨rfl, by simp⟩

/-- The callbacks of a run of the standard pipeline carry out its instructions. -/
theorem enterAll_standard (policy : TestTargetPolicy) (project : Project) (supply : Supply)
    (backend : Backend) :
    enterAll (ν := ν) (Pipeline.standard policy).plugins
        ((Pipeline.standard policy).callbacks project (Generators.standard policy))
        (Session.start project supply backend) =
      Instruction.performAll (Plan.standard policy project)
        (Session.start project supply backend) :=
  enterAll_passes rfl (.cons Generators.projectStructure_walksAs
    (.cons Generators.targets_walksAs (.cons Generators.configurations_walksAs
      (.cons (Generators.schemes_walksAs policy) .nil)))) supply backend

end Pipeline

end ProjectCompiler
