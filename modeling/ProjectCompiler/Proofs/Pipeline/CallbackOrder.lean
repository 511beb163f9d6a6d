import Mathlib.Data.List.Basic
import ProjectCompiler.Proofs.Pipeline.Moments
import ProjectCompiler.Proofs.Pipeline.Persistence
import ProjectCompiler.Proofs.Pipeline.Replay

/-!
# CallbackOrder — which callbacks a run enters, and where it stops

Generators run in turn, and each is framed by the plugins. If the scheme generator alone fires a hook,
then all callbacks of a run stand in one sequence that is known before, handlers of the hook among
them. A run enters them from the first on, up to one that fails, and does nothing after that one.

- `Pipeline.sequence`: the callbacks in order;
- `Pipeline.Along`: moments go along a sequence, to its end or up to a callback that fails;
- `Pipeline.along_enterAll`: so do the moments of a run.
-/

namespace ProjectCompiler

open Stateful

variable {ν : Type}

/-! ## Pipelines in which only the scheme generator fires -/

/-- The built-in generator of schemes. -/
def Generator.IsSchemes (generator : Generator ν) : Prop :=
  ∃ policy, generator = Generators.schemes policy

/-- No generator but that one fires a hook, and no plugin does. -/
structure Pipeline.OnlySchemesFire (pipeline : Pipeline ν) : Prop where
  generators : ∀ generator ∈ pipeline.generators,
    generator.All Program.Quiet ∨ generator.IsSchemes
  plugins : ∀ plugin ∈ pipeline.plugins, plugin.All Program.Quiet

/-- The hook that a program starts with. -/
def Program.opening? {α : Type} : Program ν α → Option Hook
  | .fire hook _ => some hook
  | _ => none

theorem Program.Quiet.opening?_eq_none {α : Type} {program : Program ν α} (h : program.Quiet) :
    program.opening? = none := by
  cases program with
  | done | call => rfl
  | fire => exact h.elim

/-- The program fires nothing; or it fires one hook to start with, ends with the error of a handler,
and does not fail otherwise. -/
inductive Program.Tame : Program ν Unit → Prop
  | quiet {program : Program ν Unit} (h : program.Quiet) : Tame program
  | opens {hook : Hook} {next : Except PipelineError Unit → Program ν Unit}
      (quiet : (next (.ok ())).Quiet)
      (succeeds : ∀ answer session, ∃ after, (next (.ok ())).run answer session = (.ok (), after))
      (fails : ∀ error, next (.error error) = .done (.error error)) : Tame (.fire hook next)

/-! ## The sequence -/

namespace Generator

variable (generator : Generator ν) (project : Project)

/-- Every flattened configuration of the project is visited and left. -/
def onConfigurations : List (Callback ν) :=
  project.flattenConfigurations.flatMap fun configuration =>
    [⟨.visitConfiguration generator.info.name configuration,
        generator.visitConfiguration configuration⟩,
      ⟨.leaveConfiguration generator.info.name configuration,
        generator.leaveConfiguration configuration⟩]

/-- Every target is visited and left. -/
def onTargets : List (Callback ν) :=
  project.targets.flatMap fun target =>
    [⟨.visitTarget generator.info.name target, generator.visitTarget target⟩,
      ⟨.leaveTarget generator.info.name target, generator.leaveTarget target⟩]

end Generator

namespace Pipeline

/-- Every plugin is called before a generator. -/
def beforeAll (plugins : List (Plugin ν)) (generator : String) : List (Callback ν) :=
  plugins.map fun plugin => ⟨.before plugin.name generator, plugin.before generator⟩

/-- Every plugin is called after a generator. -/
def afterAll (plugins : List (Plugin ν)) (generator : String) : List (Callback ν) :=
  plugins.map fun plugin => ⟨.after plugin.name generator, plugin.after generator⟩

/-- What follows the visit of the project. -/
def afterVisit (pipeline : Pipeline ν) (project : Project) (generator : Generator ν) :
    List (Callback ν) :=
  generator.onConfigurations project ++ generator.onTargets project ++
    [⟨.leaveProject generator.info.name, generator.leaveProject project⟩] ++
    afterAll pipeline.plugins generator.info.name

/-- What a program brings along: the handlers of the hook that it starts with. -/
def nested (plugins : List (Plugin ν)) (program : Program ν Unit) : List (Callback ν) :=
  match program.opening? with
  | some hook => handlers plugins hook
  | none => []

/-- The callbacks for one generator in order. -/
def sequenceFor (pipeline : Pipeline ν) (project : Project) (generator : Generator ν) :
    List (Callback ν) :=
  beforeAll pipeline.plugins generator.info.name ++
    ⟨.visitProject generator.info.name, generator.visitProject project⟩ ::
    nested pipeline.plugins (generator.visitProject project) ++
    generator.onConfigurations project ++
    generator.onTargets project ++
    [⟨.leaveProject generator.info.name, generator.leaveProject project⟩] ++
    afterAll pipeline.plugins generator.info.name

/-- The callbacks of a run in order, handlers of hooks included. -/
def sequence (pipeline : Pipeline ν) (project : Project) (ordered : List (Generator ν)) :
    List (Callback ν) :=
  ordered.flatMap (pipeline.sequenceFor project)

/-- A callback with what its program brings along. -/
def expand (plugins : List (Plugin ν)) (callback : Callback ν) : List (Callback ν) :=
  callback :: nested plugins callback.program

theorem nested_of_quiet (plugins : List (Plugin ν)) {program : Program ν Unit}
    (h : program.Quiet) : nested plugins program = [] := by
  rw [nested, h.opening?_eq_none]

theorem flatMap_expand_of_quiet (plugins : List (Plugin ν)) {callbacks : List (Callback ν)}
    (h : ∀ callback ∈ callbacks, callback.program.Quiet) :
    callbacks.flatMap (expand plugins) = callbacks := by
  induction callbacks with
  | nil => rfl
  | cons callback rest ih =>
    have hrest := ih fun other hother => h other (List.mem_cons_of_mem _ hother)
    rw [List.flatMap_cons, hrest, expand, nested_of_quiet plugins (h callback List.mem_cons_self)]
    rfl

end Pipeline

/-! ## Runs along a sequence -/

/-- Moments go along a sequence: to its end, or up to a callback that fails, and then the run stops in the
session that this callback leaves. -/
inductive Along (answer : Hook → Run ν Unit) (sequence : List (Callback ν))
    (moments : List (RunMoment ν)) : Except PipelineError Unit × Session ν → Prop
  | done {after : Session ν} (h : moments.map RunMoment.callback = sequence) :
      Along answer sequence moments (.ok (), after)
  | failed (before : List (RunMoment ν)) (last : RunMoment ν) (rest : List (Callback ν))
      {error : PipelineError} {after : Session ν} (entered : moments = before ++ [last])
      (upTo : sequence = before.map RunMoment.callback ++ last.callback :: rest)
      (h : last.callback.program.run answer last.session = (.error error, after)) :
      Along answer sequence moments (.error error, after)

namespace Along

variable {answer : Hook → Run ν Unit} {sequence : List (Callback ν)} {moments : List (RunMoment ν)}
  {result : Except PipelineError Unit × Session ν} {error : PipelineError} {after : Session ν}

/-- What comes before a run along a sequence. -/
theorem prepend (h : Along answer sequence moments result) {earlier : List (RunMoment ν)}
    {start : List (Callback ν)} (hstart : earlier.map RunMoment.callback = start) :
    Along answer (start ++ sequence) (earlier ++ moments) result := by
  subst hstart
  cases h with
  | done h => exact done (by rw [List.map_append, h])
  | failed before last rest entered upTo h =>
    refine failed (earlier ++ before) last rest ?_ ?_ h
    · rw [entered, List.append_assoc]
    · rw [upTo, List.map_append, List.append_assoc]

/-- What would come after a run that stops. -/
theorem extend (h : Along answer sequence moments (.error error, after)) (more : List (Callback ν)) :
    Along answer (sequence ++ more) moments (.error error, after) := by
  cases h with
  | failed before last rest entered upTo h =>
    refine failed before last (rest ++ more) entered ?_ h
    rw [upTo, List.append_assoc, List.cons_append]

theorem map_callback_of_ok {done : Unit} (h : Along answer sequence moments (.ok done, after)) :
    moments.map RunMoment.callback = sequence := by
  cases h with
  | done h => exact h

/-- However the run ends, it does not leave the sequence. -/
theorem isPrefix (h : Along answer sequence moments result) :
    moments.map RunMoment.callback <+: sequence := by
  cases h with
  | done h => exact h ▸ List.prefix_rfl
  | failed before last rest entered upTo h =>
    refine ⟨rest, ?_⟩
    rw [entered, upTo, List.map_append, List.append_assoc]
    rfl

end Along

namespace Pipeline

section Along

variable {answer other : Hook → Run ν Unit} {fired : Hook → Session ν → List (RunMoment ν)}

/-- One callback after another: if each goes along its own part, then all go along the parts together. -/
theorem along_enterWith {callbacks : List (Callback ν)} {part : Callback ν → List (Callback ν)}
    (h : ∀ callback ∈ callbacks, ∀ entered, Along other (part callback)
      (⟨callback, entered⟩ :: callback.program.moments answer fired entered)
      (callback.program.run answer entered)) (session : Session ν) :
    Along other (callbacks.flatMap part) (momentsWith answer fired callbacks session)
      (enterWith answer callbacks session) := by
  -- The session varies: each callback starts from the one that those before it leave.
  induction callbacks generalizing session with
  | nil => exact Along.done rfl
  | cons callback rest ih =>
    have hfirst := h callback List.mem_cons_self
      { session with trace := session.trace ++ [callback.event] }
    have hrest := ih fun other hother => h other (List.mem_cons_of_mem _ hother)
    rw [enterWith_cons, momentsWith, List.flatMap_cons]
    rcases hrun : callback.program.run answer
      { session with trace := session.trace ++ [callback.event] } with ⟨error | done, after⟩
    · rw [hrun] at hfirst
      dsimp only
      rw [List.append_nil]
      exact hfirst.extend _
    · rw [hrun] at hfirst
      exact (hrest after).prepend hfirst.map_callback_of_ok

/-- A quiet callback by itself, whatever hooks are answered. -/
theorem along_of_quiet {callback : Callback ν} (h : callback.program.Quiet) (entered : Session ν) :
    Along other [callback] (⟨callback, entered⟩ :: callback.program.moments answer fired entered)
      (callback.program.run answer entered) := by
  rw [h.moments_eq_nil]
  rcases hrun : callback.program.run answer entered with ⟨error | done, after⟩
  · rw [h.run_eq answer other] at hrun
    exact Along.failed [] ⟨callback, entered⟩ [] rfl rfl hrun
  · exact Along.done rfl

theorem along_of_allQuiet {callbacks : List (Callback ν)}
    (h : ∀ callback ∈ callbacks, callback.program.Quiet) (session : Session ν) :
    Along other callbacks (momentsWith answer fired callbacks session)
      (enterWith answer callbacks session) := by
  have hparts : Along other (callbacks.flatMap fun callback => [callback])
      (momentsWith answer fired callbacks session) (enterWith answer callbacks session) :=
    along_enterWith (fun callback hcallback => along_of_quiet (h callback hcallback)) session
  rwa [List.flatMap_singleton'] at hparts

theorem quiet_of_mem_handlers {plugins : List (Plugin ν)}
    (h : ∀ plugin ∈ plugins, plugin.All Program.Quiet) (hook : Hook) :
    ∀ handler ∈ handlers plugins hook, handler.program.Quiet := by
  intro handler hhandler
  obtain ⟨plugin, hplugin, rfl⟩ := List.mem_map.1 hhandler
  exact (h plugin hplugin).onHook hook

/-- A tame callback with the handlers of its hook, if these are quiet. -/
theorem along_of_tame {plugins : List (Plugin ν)}
    (hplugins : ∀ plugin ∈ plugins, plugin.All Program.Quiet) (depth : Nat) {callback : Callback ν}
    (h : callback.program.Tame) (entered : Session ν) :
    Along other (expand plugins callback)
      (⟨callback, entered⟩ ::
        callback.program.moments (fire plugins (depth + 1)) (hookMoments plugins (depth + 1)) entered)
      (callback.program.run (fire plugins (depth + 1)) entered) := by
  obtain ⟨event, program⟩ := callback
  cases h with
  | quiet h =>
    rw [expand, nested_of_quiet plugins h]
    exact along_of_quiet h entered
  | @opens hook next quiet succeeds fails =>
    have hfired : Along other (handlers plugins hook)
        (hookMoments plugins (depth + 1) hook entered) (fire plugins (depth + 1) hook entered) := by
      rw [fire_succ]
      exact along_of_allQuiet (quiet_of_mem_handlers hplugins hook) entered
    rw [Program.run_fire, Program.moments_fire]
    rcases hrun : fire plugins (depth + 1) hook entered with ⟨error | done, after⟩
    · -- The program ends with the error of the handler.
      rw [hrun] at hfired
      have hend : (next (.error error)).moments (fire plugins (depth + 1))
          (hookMoments plugins (depth + 1)) after = [] := by
        rw [fails]
        rfl
      rw [hend, List.append_nil, fails]
      have hentered : [(⟨⟨event, .fire hook next⟩, entered⟩ : RunMoment ν)].map RunMoment.callback =
          [⟨event, .fire hook next⟩] := rfl
      exact hfired.prepend hentered
    · -- The rest of the program neither fires again nor fails.
      rw [hrun] at hfired
      obtain ⟨final, hfinal⟩ := succeeds (fire plugins (depth + 1)) after
      rw [quiet.moments_eq_nil, List.append_nil, hfinal]
      refine Along.done ?_
      rw [List.map_cons, hfired.map_callback_of_ok]
      rfl

end Along

end Pipeline

/-! ## Tame generators -/

/-- A generator that fires nothing but at the start of visiting the project. -/
structure Generator.Tame (generator : Generator ν) : Prop where
  visitProject : ∀ project, (generator.visitProject project).Tame
  visitConfiguration : ∀ configuration, (generator.visitConfiguration configuration).Quiet
  leaveConfiguration : ∀ configuration, (generator.leaveConfiguration configuration).Quiet
  visitTarget : ∀ target, (generator.visitTarget target).Quiet
  leaveTarget : ∀ target, (generator.leaveTarget target).Quiet
  leaveProject : ∀ project, (generator.leaveProject project).Quiet

theorem Generator.All.tame {generator : Generator ν} (h : generator.All Program.Quiet) :
    generator.Tame where
  visitProject project := .quiet (h.visitProject project)
  visitConfiguration := h.visitConfiguration
  leaveConfiguration := h.leaveConfiguration
  visitTarget := h.visitTarget
  leaveTarget := h.leaveTarget
  leaveProject := h.leaveProject

/-- A project always gets its native object. -/
theorem Session.exists_native_project (project : Project) (session : Session ν) :
    ∃ id after, Session.native (.project project) session = (.ok id, after) := by
  rw [Session.native_apply]
  rcases Entries.find? session.natives (Node.project project).id with _ | id
  · exact ⟨_, _, rfl⟩
  · exact ⟨id, session, rfl⟩

namespace Generators

theorem schemes_visitProject_tame (policy : TestTargetPolicy) (project : Project) :
    ((schemes (ν := ν) policy).visitProject project).Tame := by
  refine Program.Tame.opens ?_ ?_ fun _ => rfl
  · have hnative : (Program.native (ν := ν) (.project project)).Quiet := fun _ => trivial
    exact hnative.bind fun _ => trivial
  · intro answer session
    obtain ⟨id, after, hnative⟩ := Session.exists_native_project project session
    refine ⟨after, ?_⟩
    show (Program.native (.project project) >>= fun _ => pure ()).run answer session = _
    rw [Program.run_bind]
    exact bind_of_ok hnative _

theorem schemes_tame (policy : TestTargetPolicy) : (schemes (ν := ν) policy).Tame where
  visitProject := schemes_visitProject_tame policy
  visitConfiguration _ := trivial
  leaveConfiguration _ := trivial
  visitTarget target := (schemes_visitTarget_within policy target).quiet
  leaveTarget _ := trivial
  leaveProject _ := fun _ => trivial

end Generators

namespace Pipeline

variable {pipeline : Pipeline ν}

theorem OnlySchemesFire.tame (h : pipeline.OnlySchemesFire) {generators : List (Generator ν)}
    (hordered : pipeline.ordered = .ok generators) {generator : Generator ν}
    (hgenerator : generator ∈ generators) : generator.Tame := by
  rcases h.generators generator (mem_generators_of_ordered hordered hgenerator) with
    hquiet | ⟨policy, rfl⟩
  · exact hquiet.tame
  · exact Generators.schemes_tame policy

section Quiet

variable {plugins : List (Plugin ν)} {generator : Generator ν}

theorem quiet_of_mem_beforeAll (h : ∀ plugin ∈ plugins, plugin.All Program.Quiet) (name : String) :
    ∀ callback ∈ beforeAll plugins name, callback.program.Quiet := by
  intro callback hcallback
  obtain ⟨plugin, hplugin, rfl⟩ := List.mem_map.1 hcallback
  exact (h plugin hplugin).before name

theorem quiet_of_mem_afterAll (h : ∀ plugin ∈ plugins, plugin.All Program.Quiet) (name : String) :
    ∀ callback ∈ afterAll plugins name, callback.program.Quiet := by
  intro callback hcallback
  obtain ⟨plugin, hplugin, rfl⟩ := List.mem_map.1 hcallback
  exact (h plugin hplugin).after name

theorem quiet_of_mem_onConfigurations (h : generator.Tame) (project : Project) :
    ∀ callback ∈ generator.onConfigurations project, callback.program.Quiet := by
  intro callback hcallback
  obtain ⟨configuration, -, hmem⟩ := List.mem_flatMap.1 hcallback
  rcases List.mem_pair.1 hmem with rfl | rfl
  · exact h.visitConfiguration configuration
  · exact h.leaveConfiguration configuration

theorem quiet_of_mem_onTargets (h : generator.Tame) (project : Project) :
    ∀ callback ∈ generator.onTargets project, callback.program.Quiet := by
  intro callback hcallback
  obtain ⟨target, -, hmem⟩ := List.mem_flatMap.1 hcallback
  rcases List.mem_pair.1 hmem with rfl | rfl
  · exact h.visitTarget target
  · exact h.leaveTarget target

end Quiet

theorem callbacksFor_eq (pipeline : Pipeline ν) (project : Project) (generator : Generator ν) :
    pipeline.callbacksFor project generator =
      beforeAll pipeline.plugins generator.info.name ++
        ⟨.visitProject generator.info.name, generator.visitProject project⟩ ::
        pipeline.afterVisit project generator := by
  simp only [callbacksFor, Generator.walk, afterVisit, Generator.onConfigurations,
    Generator.onTargets, beforeAll, afterAll, List.append_assoc, List.cons_append, List.nil_append]

theorem quiet_of_mem_afterVisit {generator : Generator ν} (h : generator.Tame)
    (hplugins : ∀ plugin ∈ pipeline.plugins, plugin.All Program.Quiet) (project : Project) :
    ∀ callback ∈ pipeline.afterVisit project generator, callback.program.Quiet := by
  intro callback hcallback
  simp only [afterVisit, List.mem_append, List.mem_singleton] at hcallback
  rcases hcallback with ((hconfiguration | htarget) | rfl) | hafter
  · exact quiet_of_mem_onConfigurations h project callback hconfiguration
  · exact quiet_of_mem_onTargets h project callback htarget
  · exact h.leaveProject project
  · exact quiet_of_mem_afterAll hplugins _ callback hafter

theorem sequenceFor_eq {generator : Generator ν} (h : generator.Tame)
    (hplugins : ∀ plugin ∈ pipeline.plugins, plugin.All Program.Quiet) (project : Project) :
    (pipeline.callbacksFor project generator).flatMap (expand pipeline.plugins) =
      pipeline.sequenceFor project generator := by
  have hbefore := flatMap_expand_of_quiet pipeline.plugins
    (quiet_of_mem_beforeAll hplugins generator.info.name)
  have hlater := flatMap_expand_of_quiet pipeline.plugins
    (quiet_of_mem_afterVisit h hplugins project)
  rw [callbacksFor_eq, List.flatMap_append, List.flatMap_cons, hbefore, hlater, sequenceFor, expand,
    afterVisit]
  simp only [List.append_assoc, List.cons_append]

theorem tame_of_mem_callbacksFor {generator : Generator ν} (h : generator.Tame)
    (hplugins : ∀ plugin ∈ pipeline.plugins, plugin.All Program.Quiet) (project : Project) :
    ∀ callback ∈ pipeline.callbacksFor project generator, callback.program.Tame := by
  intro callback hcallback
  rw [callbacksFor_eq] at hcallback
  rcases List.mem_append.1 hcallback with hbefore | hvisit
  · exact .quiet (quiet_of_mem_beforeAll hplugins _ callback hbefore)
  · rcases List.mem_cons.1 hvisit with rfl | hlater
    · exact h.visitProject project
    · exact .quiet (quiet_of_mem_afterVisit h hplugins project callback hlater)

/-- The callbacks of a run are entered along the sequence. -/
theorem along_enterAll (h : pipeline.OnlySchemesFire) {generators : List (Generator ν)}
    (hordered : pipeline.ordered = .ok generators) (project : Project) (session : Session ν) :
    Along (fire pipeline.plugins maximalNesting) (pipeline.sequence project generators)
      (momentsWith (fire pipeline.plugins maximalNesting)
        (hookMoments pipeline.plugins maximalNesting) (pipeline.callbacks project generators) session)
      (enterAll pipeline.plugins (pipeline.callbacks project generators) session) := by
  have htame : ∀ generator ∈ generators, generator.Tame := fun _ => h.tame hordered
  have hsequence : (pipeline.callbacks project generators).flatMap (expand pipeline.plugins) =
      pipeline.sequence project generators := by
    rw [callbacks, List.flatMap_assoc, sequence]
    exact List.flatMap_congr fun generator hgenerator =>
      sequenceFor_eq (htame generator hgenerator) h.plugins project
  rw [← hsequence, enterAll_eq_enterWith]
  refine along_enterWith (fun callback hcallback entered => ?_) session
  obtain ⟨generator, hgenerator, hmem⟩ := List.mem_flatMap.1 hcallback
  exact along_of_tame h.plugins _
    (tame_of_mem_callbacksFor (htame generator hgenerator) h.plugins project callback hmem) entered

end Pipeline

end ProjectCompiler
