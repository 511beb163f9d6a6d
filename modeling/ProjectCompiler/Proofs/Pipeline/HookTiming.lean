import ProjectCompiler.Proofs.Pipeline.CallbackOrder

/-!
# HookTiming — when plugins see the hook

In the standard pipeline the hook comes from visiting the project in the scheme generator. Nothing
before that makes a scheme, plugins that only look included, and nothing after it fires again. So each
plugin sees the hook once, and no native scheme is new at that moment.

- `Pipeline.hooks_sequence`: the hooks in the sequence of a standard pipeline;
- `Pipeline.noNewScheme_of_mem_moments`: the graph when a handler of the hook is entered;
- `Pipeline.callbacks_in_order`: which callbacks a run enters, and what plugins see of the hook.
-/

namespace ProjectCompiler

open Stateful

variable {ν : Type}

/-- A handler of a hook is entered. -/
def Event.isHook : Event → Bool
  | .hook .. => true
  | _ => false

/-- The handlers of hooks that are among callbacks. -/
def Pipeline.hooks (callbacks : List (Callback ν)) : List Event :=
  (callbacks.map Callback.event).filter Event.isHook

namespace Pipeline

/-! ## Hooks in a sequence -/

theorem hooks_append (first second : List (Callback ν)) :
    hooks (first ++ second) = hooks first ++ hooks second := by
  rw [hooks, List.map_append, List.filter_append]
  rfl

theorem hooks_cons_of_not_isHook {callback : Callback ν} (h : callback.event.isHook = false)
    (rest : List (Callback ν)) : hooks (callback :: rest) = hooks rest := by
  rw [hooks, List.map_cons, List.filter_cons, h]
  rfl

theorem hooks_eq_nil {callbacks : List (Callback ν)}
    (h : ∀ callback ∈ callbacks, callback.event.isHook = false) : hooks callbacks = [] := by
  rw [hooks, List.filter_eq_nil_iff]
  intro event hevent
  obtain ⟨callback, hcallback, rfl⟩ := List.mem_map.1 hevent
  rw [h callback hcallback]
  nofun

theorem hooks_handlers (plugins : List (Plugin ν)) (hook : Hook) :
    hooks (handlers plugins hook) = plugins.map fun plugin => .hook plugin.name hook := by
  rw [hooks, handlers, List.map_map, List.filter_eq_self.2]
  · rfl
  · intro event hevent
    obtain ⟨plugin, -, rfl⟩ := List.mem_map.1 hevent
    rfl

theorem not_isHook_of_mem_beforeAll (plugins : List (Plugin ν)) (generator : String) :
    ∀ callback ∈ beforeAll plugins generator, callback.event.isHook = false := by
  intro callback hcallback
  obtain ⟨plugin, -, rfl⟩ := List.mem_map.1 hcallback
  rfl

theorem not_isHook_of_mem_afterVisit (pipeline : Pipeline ν) (project : Project)
    (generator : Generator ν) :
    ∀ callback ∈ pipeline.afterVisit project generator, callback.event.isHook = false := by
  intro callback hcallback
  simp only [afterVisit, Generator.onConfigurations, Generator.onTargets, afterAll,
    List.mem_append, List.mem_flatMap, List.mem_map, List.mem_cons, List.not_mem_nil, or_false]
    at hcallback
  rcases hcallback with ((⟨configuration, -, rfl | rfl⟩ | ⟨target, -, rfl | rfl⟩) | rfl) |
    ⟨plugin, -, rfl⟩ <;> rfl

/-- A generator brings along only what its visit of the project does. -/
theorem hooks_sequenceFor (pipeline : Pipeline ν) (project : Project) (generator : Generator ν) :
    hooks (pipeline.sequenceFor project generator) =
      hooks (nested pipeline.plugins (generator.visitProject project)) := by
  have hsequence : pipeline.sequenceFor project generator =
      beforeAll pipeline.plugins generator.info.name ++
        ⟨.visitProject generator.info.name, generator.visitProject project⟩ ::
        (nested pipeline.plugins (generator.visitProject project) ++
          pipeline.afterVisit project generator) := by
    simp only [sequenceFor, afterVisit, List.append_assoc, List.cons_append]
  have hbefore := hooks_eq_nil (not_isHook_of_mem_beforeAll pipeline.plugins generator.info.name)
  have hafter := hooks_eq_nil (not_isHook_of_mem_afterVisit pipeline project generator)
  rw [hsequence, hooks_append, hbefore, List.nil_append, hooks_cons_of_not_isHook rfl, hooks_append,
    hafter, List.append_nil]

theorem hooks_sequenceFor_of_quiet (pipeline : Pipeline ν) (project : Project)
    {generator : Generator ν} (h : generator.All Program.Quiet) :
    hooks (pipeline.sequenceFor project generator) = [] := by
  rw [hooks_sequenceFor, nested_of_quiet _ (h.visitProject project)]
  rfl

/-! ## What a run enters -/

section Runs

variable {pipeline : Pipeline ν} {generators : List (Generator ν)} {project : Project}
  {supply : Supply} {backend : Backend} {after : Session ν}

/-- A run that succeeds enters all callbacks. -/
theorem callbacks_of_run_ok (h : pipeline.OnlySchemesFire)
    (hordered : pipeline.ordered = .ok generators) {summary : RunSummary}
    (hrun : pipeline.run project supply backend = (.ok summary, after)) :
    (pipeline.moments project supply backend).map RunMoment.callback =
      pipeline.sequence project generators := by
  obtain ⟨_, entered, _, hsame, hentered, _⟩ := run_eq_ok hrun
  obtain rfl := Except.ok.inj (hordered.symm.trans hsame)
  have halong := along_enterAll h hordered project (Session.start project supply backend)
  rw [hentered] at halong
  rw [moments_of_ordered hordered]
  exact halong.map_callback_of_ok

/-- A run that fails, after its last callback or in one of them. -/
theorem callbacks_of_run_error (h : pipeline.OnlySchemesFire)
    (hordered : pipeline.ordered = .ok generators) {error : PipelineError}
    (hrun : pipeline.run project supply backend = (.error error, after)) :
    ((pipeline.moments project supply backend).map RunMoment.callback =
        pipeline.sequence project generators ∧
      ∃ entered, enterAll pipeline.plugins (pipeline.callbacks project generators)
          (Session.start project supply backend) = (.ok (), entered) ∧
        Session.commit entered = (.error error, after)) ∨
    ∃ before last rest, pipeline.moments project supply backend = before ++ [last] ∧
      pipeline.sequence project generators =
        before.map RunMoment.callback ++ last.callback :: rest ∧
      perform pipeline.plugins last.callback.program last.session = (.error error, after) ∧
      after.untraced = Call.performAll (pipeline.calls project supply backend)
        (Session.start project supply backend) := by
  have halong := along_enterAll h hordered project (Session.start project supply backend)
  rw [← moments_of_ordered hordered] at halong
  rcases entered_of_run_error hordered hrun with hentered | ⟨entered, hentered, hcommit⟩
  · have hcalls := untraced_enterAll hordered project supply backend
    rw [hentered] at halong hcalls
    cases halong with
    | failed before last rest hmoments upTo hfails =>
      exact .inr ⟨before, last, rest, hmoments, upTo, hfails, hcalls⟩
  · rw [hentered] at halong
    exact .inl ⟨halong.map_callback_of_ok, entered, hentered, hcommit⟩

/-- However a run ends, it does not leave the sequence. -/
theorem callbacks_isPrefix (h : pipeline.OnlySchemesFire)
    (hordered : pipeline.ordered = .ok generators) (project : Project) (supply : Supply)
    (backend : Backend) :
    (pipeline.moments project supply backend).map RunMoment.callback <+:
      pipeline.sequence project generators := by
  rw [moments_of_ordered hordered]
  exact (along_enterAll h hordered project (Session.start project supply backend)).isPrefix

/-- The hooks that a run records are those of the callbacks it enters. -/
theorem hooks_trace_run (pipeline : Pipeline ν) (project : Project) (supply : Supply)
    (backend : Backend) :
    (pipeline.run project supply backend).2.trace.filter Event.isHook =
      hooks ((pipeline.moments project supply backend).map RunMoment.callback) := by
  rw [trace_run, hooks, List.map_map]
  rfl

end Runs

/-! ## The standard pipeline -/

section Standard

variable {policy : TestTargetPolicy} {plugins : List (Plugin ν)} {project : Project}

theorem standard_onlySchemesFire (policy : TestTargetPolicy)
    (h : ∀ plugin ∈ plugins, plugin.All Program.Quiet) :
    OnlySchemesFire { Pipeline.standard policy with plugins } where
  generators := by
    intro generator hgenerator
    rcases Generators.lays_or_eq_schemes hgenerator with hlays | hschemes
    · exact .inl (hlays.mono fun _ => Program.Within.quiet)
    · exact .inr ⟨policy, hschemes⟩
  plugins := h

theorem quiet_of_observing (h : ∀ plugin ∈ plugins, plugin.All (Program.Within Call.Observes)) :
    ∀ plugin ∈ plugins, plugin.All Program.Quiet := fun plugin hplugin =>
  (h plugin hplugin).mono fun _ => Program.Within.quiet

/-- The scheme generator fires at the start of its visit. -/
theorem nested_schemes (plugins : List (Plugin ν)) (policy : TestTargetPolicy) (project : Project) :
    nested plugins ((Generators.schemes policy).visitProject project) =
      handlers plugins .beforeAddingUserSchemes :=
  rfl

/-- One handler for each plugin, in order of registration. -/
theorem hooks_sequence (policy : TestTargetPolicy) (plugins : List (Plugin ν)) (project : Project) :
    hooks (sequence { Pipeline.standard policy with plugins } project
        (Generators.standard policy)) =
      plugins.map fun plugin => .hook plugin.name .beforeAddingUserSchemes := by
  have hquiet {generator : Generator ν} (h : generator.All (Program.Within Call.Lays)) :=
    hooks_sequenceFor_of_quiet { Pipeline.standard policy with plugins } project
      (h.mono fun _ => Program.Within.quiet)
  simp only [sequence, Generators.standard, List.flatMap_cons, List.flatMap_nil, hooks_append,
    hquiet Generators.projectStructure_lays, hquiet Generators.targets_lays,
    hquiet Generators.configurations_lays, List.nil_append, List.append_nil]
  rw [hooks_sequenceFor, nested_schemes, hooks_handlers]

/-- The callbacks of a standard pipeline up to the one that fires the hook. -/
def upToHook (policy : TestTargetPolicy) (plugins : List (Plugin ν)) (project : Project) :
    List (Callback ν) :=
  (laying plugins).callbacks project (laying plugins).generators ++
    (beforeAll plugins (Generators.schemes (ν := ν) policy).info.name ++
      [⟨.visitProject (Generators.schemes (ν := ν) policy).info.name,
        (Generators.schemes policy).visitProject project⟩])

theorem callbacks_eq_upToHook_append (policy : TestTargetPolicy) (plugins : List (Plugin ν))
    (project : Project) :
    callbacks { Pipeline.standard policy with plugins } project (Generators.standard policy) =
      upToHook policy plugins project ++
        afterVisit { Pipeline.standard policy with plugins } project
          (Generators.schemes policy) := by
  have hlaying : callbacks { Pipeline.standard policy with plugins } project
      (Generators.standard policy) =
      (laying plugins).callbacks project (laying plugins).generators ++
        callbacksFor { Pipeline.standard policy with plugins } project
          (Generators.schemes policy) := by
    simp only [callbacks, Generators.standard, laying, List.flatMap_cons, List.flatMap_nil,
      List.append_assoc, List.append_nil]
    rfl
  rw [hlaying, callbacksFor_eq, upToHook, List.append_assoc, List.append_assoc]
  rfl

theorem laying_only (h : ∀ plugin ∈ plugins, plugin.All (Program.Within Call.Observes)) :
    (laying plugins).Only Call.Lays where
  generators := by
    intro generator hgenerator
    simp only [laying, List.mem_cons, List.not_mem_nil, or_false] at hgenerator
    rcases hgenerator with rfl | rfl | rfl
    · exact Generators.projectStructure_lays.only fun _ => id
    · exact Generators.targets_lays.only fun _ => id
    · exact Generators.configurations_lays.only fun _ => id
  plugins plugin hplugin := (h plugin hplugin).only fun _ => Call.Observes.lays

theorem lays_of_mem_upToHook (h : ∀ plugin ∈ plugins, plugin.All (Program.Within Call.Observes)) :
    ∀ callback ∈ upToHook policy plugins project, callback.program.Only Call.Lays := by
  have honly := laying_only h
  have hordered : (laying plugins).ordered = .ok (laying plugins).generators := rfl
  intro callback hcallback
  simp only [upToHook, List.mem_append, List.mem_singleton] at hcallback
  rcases hcallback with hlaying | hbefore | rfl
  · exact honly.of_mem_callbacks hordered hlaying
  · obtain ⟨plugin, hplugin, rfl⟩ := List.mem_map.1 hbefore
    exact (honly.plugins plugin hplugin).before _
  · exact (Program.Only.fireHook _).bind fun _ =>
      (Program.Only.request nofun).bind fun _ => trivial

/-- Up to the hook, callbacks only lay out the graph; after it, they fire nothing. -/
theorem noNewScheme_of_mem_moments
    (h : ∀ plugin ∈ plugins, plugin.All (Program.Within Call.Observes)) {supply : Supply}
    {backend : Backend} {moment : RunMoment ν}
    (hmoment : moment ∈ moments { Pipeline.standard policy with plugins } project supply backend)
    (hhook : moment.event.isHook = true) : backend.NoNewScheme moment.session.backend := by
  have hordered : ordered { Pipeline.standard policy with plugins } =
      .ok (Generators.standard policy) := rfl
  have honly := laying_only h
  have henter (event : Event) : Moves Session.NoNewScheme (Session.enter (ν := ν) event) :=
    fun session => refl_of Backend.NoNewScheme session.backend
  rw [moments, hordered] at hmoment
  dsimp only at hmoment
  rw [callbacks_eq_upToHook_append, momentsWith_append] at hmoment
  rcases List.mem_append.1 hmoment with hbefore | hafter
  · exact momentsWith_moves (lays_of_mem_upToHook h) (fun _ => Call.Lays.noNewScheme) henter
      (fire_moves honly (fun _ => Call.Lays.noNewScheme) henter maximalNesting)
      (hookMoments_moves honly (fun _ => Call.Lays.noNewScheme) henter maximalNesting)
      (Session.start project supply backend) moment hbefore
  · split at hafter
    · have hmem := mem_of_momentsWith
        (quiet_of_mem_afterVisit (Generators.schemes_tame policy) (quiet_of_observing h) project) hafter
      have hnot : moment.event.isHook = false := not_isHook_of_mem_afterVisit _ _ _ _ hmem
      rw [hnot] at hhook
      cases hhook
    · cases hafter

theorem hooks_of_run_standard (h : ∀ plugin ∈ plugins, plugin.All (Program.Within Call.Observes))
    {supply : Supply} {backend : Backend} {summary : RunSummary} {after : Session ν}
    (hrun : run { Pipeline.standard policy with plugins } project supply backend =
      (.ok summary, after)) :
    after.trace.filter Event.isHook =
      plugins.map fun plugin => .hook plugin.name .beforeAddingUserSchemes := by
  have hordered : ordered { Pipeline.standard policy with plugins } =
      .ok (Generators.standard policy) := rfl
  have hfire := standard_onlySchemesFire policy (quiet_of_observing h)
  have htrace := hooks_trace_run { Pipeline.standard policy with plugins } project supply backend
  rw [hrun, callbacks_of_run_ok hfire hordered hrun, hooks_sequence] at htrace
  exact htrace

theorem hooks_isPrefix_standard
    (h : ∀ plugin ∈ plugins, plugin.All (Program.Within Call.Observes)) (project : Project)
    (supply : Supply) (backend : Backend) :
    (run { Pipeline.standard policy with plugins } project supply backend).2.trace.filter
        Event.isHook <+:
      plugins.map fun plugin => .hook plugin.name .beforeAddingUserSchemes := by
  have hordered : ordered { Pipeline.standard policy with plugins } =
      .ok (Generators.standard policy) := rfl
  have hfire := standard_onlySchemesFire policy (quiet_of_observing h)
  have hstart := callbacks_isPrefix hfire hordered project supply backend
  rw [hooks_trace_run, ← hooks_sequence policy plugins project]
  exact (hstart.map Callback.event).filter Event.isHook

end Standard

/-- Every run enters callbacks along the sequence of its pipeline: none if the generators have no order,
all if it succeeds or only the commit fails, and else those up to one that fails. Plugins of a standard
pipeline that only look see the hook once each, before any scheme is new. -/
theorem callbacks_in_order (project : Project) (supply : Supply) (backend : Backend) :
    (∀ pipeline : Pipeline ν, pipeline.OnlySchemesFire →
      let moments := pipeline.moments project supply backend
      (pipeline.run project supply backend).2.trace = moments.map RunMoment.event ∧
      (∀ reason, pipeline.ordered = .error reason →
        pipeline.run project supply backend =
          (.error (.schedule reason), Session.start project supply backend) ∧ moments = []) ∧
      ∀ generators, pipeline.ordered = .ok generators →
        (∀ summary after, pipeline.run project supply backend = (.ok summary, after) →
          moments.map RunMoment.callback = pipeline.sequence project generators) ∧
        ∀ error after, pipeline.run project supply backend = (.error error, after) →
          (moments.map RunMoment.callback = pipeline.sequence project generators ∧
            ∃ entered, enterAll pipeline.plugins (pipeline.callbacks project generators)
                (Session.start project supply backend) = (.ok (), entered) ∧
              Session.commit entered = (.error error, after)) ∨
          ∃ before last rest, moments = before ++ [last] ∧
            pipeline.sequence project generators =
              before.map RunMoment.callback ++ last.callback :: rest ∧
            perform pipeline.plugins last.callback.program last.session = (.error error, after) ∧
            after.untraced = Call.performAll (pipeline.calls project supply backend)
              (Session.start project supply backend)) ∧
    ∀ policy (plugins : List (Plugin ν)),
      (∀ plugin ∈ plugins, plugin.All (Program.Within Call.Observes)) →
      let pipeline : Pipeline ν := { Pipeline.standard policy with plugins }
      let hooks := plugins.map fun plugin => Event.hook plugin.name .beforeAddingUserSchemes
      (∀ summary after, pipeline.run project supply backend = (.ok summary, after) →
        after.trace.filter Event.isHook = hooks) ∧
      (pipeline.run project supply backend).2.trace.filter Event.isHook <+: hooks ∧
      ∀ moment ∈ pipeline.moments project supply backend, moment.event.isHook = true →
        backend.NoNewScheme moment.session.backend := by
  constructor
  · intro pipeline h moments
    refine ⟨trace_run pipeline project supply backend, ?_, ?_⟩
    · intro reason hordered
      constructor
      · rw [run, hordered]
      · show pipeline.moments project supply backend = []
        rw [Pipeline.moments, hordered]
    · intro generators hordered
      constructor
      · intro summary after hrun
        exact callbacks_of_run_ok h hordered hrun
      · intro error after hrun
        exact callbacks_of_run_error h hordered hrun
  · intro policy plugins h pipeline hooks
    refine ⟨?_, hooks_isPrefix_standard h project supply backend, ?_⟩
    · intro summary after hrun
      exact hooks_of_run_standard h hrun
    · intro moment hmoment hhook
      exact noNewScheme_of_mem_moments h hmoment hhook

/-- A plugin that takes notes sees the hook once. With a second one that refuses, the run ends in this one's
handler, and with generators that wait for themselves nothing is called. -/
theorem watched_project_in_order :
    let project := (Project.new "App" ⟨0⟩).1
    let watch : Plugin Nat := {
      name := "watch"
      onHook := fun _ => do Program.request (.note (← Program.request .translated)) }
    let guard : Plugin Nat := {
      name := "guard"
      onHook := fun _ => Program.fail (.plugin "guard" "no") }
    let watched : Pipeline Nat := { Pipeline.standard .unique with plugins := [watch] }
    let guarded : Pipeline Nat := { Pipeline.standard .unique with plugins := [watch, guard] }
    let idle : Pipeline Nat := {
      generators := [{ info := { name := "a", description := "", dependencies := ["a"] } }]
      plugins := [watch] }
    (∃ summary after, watched.run project ⟨10⟩ Backend.empty = (.ok summary, after) ∧
      after.trace.filter Event.isHook = [.hook "watch" .beforeAddingUserSchemes] ∧
      (watched.moments project ⟨10⟩ Backend.empty).map RunMoment.callback =
        watched.sequence project (Generators.standard .unique)) ∧
    (∃ before last rest, guarded.moments project ⟨10⟩ Backend.empty = before ++ [last] ∧
      last.event = .hook "guard" .beforeAddingUserSchemes ∧
      guarded.sequence project (Generators.standard .unique) =
        before.map RunMoment.callback ++ last.callback :: rest) ∧
    idle.moments project ⟨10⟩ Backend.empty = [] := by
  intro project watch guard watched guarded idle
  have hwatch : watch.All (Program.Within Call.Observes) := by
    refine ⟨fun _ => .done _, fun _ => .done _, fun _ => ?_⟩
    exact (Program.Within.request trivial).bind fun _ => Program.Within.request trivial
  have hguard : guard.All Program.Quiet := ⟨fun _ => trivial, fun _ => trivial, fun _ => trivial⟩
  have hquiet := hwatch.mono fun _ => Program.Within.quiet
  have hwatched : watched.OnlySchemesFire := by
    refine standard_onlySchemesFire .unique ?_
    simpa using hquiet
  have hguarded : guarded.OnlySchemesFire := by
    refine standard_onlySchemesFire .unique ?_
    simpa using ⟨hquiet, hguard⟩
  have hidle : idle.OnlySchemesFire := by
    refine ⟨?_, ?_⟩
    · intro generator hgenerator
      obtain rfl := List.mem_singleton.1 hgenerator
      exact .inl ⟨fun _ => trivial, fun _ => trivial, fun _ => trivial, fun _ => trivial,
        fun _ => trivial, fun _ => trivial⟩
    · simpa [idle] using hquiet
  have hordered (plugins : List (Plugin Nat)) :
      ordered { Pipeline.standard .unique with plugins } = .ok (Generators.standard .unique) := rfl
  have hinOrder := callbacks_in_order (ν := Nat) project ⟨10⟩ Backend.empty
  refine ⟨?_, ?_, ?_⟩
  · rcases hrun : watched.run project ⟨10⟩ Backend.empty with ⟨error | summary, after⟩
    · have hok : (watched.run project ⟨10⟩ Backend.empty).1.isOk = true := by decide +kernel
      rw [hrun] at hok
      cases hok
    · have honce := hinOrder.2 .unique [watch] (by simpa using hwatch)
      have hall := (hinOrder.1 watched hwatched).2.2 _ (hordered [watch])
      exact ⟨summary, after, rfl, honce.1 summary after hrun, hall.1 summary after hrun⟩
  · rcases hrun : guarded.run project ⟨10⟩ Backend.empty with ⟨error | summary, after⟩
    · have htrace := (hinOrder.1 guarded hguarded).1
      have hall := (hinOrder.1 guarded hguarded).2.2 _ (hordered [watch, guard])
      rcases hall.2 error after hrun with ⟨-, entered, hentered, -⟩ |
        ⟨before, last, rest, hmoments, hsequence, -, -⟩
      · have hstops : (enterAll guarded.plugins
            (guarded.callbacks project (Generators.standard .unique))
            (Session.start project ⟨10⟩ Backend.empty)).1.isOk = false := by decide +kernel
        rw [hentered] at hstops
        cases hstops
      · have hlast : (guarded.run project ⟨10⟩ Backend.empty).2.trace.getLast? =
            some (.hook "guard" .beforeAddingUserSchemes) := by decide +kernel
        rw [htrace, hmoments, List.map_append, List.map_singleton, List.getLast?_concat] at hlast
        exact ⟨before, last, rest, hmoments, Option.some.inj hlast, hsequence⟩
    · have hok : (guarded.run project ⟨10⟩ Backend.empty).1.isOk = false := by decide +kernel
      rw [hrun] at hok
      cases hok
  · have hcycle : idle.ordered = .error (.dependencyCycle ["a", "a"]) := rfl
    exact ((hinOrder.1 idle hidle).2.1 _ hcycle).2

end Pipeline

end ProjectCompiler
