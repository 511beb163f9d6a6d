import ProjectCompiler.Pipeline.Program

/-!
# Pipeline — generators and plugins over one project

Generators run one after another in the order of their dependencies. Each walks the whole model:
the project, its flattened configurations, its targets, and the project again on leaving. Plugins
are called before and after each generator and on hooks. The first error ends the run; the scheme
list is saved only after every callback has succeeded.

A handler may fire the hook that it handles. Firings then nest, and so that a run always ends, they
nest only so deep: a plugin that would have to go deeper fails.

- `Pipeline.callbacks`: all callbacks of a run in order;
- `Pipeline.fire`: calls the handlers of a hook;
- `Pipeline.run`: enters them one after another and commits.
-/

namespace ProjectCompiler

/-- A pass over the model. A callback that is left out does nothing. -/
structure Generator (ν : Type) where
  info : GeneratorInfo
  visitProject : Project → Program ν Unit := fun _ => pure ()
  visitConfiguration : BuildConfiguration → Program ν Unit := fun _ => pure ()
  leaveConfiguration : BuildConfiguration → Program ν Unit := fun _ => pure ()
  visitTarget : Target → Program ν Unit := fun _ => pure ()
  leaveTarget : Target → Program ν Unit := fun _ => pure ()
  leaveProject : Project → Program ν Unit := fun _ => pure ()

/-- A guest that is called around generators, by their names, and on hooks. -/
structure Plugin (ν : Type) where
  name : String
  before : String → Program ν Unit := fun _ => pure ()
  after : String → Program ν Unit := fun _ => pure ()
  onHook : Hook → Program ν Unit := fun _ => pure ()

structure Pipeline (ν : Type) where
  /-- In order of registration. -/
  generators : List (Generator ν)
  plugins : List (Plugin ν)

/-- A callback with the event of entering it. -/
structure Callback (ν : Type) where
  event : Event
  program : Program ν Unit

/-- What a successful run did. -/
structure RunSummary where
  /-- Names of generators in the order in which they ran. -/
  order : List String
  /-- The number of model objects with a native object. -/
  translated : Nat
  deriving DecidableEq, Repr

namespace Generator

variable {ν : Type}

/-- The walk over the model. -/
def walk (generator : Generator ν) (project : Project) : List (Callback ν) :=
  let name := generator.info.name
  [⟨.visitProject name, generator.visitProject project⟩] ++
    (project.flattenConfigurations.flatMap fun configuration =>
      [⟨.visitConfiguration name configuration, generator.visitConfiguration configuration⟩,
        ⟨.leaveConfiguration name configuration, generator.leaveConfiguration configuration⟩]) ++
    (project.targets.flatMap fun target =>
      [⟨.visitTarget name target, generator.visitTarget target⟩,
        ⟨.leaveTarget name target, generator.leaveTarget target⟩]) ++
    [⟨.leaveProject name, generator.leaveProject project⟩]

end Generator

namespace Pipeline

variable {ν : Type}

def infos (pipeline : Pipeline ν) : List GeneratorInfo :=
  pipeline.generators.map Generator.info

/-- Generators in the order in which they run. -/
def ordered (pipeline : Pipeline ν) : Except ScheduleError (List (Generator ν)) := do
  let order ← Schedule.order pipeline.infos
  return order.filterMap fun info =>
    pipeline.generators.find? fun generator => generator.info.name = info.name

/-- Names of generators in the order in which they run. -/
def order (pipeline : Pipeline ν) : Except ScheduleError (List String) := do
  return (← Schedule.order pipeline.infos).map GeneratorInfo.name

/-- All callbacks for one generator. -/
def callbacksFor (pipeline : Pipeline ν) (project : Project) (generator : Generator ν) :
    List (Callback ν) :=
  let name := generator.info.name
  (pipeline.plugins.map fun plugin => ⟨.before plugin.name name, plugin.before name⟩) ++
    generator.walk project ++
    (pipeline.plugins.map fun plugin => ⟨.after plugin.name name, plugin.after name⟩)

def callbacks (pipeline : Pipeline ν) (project : Project) (ordered : List (Generator ν)) :
    List (Callback ν) :=
  ordered.flatMap (pipeline.callbacksFor project)

/-- How deep firings may nest. -/
def maximalNesting : Nat := 1000

/-- Call the hook handlers of plugins in order of registration, up to the first error. A handler may
fire again as long as `depth` lasts. -/
def fire (plugins : List (Plugin ν)) : (depth : Nat) → Hook → Run ν Unit
  | 0, hook => plugins.forM fun plugin =>
      throw (.plugin plugin.name s!"hook '{hook.name}' nests too deeply")
  | depth + 1, hook => plugins.forM fun plugin => do
      Session.enter (.hook plugin.name hook)
      (plugin.onHook hook).run (fire plugins depth)

/-- Run a program whose hooks go to the plugins. -/
def perform {α : Type} (plugins : List (Plugin ν)) (program : Program ν α) : Run ν α :=
  program.run (fire plugins maximalNesting)

/-- Enter callbacks one after another, up to the first error. -/
def enterAll (plugins : List (Plugin ν)) (callbacks : List (Callback ν)) : Run ν Unit :=
  callbacks.forM fun callback => do
    Session.enter callback.event
    perform plugins callback.program

/-- Everything that happens once the order is known. -/
def compile (pipeline : Pipeline ν) (ordered : List (Generator ν)) : Run ν RunSummary := do
  let session ← get
  enterAll pipeline.plugins (pipeline.callbacks session.project ordered)
  -- An error ends the run before this point, and nothing is saved.
  let _ ← Session.commit
  return {
    order := ordered.map fun generator => generator.info.name
    translated := (← get).natives.length }

/-- Compile a project into a backend. If the generators have no order, nothing is touched. -/
def run (pipeline : Pipeline ν) (project : Project) (supply : Supply) (backend : Backend) :
    Except PipelineError RunSummary × Session ν :=
  let session := Session.start project supply backend
  match pipeline.ordered with
  | .error error => (.error (.schedule error), session)
  | .ok ordered => pipeline.compile ordered session

end Pipeline

end ProjectCompiler
