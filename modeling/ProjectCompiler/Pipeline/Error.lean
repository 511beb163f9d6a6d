import ProjectCompiler.Native.Object
import ProjectCompiler.Pipeline.Schedule

/-!
# Error — why a run stopped

Every error ends a run. Each has a message, a broad kind, a code for tools and sometimes advice.
-/

namespace ProjectCompiler

inductive PipelineError
  | schedule (error : ScheduleError)
  | translation (object : String) (reason : BackendError)
  | backend (error : BackendError)
  | unknownConfiguration (scheme configuration : String) (action : SchemeAction)
  | unresolvedHost (target host : String)
  | ambiguousTestTarget (target : String) (candidates : List String)
  | persist (error : BackendError)
  | plugin (plugin message : String)
  deriving DecidableEq, Repr

inductive ErrorKind
  /-- The set of generators has no order. -/
  | configuration
  /-- The back end cannot represent or link an object. -/
  | translation
  /-- A model object names one that is not there. -/
  | reference
  /-- The scheme list could not be written. -/
  | persistence
  /-- A plugin gave up. -/
  | plugin
  deriving DecidableEq, Repr

def ScheduleError.message : ScheduleError → String
  | duplicateGenerator name => s!"generator '{name}' is registered more than once"
  | missingDependency generator dependency =>
      s!"generator '{generator}' depends on '{dependency}', which is not registered"
  | dependencyCycle path => "dependency cycle between generators: " ++ " -> ".intercalate path

namespace PipelineError

def message : PipelineError → String
  | schedule error => error.message
  | translation object reason => s!"cannot translate {object}: {reason.message}"
  | backend error => error.message
  | unknownConfiguration scheme configuration action =>
      s!"scheme '{scheme}' uses configuration '{configuration}' for its {action.tag} action, " ++
        "but the project does not define it"
  | unresolvedHost target host =>
      s!"target '{target}' is hosted by '{host}', which is not a target in the project"
  | ambiguousTestTarget target candidates =>
      s!"target '{target}' has more than one unit-test target: " ++ ", ".intercalate candidates
  | persist _ => "failed to persist the scheme list"
  | plugin name text => s!"plugin '{name}' failed: {text}"

def kind : PipelineError → ErrorKind
  | schedule _ => .configuration
  | translation .. => .translation
  | backend _ => .translation
  | unknownConfiguration .. => .reference
  | unresolvedHost .. => .reference
  | ambiguousTestTarget .. => .reference
  | persist _ => .persistence
  | plugin .. => .plugin

/-- The code by which tools know an error. -/
def code : PipelineError → String
  | schedule (.duplicateGenerator _) => "xcforge::duplicate_generator"
  | schedule (.missingDependency ..) => "xcforge::missing_dependency"
  | schedule (.dependencyCycle _) => "xcforge::dependency_cycle"
  | translation .. => "xcforge::translation"
  | backend _ => "xcforge::backend"
  | unknownConfiguration .. => "xcforge::unknown_configuration"
  | unresolvedHost .. => "xcforge::unresolved_host"
  | ambiguousTestTarget .. => "xcforge::ambiguous_test_target"
  | persist _ => "xcforge::persist"
  | plugin .. => "xcforge::plugin"

def help? : PipelineError → Option String
  | schedule (.missingDependency generator dependency) =>
      some (s!"register '{dependency}' in the pipeline or drop it from the dependencies of " ++
        s!"'{generator}'")
  | unknownConfiguration _ configuration _ =>
      some (s!"declare '{configuration}' under [configurations] or pick an existing " ++
        "configuration")
  | ambiguousTestTarget .. =>
      some "declare a single test bundle per host or use the first-match test target policy"
  | _ => none

end PipelineError

end ProjectCompiler
