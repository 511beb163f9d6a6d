import ProjectCompiler.Project.Basic

/-!
# Node — a model object of any kind

Generators translate projects, configurations, targets and schemes alike; a node is one of them
with its identity, kind and name.
-/

namespace ProjectCompiler

inductive Node
  | project (project : Project)
  | configuration (configuration : BuildConfiguration)
  | target (target : Target)
  | scheme (scheme : Scheme)
  deriving DecidableEq, Repr

namespace Node

def id : Node → Identity
  | .project p => p.id
  | .configuration c => c.id
  | .target t => t.id
  | .scheme s => s.id

def name : Node → String
  | .project p => p.name
  | .configuration c => c.name
  | .target t => t.name
  | .scheme s => s.name

def kind : Node → String
  | .project _ => "project"
  | .configuration _ => "configuration"
  | .target _ => "target"
  | .scheme _ => "scheme"

/-- The text by which messages name a node. -/
def text (node : Node) : String :=
  s!"{node.kind} '{node.name}'"

end Node

end ProjectCompiler
