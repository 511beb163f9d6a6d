import ProjectCompiler.Project.Node

/-!
# Object — the native object graph

Compilation fills a graph of native objects: a project with its groups, targets and configurations,
and user schemes. Objects refer to each other by number, in the order of their creation.
-/

namespace ProjectCompiler

structure NativeId where
  index : Nat
  deriving DecidableEq, Repr, Inhabited

def NativeId.text (id : NativeId) : String :=
  s!"native#{id.index}"

inductive NativeKind
  | project
  | group
  | target
  | configuration
  | scheme
  deriving DecidableEq, Repr

def NativeKind.tag : NativeKind → String
  | project => "project"
  | group => "group"
  | target => "target"
  | configuration => "configuration"
  | scheme => "scheme"

structure NativeProject where
  name : String
  defaultConfiguration : String
  groups : List NativeId
  targets : List NativeId
  configurations : List NativeId
  deriving DecidableEq, Repr

structure NativeGroup where
  name : String
  deriving DecidableEq, Repr

structure NativeTarget where
  name : String
  productType : String
  sdkRoot : String
  deploymentTarget : String
  language : String
  configurations : List NativeId
  /-- Targets that this one depends on. -/
  dependencies : List NativeId
  deriving DecidableEq, Repr

structure NativeConfiguration where
  name : String
  settings : Settings
  deriving DecidableEq, Repr

structure NativeScheme where
  name : String
  buildTargets : List NativeId
  launchTarget : Option NativeId
  testTargets : List NativeId
  /-- The configuration of each action, in the order in which they were first set. -/
  actions : List (SchemeAction × String)
  deriving DecidableEq, Repr

inductive NativeObject
  | project (project : NativeProject)
  | group (group : NativeGroup)
  | target (target : NativeTarget)
  | configuration (configuration : NativeConfiguration)
  | scheme (scheme : NativeScheme)
  deriving DecidableEq, Repr

namespace NativeObject

def kind : NativeObject → NativeKind
  | .project _ => .project
  | .group _ => .group
  | .target _ => .target
  | .configuration _ => .configuration
  | .scheme _ => .scheme

def name : NativeObject → String
  | .project p => p.name
  | .group g => g.name
  | .target t => t.name
  | .configuration c => c.name
  | .scheme s => s.name

end NativeObject

/-! ## Native words for the model's kinds -/

/-- The identifier of a product type, none for a type without one. -/
def TargetType.productType? : TargetType → Option String
  | application => some "com.apple.product-type.application"
  | unitTestBundle => some "com.apple.product-type.bundle.unit-test"
  | framework => some "com.apple.product-type.framework"
  | staticLibrary => some "com.apple.product-type.library.static"
  | other _ => none

def Platform.sdkRoot : Platform → String
  | ios => "iphoneos"
  | macos => "macosx"
  | tvos => "appletvos"
  | watchos => "watchos"

/-- Why an operation on the graph failed. -/
inductive BackendError
  | unrepresentable (tag : String)
  | unknownObject (id : NativeId)
  | wrongKind (id : NativeId) (found expected : NativeKind)
  | invalidAttachment (parent child : NativeKind)
  | inaccessible (path : String)
  | malformedList
  deriving DecidableEq, Repr

def BackendError.message : BackendError → String
  | unrepresentable tag => s!"unsupported product type '{tag}'"
  | unknownObject id => s!"unknown native object {id.text}"
  | wrongKind id found expected => s!"{id.text} is a {found.tag}, expected a {expected.tag}"
  | invalidAttachment parent child => s!"cannot attach a {child.tag} to a {parent.tag}"
  | inaccessible path => s!"failed to write '{path}'"
  | malformedList => "failed to serialize the scheme list"

/-- The native object for a model object, its links still empty. -/
def NativeObject.ofNode : Node → Except BackendError NativeObject
  | .project p => .ok (.project {
      name := p.name
      defaultConfiguration := p.defaultConfiguration
      groups := []
      targets := []
      configurations := [] })
  | .configuration c => .ok (.configuration { name := c.name, settings := Settings.empty })
  | .target t =>
      match t.type.productType? with
      | some productType => .ok (.target {
          name := t.name
          productType
          sdkRoot := t.platform.sdkRoot
          deploymentTarget := t.deploymentTarget
          language := t.language.tag
          configurations := []
          dependencies := [] })
      | none => .error (.unrepresentable t.type.tag)
  | .scheme _ => .ok (.scheme {
      name := ""
      buildTargets := []
      launchTarget := none
      testTargets := []
      actions := [] })

end ProjectCompiler
