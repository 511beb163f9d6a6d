import ProjectCompiler.Manifest.Basic
import ProjectCompiler.Text.Blank

/-!
# Violation — what a manifest must not say

A manifest of the right shape can still refer to things that it does not declare. Its violations
have an order: those of the project, repeated target names, and then target by target. A manifest is
valid if it has none; otherwise the first one is reported.
-/

namespace ProjectCompiler

inductive Violation
  | blankProjectName
  | undeclaredDefault (configuration : String)
  | duplicateTarget (name : String)
  /-- A unit-test bundle without a host. -/
  | missingHost (target : String)
  /-- A host for something that is no unit-test bundle. -/
  | unwantedHost (target : String) (type : TargetType) (host : String)
  | unknownHost (target host : String)
  /-- A host that is itself a unit-test bundle. -/
  | nestedHost (target host : String)
  | missingPlatform (target : String)
  | missingDeploymentTarget (target : String)
  | undeclaredOverride (target configuration : String)
  deriving DecidableEq, Repr

namespace Manifest

def projectViolations (manifest : Manifest) : List Violation :=
  (if Blank.isBlank manifest.projectName then [.blankProjectName] else []) ++
    (match manifest.defaultConfiguration with
      | some name => if manifest.hasConfiguration name then [] else [.undeclaredDefault name]
      | none => [])

/-- The names that stand earlier in the list already. -/
def repeated : List String → List String
  | names => go [] names
where
  go (seen : List String) : List String → List String
    | [] => []
    | name :: rest => (if name ∈ seen then [name] else []) ++ go (name :: seen) rest

def nameViolations (manifest : Manifest) : List Violation :=
  (repeated (manifest.targets.map TargetEntry.name)).map .duplicateTarget

def hostViolations (manifest : Manifest) (entry : TargetEntry) : List Violation :=
  match entry.host with
  | none => if entry.isUnitTestBundle then [.missingHost entry.name] else []
  | some host =>
      -- A host that is not wanted is not looked up either.
      if entry.isUnitTestBundle then
        match manifest.target? host with
        | none => [.unknownHost entry.name host]
        | some hostEntry => if hostEntry.isUnitTestBundle then [.nestedHost entry.name host] else []
      else [.unwantedHost entry.name entry.type host]

/-- A target without a host must say where it runs. -/
def standaloneViolations (entry : TargetEntry) : List Violation :=
  if entry.host.isSome then []
  else
    (if entry.platform.isNone then [.missingPlatform entry.name] else []) ++
      (if entry.deploymentTarget.isNone then [.missingDeploymentTarget entry.name] else [])

def overrideViolations (manifest : Manifest) (entry : TargetEntry) : List Violation :=
  ((entry.configurations.map Prod.fst).filter fun name => !manifest.hasConfiguration name).map
    (.undeclaredOverride entry.name)

def targetViolations (manifest : Manifest) (entry : TargetEntry) : List Violation :=
  manifest.hostViolations entry ++ standaloneViolations entry ++ manifest.overrideViolations entry

/-- All violations in order. -/
def violations (manifest : Manifest) : List Violation :=
  manifest.projectViolations ++ manifest.nameViolations ++
    manifest.targets.flatMap manifest.targetViolations

def validate (manifest : Manifest) : Except Violation Unit :=
  match manifest.violations with
  | [] => .ok ()
  | violation :: _ => .error violation

end Manifest

end ProjectCompiler
