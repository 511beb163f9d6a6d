import ProjectCompiler.Manifest.Violation
import ProjectCompiler.Text.Search

/-!
# Label — where a violation shows in the text

A label selects the name that a violation is about. The text is searched for the pair `key = "name"`,
then for the same pair with single quotes, or for the header of an override; a label that is not
found is left out.

- `Span.ofPair?`: the name in a certain occurrence of a pair;
- `Span.ofOverride?`: the name at the end of the first header for an override.
-/

namespace ProjectCompiler

structure Label where
  words : String
  span : Span
  deriving DecidableEq, Repr

namespace Span

/-- The name in a pair with a certain quote, at the given occurrence from zero. -/
def ofQuotedPair? (quote source key name : String) (occurrence : Nat) : Option Span :=
  (Search.occurrences (key ++ " = " ++ quote ++ name ++ quote) source)[occurrence]?.map
    fun offset => ⟨offset + key.utf8ByteSize + 4, name.utf8ByteSize⟩

def ofPair? (source key name : String) (occurrence : Nat) : Option Span :=
  (ofQuotedPair? "\"" source key name occurrence).or (ofQuotedPair? "'" source key name occurrence)

def overridePath : String :=
  "configurations."

def ofOverride? (source configuration : String) : Option Span :=
  (Search.occurrences (overridePath ++ configuration ++ "]") source).head?.map
    fun offset => ⟨offset + overridePath.utf8ByteSize, configuration.utf8ByteSize⟩

end Span

namespace Violation

def message : Violation → String
  | blankProjectName => "project name must not be empty"
  | undeclaredDefault configuration => s!"default configuration '{configuration}' is not declared"
  | duplicateTarget name => s!"duplicate target '{name}'"
  | missingHost target => s!"unit-test bundle '{target}' needs a host"
  | unwantedHost target type _ =>
      s!"only unit-test bundles can have a host, but '{target}' has type {type.tag}"
  | unknownHost target host => s!"target '{target}' is hosted by unknown target '{host}'"
  | nestedHost target host =>
      s!"'{host}' cannot host '{target}' because it is itself a unit-test bundle"
  | missingPlatform target => s!"target '{target}' needs a platform"
  | missingDeploymentTarget target => s!"target '{target}' needs a deployment_target"
  | undeclaredOverride target configuration =>
      s!"target '{target}' overrides configuration '{configuration}', which the project does not " ++
        "declare"

/-- The code by which tools know a violation. -/
def code : Violation → String
  | duplicateTarget _ => "xcforge::duplicate_target"
  | unknownHost .. => "xcforge::unknown_host"
  | _ => "xcforge::validation_error"

def help? : Violation → Option String
  | duplicateTarget _ => some "target names must be unique within a project"
  | unknownHost .. =>
      some "set host to the name of an application target declared in this manifest"
  | _ => none

/-- The places to look for, found or not, with what is to be said about each. -/
def places (source : String) (violation : Violation) : List (String × Option Span) :=
  match violation with
  | blankProjectName => []
  | undeclaredDefault configuration =>
      [(violation.message, Span.ofPair? source "default_configuration" configuration 0)]
  | duplicateTarget name =>
      [("first declared here", Span.ofPair? source "name" name 0),
        ("declared again here", Span.ofPair? source "name" name 1)]
  | missingHost target => [(violation.message, Span.ofPair? source "name" target 0)]
  | unwantedHost _ _ host => [(violation.message, Span.ofPair? source "host" host 0)]
  | unknownHost _ host => [("no target with this name", Span.ofPair? source "host" host 0)]
  | nestedHost _ host => [(violation.message, Span.ofPair? source "host" host 0)]
  | missingPlatform target => [(violation.message, Span.ofPair? source "name" target 0)]
  | missingDeploymentTarget target => [(violation.message, Span.ofPair? source "name" target 0)]
  | undeclaredOverride _ configuration =>
      [(violation.message, Span.ofOverride? source configuration)]

/-- The labels of the places that were found. -/
def labels (source : String) (violation : Violation) : List Label :=
  (violation.places source).filterMap fun place => place.2.map fun span => ⟨place.1, span⟩

end Violation

end ProjectCompiler
