import ProjectCompiler.Disk.Basic
import ProjectCompiler.Manifest.Label
import ProjectCompiler.Manifest.OfToml

/-!
# Error — why there is no manifest

A manifest is read from a file, parsed and validated. Each step can fail, and the error tells where
the text came from.

- `Manifest.parse`: a valid manifest from a text;
- `Manifest.load`: a valid manifest from a file, with the text of the file.
-/

namespace ProjectCompiler

inductive ManifestError
  /-- There is no such file, or its bytes are no text. -/
  | unreadable (path : String)
  | unparsable (sourceName : String) (fault : Manifest.TextFault)
  | invalid (sourceName source : String) (violation : Violation)
  deriving Repr

namespace ManifestError

def message : ManifestError → String
  | unreadable path => s!"failed to read '{path}'"
  | unparsable .. => "failed to parse xcforge.toml"
  | invalid _ _ violation => violation.message

/-- The code by which tools know an error. -/
def code? : ManifestError → Option String
  | unreadable _ => none
  | unparsable .. => some "xcforge::parse_error"
  | invalid _ _ violation => some violation.code

def help? : ManifestError → Option String
  | unreadable _ => some "pass the manifest path with --config"
  | unparsable .. => none
  | invalid _ _ violation => violation.help?

def labels : ManifestError → List Label
  | unreadable _ => []
  | unparsable .. => []
  | invalid _ source violation => violation.labels source

end ManifestError

namespace Manifest

/-- The name of a text that comes from no file. -/
def defaultFileName : String :=
  "xcforge.toml"

def parse (source sourceName : String) : Except ManifestError Manifest :=
  match ofText source with
  | .error fault => .error (.unparsable sourceName fault)
  | .ok manifest =>
      match manifest.validate with
      | .error violation => .error (.invalid sourceName source violation)
      | .ok () => .ok manifest

/-- A manifest together with the file it was read from. -/
structure File where
  path : String
  content : String
  manifest : Manifest
  deriving Repr

/-- The directory of the file. -/
def File.root (file : File) : String :=
  (Path.parent? file.path).getD "."

def load (disk : Disk) (path : String) : Except ManifestError File := do
  match disk.read path with
  | none => throw (.unreadable path)
  | some content => return { path, content, manifest := ← parse content path }

end Manifest

end ProjectCompiler
