import ProjectCompiler.CommandLine.Arguments
import ProjectCompiler.CommandLine.Report
import ProjectCompiler.Generators.Schemes
import ProjectCompiler.Manifest.Error
import ProjectCompiler.Manifest.Lowering

/-!
# Run — the commands

A command reads the manifest from a disk, compiles it and reports. Only generating writes: the
scheme list goes to a file in the output directory. A command that fails prints nothing and ends
with a status of its own for wrong usage.

What is not here: the script of `completions` and the texts of help, which have no invocation; the log
on the error stream, which `-v` asks more of and which nothing else depends on; and the layout of a
diagnostic there, with its source lines, labels and advice. Of a failure `Outcome.complaint` holds the
message.

- `CommandLine.run`: the outcome of a command line on a disk.
-/

namespace ProjectCompiler

namespace CommandLine

inductive Failure
  | usage (fault : UsageFault)
  | manifest (error : ManifestError)
  | model (error : ModelError)
  | pipeline (error : PipelineError)
  /-- The run ended without a saved list. -/
  | nothingSaved
  deriving Repr

namespace Failure

def status : Failure → Nat
  | usage _ => 2
  | _ => 1

def message : Failure → String
  | usage fault => fault.message
  | manifest error => error.message
  | model error => error.message
  | pipeline error => error.message
  | nothingSaved => "the pipeline finished without saving the scheme list"

end Failure

/-- The end of a run of the program. -/
structure Outcome where
  status : Nat
  output : String
  complaint : Option String
  disk : Disk
  deriving Repr

def versionText : String :=
  "xcforge 0.1.0"

/-- The file in the output directory that the scheme list goes to. -/
def schemeListName : String :=
  "xcschemes.json"

/-- A project with the policy of its manifest and the identities left over. -/
structure Loaded where
  project : Project
  supply : Supply
  policy : TestTargetPolicy

def load (disk : Disk) (path : String) : Except Failure Loaded := do
  let file ← (Manifest.load disk path).mapError .manifest
  match file.manifest.toProject ⟨1⟩ with
  | (.error error, _) => throw (.model error)
  | (.ok project, supply) => return { project, supply, policy := file.manifest.policy }

/-- Compile into a backend by the standard pipeline. -/
def compile (loaded : Loaded) (backend : Backend) : Except PipelineError RunSummary × Backend :=
  let pipeline : Pipeline Empty := Pipeline.standard loaded.policy
  let (result, session) := pipeline.run loaded.project loaded.supply backend
  (result, session.backend)

def check (disk : Disk) (manifestPath : String) : Except Failure (List String) := do
  let loaded ← load disk manifestPath
  let _ ← (compile loaded Backend.empty).1.mapError .pipeline
  return Report.check manifestPath loaded.project

def info (disk : Disk) (manifestPath : String) : Except Failure (List String) := do
  let loaded ← load disk manifestPath
  let pipeline : Pipeline Empty := Pipeline.standard loaded.policy
  let generators ← (Schedule.order pipeline.infos).mapError fun error => .pipeline (.schedule error)
  return Report.info manifestPath loaded.project generators

/-- The report of a generation and the disk it leaves. -/
def generate (disk : Disk) (manifestPath directory : String) :
    Except Failure (List String) × Disk :=
  match load disk manifestPath with
  | .error failure => (.error failure, disk)
  | .ok loaded =>
      let path := Path.join directory schemeListName
      match compile loaded (Backend.withOutput path disk) with
      | (.error error, backend) => (.error (.pipeline error), backend.disk)
      | (.ok summary, backend) =>
          match backend.saved with
          | none => (.error .nothingSaved, backend.disk)
          | some saved => (.ok (Report.generate path summary saved), backend.disk)

def execute (disk : Disk) : Invocation → Except Failure (List String) × Disk
  | .version => (.ok [versionText], disk)
  | .check manifestPath => (check disk manifestPath, disk)
  | .info manifestPath => (info disk manifestPath, disk)
  | .generate manifestPath directory => generate disk manifestPath directory

def Outcome.ofResult (disk : Disk) : Except Failure (List String) → Outcome
  | .ok lines => { status := 0, output := Report.print lines, complaint := none, disk }
  | .error failure =>
      { status := failure.status, output := "", complaint := some failure.message, disk }

def run (arguments : List String) (disk : Disk) : Outcome :=
  match Invocation.parse arguments with
  | .error fault => .ofResult disk (.error (.usage fault))
  | .ok invocation =>
      let (result, disk) := execute disk invocation
      .ofResult disk result

/-! ## What a command line touches -/

/-- The file that a command line reads, if it reads one. -/
def manifestPath? (arguments : List String) : Option String :=
  match Invocation.parse arguments with
  | .ok (.check path) => some path
  | .ok (.info path) => some path
  | .ok (.generate path _) => some path
  | _ => none

/-- Entries of a disk that are new or different since an earlier state. -/
def changes (before after : Disk) : List (Location × DiskEntry) :=
  after.entries.filter fun entry => Entries.find? before.entries entry.1 ≠ some entry.2

/-- Paths and texts of the files below the working directory that are new or different, in the order
of their paths. -/
def changedFiles (before after : Disk) : List (String × String) :=
  let files := (changes before after).filterMap fun (location, entry) =>
    match entry with
    | .text content => if Disk.isInside location then some (Disk.pathTo location, content) else none
    | _ => none
  files.mergeSort fun a b => a.1 ≤ b.1

end CommandLine

end ProjectCompiler
