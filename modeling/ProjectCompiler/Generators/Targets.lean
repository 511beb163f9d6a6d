import ProjectCompiler.Generators.ProjectStructure

/-!
# Targets — native targets and their hosts

Every target gets a native target in the native project. A test bundle depends on its host, which
is made early if it comes later in the project.
-/

namespace ProjectCompiler

namespace Generators

variable {ν : Type}

/-- Make a target depend on its host. -/
def linkHost (project : Project) (target : Target) (nativeTarget : NativeId) (host : String) :
    Program ν Unit := do
  match project.target? host with
  | none => Program.fail (.unresolvedHost target.name host)
  | some hostTarget =>
      -- The native host is attached to the project when its own turn comes.
      let nativeHost ← Program.native (.target hostTarget)
      Program.operate (.attach nativeTarget nativeHost)

def targets : Generator ν where
  info := {
    name := "target"
    description := "Create native targets and link test bundles to their hosts"
    dependencies := ["project-structure"] }
  visitTarget target := do
    let project ← Program.project
    let nativeProject ← Program.native (.project project)
    let nativeTarget ← Program.native (.target target)
    Program.operate (.attach nativeProject nativeTarget)
    match target.host with
    | none => pure ()
    | some host => linkHost project target nativeTarget host

end Generators

end ProjectCompiler
