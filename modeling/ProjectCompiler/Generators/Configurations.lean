import ProjectCompiler.Generators.Targets

/-!
# Configurations — native configurations with merged settings

Every flattened configuration of the project and of each target gets a native configuration in its
owner, with the settings that all layers together give it.
-/

namespace ProjectCompiler

namespace Generators

variable {ν : Type}

/-- Give a flattened configuration its native object, settings and owner. -/
def placeConfiguration (owner : NativeId) (configuration : BuildConfiguration) :
    Program ν Unit := do
  let native ← Program.native (.configuration configuration)
  Program.operate (.setBuildSettings native configuration.settings)
  Program.operate (.attach owner native)

def configurations : Generator ν where
  info := {
    name := "configuration"
    description := "Create native build configurations with merged settings"
    dependencies := ["target"] }
  visitConfiguration configuration := do
    let project ← Program.project
    let nativeProject ← Program.native (.project project)
    placeConfiguration nativeProject configuration
  visitTarget target := do
    let project ← Program.project
    let nativeTarget ← Program.native (.target target)
    (project.flattenTarget target).forM (placeConfiguration nativeTarget)

end Generators

end ProjectCompiler
