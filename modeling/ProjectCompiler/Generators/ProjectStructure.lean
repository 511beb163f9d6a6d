import ProjectCompiler.Pipeline.Basic

/-!
# ProjectStructure — the native project and its groups

The first generator makes the native project with two groups.
-/

namespace ProjectCompiler

namespace Generators

variable {ν : Type}

def defaultGroups : List String :=
  ["Products", "Frameworks"]

def projectStructure : Generator ν where
  info := {
    name := "project-structure"
    description := "Create the native project and its default groups"
    dependencies := [] }
  visitProject project := do
    let nativeProject ← Program.native (.project project)
    defaultGroups.forM fun group => do
      let _ ← Program.operate (.createGroup nativeProject group)

end Generators

end ProjectCompiler
