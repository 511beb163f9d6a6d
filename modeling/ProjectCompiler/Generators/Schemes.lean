import ProjectCompiler.Generators.Configurations

/-!
# Schemes — user schemes and the scheme list

No target gets an automatic scheme. Every user scheme builds and launches its target, tests it with
the target's test bundle, and names a configuration of the project for each action. The list is
saved at the end of the run.
-/

namespace ProjectCompiler

namespace Generators

variable {ν : Type}

/-- The test bundle of a target. With several, the policy decides between the first and an error. -/
def unitTestTarget (policy : TestTargetPolicy) (project : Project) (target : Target) :
    Except PipelineError (Option Target) :=
  match project.unitTestTargets target, policy with
  | [], _ => .ok none
  | [one], _ => .ok (some one)
  | first :: _, .firstMatch => .ok (some first)
  | candidates, .unique => .error (.ambiguousTestTarget target.name (candidates.map Target.name))

/-- The first action of a scheme whose configuration the project does not declare. -/
def firstUnknownConfiguration? (project : Project) (scheme : Scheme) :
    Option (SchemeAction × String) :=
  scheme.configurations.find? fun action => !project.hasConfiguration action.2

/-- Make one scheme of a target and put it on the list. -/
def addScheme (project : Project) (nativeTarget : NativeId) (nativeTest : Option NativeId)
    (scheme : Scheme) : Program ν Unit := do
  match firstUnknownConfiguration? project scheme with
  | some (action, configuration) =>
      Program.fail (.unknownConfiguration scheme.name configuration action)
  | none =>
      let nativeScheme ← Program.native (.scheme scheme)
      Program.operate (.setSchemeName nativeScheme scheme.name)
      Program.operate (.configureScheme nativeScheme nativeTarget nativeTest)
      scheme.configurations.forM fun action =>
        Program.operate (.setAction nativeScheme action.1 action.2)
      -- Only a scheme that is complete goes on the list.
      Program.operate (.push nativeScheme)

/-- The native object of the test bundle, which gets no automatic scheme either. -/
def suppressTest (policy : TestTargetPolicy) (project : Project) (target : Target) :
    Program ν (Option NativeId) := do
  match unitTestTarget policy project target with
  | .error error => Program.fail error
  | .ok none => pure none
  | .ok (some test) =>
      let nativeTest ← Program.native (.target test)
      Program.operate (.suppress nativeTest)
      pure (some nativeTest)

def schemes (policy : TestTargetPolicy) : Generator ν where
  info := {
    name := "scheme"
    description := "Create user schemes and save the scheme list"
    dependencies := ["target", "project-structure", "configuration"] }
  visitProject project := do
    Program.fireHook .beforeAddingUserSchemes
    let _ ← Program.native (.project project)
  visitTarget target := do
    let project ← Program.project
    let nativeTarget ← Program.native (.target target)
    Program.operate (.suppress nativeTarget)
    match target.schemes with
    -- Without schemes it does not matter how many test bundles there are.
    | [] => pure ()
    | userSchemes =>
        let nativeTest ← suppressTest policy project target
        userSchemes.forM (addScheme project nativeTarget nativeTest)
  leaveProject _ := Program.request .stage

/-- The generators of the standard pipeline, in order of registration. -/
def standard (policy : TestTargetPolicy) : List (Generator ν) :=
  [projectStructure, targets, configurations, schemes policy]

end Generators

/-- The pipeline that compiles a project in full. -/
def Pipeline.standard {ν : Type} (policy : TestTargetPolicy) : Pipeline ν :=
  { generators := Generators.standard policy, plugins := [] }

end ProjectCompiler
