import ProjectCompiler.Project.Target

/-!
# Project — configurations and targets under one name

A project declares build configurations and targets. It keeps two invariants: names of
configurations and of targets are distinct, and every target overrides every declared
configuration exactly once. `addConfiguration` and `addTarget` add what is missing on either side.

- `Project.withConfigurations`: the default is `Release` if declared, otherwise the last one.
- `Project.flattenConfigurations`, `Project.flattenTarget`: configurations with the settings shared
  by all of them underneath, in the project's order and with the identities of the declared ones.
-/

namespace ProjectCompiler

structure Project where
  id : Identity
  name : String
  defaultConfiguration : String
  /-- Settings that all configurations of the project share. -/
  settings : Settings
  configurations : List BuildConfiguration
  targets : List Target
  deriving DecidableEq, Repr, Inhabited

/-- Why a project could not be built up. -/
inductive ModelError
  | duplicateTarget (name : String)
  | unknownTarget (name : String)
  | missingField (target field : String)
  deriving DecidableEq, Repr

def ModelError.message : ModelError → String
  | duplicateTarget name => s!"a target named '{name}' already exists in the project"
  | unknownTarget name => s!"no target named '{name}' in the project"
  | missingField target field => s!"target '{target}' has no {field}"

namespace Project

/-! ## Look-up -/

def configuration? (project : Project) (name : String) : Option BuildConfiguration :=
  BuildConfiguration.find? project.configurations name

def hasConfiguration (project : Project) (name : String) : Bool :=
  project.configurations.any fun configuration => configuration.name == name

def target? (project : Project) (name : String) : Option Target :=
  project.targets.find? fun target => target.name == name

/-- The unit-test bundles hosted by a target, in declaration order. -/
def unitTestTargets (project : Project) (target : Target) : List Target :=
  project.targets.filter fun other => other.isUnitTestBundle && other.host == some target.name

/-! ## Growth -/

/-- Declare a configuration, unless there is one of that name, and override it in every target. -/
def addConfiguration (project : Project) (name : String) : Fresh Project := do
  -- Overrides take their identities before the configuration itself does.
  let targets ← project.targets.mapM fun target => target.ensureConfiguration name
  let configurations ← BuildConfiguration.ensure name project.configurations
  return { project with targets, configurations }

/-- The configuration used when none is named. -/
def chooseDefault (project : Project) : String :=
  if project.hasConfiguration "Release" then "Release"
  else ((project.configurations.getLast?).map BuildConfiguration.name).getD ""

def withConfigurations (name : String) (configurations : List String) : Fresh Project := do
  let bare : Project := {
    id := ← freshIdentity
    name
    defaultConfiguration := ""
    settings := Settings.empty
    configurations := []
    targets := [] }
  let project ← configurations.foldlM addConfiguration bare
  return { project with defaultConfiguration := project.chooseDefault }

def new (name : String) : Fresh Project :=
  withConfigurations name ["Debug", "Release"]

/-- The same contents, every object in them under an identity of its own. -/
def clone (project : Project) : Fresh Project := do
  return { project with
    id := ← freshIdentity
    configurations := ← project.configurations.mapM BuildConfiguration.clone
    targets := ← project.targets.mapM Target.clone }

/-- Add a target, with empty overrides for the configurations it does not override. -/
def addTarget (project : Project) (target : Target) : ExceptT ModelError Fresh Project := do
  if (project.target? target.name).isSome then
    throw (.duplicateTarget target.name)
  let target ← project.configurations.foldlM
    (fun target configuration => target.ensureConfiguration configuration.name) target
  return { project with targets := project.targets ++ [target] }

def addApplication (project : Project) (name : String) (platform : Platform)
    (deploymentTarget : String) (language : Language) : ExceptT ModelError Fresh Project := do
  let target ← Target.new name .application platform deploymentTarget
  project.addTarget { target with language }

/-- Add a bundle of unit tests for a target, named after it. -/
def addUnitTests (project : Project) (host : String) : ExceptT ModelError Fresh Project := do
  let some hostTarget := project.target? host | throw (.unknownTarget host)
  let target ← Target.unitTestBundle (hostTarget.name ++ "Tests") hostTarget
  project.addTarget target

/-! ## Edits in place -/

/-- Change the first declared configuration of a name. -/
def editConfiguration (project : Project) (name : String)
    (change : BuildConfiguration → BuildConfiguration) : Project :=
  { project with
    configurations := BuildConfiguration.modifyFirst name change project.configurations }

/-- Change the first target of a name. -/
def editTarget (project : Project) (name : String) (change : Target → Fresh Target) :
    Fresh Project := do
  return { project with targets := ← edit project.targets }
where
  edit : List Target → Fresh (List Target)
    | [] => return []
    | target :: rest =>
        if target.name = name then return (← change target) :: rest
        else return target :: (← edit rest)

/-! ## Flattening -/

def flattenConfigurations (project : Project) : List BuildConfiguration :=
  project.configurations.map (BuildConfiguration.flattenedOver project.settings)

/-- The overrides of a target, in the order of the project's configurations. -/
def flattenTarget (project : Project) (target : Target) : List BuildConfiguration :=
  project.configurations.filterMap fun configuration =>
    (target.configuration? configuration.name).map
      (BuildConfiguration.flattenedOver target.settings)

end Project

end ProjectCompiler
