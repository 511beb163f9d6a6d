import ProjectCompiler.Project.Kind
import ProjectCompiler.Settings.Basic

/-!
# Manifest — the declaration of a project

A manifest names a project, its configurations and its targets. Everything in it is as written:
what a key leaves out stays absent, and names may refer to nothing. Configurations stand in the
order of their names, targets and schemes in the order of the file.
-/

namespace ProjectCompiler

/-- A scheme. One configuration can be given for all actions, and others for single ones. -/
structure SchemeEntry where
  name : String
  configuration : Option String
  overrides : List (SchemeAction × String)
  deriving DecidableEq, Repr, Inhabited

structure TargetEntry where
  name : String
  type : TargetType
  platform : Option Platform
  deploymentTarget : Option String
  language : Option Language
  includeFiles : List String
  excludeFiles : List String
  host : Option String
  settings : Settings
  /-- Settings of single configurations. -/
  configurations : List (String × Settings)
  schemes : List SchemeEntry
  deriving DecidableEq, Repr, Inhabited

structure Manifest where
  projectName : String
  defaultConfiguration : Option String
  settings : Settings
  configurations : List (String × Settings)
  targets : List TargetEntry
  policy : TestTargetPolicy
  deriving DecidableEq, Repr, Inhabited

def SchemeEntry.empty : SchemeEntry :=
  { name := "", configuration := none, overrides := [] }

def TargetEntry.empty : TargetEntry :=
  { name := ""
    type := .application
    platform := none
    deploymentTarget := none
    language := none
    includeFiles := []
    excludeFiles := []
    host := none
    settings := Settings.empty
    configurations := []
    schemes := [] }

def TargetEntry.isUnitTestBundle (entry : TargetEntry) : Bool :=
  entry.type = .unitTestBundle

namespace Manifest

def empty : Manifest :=
  { projectName := ""
    defaultConfiguration := none
    settings := Settings.empty
    configurations := []
    targets := []
    policy := .unique }

/-- The names of the project's configurations; a manifest that declares none has two. -/
def configurationNames (manifest : Manifest) : List String :=
  if manifest.configurations.isEmpty then ["Debug", "Release"]
  else manifest.configurations.map Prod.fst

def hasConfiguration (manifest : Manifest) (name : String) : Bool :=
  manifest.configurationNames.contains name

/-- The first target of a name. -/
def target? (manifest : Manifest) (name : String) : Option TargetEntry :=
  manifest.targets.find? fun entry => entry.name == name

end Manifest

end ProjectCompiler
