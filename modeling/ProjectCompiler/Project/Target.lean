import ProjectCompiler.Project.BuildConfiguration
import ProjectCompiler.Project.Scheme

/-!
# Target — one product of a project

A target has settings for all its configurations, overrides of single configurations, and user
schemes. A unit-test bundle is hosted by another target, named by `host`; it starts from that
target's platform, language and file rules.
-/

namespace ProjectCompiler

structure Target where
  id : Identity
  name : String
  type : TargetType
  platform : Platform
  deploymentTarget : String
  language : Language
  includeFiles : List String
  excludeFiles : List String
  host : Option String
  /-- Settings that all configurations of this target share. -/
  settings : Settings
  /-- Overrides of project configurations, by name. -/
  configurations : List BuildConfiguration
  schemes : List Scheme
  deriving DecidableEq, Repr, Inhabited

namespace Target

def new (name : String) (type : TargetType) (platform : Platform) (deploymentTarget : String) :
    Fresh Target := do
  return {
    id := ← freshIdentity
    name, type, platform, deploymentTarget
    language := .objc
    includeFiles := []
    excludeFiles := []
    host := none
    settings := Settings.empty
    configurations := []
    schemes := [] }

/-- The same contents, every object in them under an identity of its own. -/
def clone (target : Target) : Fresh Target := do
  return { target with
    id := ← freshIdentity
    configurations := ← target.configurations.mapM BuildConfiguration.clone
    schemes := ← target.schemes.mapM Scheme.clone }

/-- Where the host's executable stands among the built products. -/
def testHost (hostName : String) : String :=
  s!"$(BUILT_PRODUCTS_DIR)/{hostName}.app/{hostName}"

/-- A bundle of unit tests for `host`, with the host's platform, language and file rules. -/
def unitTestBundle (name : String) (host : Target) : Fresh Target := do
  let target ← new name .unitTestBundle host.platform host.deploymentTarget
  return { target with
    language := host.language
    includeFiles := host.includeFiles
    excludeFiles := host.excludeFiles
    host := some host.name
    settings := (target.settings.insert "TEST_HOST" (.str (testHost host.name))).insert
      "BUNDLE_LOADER" (.str "$(TEST_HOST)") }

def isUnitTestBundle (target : Target) : Bool :=
  target.type = .unitTestBundle

def configuration? (target : Target) (name : String) : Option BuildConfiguration :=
  BuildConfiguration.find? target.configurations name

/-- Add an empty override of a configuration unless there is one. -/
def ensureConfiguration (target : Target) (name : String) : Fresh Target := do
  return { target with configurations := ← BuildConfiguration.ensure name target.configurations }

/-- Change the override of a configuration, made empty first if there is none. -/
def editConfiguration (target : Target) (name : String)
    (change : BuildConfiguration → BuildConfiguration) : Fresh Target := do
  let target ← target.ensureConfiguration name
  return { target with
    configurations := BuildConfiguration.modifyFirst name change target.configurations }

/-- Append a new scheme, changed before it is stored. Schemes may share a name. -/
def addScheme (target : Target) (name : String) (change : Scheme → Scheme) : Fresh Target := do
  let scheme ← Scheme.new name
  return { target with schemes := target.schemes ++ [change scheme] }

end Target

end ProjectCompiler
