import ProjectCompiler.Project.Identity
import ProjectCompiler.Settings.Basic

/-!
# BuildConfiguration — a named layer of settings

A project declares configurations, and each of its targets can override them. Flattening lays a
configuration over settings that all configurations share and keeps its identity.
-/

namespace ProjectCompiler

structure BuildConfiguration where
  id : Identity
  name : String
  settings : Settings
  deriving DecidableEq, Repr, Inhabited

namespace BuildConfiguration

def new (name : String) : Fresh BuildConfiguration := do
  return { id := ← freshIdentity, name, settings := Settings.empty }

/-- The same contents under an identity of its own. -/
def clone (configuration : BuildConfiguration) : Fresh BuildConfiguration := do
  return { configuration with id := ← freshIdentity }

def flattenedOver (base : Settings) (configuration : BuildConfiguration) : BuildConfiguration :=
  { configuration with settings := Settings.merged base configuration.settings }

/-- The first configuration of a name. -/
def find? (configurations : List BuildConfiguration) (name : String) :
    Option BuildConfiguration :=
  configurations.find? fun configuration => configuration.name == name

/-- Change the first configuration of a name. -/
def modifyFirst (name : String) (change : BuildConfiguration → BuildConfiguration) :
    List BuildConfiguration → List BuildConfiguration
  | [] => []
  | configuration :: rest =>
      if configuration.name = name then change configuration :: rest
      else configuration :: modifyFirst name change rest

/-- Add an empty configuration of a name unless one is there. -/
def ensure (name : String) (configurations : List BuildConfiguration) :
    Fresh (List BuildConfiguration) := do
  if (find? configurations name).isSome then
    return configurations
  else
    return configurations ++ [← new name]

end BuildConfiguration

end ProjectCompiler
