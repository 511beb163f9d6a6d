import ProjectCompiler.Manifest.Basic
import ProjectCompiler.Project.Basic

/-!
# Lowering — the project that a manifest declares

A target without a host stands for itself and must name a platform and a deployment target. A target
with a host starts as a unit-test bundle of the host's entry, and what it says itself is laid over
that; an empty list of files says nothing. Lowering does not rely on validation: it fails where the
model cannot be built.
-/

namespace ProjectCompiler

/-- What building up a model can do: take identities, or fail. -/
abbrev Building := ExceptT ModelError Fresh

namespace SchemeEntry

/-- The configurations of an entry, the one for all actions first. -/
def applyTo (entry : SchemeEntry) (scheme : Scheme) : Scheme :=
  entry.overrides.foldl (fun scheme override => scheme.setConfiguration override.1 override.2)
    (match entry.configuration with
      | some name => scheme.useConfiguration name
      | none => scheme)

end SchemeEntry

namespace TargetEntry

/-- The target of an entry by itself. -/
def standalone (entry : TargetEntry) : Building Target := do
  let some platform := entry.platform | throw (.missingField entry.name "platform")
  let some deploymentTarget := entry.deploymentTarget
    | throw (.missingField entry.name "deployment_target")
  let target ← Target.new entry.name entry.type platform deploymentTarget
  return { target with
    language := entry.language.getD .objc
    includeFiles := entry.includeFiles
    excludeFiles := entry.excludeFiles
    host := entry.host
    settings := entry.settings }

/-- The files that an entry names, or the host's if it names none. -/
def filesOr (own inherited : List String) : List String :=
  if own.isEmpty then inherited else own

/-- The target of an entry over the target of its host. -/
def hosted (entry : TargetEntry) (host : Target) : Fresh Target := do
  let target ← Target.unitTestBundle entry.name host
  return { target with
    type := entry.type
    platform := entry.platform.getD target.platform
    deploymentTarget := entry.deploymentTarget.getD target.deploymentTarget
    language := entry.language.getD target.language
    includeFiles := filesOr entry.includeFiles target.includeFiles
    excludeFiles := filesOr entry.excludeFiles target.excludeFiles
    settings := Settings.merged target.settings entry.settings }

/-- Lay the overrides and schemes of an entry over its target. -/
def complete (entry : TargetEntry) (target : Target) : Fresh Target := do
  let target ← entry.configurations.foldlM
    (fun target override => target.editConfiguration override.1
      fun configuration => { configuration with settings := override.2 })
    target
  entry.schemes.foldlM (fun target scheme => target.addScheme scheme.name scheme.applyTo) target

end TargetEntry

namespace Manifest

def lowerTarget (manifest : Manifest) (entry : TargetEntry) : Building Target := do
  match entry.host with
  | none => entry.standalone
  | some hostName =>
      let some hostEntry := manifest.target? hostName | throw (.unknownTarget hostName)
      -- The host is made once more for this alone, and its identity is given out for nothing.
      entry.hosted (← hostEntry.standalone)

/-- The project with its configurations, before any target. -/
def lowerConfigurations (manifest : Manifest) : Fresh Project := do
  let project ← Project.withConfigurations manifest.projectName manifest.configurationNames
  -- The default stands whether or not it is declared.
  let project := { project with
    defaultConfiguration := manifest.defaultConfiguration.getD project.defaultConfiguration
    settings := manifest.settings }
  return manifest.configurations.foldl
    (fun project declared => project.editConfiguration declared.1
      fun configuration => { configuration with settings := declared.2 })
    project

def addEntry (manifest : Manifest) (project : Project) (entry : TargetEntry) : Building Project := do
  let project ← project.addTarget (← manifest.lowerTarget entry)
  -- By now the target has an override for each configuration, in the project's order.
  project.editTarget entry.name entry.complete

def toProject (manifest : Manifest) : Building Project := do
  manifest.targets.foldlM manifest.addEntry (← manifest.lowerConfigurations)

end Manifest

end ProjectCompiler
