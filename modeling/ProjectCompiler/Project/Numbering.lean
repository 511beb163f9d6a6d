import ProjectCompiler.Project.Basic

/-!
# Numbering — the same objects under small numbers

Identities only tell objects apart. A numbering replaces them by one, two, three and so on in the
order in which the objects are met: a project, its configurations, and then each target with its
configurations and schemes. An object that is met again keeps its number, so two projects that differ
in identities alone are numbered alike.
-/

namespace ProjectCompiler

/-- The identities met so far, in order. -/
abbrev Numbering := StateM (List Identity)

def Identity.numbered (id : Identity) : Numbering Identity := do
  let met ← get
  match met.idxOf? id with
  | some position => return ⟨position + 1⟩
  | none =>
      set (met ++ [id])
      return ⟨met.length + 1⟩

def BuildConfiguration.numbered (configuration : BuildConfiguration) :
    Numbering BuildConfiguration := do
  return { configuration with id := ← configuration.id.numbered }

def Scheme.numbered (scheme : Scheme) : Numbering Scheme := do
  return { scheme with id := ← scheme.id.numbered }

def Target.numbered (target : Target) : Numbering Target := do
  return { target with
    id := ← target.id.numbered
    configurations := ← target.configurations.mapM BuildConfiguration.numbered
    schemes := ← target.schemes.mapM Scheme.numbered }

def Project.numbered (project : Project) : Numbering Project := do
  return { project with
    id := ← project.id.numbered
    configurations := ← project.configurations.mapM BuildConfiguration.numbered
    targets := ← project.targets.mapM Target.numbered }

/-- The project under the numbers of its own objects. -/
def Project.canonical (project : Project) : Project :=
  (project.numbered.run []).1

end ProjectCompiler
