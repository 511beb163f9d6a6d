import ProjectCompiler.Project.Identity
import ProjectCompiler.Project.Kind

/-!
# Scheme — which configuration each action uses

A scheme belongs to a target and names one build configuration per action. A new scheme tests,
launches and analyzes with `Debug` and profiles and archives with `Release`.
-/

namespace ProjectCompiler

structure Scheme where
  id : Identity
  name : String
  testConfiguration : String
  launchConfiguration : String
  profileConfiguration : String
  analyzeConfiguration : String
  archiveConfiguration : String
  deriving DecidableEq, Repr, Inhabited

namespace Scheme

def new (name : String) : Fresh Scheme := do
  return {
    id := ← freshIdentity
    name
    testConfiguration := "Debug"
    launchConfiguration := "Debug"
    profileConfiguration := "Release"
    analyzeConfiguration := "Debug"
    archiveConfiguration := "Release" }

/-- The same contents under an identity of its own. -/
def clone (scheme : Scheme) : Fresh Scheme := do
  return { scheme with id := ← freshIdentity }

def configurationFor (scheme : Scheme) : SchemeAction → String
  | .test => scheme.testConfiguration
  | .launch => scheme.launchConfiguration
  | .profile => scheme.profileConfiguration
  | .analyze => scheme.analyzeConfiguration
  | .archive => scheme.archiveConfiguration

def setConfiguration (scheme : Scheme) (action : SchemeAction) (name : String) : Scheme :=
  match action with
  | .test => { scheme with testConfiguration := name }
  | .launch => { scheme with launchConfiguration := name }
  | .profile => { scheme with profileConfiguration := name }
  | .analyze => { scheme with analyzeConfiguration := name }
  | .archive => { scheme with archiveConfiguration := name }

/-- Use one configuration for every action. -/
def useConfiguration (scheme : Scheme) (name : String) : Scheme :=
  SchemeAction.all.foldl (fun scheme action => scheme.setConfiguration action name) scheme

/-- Every action with its configuration, in the order of the actions. -/
def configurations (scheme : Scheme) : List (SchemeAction × String) :=
  SchemeAction.all.map fun action => (action, scheme.configurationFor action)

theorem configurationFor_setConfiguration (scheme : Scheme) (action other : SchemeAction)
    (name : String) :
    (scheme.setConfiguration action name).configurationFor other =
      if other = action then name else scheme.configurationFor other := by
  cases action <;> cases other <;> rfl

end Scheme

end ProjectCompiler
