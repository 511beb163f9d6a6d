import ProjectCompiler.Native.Backend
import ProjectCompiler.Pipeline.Error

/-!
# Session — the state of one run

A run compiles one project into one backend. It remembers which native object stands for which model
object, by identity, so that a model object is translated once; and whether the scheme list is
staged, which is saved at the end of the run only.

- `Session.native`: the native object of a node, made on first use;
- `Session.commit`: saves the staged list.

Everything a run does happens in `Run`: it may fail, and the state reached by then stays.
-/

namespace ProjectCompiler

inductive Hook
  | beforeAddingUserSchemes
  deriving DecidableEq, Repr

def Hook.name : Hook → String
  | beforeAddingUserSchemes => "before_adding_user_schemes"

/-- A callback of a generator or plugin, as it is entered. -/
inductive Event
  | before (plugin generator : String)
  | visitProject (generator : String)
  | visitConfiguration (generator : String) (configuration : BuildConfiguration)
  | leaveConfiguration (generator : String) (configuration : BuildConfiguration)
  | visitTarget (generator : String) (target : Target)
  | leaveTarget (generator : String) (target : Target)
  | leaveProject (generator : String)
  | after (plugin generator : String)
  | hook (plugin : String) (hook : Hook)
  deriving DecidableEq, Repr

/-- The state of a run whose callbacks leave notes of type `ν`. -/
structure Session (ν : Type) where
  project : Project
  backend : Backend
  /-- The native object of each model object translated so far. -/
  natives : List (Identity × NativeId)
  staged : Bool
  supply : Supply
  /-- Callbacks entered so far, in order. -/
  trace : List Event
  /-- Notes of callbacks, in order. -/
  notes : List ν

abbrev Run (ν : Type) := ExceptT PipelineError (StateM (Session ν))

namespace Session

variable {ν : Type}

def start (project : Project) (supply : Supply) (backend : Backend) : Session ν :=
  { project, backend, natives := [], staged := false, supply, trace := [], notes := [] }

/-- Run an operation on the backend, its failure turned into one of the run. -/
def edit {α : Type} (wrap : BackendError → PipelineError) (change : Edit α) : Run ν α :=
  fun session =>
    match change session.backend with
    | (.ok answer, backend) => (.ok answer, { session with backend })
    | (.error error, backend) => (.error (wrap error), { session with backend })

def lookup (node : Node) : Run ν (Option NativeId) := do
  return Entries.find? (← get).natives node.id

def native (node : Node) : Run ν NativeId := do
  match ← lookup node with
  | some native => return native
  | none =>
      let native ← edit (.translation node.text) (Backend.create node)
      modify fun session => { session with natives := session.natives ++ [(node.id, native)] }
      return native

/-- Save the scheme list if it is staged, and say whether it was. -/
def commit : Run ν Bool := do
  if (← get).staged then
    edit .persist Backend.save
    modify fun session => { session with staged := false }
    return true
  else
    return false

/-- Make model objects with new identities. -/
def construct {α : Type} (build : Fresh α) : Run ν α :=
  fun session =>
    let (answer, supply) := build session.supply
    (.ok answer, { session with supply })

def enter (event : Event) : Run ν Unit :=
  modify fun session => { session with trace := session.trace ++ [event] }

end Session

end ProjectCompiler
