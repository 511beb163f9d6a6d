import ProjectCompiler.Pipeline.Session

/-!
# Program — what a callback does, as data

A callback of a generator or plugin is a program: it makes calls to the session one after another,
each depending on the answers so far, and ends with a result or an error. A failed call does not end
the program; it is the program that decides what to do with the error.

A program may also fire a hook, which calls the handlers of all plugins. A handler is itself a
program, so it may fire again; what happens then is for whoever carries the program out to say.

- `Program.run`: carries a program out in a session, its hooks answered by a given function;
- `Program.Quiet`: the programs that fire nothing, which run the same whatever hooks do.
-/

namespace ProjectCompiler

/-- A request to the session. -/
inductive Call (ν : Type)
  /-- The native object of a node, made on first use. -/
  | native (node : Node)
  /-- The native object of a node if it was made before. -/
  | lookup (node : Node)
  /-- The number of model objects translated so far. -/
  | translated
  | project
  | staged
  /-- Have the scheme list saved at the end of the run. -/
  | stage
  /-- Save the scheme list now if it is staged. -/
  | commit
  | backend (operation : Operation)
  /-- Make a model object that belongs to no project. -/
  | construct (build : Fresh Node)
  | note (entry : ν)

namespace Call

variable {ν : Type}

abbrev Answer : Call ν → Type
  | .native _ => NativeId
  | .lookup _ => Option NativeId
  | .translated => Nat
  | .project => Project
  | .staged => Bool
  | .stage => Unit
  | .commit => Bool
  | .backend operation => operation.Answer
  | .construct _ => Node
  | .note _ => Unit

def perform : (call : Call ν) → Run ν call.Answer
  | .native node => Session.native node
  | .lookup node => Session.lookup node
  | .translated => return (← get).natives.length
  | .project => return (← get).project
  | .staged => return (← get).staged
  | .stage => modify fun session => { session with staged := true }
  | .commit => Session.commit
  | .backend operation => Session.edit .backend operation.perform
  | .construct build => Session.construct build
  | .note entry => modify fun session => { session with notes := session.notes ++ [entry] }

end Call

inductive Program (ν α : Type)
  | done (result : Except PipelineError α)
  | call (call : Call ν) (next : Except PipelineError call.Answer → Program ν α)
  | fire (hook : Hook) (next : Except PipelineError Unit → Program ν α)

namespace Program

variable {ν α β : Type}

/-! ## Sequences of calls -/

/-- Continue with the result of a program; an error ends both. -/
protected def bind : Program ν α → (α → Program ν β) → Program ν β
  | .done (.ok answer), rest => rest answer
  | .done (.error error), _ => .done (.error error)
  | .call c next, rest => .call c fun answer => (next answer).bind rest
  | .fire hook next, rest => .fire hook fun answer => (next answer).bind rest

instance : Monad (Program ν) where
  pure answer := .done (.ok answer)
  bind := Program.bind

def fail (error : PipelineError) : Program ν α :=
  .done (.error error)

/-- Make a call; its error ends the program. -/
def request (call : Call ν) : Program ν call.Answer :=
  .call call .done

/-- Fire a hook; an error of a handler ends the program. -/
def fireHook (hook : Hook) : Program ν Unit :=
  .fire hook .done

/-- The result of a program, its error included, without ending on it. -/
def attempt : Program ν α → Program ν (Except PipelineError α)
  | .done result => .done (.ok result)
  | .call c next => .call c fun answer => (next answer).attempt
  | .fire hook next => .fire hook fun answer => (next answer).attempt

def native (node : Node) : Program ν NativeId :=
  request (.native node)

def project : Program ν Project :=
  request .project

def operate (operation : Operation) : Program ν operation.Answer :=
  request (.backend operation)

/-! ## Carrying a program out -/

/-- Run a program whose hooks are answered by `answer`. -/
def run (answer : Hook → Run ν Unit) : Program ν α → Run ν α
  | .done result => fun session => (result, session)
  | .call c next => fun session =>
      let (result, session) := c.perform session
      (next result).run answer session
  | .fire hook next => fun session =>
      let (result, session) := answer hook session
      (next result).run answer session

/-! ## Programs that fire nothing -/

/-- Whatever its calls are answered, the program fires no hook. -/
def Quiet : Program ν α → Prop
  | .done _ => True
  | .call _ next => ∀ result, (next result).Quiet
  | .fire _ _ => False

/-- A quiet program runs the same whatever hooks do. -/
theorem Quiet.run_eq {program : Program ν α} (quiet : program.Quiet)
    (first second : Hook → Run ν Unit) : program.run first = program.run second := by
  induction program with
  | done result => rfl
  | call c next ih =>
    funext session
    exact congrFun (ih (c.perform session).1 (quiet _)) (c.perform session).2
  | fire hook next => exact quiet.elim

end Program

end ProjectCompiler
