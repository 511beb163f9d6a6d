/-!
# Schedule — the order in which generators run

Every generator has a name and names the generators it depends on. The order places one generator
after another, each time the first registered one whose dependencies are all placed.

- `Schedule.order`: that order, or why there is none;
- `Schedule.cycleFrom`: when no generator is ready, following unplaced dependencies leads round a
  cycle, which the error reports.
-/

namespace ProjectCompiler

/-- What is known of a generator before it runs. -/
structure GeneratorInfo where
  name : String
  description : String
  dependencies : List String
  deriving DecidableEq, Repr

/-- Why a set of generators has no order. -/
inductive ScheduleError
  | duplicateGenerator (name : String)
  | missingDependency (generator dependency : String)
  | dependencyCycle (path : List String)
  deriving DecidableEq, Repr

namespace Schedule

/-! ## Checks before ordering -/

/-- The first name that occurred before. -/
def firstRepeated? : (seen : List String) → List GeneratorInfo → Option String
  | _, [] => none
  | seen, generator :: rest =>
      if generator.name ∈ seen then some generator.name
      else firstRepeated? (generator.name :: seen) rest

def names (generators : List GeneratorInfo) : List String :=
  generators.map GeneratorInfo.name

/-- The first dependency, in order of registration and then of declaration, that is not
registered. -/
def firstMissing? (generators : List GeneratorInfo) : Option (String × String) :=
  generators.findSome? fun generator =>
    (generator.dependencies.find? fun dependency => dependency ∉ names generators).map
      fun dependency => (generator.name, dependency)

/-! ## Placement -/

/-- The first generator that does not wait for another one. -/
def ready? (waiting : List GeneratorInfo) : Option GeneratorInfo :=
  waiting.find? fun generator =>
    generator.dependencies.all fun dependency => dependency ∉ names waiting

/-- Place waiting generators until none is left, or none is ready and those left are given back. The
bound is their number. -/
def place : Nat → List GeneratorInfo → Except (List GeneratorInfo) (List GeneratorInfo)
  | 0, _ => .ok []
  | bound + 1, waiting =>
      match ready? waiting with
      | none => if waiting.isEmpty then .ok [] else .error waiting
      | some generator => do
          -- Names are distinct by now, so this generator and no other drops out.
          let rest ← place bound (waiting.filter fun other => other.name ≠ generator.name)
          return generator :: rest

/-! ## Cycles -/

/-- The first dependency of a waiting generator that waits too. -/
def waitingDependency? (waiting : List GeneratorInfo) (name : String) : Option String := do
  let generator ← waiting.find? fun generator => generator.name = name
  generator.dependencies.find? fun dependency => dependency ∈ names waiting

/-- Follow waiting dependencies until a name comes up again; the path from there closes the cycle. -/
def follow (waiting : List GeneratorInfo) : Nat → (path : List String) → String → List String
  | 0, path, _ => path
  | bound + 1, path, name =>
      if name ∈ path then path.dropWhile (· ≠ name) ++ [name]
      else
        match waitingDependency? waiting name with
        | some next => follow waiting bound (path ++ [name]) next
        -- Among generators of which none is ready, each waits for another one of them.
        | none => path ++ [name]

/-- A cycle among generators of which none is ready. -/
def cycleFrom (waiting : List GeneratorInfo) : List String :=
  match waiting with
  | [] => []
  -- One step more than there are names, so that one of them comes up again.
  | first :: _ => follow waiting (waiting.length + 1) [] first.name

/-! ## The order -/

def order (generators : List GeneratorInfo) : Except ScheduleError (List GeneratorInfo) :=
  match firstRepeated? [] generators with
  | some name => .error (.duplicateGenerator name)
  | none =>
      match firstMissing? generators with
      | some (generator, dependency) => .error (.missingDependency generator dependency)
      | none =>
          match place generators.length generators with
          | .ok placed => .ok placed
          | .error waiting => .error (.dependencyCycle (cycleFrom waiting))

end Schedule

end ProjectCompiler
