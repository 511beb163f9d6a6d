import ProjectCompiler.Proofs.Pipeline.Session

/-!
# Instruction — compilation in terms of model objects

Generators work with native objects by number. What they do can also be told in terms of the model
alone: attach this target to the project, give that configuration its settings. An instruction is one
such step. It looks up the native objects of the nodes that it names, makes those that are missing,
and edits the backend.

- `Instruction.perform`, `Instruction.performAll`: instructions as runs;
- `Instruction.perform_remembers`: a known node is known by the same number from then on, so it makes
  no difference whether its number is looked up once or every time;
- `CarriesOut`: a run does the same as a list of instructions.
-/

namespace ProjectCompiler

open Stateful

variable {ν α β : Type}

inductive Instruction
  /-- A callback is entered. -/
  | enter (event : Event)
  | translate (node : Node)
  /-- A group of the project. -/
  | group (project : Project) (name : String)
  | attach (parent child : Node)
  /-- A configuration with its settings. -/
  | settle (configuration : BuildConfiguration)
  /-- No automatic scheme for a target. -/
  | suppress (target : Target)
  /-- A user scheme of a target, on the scheme list. -/
  | list (target : Target) (test : Option Target) (scheme : Scheme)
  | stage
  | fail (error : PipelineError)

/-! ## Carrying instructions out -/

namespace Session

/-- The native object of a target, if there is a target. -/
def nativeTarget? : Option Target → Run ν (Option NativeId)
  | none => return none
  | some target => return some (← native (.target target))

end Session

namespace Instruction

def perform : Instruction → Run ν Unit
  | enter event => Session.enter event
  | translate node => do
      let _ ← Session.native node
  | group project name => do
      let native ← Session.native (.project project)
      let _ ← Session.edit .backend (Backend.createGroup native name)
  | attach parent child => do
      let nativeParent ← Session.native parent
      let nativeChild ← Session.native child
      Session.edit .backend (Backend.attach nativeParent nativeChild)
  | settle configuration => do
      let native ← Session.native (.configuration configuration)
      Session.edit .backend (Backend.setBuildSettings native configuration.settings)
  | suppress target => do
      let native ← Session.native (.target target)
      Session.edit .backend (Backend.suppress native)
  | list target test scheme => do
      let nativeTarget ← Session.native (.target target)
      let nativeTest ← Session.nativeTarget? test
      let native ← Session.native (.scheme scheme)
      Session.edit .backend (Backend.fillScheme nativeTarget nativeTest scheme native)
  | stage => modify fun session => { session with staged := true }
  | fail error => throw error

/-- Carry instructions out one after another, up to the first error. -/
def performAll (plan : List Instruction) : Run ν Unit :=
  plan.forM perform

theorem performAll_cons (instruction : Instruction) (rest : List Instruction) :
    performAll (ν := ν) (instruction :: rest) =
      instruction.perform >>= fun _ => performAll rest :=
  rfl

theorem performAll_append (first second : List Instruction) :
    performAll (ν := ν) (first ++ second) = performAll first >>= fun _ => performAll second := by
  simp [performAll]

end Instruction

/-! ## Known nodes -/

theorem Instruction.perform_remembers (instruction : Instruction) :
    Moves Session.Remembers (instruction.perform (ν := ν)) := by
  -- Only look-ups change what is known.
  cases instruction with
  | enter event => exact fun session => ⟨rfl, fun _ _ h => h⟩
  | translate node => exact Moves.bind (Session.native_remembers node) fun _ => Moves.pure _
  | group project name =>
    refine Moves.bind (Session.native_remembers _) fun native => ?_
    exact Moves.bind (Session.edit_remembers _ _) fun _ => Moves.pure _
  | attach parent child =>
    refine Moves.bind (Session.native_remembers parent) fun nativeParent => ?_
    exact Moves.bind (Session.native_remembers child) fun _ => Session.edit_remembers _ _
  | settle configuration =>
    exact Moves.bind (Session.native_remembers _) fun _ => Session.edit_remembers _ _
  | suppress target =>
    exact Moves.bind (Session.native_remembers _) fun _ => Session.edit_remembers _ _
  | list target test scheme =>
    have htest : Moves Session.Remembers (Session.nativeTarget? (ν := ν) test) := by
      cases test with
      | none => exact Moves.pure _
      | some test => exact Moves.bind (Session.native_remembers _) fun _ => Moves.pure _
    refine Moves.bind (Session.native_remembers _) fun nativeTarget => ?_
    refine Moves.bind htest fun nativeTest => ?_
    exact Moves.bind (Session.native_remembers _) fun _ => Session.edit_remembers _ _
  | stage => exact fun session => ⟨rfl, fun _ _ h => h⟩
  | fail error => exact Moves.throw error

theorem Instruction.performAll_remembers (plan : List Instruction) :
    Moves Session.Remembers (Instruction.performAll (ν := ν) plan) :=
  Moves.forM fun instruction _ => instruction.perform_remembers

/-! ## Runs that carry instructions out -/

/-- A session of a project that knows some nodes by their numbers. -/
structure Session.Recalls (project : Project) (known : List (Node × NativeId))
    (session : Session ν) : Prop where
  project : session.project = project
  knows : ∀ entry ∈ known, session.Knows entry.1 entry.2

/-- The run does the same as the instructions, in sessions that know certain nodes. -/
def CarriesOut (project : Project) (known : List (Node × NativeId)) (x : Run ν Unit)
    (plan : List Instruction) : Prop :=
  ∀ session, session.Recalls project known → x session = Instruction.performAll plan session

namespace CarriesOut

variable {project : Project} {known : List (Node × NativeId)} {x y : Run ν Unit}
  {first second plan : List Instruction}

theorem recalls_of_remembers {before after : Session ν} (h : before.Recalls project known)
    (hafter : before.Remembers after) : after.Recalls project known :=
  ⟨hafter.project.trans h.project, fun entry hentry => hafter.knows _ _ (h.knows entry hentry)⟩

theorem nil : CarriesOut project known (pure () : Run ν Unit) [] :=
  fun _ _ => rfl

theorem append (hx : CarriesOut project known x first) (hy : CarriesOut project known y second) :
    CarriesOut project known (x >>= fun _ => y) (first ++ second) := by
  intro session hsession
  rw [Instruction.performAll_append]
  -- What is known at the start is still known when the second run begins.
  calc
    (x >>= fun _ => y) session = (Instruction.performAll first >>= fun _ => y) session :=
      bind_eq_of_eq (hx session hsession) _
    _ = (Instruction.performAll first >>= fun _ => Instruction.performAll second) session :=
      bind_agree (fun s hs => recalls_of_remembers hs (Instruction.performAll_remembers first s))
        (fun _ s hs => hy s hs) hsession

theorem forM {items : List α} {f : α → Run ν Unit} {g : α → List Instruction}
    (h : ∀ item ∈ items, CarriesOut project known (f item) (g item)) :
    CarriesOut project known (items.forM f) (items.flatMap g) := by
  induction items with
  | nil => exact nil
  | cons item rest ih =>
    have hrest := ih fun other hother => h other (List.mem_cons_of_mem _ hother)
    rw [List.flatMap_cons]
    exact append (h item List.mem_cons_self) hrest

theorem enter (event : Event) (hx : CarriesOut project known x plan) :
    CarriesOut project known (Session.enter event >>= fun _ => x) (.enter event :: plan) := by
  have hentered : CarriesOut (ν := ν) project known (Session.enter event) [.enter event] :=
    fun _ _ => rfl
  exact append hentered hx

/-- After a node is looked up, it is known. -/
theorem native {node : Node} {f : NativeId → Run ν Unit}
    (h : ∀ id, CarriesOut project ((node, id) :: known) (f id) plan) :
    CarriesOut project known (Session.native node >>= f) (.translate node :: plan) := by
  intro session hsession
  have hplan : Instruction.performAll (ν := ν) (.translate node :: plan) =
      Session.native node >>= fun _ => Instruction.performAll plan := by
    simp [Instruction.performAll_cons, Instruction.perform]
  rw [hplan]
  rcases hnative : Session.native node session with ⟨result, after⟩
  cases result with
  | error error => rw [bind_of_error hnative, bind_of_error hnative]
  | ok id =>
    rw [bind_of_ok hnative, bind_of_ok hnative]
    have hremembers : session.Remembers after := by
      have hmoves := Session.native_remembers node session
      rwa [hnative] at hmoves
    have hafter : after.Recalls project known := recalls_of_remembers hsession hremembers
    apply h id after
    refine ⟨hafter.project, ?_⟩
    intro entry hentry
    rcases List.mem_cons.1 hentry with rfl | hentry
    · exact Session.knows_of_native hnative
    · exact hafter.knows entry hentry

end CarriesOut

end ProjectCompiler
