import ProjectCompiler.Pipeline.Basic
import ProjectCompiler.Proofs.Stateful

/-!
# Calls — what callbacks ask for, and where that leads

Callbacks are arbitrary programs. Two things can still be said about them. If a program restricts
itself to calls of a certain kind, then it moves the session only as such calls do. And since the
answers to calls are determined by the session, a run makes one definite list of calls.

- `Program.Only`, `Pipeline.Only`: programs that restrict themselves to certain calls;
- `Pipeline.enterAll_moves`: where such callbacks lead, handlers of hooks among them;
- `Pipeline.calls`: the calls of a run in order.
-/

namespace ProjectCompiler

open Stateful

variable {ν α β : Type}

/-! ## Calls of a certain kind -/

/-- Whatever its calls are answered, a program makes only certain calls. -/
def Program.Only (allowed : Call ν → Prop) : Program ν α → Prop
  | .done _ => True
  | .call c next => allowed c ∧ ∀ result, (next result).Only allowed
  | .fire _ next => ∀ result, (next result).Only allowed

structure Generator.Only (allowed : Call ν → Prop) (generator : Generator ν) : Prop where
  visitProject : ∀ project, (generator.visitProject project).Only allowed
  visitConfiguration : ∀ configuration, (generator.visitConfiguration configuration).Only allowed
  leaveConfiguration : ∀ configuration, (generator.leaveConfiguration configuration).Only allowed
  visitTarget : ∀ target, (generator.visitTarget target).Only allowed
  leaveTarget : ∀ target, (generator.leaveTarget target).Only allowed
  leaveProject : ∀ project, (generator.leaveProject project).Only allowed

structure Plugin.Only (allowed : Call ν → Prop) (plugin : Plugin ν) : Prop where
  before : ∀ generator, (plugin.before generator).Only allowed
  after : ∀ generator, (plugin.after generator).Only allowed
  onHook : ∀ hook, (plugin.onHook hook).Only allowed

/-- Generators and plugins that make only certain calls. -/
structure Pipeline.Only (allowed : Call ν → Prop) (pipeline : Pipeline ν) : Prop where
  generators : ∀ generator ∈ pipeline.generators, generator.Only allowed
  plugins : ∀ plugin ∈ pipeline.plugins, plugin.Only allowed

namespace Program

variable {allowed : Call ν → Prop}

theorem Only.bind {program : Program ν α} {rest : α → Program ν β} (h : program.Only allowed)
    (hrest : ∀ answer, (rest answer).Only allowed) : (program >>= rest).Only allowed := by
  induction program with
  | done result =>
    cases result with
    | ok answer => exact hrest answer
    | error error => trivial
  | call c next ih =>
    refine ⟨h.1, ?_⟩
    intro result
    exact ih result (h.2 result)
  | fire hook next ih =>
    intro result
    exact ih result (h result)

theorem Only.request {c : Call ν} (h : allowed c) : (Program.request c).Only allowed :=
  ⟨h, fun _ => trivial⟩

theorem Only.fireHook (hook : Hook) : (Program.fireHook hook).Only allowed :=
  fun _ => trivial

theorem run_call (answer : Hook → Run ν Unit) (c : Call ν)
    (next : Except PipelineError c.Answer → Program ν α) (session : Session ν) :
    (Program.call c next).run answer session =
      (next (c.perform session).1).run answer (c.perform session).2 :=
  rfl

theorem run_fire (answer : Hook → Run ν Unit) (hook : Hook)
    (next : Except PipelineError Unit → Program ν α) (session : Session ν) :
    (Program.fire hook next).run answer session =
      (next (answer hook session).1).run answer (answer hook session).2 :=
  rfl

variable {related : Session ν → Session ν → Prop} [IsPreorder (Session ν) related]
  {answer : Hook → Run ν Unit}

/-- The induction is on the program; each of its calls is a step along the relation. -/
theorem run_moves {program : Program ν α} (h : program.Only allowed)
    (hcalls : ∀ c, allowed c → Moves related c.perform)
    (hanswer : ∀ hook, Moves related (answer hook)) : Moves related (program.run answer) := by
  induction program with
  | done result =>
    intro s
    exact refl_of related s
  | call c next ih =>
    intro s
    have hcall : related s (c.perform s).2 := hcalls c h.1 s
    exact trans_of related hcall (ih _ (h.2 _) _)
  | fire hook next ih =>
    intro s
    have hfired : related s (answer hook s).2 := hanswer hook s
    exact trans_of related hfired (ih _ (h _) _)

end Program

/-! ## Callbacks of a pipeline -/

namespace Pipeline

variable {allowed : Call ν → Prop} {pipeline : Pipeline ν}

/-- Enter callbacks one after another; their hooks are answered by a given function. -/
def enterWith (answer : Hook → Run ν Unit) (callbacks : List (Callback ν)) : Run ν Unit :=
  callbacks.forM fun callback => do
    Session.enter callback.event
    callback.program.run answer

/-- The handlers of a hook as callbacks. -/
def handlers (plugins : List (Plugin ν)) (hook : Hook) : List (Callback ν) :=
  plugins.map fun plugin => ⟨.hook plugin.name hook, plugin.onHook hook⟩

theorem enterWith_cons (answer : Hook → Run ν Unit) (callback : Callback ν)
    (rest : List (Callback ν)) (session : Session ν) :
    enterWith answer (callback :: rest) session =
      match callback.program.run answer
          { session with trace := session.trace ++ [callback.event] } with
      | (.ok _, after) => enterWith answer rest after
      | (.error error, after) => (.error error, after) := by
  rcases hrun : callback.program.run answer
    { session with trace := session.trace ++ [callback.event] } with ⟨result, after⟩
  cases result with
  | ok answer => exact bind_of_ok hrun _
  | error error => exact bind_of_error hrun _

theorem enterWith_append (answer : Hook → Run ν Unit) (first second : List (Callback ν)) :
    enterWith answer (first ++ second) =
      enterWith answer first >>= fun _ => enterWith answer second := by
  simp [enterWith]

theorem enterAll_eq_enterWith (plugins : List (Plugin ν)) (callbacks : List (Callback ν)) :
    enterAll plugins callbacks = enterWith (fire plugins maximalNesting) callbacks :=
  rfl

/-- At the bottom the first plugin refuses, before anything is called. -/
theorem fire_zero (plugins : List (Plugin ν)) (hook : Hook) (session : Session ν) :
    (fire plugins 0 hook session).2 = session := by
  rw [fire]
  rcases plugins with _ | ⟨plugin, rest⟩
  · rfl
  · exact congrArg Prod.snd (bind_of_error rfl _)

theorem fire_succ (plugins : List (Plugin ν)) (depth : Nat) (hook : Hook) :
    fire plugins (depth + 1) hook = enterWith (fire plugins depth) (handlers plugins hook) := by
  simp only [enterWith, handlers, List.forM_eq_forM, List.forM_map]
  rfl

theorem mem_generators_of_ordered {generators : List (Generator ν)} {generator : Generator ν}
    (h : pipeline.ordered = .ok generators) (hmem : generator ∈ generators) :
    generator ∈ pipeline.generators := by
  unfold ordered at h
  rcases hplaced : Schedule.order pipeline.infos with error | placed
  · rw [hplaced] at h
    cases h
  · rw [hplaced] at h
    cases h
    rcases List.mem_filterMap.1 hmem with ⟨info, -, hfind⟩
    exact List.mem_of_find?_eq_some hfind

/-- Callbacks restrict themselves as generators and plugins do. -/
theorem Only.of_mem_callbacks (h : pipeline.Only allowed) {generators : List (Generator ν)}
    (hordered : pipeline.ordered = .ok generators) {project : Project} {callback : Callback ν}
    (hmem : callback ∈ pipeline.callbacks project generators) : callback.program.Only allowed := by
  rcases List.mem_flatMap.1 hmem with ⟨generator, hgenerator, hcallback⟩
  have hgen : generator.Only allowed :=
    h.generators generator (mem_generators_of_ordered hordered hgenerator)
  -- One case for each kind of callback, in the order in which they are entered.
  simp only [callbacksFor, Generator.walk, List.mem_append, List.mem_map, List.mem_flatMap,
    List.mem_cons, List.not_mem_nil, or_false] at hcallback
  rcases hcallback with (⟨plugin, hplugin, rfl⟩ | (((rfl | ⟨configuration, -, rfl | rfl⟩) |
    ⟨target, -, rfl | rfl⟩) | rfl)) | ⟨plugin, hplugin, rfl⟩
  · exact (h.plugins plugin hplugin).before _
  · exact hgen.visitProject project
  · exact hgen.visitConfiguration configuration
  · exact hgen.leaveConfiguration configuration
  · exact hgen.visitTarget target
  · exact hgen.leaveTarget target
  · exact hgen.leaveProject project
  · exact (h.plugins plugin hplugin).after _

theorem Only.of_mem_handlers (h : pipeline.Only allowed) {hook : Hook} {callback : Callback ν}
    (hmem : callback ∈ handlers pipeline.plugins hook) : callback.program.Only allowed := by
  rcases List.mem_map.1 hmem with ⟨plugin, hplugin, rfl⟩
  exact (h.plugins plugin hplugin).onHook hook

section Moves

variable {related : Session ν → Session ν → Prop} [IsPreorder (Session ν) related]

theorem enterWith_moves {answer : Hook → Run ν Unit} {callbacks : List (Callback ν)}
    (h : ∀ callback ∈ callbacks, callback.program.Only allowed)
    (hcalls : ∀ c, allowed c → Moves related c.perform)
    (henter : ∀ event, Moves related (Session.enter event))
    (hanswer : ∀ hook, Moves related (answer hook)) :
    Moves related (enterWith answer callbacks) := by
  apply Moves.forM
  intro callback hmem
  apply Moves.bind (henter callback.event)
  intro _
  exact Program.run_moves (h callback hmem) hcalls hanswer

/-- The induction is on how deep firings may nest. -/
theorem fire_moves (h : pipeline.Only allowed) (hcalls : ∀ c, allowed c → Moves related c.perform)
    (henter : ∀ event, Moves related (Session.enter event)) (depth : Nat) (hook : Hook) :
    Moves related (fire pipeline.plugins depth hook) := by
  induction depth generalizing hook with
  | zero =>
    -- Every plugin refuses, so nothing is done.
    exact Moves.forM fun plugin _ => Moves.throw _
  | succ depth ih =>
    rw [fire_succ]
    exact enterWith_moves (fun _ => h.of_mem_handlers) hcalls henter ih

/-- All callbacks of a run together move the session as their calls do. -/
theorem enterAll_moves (h : pipeline.Only allowed) {generators : List (Generator ν)}
    (hordered : pipeline.ordered = .ok generators) (project : Project)
    (hcalls : ∀ c, allowed c → Moves related c.perform)
    (henter : ∀ event, Moves related (Session.enter event)) :
    Moves related (enterAll pipeline.plugins (pipeline.callbacks project generators)) := by
  rw [enterAll_eq_enterWith]
  exact enterWith_moves (fun _ => h.of_mem_callbacks hordered) hcalls henter
    (fire_moves h hcalls henter maximalNesting)

end Moves

end Pipeline

/-! ## The calls of a run -/

/-- The calls that a program makes, with those that answer its hooks. -/
def Program.calls (answer : Hook → Run ν Unit) (answered : Hook → Session ν → List (Call ν)) :
    Program ν α → Session ν → List (Call ν)
  | .done _, _ => []
  | .call c next, session =>
      let (result, after) := c.perform session
      c :: (next result).calls answer answered after
  | .fire hook next, session =>
      let (result, after) := answer hook session
      answered hook session ++ (next result).calls answer answered after

theorem Program.calls_call (answer : Hook → Run ν Unit) (answered : Hook → Session ν → List (Call ν))
    (c : Call ν) (next : Except PipelineError c.Answer → Program ν α) (session : Session ν) :
    (Program.call c next).calls answer answered session =
      c :: (next (c.perform session).1).calls answer answered (c.perform session).2 :=
  rfl

theorem Program.calls_fire (answer : Hook → Run ν Unit) (answered : Hook → Session ν → List (Call ν))
    (hook : Hook) (next : Except PipelineError Unit → Program ν α) (session : Session ν) :
    (Program.fire hook next).calls answer answered session =
      answered hook session ++
        (next (answer hook session).1).calls answer answered (answer hook session).2 :=
  rfl

namespace Pipeline

/-- The calls of callbacks entered one after another, up to the first error. -/
def callsWith (answer : Hook → Run ν Unit) (answered : Hook → Session ν → List (Call ν)) :
    List (Callback ν) → Session ν → List (Call ν)
  | [], _ => []
  | callback :: rest, session =>
      let entered := { session with trace := session.trace ++ [callback.event] }
      callback.program.calls answer answered entered ++
        match callback.program.run answer entered with
        | (.ok _, after) => callsWith answer answered rest after
        | (.error _, _) => []

/-- The calls of the handlers of a hook. -/
def hookCalls (plugins : List (Plugin ν)) : (depth : Nat) → Hook → Session ν → List (Call ν)
  | 0, _, _ => []
  | depth + 1, hook, session =>
      callsWith (fire plugins depth) (hookCalls plugins depth) (handlers plugins hook) session

/-- The calls that the callbacks of a run make. -/
def calls (pipeline : Pipeline ν) (project : Project) (supply : Supply) (backend : Backend) :
    List (Call ν) :=
  match pipeline.ordered with
  | .error _ => []
  | .ok generators =>
      callsWith (fire pipeline.plugins maximalNesting) (hookCalls pipeline.plugins maximalNesting)
        (pipeline.callbacks project generators) (Session.start project supply backend)

end Pipeline

end ProjectCompiler
