import ProjectCompiler.Proofs.Pipeline.Quiet
import ProjectCompiler.Proofs.Pipeline.Session

/-!
# Moments — when callbacks are entered

A run enters one callback after another, handlers of hooks among them. A moment is a callback together
with the session that its program finds, so what holds at a certain point of a run can be said of its
moments.

- `Pipeline.moments`: the moments of a run in order, nested ones at their place;
- `Pipeline.trace_run`: their events are what the run records;
- `Pipeline.momentsWith_append`, `Pipeline.mem_of_momentsWith`: where moments come from;
- `Pipeline.momentsWith_moves`: what holds along every call holds up to every moment.
-/

namespace ProjectCompiler

open Stateful

variable {ν α : Type}

/-- A callback with the session that its program finds. -/
structure RunMoment (ν : Type) where
  callback : Callback ν
  session : Session ν

/-! ## The moments of a run -/

/-- The moments inside of a program, all of them in handlers of its hooks. -/
def Program.moments (answer : Hook → Run ν Unit) (fired : Hook → Session ν → List (RunMoment ν)) :
    Program ν α → Session ν → List (RunMoment ν)
  | .done _, _ => []
  | .call c next, session =>
      let (result, after) := c.perform session
      (next result).moments answer fired after
  | .fire hook next, session =>
      let (result, after) := answer hook session
      fired hook session ++ (next result).moments answer fired after

theorem Program.moments_call (answer : Hook → Run ν Unit)
    (fired : Hook → Session ν → List (RunMoment ν)) (c : Call ν)
    (next : Except PipelineError c.Answer → Program ν α) (session : Session ν) :
    (Program.call c next).moments answer fired session =
      (next (c.perform session).1).moments answer fired (c.perform session).2 :=
  rfl

theorem Program.moments_fire (answer : Hook → Run ν Unit)
    (fired : Hook → Session ν → List (RunMoment ν)) (hook : Hook)
    (next : Except PipelineError Unit → Program ν α) (session : Session ν) :
    (Program.fire hook next).moments answer fired session =
      fired hook session ++
        (next (answer hook session).1).moments answer fired (answer hook session).2 :=
  rfl

namespace Pipeline

/-- The moments of callbacks entered one after another, up to the first error. -/
def momentsWith (answer : Hook → Run ν Unit) (fired : Hook → Session ν → List (RunMoment ν)) :
    List (Callback ν) → Session ν → List (RunMoment ν)
  | [], _ => []
  | callback :: rest, session =>
      let entered := { session with trace := session.trace ++ [callback.event] }
      ⟨callback, entered⟩ :: callback.program.moments answer fired entered ++
        match callback.program.run answer entered with
        | (.ok _, after) => momentsWith answer fired rest after
        | (.error _, _) => []

/-- The moments of the handlers of a hook. -/
def hookMoments (plugins : List (Plugin ν)) : (depth : Nat) → Hook → Session ν → List (RunMoment ν)
  | 0, _, _ => []
  | depth + 1, hook, session =>
      momentsWith (fire plugins depth) (hookMoments plugins depth) (handlers plugins hook) session

/-- The moments of a run in order. -/
def moments (pipeline : Pipeline ν) (project : Project) (supply : Supply) (backend : Backend) :
    List (RunMoment ν) :=
  match pipeline.ordered with
  | .error _ => []
  | .ok generators =>
      momentsWith (fire pipeline.plugins maximalNesting)
        (hookMoments pipeline.plugins maximalNesting) (pipeline.callbacks project generators)
        (Session.start project supply backend)

theorem moments_of_ordered {pipeline : Pipeline ν} {generators : List (Generator ν)}
    (hordered : pipeline.ordered = .ok generators) (project : Project) (supply : Supply)
    (backend : Backend) :
    pipeline.moments project supply backend =
      momentsWith (fire pipeline.plugins maximalNesting)
        (hookMoments pipeline.plugins maximalNesting) (pipeline.callbacks project generators)
        (Session.start project supply backend) := by
  rw [moments, hordered]

end Pipeline

/-! ## What is recorded -/

/-- No call writes to the record of callbacks. -/
theorem Call.trace_perform (c : Call ν) (session : Session ν) :
    (c.perform session).2.trace = session.trace := by
  cases c with
  | native node =>
    rw [perform, Session.native_apply]
    rcases Entries.find? session.natives node.id with _ | id
    · rcases NativeObject.ofNode node with error | object <;> rfl
    · rfl
  | commit =>
    rw [perform, Session.commit_apply]
    split
    · rcases Backend.save session.backend with ⟨error | answer, backend⟩ <;> rfl
    · rfl
  | backend operation => rw [perform, Session.edit_apply]
  | lookup | translated | project | staged | stage | construct | note => rfl

/-- The event of entering a moment's callback. -/
def RunMoment.event (moment : RunMoment ν) : Event :=
  moment.callback.event

section Trace

variable {answer : Hook → Run ν Unit} {fired : Hook → Session ν → List (RunMoment ν)}

theorem Program.trace_run (program : Program ν α)
    (hanswer : ∀ hook session, (answer hook session).2.trace =
      session.trace ++ (fired hook session).map RunMoment.event) (session : Session ν) :
    (program.run answer session).2.trace =
      session.trace ++ (program.moments answer fired session).map RunMoment.event := by
  -- The session varies, since what follows a call starts from the one that the call leaves.
  induction program generalizing session with
  | done result => simp [run, moments]
  | call c next ih => rw [run_call, moments_call, ih, c.trace_perform]
  | fire hook next ih =>
    rw [run_fire, moments_fire, ih, hanswer, List.map_append, List.append_assoc]

theorem Pipeline.trace_enterWith (callbacks : List (Callback ν))
    (hanswer : ∀ hook session, (answer hook session).2.trace =
      session.trace ++ (fired hook session).map RunMoment.event) (session : Session ν) :
    (enterWith answer callbacks session).2.trace =
      session.trace ++ (momentsWith answer fired callbacks session).map RunMoment.event := by
  induction callbacks generalizing session with
  | nil => simp [momentsWith, enterWith]
  | cons callback rest ih =>
    have hfirst := callback.program.trace_run hanswer
      { session with trace := session.trace ++ [callback.event] }
    rw [enterWith_cons, momentsWith]
    rcases hrun : callback.program.run answer
      { session with trace := session.trace ++ [callback.event] } with ⟨error | done, after⟩
    · rw [hrun] at hfirst
      dsimp only at hfirst ⊢
      rw [hfirst]
      simp [RunMoment.event]
    · rw [hrun] at hfirst
      dsimp only at hfirst ⊢
      rw [ih after, hfirst]
      simp [RunMoment.event]

end Trace

namespace Pipeline

/-- The induction is on how deep firings may nest. -/
theorem trace_fire (plugins : List (Plugin ν)) (depth : Nat) (hook : Hook) (session : Session ν) :
    (fire plugins depth hook session).2.trace =
      session.trace ++ (hookMoments plugins depth hook session).map RunMoment.event := by
  induction depth generalizing hook session with
  | zero =>
    rw [fire_zero]
    exact (List.append_nil _).symm
  | succ depth ih =>
    rw [fire_succ]
    exact trace_enterWith _ ih session

/-- A run records the events of its moments. -/
theorem trace_run (pipeline : Pipeline ν) (project : Project) (supply : Supply)
    (backend : Backend) :
    (pipeline.run project supply backend).2.trace =
      (pipeline.moments project supply backend).map RunMoment.event := by
  rcases hordered : pipeline.ordered with error | generators
  · rw [run, moments, hordered]
    rfl
  · have hentered := trace_enterWith (pipeline.callbacks project generators)
      (trace_fire pipeline.plugins maximalNesting) (Session.start project supply backend)
    rw [← enterAll_eq_enterWith] at hentered
    rw [run_apply hordered, moments_of_ordered hordered]
    rcases hrun : enterAll pipeline.plugins (pipeline.callbacks project generators)
      (Session.start project supply backend) with ⟨error | done, entered⟩
    · rw [hrun] at hentered
      exact hentered
    · rw [hrun] at hentered
      have hcommit := Call.trace_perform .commit entered
      rw [hentered] at hcommit
      refine Eq.trans ?_ hcommit
      dsimp only [Call.perform]
      rcases Session.commit entered with ⟨error | was, after⟩
      · rfl
      · rfl

/-! ## Where moments come from -/

section Origin

variable {answer : Hook → Run ν Unit} {fired : Hook → Session ν → List (RunMoment ν)}

theorem momentsWith_append (first second : List (Callback ν)) (session : Session ν) :
    momentsWith answer fired (first ++ second) session =
      momentsWith answer fired first session ++
        match enterWith answer first session with
        | (.ok _, after) => momentsWith answer fired second after
        | (.error _, _) => [] := by
  induction first generalizing session with
  | nil => rfl
  | cons callback rest ih =>
    rw [List.cons_append, momentsWith, momentsWith, enterWith_cons]
    rcases callback.program.run answer
      { session with trace := session.trace ++ [callback.event] } with ⟨error | done, after⟩
    · simp
    · simp [ih after]

end Origin

end Pipeline

theorem Program.Quiet.moments_eq_nil {answer : Hook → Run ν Unit}
    {fired : Hook → Session ν → List (RunMoment ν)} {program : Program ν α} (h : program.Quiet)
    (session : Session ν) : program.moments answer fired session = [] := by
  induction program generalizing session with
  | done result => rfl
  | call c next ih => exact ih _ (h _) _
  | fire hook next => exact h.elim

namespace Pipeline

section Origin

variable {answer : Hook → Run ν Unit} {fired : Hook → Session ν → List (RunMoment ν)}

/-- Quiet callbacks have no moments inside of them. -/
theorem mem_of_momentsWith {callbacks : List (Callback ν)}
    (h : ∀ callback ∈ callbacks, callback.program.Quiet) {session : Session ν} {moment : RunMoment ν}
    (hmoment : moment ∈ momentsWith answer fired callbacks session) :
    moment.callback ∈ callbacks := by
  induction callbacks generalizing session with
  | nil => cases hmoment
  | cons callback rest ih =>
    rw [momentsWith, (h callback List.mem_cons_self).moments_eq_nil] at hmoment
    rcases List.mem_append.1 hmoment with hhere | hlater
    · obtain rfl := List.mem_singleton.1 hhere
      exact List.mem_cons_self
    · split at hlater
      · exact List.mem_cons_of_mem _
          (ih (fun other hother => h other (List.mem_cons_of_mem _ hother)) hlater)
      · cases hlater

end Origin

end Pipeline

/-! ## Up to a moment -/

section Moves

variable {related : Session ν → Session ν → Prop} [IsPreorder (Session ν) related]
  {allowed : Call ν → Prop} {answer : Hook → Run ν Unit}
  {fired : Hook → Session ν → List (RunMoment ν)}

theorem Program.moments_moves {program : Program ν α} (h : program.Only allowed)
    (hcalls : ∀ c, allowed c → Moves related c.perform)
    (hanswer : ∀ hook, Moves related (answer hook))
    (hfired : ∀ hook session, ∀ moment ∈ fired hook session, related session moment.session)
    (session : Session ν) :
    ∀ moment ∈ program.moments answer fired session, related session moment.session := by
  induction program generalizing session with
  | done result => exact fun _ hmoment => absurd hmoment List.not_mem_nil
  | call c next ih =>
    intro moment hmoment
    exact trans_of related (hcalls c h.1 session) (ih _ (h.2 _) _ moment hmoment)
  | fire hook next ih =>
    intro moment hmoment
    rcases List.mem_append.1 hmoment with hinside | hlater
    · exact hfired hook session moment hinside
    · exact trans_of related (hanswer hook session) (ih _ (h _) _ moment hlater)

namespace Pipeline

theorem momentsWith_moves {callbacks : List (Callback ν)}
    (h : ∀ callback ∈ callbacks, callback.program.Only allowed)
    (hcalls : ∀ c, allowed c → Moves related c.perform)
    (henter : ∀ event, Moves related (Session.enter event))
    (hanswer : ∀ hook, Moves related (answer hook))
    (hfired : ∀ hook session, ∀ moment ∈ fired hook session, related session moment.session)
    (session : Session ν) :
    ∀ moment ∈ momentsWith answer fired callbacks session, related session moment.session := by
  induction callbacks generalizing session with
  | nil => exact fun _ hmoment => absurd hmoment List.not_mem_nil
  | cons callback rest ih =>
    let entered := { session with trace := session.trace ++ [callback.event] }
    have hentered : related session entered := henter callback.event session
    have hfirst := h callback List.mem_cons_self
    have hrest := ih fun other hother => h other (List.mem_cons_of_mem _ hother)
    intro moment hmoment
    rw [momentsWith] at hmoment
    rcases List.mem_append.1 hmoment with hhere | hlater
    · rcases List.mem_cons.1 hhere with rfl | hinside
      · exact hentered
      · exact trans_of related hentered
          (Program.moments_moves hfirst hcalls hanswer hfired entered moment hinside)
    · have hrun := Program.run_moves hfirst hcalls hanswer entered
      split at hlater
      · rename_i hok
        rw [hok] at hrun
        exact trans_of related hentered (trans_of related hrun (hrest _ moment hlater))
      · cases hlater

/-- The induction is on how deep firings may nest. -/
theorem hookMoments_moves {pipeline : Pipeline ν} (h : pipeline.Only allowed)
    (hcalls : ∀ c, allowed c → Moves related c.perform)
    (henter : ∀ event, Moves related (Session.enter event)) (depth : Nat) (hook : Hook)
    (session : Session ν) :
    ∀ moment ∈ hookMoments pipeline.plugins depth hook session, related session moment.session := by
  induction depth generalizing hook session with
  | zero => exact fun _ hmoment => absurd hmoment List.not_mem_nil
  | succ depth ih =>
    exact momentsWith_moves (fun _ => h.of_mem_handlers) hcalls henter
      (fire_moves h hcalls henter depth) ih session

end Pipeline

end Moves

end ProjectCompiler
