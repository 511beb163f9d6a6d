import ProjectCompiler.Proofs.Pipeline.Calls
import ProjectCompiler.Proofs.Pipeline.Session

/-!
# Replay — a run is the sequence of its calls

Generators, plugins and handlers of hooks share one session, and all that they can do to it is to make
calls. So the session that a run leaves is the one that the calls of the run lead to, made one after
another by nobody in particular. Only the record of entered callbacks tells the two apart.

- `Call.performAll`: calls one after another, whatever they are answered;
- `Pipeline.untraced_run`: the session after a run, from the calls of its callbacks.
-/

namespace ProjectCompiler

open Stateful

variable {ν α : Type}

/-- The session without its record of callbacks. -/
def Session.untraced (session : Session ν) : Session ν :=
  { session with trace := [] }

namespace Call

/-- Calls one after another, whatever they are answered. -/
def performAll (calls : List (Call ν)) (session : Session ν) : Session ν :=
  calls.foldl (fun session c => (c.perform session).2) session

theorem performAll_cons (c : Call ν) (rest : List (Call ν)) (session : Session ν) :
    performAll (c :: rest) session = performAll rest (c.perform session).2 :=
  rfl

theorem performAll_append (first second : List (Call ν)) (session : Session ν) :
    performAll (first ++ second) session = performAll second (performAll first session) :=
  List.foldl_append

/-- No call looks at the record of callbacks. -/
theorem untraced_perform (c : Call ν) (session : Session ν) :
    (c.perform session).2.untraced = (c.perform session.untraced).2 := by
  cases c with
  | native node =>
    rw [perform, Session.native_apply, Session.native_apply]
    rcases hfind : Entries.find? session.natives node.id with _ | id
    · rcases NativeObject.ofNode node with error | object <;> simp only [Session.untraced, hfind]
    · simp only [Session.untraced, hfind]
  | commit =>
    rw [perform, Session.commit_apply, Session.commit_apply]
    rcases hstaged : session.staged with _ | _
    · simp only [Session.untraced, hstaged, Bool.false_eq_true, if_false]
    · rcases hsave : Backend.save session.backend with ⟨error | answer, backend⟩ <;>
        simp only [Session.untraced, hstaged, hsave, if_true]
  | backend operation => rw [perform, Session.edit_apply, Session.edit_apply]; rfl
  | lookup | translated | project | staged | stage | construct | note => rfl

end Call

/-! ## Programs and callbacks -/

section Replay

variable {answer : Hook → Run ν Unit} {answered : Hook → Session ν → List (Call ν)}

theorem Program.untraced_run (program : Program ν α)
    (hanswer : ∀ hook session, (answer hook session).2.untraced =
      Call.performAll (answered hook session) session.untraced) (session : Session ν) :
    (program.run answer session).2.untraced =
      Call.performAll (program.calls answer answered session) session.untraced := by
  -- The session varies, since what follows a call starts from the one that the call leaves.
  induction program generalizing session with
  | done result => rfl
  | call c next ih => rw [run_call, calls_call, ih, Call.performAll_cons, c.untraced_perform]
  | fire hook next ih => rw [run_fire, calls_fire, ih, Call.performAll_append, hanswer]

theorem Pipeline.untraced_enterWith (callbacks : List (Callback ν))
    (hanswer : ∀ hook session, (answer hook session).2.untraced =
      Call.performAll (answered hook session) session.untraced) (session : Session ν) :
    (enterWith answer callbacks session).2.untraced =
      Call.performAll (callsWith answer answered callbacks session) session.untraced := by
  induction callbacks generalizing session with
  | nil => rfl
  | cons callback rest ih =>
    let entered := { session with trace := session.trace ++ [callback.event] }
    have hfirst := callback.program.untraced_run hanswer entered
    -- Both the run and the list of calls go on with the rest only if this callback succeeds.
    rw [enterWith_cons, callsWith, Call.performAll_append]
    rcases hrun : callback.program.run answer entered with ⟨error | done, after⟩
    · rw [hrun] at hfirst
      exact hfirst
    · rw [hrun] at hfirst
      exact (ih after).trans (congrArg _ hfirst)

end Replay

namespace Pipeline

/-- The induction is on how deep firings may nest; handlers are callbacks like any other. -/
theorem untraced_fire (plugins : List (Plugin ν)) (depth : Nat) (hook : Hook)
    (session : Session ν) :
    (fire plugins depth hook session).2.untraced =
      Call.performAll (hookCalls plugins depth hook session) session.untraced := by
  induction depth generalizing hook session with
  | zero =>
    rw [fire_zero]
    rfl
  | succ depth ih =>
    rw [fire_succ]
    exact untraced_enterWith _ ih session

/-! ## Runs -/

/-- The callbacks of a run make its calls and no others. -/
theorem untraced_enterAll {pipeline : Pipeline ν} {generators : List (Generator ν)}
    (hordered : pipeline.ordered = .ok generators) (project : Project) (supply : Supply)
    (backend : Backend) :
    (enterAll pipeline.plugins (pipeline.callbacks project generators)
        (Session.start project supply backend)).2.untraced =
      Call.performAll (pipeline.calls project supply backend)
        (Session.start project supply backend) := by
  rw [enterAll_eq_enterWith, calls, hordered]
  exact untraced_enterWith (pipeline.callbacks project generators)
    (untraced_fire pipeline.plugins maximalNesting) (Session.start project supply backend)

/-- A run makes the calls of its callbacks, and then it may commit. -/
theorem untraced_run (pipeline : Pipeline ν) (project : Project) (supply : Supply)
    (backend : Backend) :
    ∃ last, (last = [] ∨ last = [.commit]) ∧
      (pipeline.run project supply backend).2.untraced =
        Call.performAll (pipeline.calls project supply backend ++ last)
          (Session.start project supply backend) := by
  rcases hordered : pipeline.ordered with error | generators
  · refine ⟨[], Or.inl rfl, ?_⟩
    rw [run, calls, hordered]
    rfl
  · have hentered := untraced_enterAll hordered project supply backend
    rw [run_apply hordered]
    rcases hrun : enterAll pipeline.plugins (pipeline.callbacks project generators)
      (Session.start project supply backend) with ⟨error | done, entered⟩
    · rw [hrun] at hentered
      refine ⟨[], Or.inl rfl, ?_⟩
      rw [List.append_nil]
      exact hentered
    · rw [hrun] at hentered
      refine ⟨[.commit], Or.inr rfl, ?_⟩
      rw [Call.performAll_append]
      have hcommit := Call.untraced_perform .commit entered
      rw [hentered] at hcommit
      refine Eq.trans ?_ hcommit
      dsimp only [Call.perform]
      rcases Session.commit entered with ⟨error | was, after⟩
      · rfl
      · rfl

end Pipeline

end ProjectCompiler
