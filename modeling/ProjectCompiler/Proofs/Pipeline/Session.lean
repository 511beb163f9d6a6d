import ProjectCompiler.Pipeline.Basic
import ProjectCompiler.Proofs.Native.Operations

/-!
# Session — what the steps of a run come to

A step of a run either edits the backend or remembers something. Each has one equation that says what
it answers and which session it leaves.

- `Session.native_apply`: a known node keeps its object; a new one gets the next number;
- `Session.commit_apply`: nothing happens unless the list is staged;
- `Session.Remembers`: a known node is known by the same number from then on;
- `Program.run_bind`: a sequence of programs runs as a sequence;
- `Pipeline.run_apply`: a run enters its callbacks, commits and sums up;
- `Pipeline.run_eq_ok`, `Pipeline.run_eq_error`: the ways in which a run can end.
-/

namespace ProjectCompiler

open Stateful

namespace Session

variable {ν α : Type}

theorem edit_apply (wrap : BackendError → PipelineError) (change : Edit α) (session : Session ν) :
    edit wrap change session =
      ((change session.backend).1.mapError wrap,
        { session with backend := (change session.backend).2 }) := by
  unfold edit
  rcases change session.backend with ⟨result, backend⟩
  cases result with
  | ok answer => rfl
  | error error => rfl

theorem edit_of_ok {wrap : BackendError → PipelineError} {change : Edit α} {session : Session ν}
    {backend : Backend} {answer : α} (h : change session.backend = (.ok answer, backend)) :
    edit wrap change session = (.ok answer, { session with backend }) := by
  rw [edit_apply, h]
  rfl

theorem edit_of_error {wrap : BackendError → PipelineError} {change : Edit α} {session : Session ν}
    {backend : Backend} {error : BackendError}
    (h : change session.backend = (.error error, backend)) :
    edit wrap change session = (.error (wrap error), { session with backend }) := by
  rw [edit_apply, h]
  rfl

theorem native_apply (node : Node) (session : Session ν) :
    native node session =
      match Entries.find? session.natives node.id, NativeObject.ofNode node with
      | some id, _ => (.ok id, session)
      | none, .error error => (.error (.translation node.text error), session)
      | none, .ok object =>
          let id : NativeId := ⟨session.backend.objects.length⟩
          (.ok id, { session with
            backend := session.backend.extended object
            natives := session.natives ++ [(node.id, id)] }) := by
  have hlookup : lookup node session = (.ok (Entries.find? session.natives node.id), session) := rfl
  rw [native, bind_of_ok hlookup]
  rcases Entries.find? session.natives node.id with _ | id
  · rcases hnode : NativeObject.ofNode node with error | object
    · have hmade : edit (.translation node.text) (Backend.create node) session =
          (.error (.translation node.text error), session) := by
        refine edit_of_error ?_
        rw [Backend.create, hnode]
        rfl
      exact bind_of_error hmade _
    · have hmade : edit (.translation node.text) (Backend.create node) session =
          (.ok ⟨session.backend.objects.length⟩, { session with
            backend := session.backend.extended object }) := by
        refine edit_of_ok ?_
        rw [Backend.create, hnode]
        rfl
      exact bind_of_ok hmade _
  · rfl

theorem commit_apply (session : Session ν) :
    commit session =
      if session.staged then
        match Backend.save session.backend with
        | (.ok _, backend) => (.ok true, { session with backend, staged := false })
        | (.error error, backend) => (.error (.persist error), { session with backend })
      else (.ok false, session) := by
  rw [commit, get_bind]
  split
  · rcases hsave : Backend.save session.backend with ⟨result, backend⟩
    cases result with
    | ok answer => exact bind_of_ok (edit_of_ok hsave) _
    | error error => exact bind_of_error (edit_of_error hsave) _
  · rfl

/-! ## Known nodes -/

/-- A node has a native object, of this number. -/
def Knows (session : Session ν) (node : Node) (id : NativeId) : Prop :=
  Entries.find? session.natives node.id = some id

/-- Known nodes stay known by the same numbers, in the same project. -/
structure Remembers (before after : Session ν) : Prop where
  project : after.project = before.project
  knows : ∀ node id, before.Knows node id → after.Knows node id

instance : IsPreorder (Session ν) Remembers where
  refl _ := ⟨rfl, fun _ _ h => h⟩
  trans _ _ _ first second :=
    ⟨second.project.trans first.project, fun node id h => second.knows node id (first.knows node id h)⟩

variable {session after : Session ν} {node : Node} {id : NativeId}

/-- Nodes are known by their identities. -/
theorem Knows.of_id_eq (h : session.Knows node id) {other : Node} (hid : other.id = node.id) :
    session.Knows other id := by
  rwa [Knows, hid]

theorem Knows.eq {first second : NativeId} (hfirst : session.Knows node first)
    (hsecond : session.Knows node second) : first = second :=
  Option.some.inj (hfirst.symm.trans hsecond)

theorem native_of_knows (h : session.Knows node id) : native node session = (.ok id, session) := by
  have hfind : Entries.find? session.natives node.id = some id := h
  rw [native_apply, hfind]

theorem knows_of_native (h : native node session = (.ok id, after)) : after.Knows node id := by
  rw [native_apply] at h
  split at h
  · rename_i hfind
    cases h
    exact hfind
  · cases h
  · rename_i hfind _
    cases h
    simp [Knows, Entries.find?_append, Entries.find?, hfind]

theorem native_remembers (node : Node) : Moves Remembers (native (ν := ν) node) := by
  intro session
  rw [native_apply]
  split
  · exact refl_of Remembers session
  · exact refl_of Remembers session
  · -- A new entry comes last, so it hides none of the others.
    refine ⟨rfl, ?_⟩
    intro other id hother
    have hfound : Entries.find? session.natives other.id = some id := hother
    simp [Knows, Entries.find?_append, hfound]

theorem edit_remembers (wrap : BackendError → PipelineError) (change : Edit α) :
    Moves Remembers (edit (ν := ν) wrap change) := by
  intro session
  rw [edit_apply]
  exact ⟨rfl, fun _ _ h => h⟩

end Session

namespace Program

variable {ν α β : Type}

theorem bind_assoc {γ : Type} (program : Program ν α) (first : α → Program ν β)
    (second : β → Program ν γ) :
    program >>= first >>= second = program >>= fun a => first a >>= second := by
  induction program with
  | done result =>
    cases result with
    | error error => rfl
    | ok a => rfl
  | call c next ih => exact congrArg (Program.call c) (funext ih)
  | fire hook next ih => exact congrArg (Program.fire hook) (funext ih)

theorem run_bind (program : Program ν α) (rest : α → Program ν β) (answer : Hook → Run ν Unit) :
    (program >>= rest).run answer = program.run answer >>= fun a => (rest a).run answer := by
  funext session
  induction program generalizing session with
  | done result =>
    cases result with
    | error error => exact (bind_of_error rfl _).symm
    | ok a => exact (bind_of_ok rfl _).symm
  | call c next ih =>
    -- The rest of the program goes on from the session that the call leaves.
    have hnext := ih (c.perform session).1 (c.perform session).2
    exact hnext.trans (bind_eq_of_eq rfl _)
  | fire hook next ih =>
    have hnext := ih (answer hook session).1 (answer hook session).2
    exact hnext.trans (bind_eq_of_eq rfl _)

theorem run_native (node : Node) (answer : Hook → Run ν Unit) :
    (Program.native node).run answer = Session.native node :=
  rfl

theorem run_forM (items : List β) (body : β → Program ν Unit) (answer : Hook → Run ν Unit) :
    (items.forM body).run answer = items.forM fun item => (body item).run answer := by
  induction items with
  | nil => rfl
  | cons item rest ih =>
    have hcons : (item :: rest).forM body = body item >>= fun _ => rest.forM body := rfl
    rw [hcons, run_bind, ih]
    rfl

end Program

namespace Pipeline

variable {ν : Type} {pipeline : Pipeline ν}

theorem run_apply {generators : List (Generator ν)} (h : pipeline.ordered = .ok generators)
    (project : Project) (supply : Supply) (backend : Backend) :
    pipeline.run project supply backend =
      match enterAll pipeline.plugins (pipeline.callbacks project generators)
          (Session.start project supply backend) with
      | (.error error, entered) => (.error error, entered)
      | (.ok _, entered) =>
          match Session.commit entered with
          | (.error error, after) => (.error error, after)
          | (.ok _, after) =>
              (.ok { order := generators.map fun generator => generator.info.name,
                     translated := after.natives.length }, after) := by
  rw [run, h]
  show compile pipeline generators (Session.start project supply backend) = _
  rw [compile, get_bind]
  rcases hentered : enterAll pipeline.plugins (pipeline.callbacks project generators)
    (Session.start project supply backend) with ⟨result, entered⟩
  cases result with
  | error error => exact bind_of_error hentered _
  | ok answer =>
    refine (bind_of_ok hentered _).trans ?_
    rcases hcommit : Session.commit entered with ⟨committed, after⟩
    cases committed with
    | error error => simp only [bind_of_error hcommit, hcommit]
    | ok was =>
      simp only [bind_of_ok hcommit, hcommit]
      rfl

/-- A run that succeeds entered all callbacks and committed. -/
theorem run_eq_ok {project : Project} {supply : Supply} {backend : Backend} {summary : RunSummary}
    {after : Session ν} (h : pipeline.run project supply backend = (.ok summary, after)) :
    ∃ generators entered answer, pipeline.ordered = .ok generators ∧
      enterAll pipeline.plugins (pipeline.callbacks project generators)
        (Session.start project supply backend) = (.ok (), entered) ∧
      Session.commit entered = (.ok answer, after) := by
  rcases hordered : pipeline.ordered with error | generators
  · rw [run, hordered] at h
    cases h
  · rw [run_apply hordered] at h
    rcases hentered : enterAll pipeline.plugins (pipeline.callbacks project generators)
      (Session.start project supply backend) with ⟨error | answer, entered⟩
    · rw [hentered] at h
      cases h
    · rw [hentered] at h
      rcases hcommit : Session.commit entered with ⟨error | committed, final⟩
      · simp only [hcommit] at h
        cases h
      · simp only [hcommit] at h
        cases h
        exact ⟨generators, entered, committed, rfl, hentered, hcommit⟩

/-- Once there is an order, a run fails in a callback or after the last. -/
theorem entered_of_run_error {generators : List (Generator ν)}
    (hordered : pipeline.ordered = .ok generators) {project : Project} {supply : Supply}
    {backend : Backend} {error : PipelineError} {after : Session ν}
    (h : pipeline.run project supply backend = (.error error, after)) :
    enterAll pipeline.plugins (pipeline.callbacks project generators)
        (Session.start project supply backend) = (.error error, after) ∨
      ∃ entered, enterAll pipeline.plugins (pipeline.callbacks project generators)
          (Session.start project supply backend) = (.ok (), entered) ∧
        Session.commit entered = (.error error, after) := by
  rw [run_apply hordered] at h
  rcases hentered : enterAll pipeline.plugins (pipeline.callbacks project generators)
    (Session.start project supply backend) with ⟨reason | answer, entered⟩
  · rw [hentered] at h
    cases h
    exact Or.inl rfl
  · rw [hentered] at h
    refine Or.inr ⟨entered, rfl, ?_⟩
    rcases hcommit : Session.commit entered with ⟨reason | committed, final⟩
    · simp only [hcommit] at h
      cases h
      rfl
    · simp only [hcommit] at h
      cases h

/-- A run fails before the first callback, in one of them, or after the last. -/
theorem run_eq_error {project : Project} {supply : Supply} {backend : Backend}
    {error : PipelineError} {after : Session ν}
    (h : pipeline.run project supply backend = (.error error, after)) :
    after = Session.start project supply backend ∨
      ∃ generators, pipeline.ordered = .ok generators ∧
        (enterAll pipeline.plugins (pipeline.callbacks project generators)
            (Session.start project supply backend) = (.error error, after) ∨
          ∃ entered, enterAll pipeline.plugins (pipeline.callbacks project generators)
              (Session.start project supply backend) = (.ok (), entered) ∧
            Session.commit entered = (.error error, after)) := by
  rcases hordered : pipeline.ordered with reason | generators
  · rw [run, hordered] at h
    cases h
    exact Or.inl rfl
  · exact Or.inr ⟨generators, rfl, entered_of_run_error hordered h⟩

end Pipeline

end ProjectCompiler
