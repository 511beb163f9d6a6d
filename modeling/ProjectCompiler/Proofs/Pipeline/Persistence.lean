import ProjectCompiler.Proofs.Native.Steps
import ProjectCompiler.Proofs.Pipeline.Laying

/-!
# Persistence — all or nothing

A run saves the scheme list in one place only, after the last callback. Callbacks that do not save by
themselves therefore leave everything saved as it was, whatever else they do; and the one save that
follows them either succeeds or leaves the output file alone. Nested firings of hooks are covered.

- `Backend.SameSaved`: what is saved, and the disk, are the same;
- `Backend.Untouched`: what is saved is the same, and so is the output file;
- `Pipeline.staged_enterAll`: the list is staged exactly if a call staged it;
- `Pipeline.run_saves_all_or_nothing`: a failed run saves nothing, a successful one saves once if the
  list was staged.
-/

namespace ProjectCompiler

open Stateful

variable {ν α : Type}

/-! ## What is saved stays -/

/-- What is saved, where it is saved to and the disk are the same. -/
structure Backend.SameSaved (before after : Backend) : Prop where
  saved : after.saved = before.saved
  saveCount : after.saveCount = before.saveCount
  output : after.output = before.output
  disk : after.disk = before.disk

instance : IsPreorder Backend Backend.SameSaved where
  refl _ := ⟨rfl, rfl, rfl, rfl⟩
  trans _ _ _ first second :=
    ⟨second.saved.trans first.saved, second.saveCount.trans first.saveCount,
      second.output.trans first.output, second.disk.trans first.disk⟩

theorem Backend.Step.sameSaved {before after : Backend} (h : before.Step after) :
    before.SameSaved after := by
  cases h <;> exact ⟨rfl, rfl, rfl, rfl⟩

/-- Every operation but one leaves alone what is saved. -/
theorem Operation.perform_moves (operation : Operation) (h : operation ≠ .save) :
    Moves Backend.SameSaved operation.perform :=
  operation.moves_of_ne_save (fun _ _ step => step.sameSaved) h

/-! ## Calls that do not save -/

namespace Session

/-- What is saved by the backend is the same. -/
def SameSaved (before after : Session ν) : Prop :=
  before.backend.SameSaved after.backend

instance : IsPreorder (Session ν) SameSaved where
  refl session := refl_of Backend.SameSaved session.backend
  trans _ _ _ first second := trans_of Backend.SameSaved first second

theorem edit_moves {wrap : BackendError → PipelineError} {change : Edit α}
    (h : Moves Backend.SameSaved change) : Moves SameSaved (edit (ν := ν) wrap change) := by
  intro session
  rw [edit_apply]
  exact h session.backend

theorem native_moves (node : Node) : Moves SameSaved (native (ν := ν) node) := by
  refine Moves.bind (Moves.bind Moves.get fun _ => Moves.pure _) fun known => ?_
  split
  · exact Moves.pure _
  · refine Moves.bind (edit_moves ((Operation.create node).perform_moves nofun)) fun made => ?_
    exact Moves.bind (fun session => refl_of Backend.SameSaved session.backend) fun _ => Moves.pure _

end Session

/-- The calls that save the scheme list. -/
def Call.Saves : Call ν → Prop
  | .commit => True
  | .backend operation => operation = .save
  | _ => False

theorem Call.perform_moves (c : Call ν) (h : ¬ c.Saves) : Moves Session.SameSaved c.perform := by
  cases c with
  | native node => exact Session.native_moves node
  | commit => exact absurd trivial h
  | backend operation => exact Session.edit_moves (operation.perform_moves h)
  | lookup | translated | project | staged | stage | construct | note =>
    -- These are about the session alone.
    intro session
    exact refl_of Backend.SameSaved session.backend

/-! ## When the list is staged -/

/-- Only one call stages the list, and none that does not save takes that back. -/
theorem Call.staged_perform (c : Call ν) (h : ¬ c.Saves) (session : Session ν) :
    (c.perform session).2.staged = true ↔ session.staged = true ∨ .stage = c := by
  cases c with
  | native node =>
    have hstaged : (Session.native node session).2.staged = session.staged := by
      rw [Session.native_apply]
      split <;> rfl
    simp [perform, hstaged]
  | commit => exact absurd trivial h
  | backend operation => simp [perform, Session.edit_apply]
  | stage => simp [perform]
  | lookup | translated | project | staged | construct | note =>
    exact ⟨Or.inl, fun hstaged => hstaged.resolve_right (by simp)⟩

section Staged

variable {answer : Hook → Run ν Unit} {answered : Hook → Session ν → List (Call ν)}

theorem Program.staged_run {program : Program ν α} (h : program.Only (¬ ·.Saves))
    (hanswer : ∀ hook session, (answer hook session).2.staged = true ↔
      session.staged = true ∨ .stage ∈ answered hook session) (session : Session ν) :
    (program.run answer session).2.staged = true ↔
      session.staged = true ∨ .stage ∈ program.calls answer answered session := by
  -- The session varies, since what follows a call starts from the one that the call leaves.
  induction program generalizing session with
  | done result => simp [run, calls]
  | call c next ih =>
    rw [run_call, calls_call, ih _ (h.2 _), c.staged_perform h.1, List.mem_cons, or_assoc]
  | fire hook next ih =>
    rw [run_fire, calls_fire, ih _ (h _), hanswer, List.mem_append, or_assoc]

theorem Pipeline.staged_enterWith {callbacks : List (Callback ν)}
    (h : ∀ callback ∈ callbacks, callback.program.Only (¬ ·.Saves))
    (hanswer : ∀ hook session, (answer hook session).2.staged = true ↔
      session.staged = true ∨ .stage ∈ answered hook session) (session : Session ν) :
    (enterWith answer callbacks session).2.staged = true ↔
      session.staged = true ∨ .stage ∈ callsWith answer answered callbacks session := by
  induction callbacks generalizing session with
  | nil => simp [enterWith, callsWith]
  | cons callback rest ih =>
    let entered := { session with trace := session.trace ++ [callback.event] }
    have hfirst := Program.staged_run (h callback List.mem_cons_self) hanswer entered
    have hrest := ih fun other hother => h other (List.mem_cons_of_mem _ hother)
    -- Both the run and the list of calls go on with the rest only if this callback succeeds.
    rw [enterWith_cons, callsWith]
    rcases hrun : callback.program.run answer entered with ⟨result, after⟩
    rw [hrun] at hfirst
    cases result with
    | error error => simpa [entered] using hfirst
    | ok answer =>
      simp only [hrest, hfirst, List.mem_append, or_assoc]
      rfl

end Staged

namespace Pipeline

variable {pipeline : Pipeline ν}

/-- The induction is on how deep firings may nest; handlers are callbacks like any other. -/
theorem staged_fire (h : pipeline.Only (¬ ·.Saves)) (depth : Nat) (hook : Hook)
    (session : Session ν) :
    (fire pipeline.plugins depth hook session).2.staged = true ↔
      session.staged = true ∨ .stage ∈ hookCalls pipeline.plugins depth hook session := by
  induction depth generalizing hook session with
  | zero =>
    simp [hookCalls, fire_zero]
  | succ depth ih =>
    rw [fire_succ]
    exact staged_enterWith (fun _ => h.of_mem_handlers) ih session

/-- Callbacks leave the list staged exactly if one of their calls staged it. -/
theorem staged_enterAll (h : pipeline.Only (¬ ·.Saves)) {generators : List (Generator ν)}
    (hordered : pipeline.ordered = .ok generators) (project : Project) (supply : Supply)
    (backend : Backend) :
    (enterAll pipeline.plugins (pipeline.callbacks project generators)
        (Session.start project supply backend)).2.staged = true ↔
      .stage ∈ pipeline.calls project supply backend := by
  have hcallbacks : ∀ callback ∈ pipeline.callbacks project generators,
      callback.program.Only (¬ ·.Saves) := fun _ => h.of_mem_callbacks hordered
  have hstaged := staged_enterWith hcallbacks (staged_fire h maximalNesting)
    (Session.start project supply backend)
  rw [calls, hordered]
  simpa [enterAll_eq_enterWith, Session.start] using hstaged

end Pipeline

/-! ## The one save -/

namespace Backend

variable {backend after : Backend}

/-- Nothing is saved, neither in memory nor to the output file. -/
structure Untouched (before after : Backend) : Prop where
  saved : after.saved = before.saved
  saveCount : after.saveCount = before.saveCount
  file : ∀ path, before.output = some path → after.disk.file? path = before.disk.file? path

theorem SameSaved.untouched (h : backend.SameSaved after) : backend.Untouched after where
  saved := h.saved
  saveCount := h.saveCount
  file := by
    intro path _
    exact congrArg (Disk.file? · path) h.disk

theorem SameSaved.trans_untouched {middle : Backend} (first : backend.SameSaved middle)
    (second : middle.Untouched after) : backend.Untouched after where
  saved := second.saved.trans first.saved
  saveCount := second.saveCount.trans first.saveCount
  file := by
    intro path hpath
    have hfile := second.file path (first.output.trans hpath)
    rwa [first.disk] at hfile

theorem untouched_of_save_error {error : BackendError} (h : save backend = (.error error, after)) :
    backend.Untouched after := by
  obtain ⟨disk, rfl, hfile⟩ := save_eq_error h
  exact ⟨rfl, rfl, hfile⟩

end Backend

/-! ## The end of a run -/

namespace Session

variable {session after : Session ν}

theorem untouched_of_commit_error {error : PipelineError}
    (h : commit session = (.error error, after)) : session.backend.Untouched after.backend := by
  rw [commit_apply] at h
  split at h
  · rcases hsave : Backend.save session.backend with ⟨reason | answer, backend⟩
    · rw [hsave] at h
      cases h
      exact Backend.untouched_of_save_error hsave
    · rw [hsave] at h
      cases h
  · cases h

/-- What was staged is saved, and nothing else is. -/
theorem commit_eq_ok {answer : Bool} (h : commit session = (.ok answer, after)) :
    (session.staged = true → after.backend.saveCount = session.backend.saveCount + 1 ∧
      after.backend.saved = some after.backend.snapshot) ∧
    (¬ session.staged = true → after.backend = session.backend) := by
  rw [commit_apply] at h
  split at h
  · rename_i hstaged
    rcases hsave : Backend.save session.backend with ⟨reason | saved, backend⟩
    · rw [hsave] at h
      cases h
    · rw [hsave] at h
      cases h
      -- The snapshot speaks of objects and lists, which saving leaves alone.
      rcases Backend.save_eq_ok hsave with ⟨disk, rfl⟩
      constructor
      · intro _
        exact ⟨rfl, rfl⟩
      · intro hnot
        exact absurd hstaged hnot
  · rename_i hstaged
    cases h
    constructor
    · intro hnow
      exact absurd hnow hstaged
    · intro _
      rfl

end Session

/-! ## Generators of the standard pipeline -/

/-- What lays out the graph leaves the scheme list alone. -/
theorem Call.Lays.not_saves {c : Call ν} (h : c.Lays) : ¬ c.Saves := by
  cases c with
  | commit => exact absurd h id
  | backend operation =>
    rintro rfl
    exact h
  | native | lookup | translated | project | staged | stage | construct | note => exact id

namespace Generators

open Program

theorem addScheme_within (project : Project) (nativeTarget : NativeId)
    (nativeTest : Option NativeId) (scheme : Scheme) :
    (addScheme (ν := ν) project nativeTarget nativeTest scheme).Within (¬ ·.Saves) := by
  unfold addScheme
  split
  · exact Within.done _
  · refine (Within.request id).bind fun nativeScheme => (Within.request nofun).bind fun _ => ?_
    refine (Within.request nofun).bind fun _ => ?_
    have hactions : (scheme.configurations.forM fun action => Program.operate (ν := ν)
        (.setAction nativeScheme action.1 action.2)).Within (¬ ·.Saves) :=
      Within.forM fun _ _ => Within.request nofun
    exact hactions.bind fun _ => Within.request nofun

theorem suppressTest_within (policy : TestTargetPolicy) (project : Project) (target : Target) :
    (suppressTest (ν := ν) policy project target).Within (¬ ·.Saves) := by
  unfold suppressTest
  split
  · exact Within.done _
  · exact Within.done _
  · exact (Within.request id).bind fun _ => (Within.request nofun).bind fun _ => Within.done _

theorem schemes_visitTarget_within (policy : TestTargetPolicy) (target : Target) :
    ((schemes (ν := ν) policy).visitTarget target).Within (¬ ·.Saves) := by
  refine (Within.request id).bind fun project => (Within.request id).bind fun nativeTarget => ?_
  refine (Within.request nofun).bind fun _ => ?_
  split
  · exact Within.done _
  · exact (suppressTest_within _ _ _).bind fun _ => Within.forM fun scheme _ =>
      addScheme_within _ _ _ scheme

theorem schemes_only (policy : TestTargetPolicy) : (schemes (ν := ν) policy).Only (¬ ·.Saves) where
  visitProject _ := (Only.fireHook _).bind fun _ => (Only.request id).bind fun _ => trivial
  visitConfiguration _ := trivial
  leaveConfiguration _ := trivial
  visitTarget target := (schemes_visitTarget_within policy target).only
  leaveTarget _ := trivial
  leaveProject _ := Only.request id

end Generators

/-! ## Whole runs -/

namespace Pipeline

variable {pipeline : Pipeline ν}

theorem enterAll_sameSaved (h : pipeline.Only (¬ ·.Saves)) {generators : List (Generator ν)}
    (hordered : pipeline.ordered = .ok generators) (project : Project) :
    Moves Session.SameSaved (enterAll pipeline.plugins (pipeline.callbacks project generators)) :=
  enterAll_moves h hordered project Call.perform_moves
    fun _ session => refl_of Backend.SameSaved session.backend

theorem untouched_of_run_error (h : pipeline.Only (¬ ·.Saves)) {project : Project} {supply : Supply}
    {backend : Backend} {error : PipelineError} {after : Session ν}
    (hrun : pipeline.run project supply backend = (.error error, after)) :
    backend.Untouched after.backend := by
  rcases run_eq_error hrun with rfl | ⟨generators, hordered, hfailed⟩
  · -- Without an order nothing is entered.
    exact (refl_of Backend.SameSaved backend).untouched
  · have hmoves := enterAll_sameSaved h hordered project (Session.start project supply backend)
    rcases hfailed with hentered | ⟨entered, hentered, hcommit⟩
    · rw [hentered] at hmoves
      have hsame : backend.SameSaved after.backend := hmoves
      exact hsame.untouched
    · rw [hentered] at hmoves
      have hsame : backend.SameSaved entered.backend := hmoves
      exact hsame.trans_untouched (Session.untouched_of_commit_error hcommit)

theorem saved_of_run_ok (h : pipeline.Only (¬ ·.Saves)) {project : Project} {supply : Supply}
    {backend : Backend} {summary : RunSummary} {after : Session ν}
    (hrun : pipeline.run project supply backend = (.ok summary, after)) :
    (.stage ∈ pipeline.calls project supply backend →
      after.backend.saveCount = backend.saveCount + 1 ∧
        after.backend.saved = some after.backend.snapshot) ∧
    (.stage ∉ pipeline.calls project supply backend → backend.Untouched after.backend) := by
  rcases run_eq_ok hrun with ⟨generators, entered, answer, hordered, hentered, hcommit⟩
  have hmoves := enterAll_sameSaved h hordered project (Session.start project supply backend)
  have hstaged := staged_enterAll h hordered project supply backend
  rw [hentered] at hmoves hstaged
  -- So far nothing is saved, and what is left is the one save.
  have hsame : backend.SameSaved entered.backend := hmoves
  rcases Session.commit_eq_ok hcommit with ⟨hsaved, hkept⟩
  constructor
  · intro hcalled
    rcases hsaved (hstaged.2 hcalled) with ⟨hcount, hlist⟩
    refine ⟨?_, hlist⟩
    calc
      after.backend.saveCount = entered.backend.saveCount + 1 := hcount
      _ = backend.saveCount + 1 := by rw [hsame.saveCount]
  · intro hnot
    have hidle : ¬ entered.staged = true := by
      intro hnow
      exact hnot (hstaged.1 hnow)
    rw [hkept hidle]
    exact hsame.untouched

/-- A failed run leaves everything saved as it was. A successful one saves the list as it is at the
end, and once, if a call staged it; otherwise it saves nothing. -/
theorem run_saves_all_or_nothing (h : pipeline.Only (¬ ·.Saves)) (project : Project)
    (supply : Supply) (backend : Backend) :
    (∀ error after, pipeline.run project supply backend = (.error error, after) →
      backend.Untouched after.backend) ∧
    (∀ summary after, pipeline.run project supply backend = (.ok summary, after) →
      (.stage ∈ pipeline.calls project supply backend →
        after.backend.saveCount = backend.saveCount + 1 ∧
          after.backend.saved = some after.backend.snapshot) ∧
      (.stage ∉ pipeline.calls project supply backend →
        backend.Untouched after.backend)) := by
  constructor
  · intro error after hrun
    exact untouched_of_run_error h hrun
  · intro summary after hrun
    exact saved_of_run_ok h hrun

/-- The generators of the standard pipeline stage the list and never save it by themselves. -/
theorem standard_only (policy : TestTargetPolicy) :
    (Pipeline.standard (ν := ν) policy).Only (¬ ·.Saves) where
  generators := by
    intro generator hgenerator
    rcases Generators.lays_or_eq_schemes hgenerator with hlays | rfl
    · exact hlays.only fun _ => Call.Lays.not_saves
    · exact Generators.schemes_only policy
  plugins := nofun

/-- A new project is saved once, and not at all if a plugin gives up at the very end. -/
theorem new_project_saves_all_or_nothing :
    let project := (Project.new "App" ⟨0⟩).1
    let standard : Pipeline Nat := Pipeline.standard .unique
    let giveUp : Plugin Nat := {
      name := "guard"
      after := fun generator =>
        if generator = "scheme" then Program.fail (.plugin "guard" "no") else pure () }
    let guarded : Pipeline Nat := { standard with plugins := [giveUp] }
    (∃ summary after, standard.run project ⟨10⟩ Backend.empty = (.ok summary, after) ∧
      after.backend.saveCount = 1 ∧ after.backend.saved = some after.backend.snapshot) ∧
    ∃ error after, guarded.run project ⟨10⟩ Backend.empty = (.error error, after) ∧
      after.staged = true ∧ after.backend.saved = none := by
  intro project standard giveUp guarded
  have honly : standard.Only (¬ ·.Saves) := standard_only .unique
  have hguarded : guarded.Only (¬ ·.Saves) := by
    refine ⟨honly.generators, ?_⟩
    intro plugin hplugin
    obtain rfl := List.mem_singleton.1 hplugin
    refine ⟨fun _ => trivial, fun generator => ?_, fun _ => trivial⟩
    dsimp only [giveUp]
    split
    · trivial
    · trivial
  have hordered : standard.ordered = .ok (Generators.standard .unique) := rfl
  have hstage : .stage ∈ standard.calls project ⟨10⟩ Backend.empty :=
    (staged_enterAll honly hordered project ⟨10⟩ Backend.empty).1 (by decide +kernel)
  constructor
  · rcases hrun : standard.run project ⟨10⟩ Backend.empty with ⟨⟨⟩ | summary, after⟩
    · have hok : (standard.run project ⟨10⟩ Backend.empty).1.isOk = true := by decide +kernel
      rw [hrun] at hok
      cases hok
    · exact ⟨summary, after, rfl,
        ((run_saves_all_or_nothing honly project ⟨10⟩ Backend.empty).2 summary after hrun).1 hstage⟩
  · rcases hrun : guarded.run project ⟨10⟩ Backend.empty with ⟨error | summary, after⟩
    · have hstaged : (guarded.run project ⟨10⟩ Backend.empty).2.staged = true := by decide +kernel
      rw [hrun] at hstaged
      exact ⟨error, after, rfl, hstaged,
        ((run_saves_all_or_nothing hguarded project ⟨10⟩ Backend.empty).1 error after hrun).saved⟩
    · have hok : (guarded.run project ⟨10⟩ Backend.empty).1.isOk = false := by decide +kernel
      rw [hrun] at hok
      cases hok

end Pipeline

end ProjectCompiler
