import ProjectCompiler.Proofs.Compilation.Kinds
import ProjectCompiler.Proofs.Pipeline.Leftovers

/-!
# Reuse — compilation above the objects of earlier runs

A backend may be used for one run after another. A run of the standard pipeline finds objects only by
the numbers that it was answered itself, so it does above the objects of earlier runs what it does in
an empty backend, with all numbers moved up.

- `Session.Stacked`: a session as it stands alone, and above a base;
- `Instruction.performAll_inStep`: instructions do the same to both;
- `Pipeline.standard_leaves_earlier_objects`: the result and the graph of a run on a used backend.
-/

namespace ProjectCompiler

open Stateful

variable {ν α β : Type}

/-! ## Sessions above others -/

/-- What is known stands under numbers that are moved up. -/
structure Session.Stacked (base : Backend) (alone whole : Session ν) : Prop where
  backend : base.Stacked alone.backend whole.backend
  natives : whole.natives = alone.natives.map fun entry =>
    (entry.1, entry.2.raised base.objects.length)
  staged : whole.staged = alone.staged

namespace Session

variable {base : Backend}

theorem find?_raised (natives : List (Identity × NativeId)) (n : Nat) (id : Identity) :
    Entries.find? (natives.map fun entry => (entry.1, entry.2.raised n)) id =
      (Entries.find? natives id).map (NativeId.raised n) := by
  induction natives with
  | nil => rfl
  | cons entry rest ih =>
    by_cases hfirst : entry.1 = id
    · simp [Entries.find?, hfirst]
    · simp [Entries.find?, hfirst, ih]

theorem edit_inStep {wrap : BackendError → PipelineError} {onAnswer : α → β} {change : Edit α}
    {other : Edit β}
    (hwrap : ∀ error n, (wrap error).raised n = wrap (error.raised n))
    (h : InStep base.Stacked onAnswer (BackendError.raised base.objects.length) change other) :
    InStep (Session.Stacked base) onAnswer (PipelineError.raised base.objects.length)
      (edit (ν := ν) wrap change) (edit (ν := ν) wrap other) := by
  intro alone whole hstacked
  obtain ⟨hresult, hbackend⟩ := h alone.backend whole.backend hstacked.backend
  rw [edit_apply, edit_apply, hresult]
  refine ⟨?_, hbackend, hstacked.natives, hstacked.staged⟩
  rcases (change alone.backend).1 with error | answer
  · exact congrArg Except.error (hwrap error _).symm
  · rfl

theorem lookup_inStep (node : Node) :
    InStep (Session.Stacked base) (Option.map (NativeId.raised base.objects.length))
      (PipelineError.raised base.objects.length) (lookup (ν := ν) node) (lookup node) := by
  intro alone whole h
  have hfound : Entries.find? whole.natives node.id =
      (Entries.find? alone.natives node.id).map (NativeId.raised base.objects.length) := by
    rw [h.natives, find?_raised]
  exact ⟨congrArg Except.ok hfound, h⟩

theorem native_inStep (node : Node) :
    InStep (Session.Stacked base) (NativeId.raised base.objects.length)
      (PipelineError.raised base.objects.length) (native (ν := ν) node) (native node) := by
  refine (lookup_inStep node).bind fun known => ?_
  cases known with
  | some id => exact InStep.pure id
  | none =>
    refine (edit_inStep (fun _ _ => rfl) (Backend.create_inStep node)).bind fun made => ?_
    refine InStep.bind (InStep.update fun alone whole h => ?_) fun _ => InStep.pure made
    exact ⟨h.backend, by simp [h.natives], h.staged⟩

theorem nativeTarget?_inStep (test : Option Target) :
    InStep (Session.Stacked base) (Option.map (NativeId.raised base.objects.length))
      (PipelineError.raised base.objects.length) (nativeTarget? (ν := ν) test)
      (nativeTarget? test) := by
  cases test with
  | none => exact InStep.pure none
  | some target => exact (native_inStep (.target target)).bind fun id => InStep.pure (some id)

/-- Without an output file the list is saved in memory, which never fails. -/
theorem commit_of_output_eq_none {session : Session ν} (h : session.backend.output = none) :
    ∃ was after, commit session = (.ok was, after) := by
  rw [commit_apply, Backend.save_apply, h]
  split
  · exact ⟨true, _, rfl⟩
  · exact ⟨false, _, rfl⟩

theorem commit_inStep {alone whole : Session ν} (h : Session.Stacked base alone whole)
    (halone : alone.backend.output = none) (hwhole : whole.backend.output = none) :
    ∃ was, (commit alone).1 = .ok was ∧ (commit whole).1 = .ok was ∧
      Session.Stacked base (commit alone).2 (commit whole).2 := by
  rw [commit_apply, commit_apply, h.staged]
  by_cases hstaged : alone.staged = true
  · have hbackend : base.Stacked (Backend.save alone.backend).2 (Backend.save whole.backend).2 := by
      rw [Backend.save_apply, Backend.save_apply, halone, hwhole]
      exact ⟨h.backend.objects, h.backend.suppressed, h.backend.listed⟩
    simp only [hstaged, if_true]
    rw [Backend.save_apply, Backend.save_apply, halone, hwhole] at hbackend ⊢
    exact ⟨true, rfl, rfl, hbackend, h.natives, rfl⟩
  · simp only [hstaged]
    exact ⟨false, rfl, rfl, h⟩

end Session

/-! ## Instructions -/

namespace Instruction

variable {base : Backend}

theorem perform_inStep (hbase : base.Grounded) {instruction : Instruction}
    (hfail : instruction.Numberless) :
    InStep (Session.Stacked base) id (PipelineError.raised base.objects.length)
      (instruction.perform (ν := ν)) instruction.perform := by
  have hbackend : ∀ error n, PipelineError.raised n (.backend error) = .backend (error.raised n) :=
    fun _ _ => rfl
  cases instruction with
  | enter event => exact InStep.update fun _ _ h => ⟨h.backend, h.natives, h.staged⟩
  | translate node => exact (Session.native_inStep node).bind fun _ => InStep.pure _
  | group project name =>
    refine (Session.native_inStep _).bind fun id => ?_
    exact (Session.edit_inStep hbackend (Backend.createGroup_inStep id name)).bind
      fun _ => InStep.pure _
  | attach parent child =>
    refine (Session.native_inStep parent).bind fun nativeParent => ?_
    refine (Session.native_inStep child).bind fun nativeChild => ?_
    exact Session.edit_inStep hbackend (Backend.attach_inStep nativeParent nativeChild)
  | settle configuration =>
    refine (Session.native_inStep _).bind fun id => ?_
    exact Session.edit_inStep hbackend (Backend.setBuildSettings_inStep id _)
  | suppress target =>
    refine (Session.native_inStep _).bind fun id => ?_
    exact Session.edit_inStep hbackend (Backend.suppress_inStep hbase id)
  | list target test scheme =>
    refine (Session.native_inStep _).bind fun nativeTarget => ?_
    refine (Session.nativeTarget?_inStep test).bind fun nativeTest => ?_
    refine (Session.native_inStep _).bind fun id => ?_
    exact Session.edit_inStep hbackend (Backend.fillScheme_inStep nativeTarget nativeTest scheme id)
  | stage => exact InStep.update fun _ _ h => ⟨h.backend, h.natives, rfl⟩
  | fail error =>
    intro alone whole h
    exact ⟨congrArg Except.error (hfail error rfl _).symm, h⟩

theorem performAll_inStep (hbase : base.Grounded) {plan : List Instruction}
    (hfail : ∀ instruction ∈ plan, instruction.Numberless) :
    InStep (Session.Stacked base) id (PipelineError.raised base.objects.length)
      (performAll (ν := ν) plan) (performAll plan) :=
  InStep.forM fun instruction hmem => perform_inStep hbase (hfail instruction hmem)

end Instruction

/-! ## Runs -/

namespace Pipeline

variable {policy : TestTargetPolicy} {project : Project} {supply other : Supply} {base : Backend}

section Ends

variable {backend : Backend} {entered after : Session ν} {error : PipelineError}

theorem run_standard_of_error (h : Instruction.performAll (Plan.standard policy project)
      (Session.start project supply backend) = (.error error, entered)) :
    (Pipeline.standard policy).run project supply backend = (.error error, entered) := by
  rw [run_standard, h]

theorem run_standard_of_commit_error (h : Instruction.performAll (Plan.standard policy project)
      (Session.start project supply backend) = (.ok (), entered))
    (hcommit : Session.commit entered = (.error error, after)) :
    (Pipeline.standard policy).run project supply backend = (.error error, after) := by
  rw [run_standard, h]
  dsimp only
  rw [hcommit]

theorem run_standard_of_ok (h : Instruction.performAll (Plan.standard policy project)
      (Session.start project supply backend) = (.ok (), entered)) {was : Bool}
    (hcommit : Session.commit entered = (.ok was, after)) :
    (Pipeline.standard policy).run project supply backend =
      (.ok { order := (Generators.standard (ν := ν) policy).map fun generator =>
               generator.info.name,
             translated := after.natives.length }, after) := by
  rw [run_standard, h]
  dsimp only
  rw [hcommit]

end Ends

/-- A run leaves the backend as the instructions left it, or as it is saved then. -/
theorem backend_run_standard (policy : TestTargetPolicy) (project : Project) (supply : Supply)
    (backend : Backend) :
    let entered := (Instruction.performAll (ν := ν) (Plan.standard policy project)
      (Session.start project supply backend)).2.backend
    let after := ((Pipeline.standard (ν := ν) policy).run project supply backend).2.backend
    after = entered ∨ after = (Backend.save entered).2 := by
  intro entered after
  rcases hrun : Instruction.performAll (ν := ν) (Plan.standard policy project)
    (Session.start project supply backend) with ⟨error | answer, last⟩
  · have hentered : entered = last.backend := by simp only [entered, hrun]
    have hafter : after = last.backend := by simp only [after, run_standard_of_error hrun]
    exact Or.inl (hafter.trans hentered.symm)
  · have hentered : entered = last.backend := by simp only [entered, hrun]
    have hcommit : after = (Session.commit last).2.backend := by
      rcases hcommit : Session.commit last with ⟨error | was, final⟩
      · simp only [after, run_standard_of_commit_error hrun hcommit]
      · simp only [after, run_standard_of_ok hrun hcommit]
    rw [hcommit, hentered, Session.commit_apply]
    split
    · refine Or.inr ?_
      rcases Backend.save last.backend with ⟨error | answer, saved⟩ <;> rfl
    · exact Or.inl rfl

theorem sameSaved_performAll_standard (policy : TestTargetPolicy) (project : Project)
    (supply : Supply) (backend : Backend) :
    backend.SameSaved (Instruction.performAll (ν := ν) (Plan.standard policy project)
      (Session.start project supply backend)).2.backend := by
  rw [← enterAll_standard]
  exact enterAll_sameSaved (standard_only policy) rfl project (Session.start project supply backend)

theorem output_run_standard (policy : TestTargetPolicy) (project : Project) (supply : Supply)
    (backend : Backend) :
    ((Pipeline.standard (ν := ν) policy).run project supply backend).2.backend.output =
      backend.output := by
  have hperform := (sameSaved_performAll_standard (ν := ν) policy project supply backend).output
  rcases backend_run_standard (ν := ν) policy project supply backend with hsame | hsaved
  · rw [hsame, hperform]
  · rw [hsaved, ← hperform]
    rcases hsave : Backend.save _ with ⟨error | answer, after⟩
    · obtain ⟨disk, rfl, -⟩ := Backend.save_eq_error hsave
      rfl
    · obtain ⟨disk, rfl⟩ := Backend.save_eq_ok hsave
      rfl

theorem grounded_run_standard (policy : TestTargetPolicy) (project : Project) (supply : Supply)
    {backend : Backend} (h : backend.Grounded) :
    ((Pipeline.standard (ν := ν) policy).run project supply backend).2.backend.Grounded := by
  have hperform := (Plan.safe_standard (ν := ν) policy project _
    (Session.Kinded.start project supply h) nofun).1.grounded
  rcases backend_run_standard (ν := ν) policy project supply backend with hsame | hsaved
  · rwa [hsame]
  · have hgraph := Backend.save_sameGraph (Instruction.performAll (ν := ν)
      (Plan.standard policy project) (Session.start project supply backend)).2.backend
    rw [hsaved, Backend.Grounded, hgraph.suppressed, hgraph.objects]
    exact hperform

/-- Above a base, a run gives the same summary or the same error, but for numbers, and does the same
to the graph. -/
theorem run_standard_stacked (policy : TestTargetPolicy) (project : Project)
    (supply other : Supply) {alone whole : Backend} (hbase : base.Grounded)
    (h : base.Stacked alone whole) (halone : alone.output = none) (hwhole : whole.output = none) :
    ((Pipeline.standard (ν := ν) policy).run project other whole).1 =
        ((Pipeline.standard (ν := ν) policy).run project supply alone).1.mapError
          (PipelineError.raised base.objects.length) ∧
      base.Stacked ((Pipeline.standard (ν := ν) policy).run project supply alone).2.backend
        ((Pipeline.standard (ν := ν) policy).run project other whole).2.backend := by
  have hstart : Session.Stacked (ν := ν) base (Session.start project supply alone)
      (Session.start project other whole) := ⟨h, rfl, rfl⟩
  obtain ⟨hresult, hentered⟩ := Instruction.performAll_inStep (ν := ν) hbase
    (@Plan.numberless_standard policy project) _ _ hstart
  have hsavedAlone := sameSaved_performAll_standard (ν := ν) policy project supply alone
  have hsavedWhole := sameSaved_performAll_standard (ν := ν) policy project other whole
  rcases hfirst : Instruction.performAll (ν := ν) (Plan.standard policy project)
    (Session.start project supply alone) with ⟨error | answer, entered⟩
  all_goals
    rcases hsecond : Instruction.performAll (ν := ν) (Plan.standard policy project)
      (Session.start project other whole) with ⟨result, entered'⟩
    rw [hfirst, hsecond] at hresult hentered
    obtain rfl : result = _ := hresult
  · rw [run_standard_of_error hfirst, run_standard_of_error hsecond]
    exact ⟨rfl, hentered.backend⟩
  · rw [hfirst] at hsavedAlone
    rw [hsecond] at hsavedWhole
    obtain ⟨was, hcommit, hcommit', hafter⟩ := Session.commit_inStep hentered
      (hsavedAlone.output.trans halone) (hsavedWhole.output.trans hwhole)
    have hcount : (Session.commit entered').2.natives.length =
        (Session.commit entered).2.natives.length := by
      rw [hafter.natives, List.length_map]
    rw [run_standard_of_ok hfirst (Prod.ext hcommit rfl),
      run_standard_of_ok hsecond (Prod.ext hcommit' rfl), hcount]
    exact ⟨rfl, hafter.backend⟩

/-- If kinds are apart, no error of a run names an object by its number. -/
theorem numberless_run_standard {backend : Backend} (hkinds : KindsApart project.nodes)
    (h : backend.Grounded) (houtput : backend.output = none) {error : PipelineError}
    (herror : ((Pipeline.standard (ν := ν) policy).run project supply backend).1 = .error error) :
    error.Numberless := by
  have hsafe := (Plan.safe_standard (ν := ν) policy project _
    (Session.Kinded.start project supply h) nofun).2 hkinds
  have hsaved := sameSaved_performAll_standard (ν := ν) policy project supply backend
  rcases hrun : Instruction.performAll (ν := ν) (Plan.standard policy project)
    (Session.start project supply backend) with ⟨reason | answer, entered⟩
  · rw [hrun] at hsafe
    rw [run_standard_of_error hrun] at herror
    obtain rfl := Except.error.inj herror
    exact hsafe reason rfl
  · rw [hrun] at hsaved
    obtain ⟨was, after, hcommit⟩ := Session.commit_of_output_eq_none (hsaved.output.trans houtput)
    rw [run_standard_of_ok hrun hcommit] at herror
    cases herror

end Pipeline

/-! ## Runs after runs -/

theorem Backend.Stacked.empty (base : Backend) : base.Stacked Backend.empty base where
  objects := (List.append_nil _).symm
  suppressed := (List.append_nil _).symm
  listed := (List.append_nil _).symm

/-- Runs of the standard pipeline leave a backend to which the next run may count on: without an output
file, if there was none, and with objects under all numbers on its list. -/
theorem Job.runAll_grounded {jobs : List (Job ν)}
    (hjobs : ∀ job ∈ jobs, ∃ policy, job.pipeline = Pipeline.standard policy) {backend : Backend}
    (h : backend.Grounded) (houtput : backend.output = none) :
    (runAll jobs backend).Grounded ∧ (runAll jobs backend).output = none := by
  induction jobs generalizing backend with
  | nil => exact ⟨h, houtput⟩
  | cons job rest ih =>
    obtain ⟨policy, hpolicy⟩ := hjobs job List.mem_cons_self
    have hgrounded : (job.run backend).2.backend.Grounded := by
      rw [run, hpolicy]
      exact Pipeline.grounded_run_standard policy job.project job.supply h
    have hnone : (job.run backend).2.backend.output = none := by
      rw [run, hpolicy, Pipeline.output_run_standard]
      exact houtput
    exact ih (fun other hother => hjobs other (List.mem_cons_of_mem _ hother)) hgrounded hnone

namespace Pipeline

/-- After any runs of the standard pipeline, another one leaves their objects as they are and adds what
it makes in an empty backend, with all numbers moved up. It gives the same summary or the same error;
numbers stand only in errors of projects in which objects of different kinds share an identity. -/
theorem standard_leaves_earlier_objects (earlier : List (Job ν))
    (hearlier : ∀ job ∈ earlier, ∃ policy, job.pipeline = Pipeline.standard policy)
    (policy : TestTargetPolicy) (project : Project) (supply other : Supply) :
    let before := Job.runAll earlier Backend.empty
    let n := before.objects.length
    let fresh := (Pipeline.standard (ν := ν) policy).run project supply Backend.empty
    let reused := (Pipeline.standard (ν := ν) policy).run project other before
    reused.1 = fresh.1.mapError (PipelineError.raised n) ∧
      (KindsApart project.nodes → reused.1 = fresh.1) ∧
      reused.2.backend.objects =
        before.objects ++ fresh.2.backend.objects.map (NativeObject.raised n) ∧
      reused.2.backend.suppressed =
        before.suppressed ++ fresh.2.backend.suppressed.map (NativeId.raised n) ∧
      reused.2.backend.listed =
        before.listed ++ fresh.2.backend.listed.map (NativeId.raised n) := by
  dsimp only
  have hempty := Backend.grounded_empty
  obtain ⟨hgrounded, hnone⟩ := Job.runAll_grounded hearlier hempty rfl
  obtain ⟨hresult, hstacked⟩ := run_standard_stacked (ν := ν) policy project supply other hgrounded
    (Backend.Stacked.empty (Job.runAll earlier Backend.empty)) rfl hnone
  refine ⟨hresult, fun hkinds => ?_, hstacked.objects, hstacked.suppressed, hstacked.listed⟩
  rw [hresult]
  rcases hfresh : ((Pipeline.standard (ν := ν) policy).run project supply Backend.empty).1
    with error | summary
  · exact congrArg Except.error (numberless_run_standard hkinds hempty rfl hfresh _)
  · rfl

/-- A run that fails on a target that has no native kind leaves a project with its groups. The next
one goes on above them. -/
theorem run_above_failed_run :
    let broken := { (Project.new "Broken" ⟨0⟩).1 with
      targets := [(Target.new "Filter" (.other "kext") .macos "14.0" ⟨10⟩).1] }
    let app := { (Target.new "App" .application .ios "17.0" ⟨10⟩).1 with
      schemes := [(Scheme.new "App" ⟨15⟩).1] }
    let project := { (Project.new "Demo" ⟨0⟩).1 with targets := [app] }
    let earlier : List (Job Nat) := [⟨Pipeline.standard .firstMatch, broken, ⟨20⟩⟩]
    let before := Job.runAll earlier Backend.empty
    let fresh := (Pipeline.standard (ν := Nat) .unique).run project ⟨20⟩ Backend.empty
    let reused := (Pipeline.standard (ν := Nat) .unique).run project ⟨20⟩ before
    (∀ job ∈ earlier, ∃ policy, job.pipeline = Pipeline.standard policy) ∧
      KindsApart project.nodes ∧ before.objects.length = 3 ∧ reused.1 = fresh.1 ∧
      reused.2.backend.objects =
        before.objects ++ fresh.2.backend.objects.map (NativeObject.raised 3) := by
  intro broken app project earlier
  dsimp only
  have hearlier : ∀ job ∈ earlier, ∃ policy, job.pipeline = Pipeline.standard policy := by
    intro job hjob
    exact ⟨.firstMatch, by rw [List.mem_singleton.1 hjob]⟩
  have hkinds : KindsApart project.nodes := by
    unfold KindsApart
    decide
  have hlength : (Job.runAll earlier Backend.empty).objects.length = 3 := by decide +kernel
  -- The runs are not evaluated any further.
  clear_value earlier project
  obtain ⟨-, hsame, hobjects, -, -⟩ :=
    standard_leaves_earlier_objects earlier hearlier .unique project ⟨20⟩ ⟨20⟩
  refine ⟨hearlier, hkinds, hlength, hsame hkinds, ?_⟩
  rw [← hlength]
  exact hobjects

end Pipeline

end ProjectCompiler
