import ProjectCompiler.Proofs.Compilation.Reuse
import ProjectCompiler.Proofs.Native.SchemeList

/-!
# Output — the same run with a file and without

A backend that has an output file writes its list there when it saves it, and does nothing else with
the file. So a run with a file does what the same run does without one, up to the save at its end; and
that fails only if the file cannot be written.

- `Backend.save_of_writable`, `Backend.save_of_not_writable`: the two ways in which a save ends;
- `Pipeline.performAll_sameGraph`: up to the save, the file makes no difference;
- `Pipeline.AgreesWithDry`: what a run with a file comes to, against the dry run without;
- `Pipeline.standard_agreesWithDry`: this holds of every run of the standard pipeline.
-/

namespace ProjectCompiler

open Stateful

variable {ν : Type}

namespace Backend

variable {before after backend : Backend} {path : String}

/-- A snapshot shows the graph and the lists, and nothing else of a backend. -/
theorem SameGraph.snapshot (h : before.SameGraph after) : after.snapshot = before.snapshot := by
  have hobject : after.object? = before.object? := by
    funext id
    rw [object?, object?, h.objects]
  have hname : after.nameOf = before.nameOf := by
    funext id
    rw [nameOf, nameOf, hobject]
  have hscheme : after.scheme? = before.scheme? := by
    funext id
    rw [scheme?, scheme?, hobject]
  have hsaved : after.savedScheme = before.savedScheme := by
    funext scheme
    rw [savedScheme, savedScheme, hname]
  rw [Backend.snapshot, Backend.snapshot, h.suppressed, h.listed, hname, hscheme, hsaved]

/-! ## Saving to a file -/

theorem save_of_writable (houtput : backend.output = some path) (h : backend.disk.Writable path) :
    ∃ disk, save backend = (.ok (), { backend with
        saved := some backend.snapshot, saveCount := backend.saveCount + 1, disk }) ∧
      disk.read path = some backend.snapshot.text := by
  obtain ⟨disk, hwrite, hread⟩ := writeFile_of_writable h backend.snapshot.text
  refine ⟨disk, ?_, hread⟩
  have happly := save_apply backend
  simp only [houtput, hwrite] at happly
  rw [happly, houtput]

theorem save_of_not_writable (houtput : backend.output = some path)
    (h : ¬ backend.disk.Writable path) :
    ∃ error disk, save backend = (.error error, { backend with disk }) ∧
      backend.disk.Grows disk ∧ disk.file? path = backend.disk.file? path := by
  obtain ⟨error, disk, hwrite, hdisk⟩ := writeFile_of_not_writable h backend.snapshot.text
  refine ⟨error, disk, ?_, hdisk⟩
  have happly := save_apply backend
  simp only [houtput, hwrite] at happly
  rw [happly, houtput]

theorem save_of_output_eq_none (houtput : backend.output = none) :
    save backend = (.ok (), { backend with
      saved := some backend.snapshot, saveCount := backend.saveCount + 1 }) := by
  rw [save_apply, houtput]

end Backend

/-! ## Schemes with distinct actions -/

/-- If no scheme has two configurations for an action, none does later. -/
def Session.KeepsActions (before after : Session ν) : Prop :=
  before.backend.ActionsDistinct → after.backend.ActionsDistinct

instance : IsPreorder (Session ν) Session.KeepsActions where
  refl _ := id
  trans _ _ _ first second := second ∘ first

theorem Call.perform_keepsActions (c : Call ν) (hsave : ¬ c.Saves) :
    Moves Session.KeepsActions c.perform := by
  intro session h
  cases c with
  | native node =>
    rw [perform, Session.native_apply]
    rcases Entries.find? session.natives node.id with _ | id
    · rcases hobject : NativeObject.ofNode node with error | object
      · exact h
      · exact (Backend.Step.create hobject).actionsDistinct h
    · exact h
  | backend operation =>
    rw [perform, Session.edit_apply]
    exact Backend.actionsDistinct_perform operation h
  | commit => exact absurd trivial hsave
  | lookup | translated | project | staged | stage | construct | note =>
    -- These are about the session alone.
    exact h

namespace Pipeline

variable {policy : TestTargetPolicy} {project : Project} {supply other : Supply}

theorem actionsDistinct_performAll_standard (policy : TestTargetPolicy) (project : Project)
    (supply : Supply) {backend : Backend} (h : backend.ActionsDistinct) :
    (Instruction.performAll (ν := ν) (Plan.standard policy project)
      (Session.start project supply backend)).2.backend.ActionsDistinct := by
  have hmoves := enterAll_moves (standard_only (ν := ν) policy) (ordered_standard policy) project
    Call.perform_keepsActions fun _ _ => refl_of Session.KeepsActions _
  rw [← enterAll_standard]
  exact hmoves (Session.start project supply backend) h

/-! ## Up to the save -/

/-- The list is staged by the last instruction. -/
theorem staged_performAll_standard {session entered : Session ν}
    (h : Instruction.performAll (Plan.standard policy project) session = (.ok (), entered)) :
    entered.staged = true := by
  have hleave : [Instruction.stage] <:+ (Plan.schemes policy project).plan project :=
    (List.suffix_cons _ _).trans (List.suffix_append _ _)
  have hlast : [Instruction.stage] <:+ Plan.standard policy project := by
    simp only [Plan.standard, Plan.passes, List.flatMap_cons, List.flatMap_nil, List.append_nil]
    exact List.suffix_append_of_suffix
      (List.suffix_append_of_suffix (List.suffix_append_of_suffix hleave))
  obtain ⟨front, hfront⟩ := hlast
  rw [← hfront, Instruction.performAll_append] at h
  rcases hrun : Instruction.performAll front session with ⟨error | answer, middle⟩
  · rw [bind_of_error hrun] at h
    cases h
  · rw [bind_of_ok hrun] at h
    cases h
    rfl

/-- Two backends with the same graph differ in nothing that an instruction looks at. -/
theorem performAll_sameGraph (policy : TestTargetPolicy) (project : Project)
    (supply other : Supply) {silent printing : Backend} (h : silent.SameGraph printing) :
    let first := Instruction.performAll (ν := ν) (Plan.standard policy project)
      (Session.start project supply silent)
    let second := Instruction.performAll (ν := ν) (Plan.standard policy project)
      (Session.start project other printing)
    second.1 = first.1 ∧ first.2.backend.SameGraph second.2.backend ∧
      second.2.natives.length = first.2.natives.length := by
  intro first second
  have hstart : Session.Stacked (ν := ν) Backend.empty (Session.start project supply silent)
      (Session.start project other printing) := ⟨Backend.stacked_empty_iff.2 h, rfl, rfl⟩
  obtain ⟨hresult, hentered⟩ := Instruction.performAll_inStep (ν := ν) Backend.grounded_empty
    (@Plan.numberless_standard policy project) _ _ hstart
  refine ⟨?_, Backend.stacked_empty_iff.1 hentered.backend, ?_⟩
  · rw [hresult]
    rcases first.1 with error | answer
    · exact congrArg Except.error (congrFun PipelineError.raised_zero error)
    · rfl
  · rw [hentered.natives, List.length_map]

/-! ## The save -/

section Save

variable {backend saved : Backend} {entered : Session ν} {error : BackendError}

theorem run_standard_of_save_ok (h : Instruction.performAll (Plan.standard policy project)
      (Session.start project supply backend) = (.ok (), entered))
    (hsave : Backend.save entered.backend = (.ok (), saved)) :
    (Pipeline.standard policy).run project supply backend =
      (.ok { order := (Generators.standard (ν := ν) policy).map fun generator =>
               generator.info.name,
             translated := entered.natives.length },
        { entered with backend := saved, staged := false }) := by
  have hcommit : Session.commit entered =
      (.ok true, { entered with backend := saved, staged := false }) := by
    rw [Session.commit_apply, if_pos (staged_performAll_standard h), hsave]
  exact run_standard_of_ok h hcommit

theorem run_standard_of_save_error (h : Instruction.performAll (Plan.standard policy project)
      (Session.start project supply backend) = (.ok (), entered))
    (hsave : Backend.save entered.backend = (.error error, saved)) :
    (Pipeline.standard policy).run project supply backend =
      (.error (.persist error), { entered with backend := saved }) := by
  refine run_standard_of_commit_error h ?_
  rw [Session.commit_apply, if_pos (staged_performAll_standard h), hsave]

end Save

/-! ## Whole runs -/

/-- What a run with an output file comes to, started from a backend with the file, if the dry run from
the same backend without it comes to `dry`. -/
structure AgreesWithDry (backend : Backend) (path : String) (disk : Disk)
    (dry wet : Except PipelineError RunSummary × Session ν) : Prop where
  graph : dry.2.backend.SameGraph wet.2.backend
  /-- The run fails before the save. -/
  failed : ∀ error, dry.1 = .error error →
    wet.1 = .error error ∧ wet.2.backend.saved = dry.2.backend.saved ∧
      wet.2.backend.saveCount = dry.2.backend.saveCount ∧ wet.2.backend.disk = disk
  /-- The file can be written, and then holds the list. Actions are distinct in every backend that
  operations made from an empty one. -/
  written : ∀ summary, dry.1 = .ok summary → disk.Writable path →
    wet.1 = .ok summary ∧ wet.2.backend.saved = dry.2.backend.saved ∧
      wet.2.backend.saveCount = dry.2.backend.saveCount ∧
      ∃ list, wet.2.backend.saved = some list ∧
        (backend.ActionsDistinct → SchemeList.load wet.2.backend.disk path = .ok list)
  /-- Only the write fails. -/
  refused : ∀ summary, dry.1 = .ok summary → ¬ disk.Writable path →
    (∃ error, wet.1 = .error (.persist error)) ∧ wet.2.backend.saved = backend.saved ∧
      wet.2.backend.saveCount = backend.saveCount ∧ disk.Grows wet.2.backend.disk ∧
      wet.2.backend.disk.file? path = disk.file? path

section Ends

variable {backend : Backend} {path : String} {disk : Disk} {before entered : Session ν}

/-- Both runs fail at the same instruction, and neither has saved anything. -/
theorem agreesWithDry_of_error {error : PipelineError}
    (hfirst : Instruction.performAll (Plan.standard policy project)
      (Session.start project supply { backend with output := none }) = (.error error, before))
    (hsecond : Instruction.performAll (Plan.standard policy project)
      (Session.start project other { backend with output := some path, disk }) =
        (.error error, entered))
    (hgraph : before.backend.SameGraph entered.backend) :
    AgreesWithDry (ν := ν) backend path disk
      ((Pipeline.standard policy).run project supply { backend with output := none })
      ((Pipeline.standard policy).run project other
        { backend with output := some path, disk }) := by
  have hdry := sameSaved_performAll_standard (ν := ν) policy project supply
    { backend with output := none }
  have hwet := sameSaved_performAll_standard (ν := ν) policy project other
    { backend with output := some path, disk }
  rw [hfirst] at hdry
  rw [hsecond] at hwet
  rw [run_standard_of_error hfirst, run_standard_of_error hsecond]
  refine ⟨hgraph, fun reason hreason => ?_, fun _ hok => ?_, fun _ hok => ?_⟩
  · exact ⟨hreason, hwet.saved.trans hdry.saved.symm, hwet.saveCount.trans hdry.saveCount.symm,
      hwet.disk⟩
  · cases hok
  · cases hok

/-- Both runs come to the save, which fails in the second if the file cannot be written. -/
theorem agreesWithDry_of_ok
    (hfirst : Instruction.performAll (Plan.standard policy project)
      (Session.start project supply { backend with output := none }) = (.ok (), before))
    (hsecond : Instruction.performAll (Plan.standard policy project)
      (Session.start project other { backend with output := some path, disk }) =
        (.ok (), entered))
    (hgraph : before.backend.SameGraph entered.backend)
    (hnatives : entered.natives.length = before.natives.length) :
    AgreesWithDry (ν := ν) backend path disk
      ((Pipeline.standard policy).run project supply { backend with output := none })
      ((Pipeline.standard policy).run project other
        { backend with output := some path, disk }) := by
  have hdry := sameSaved_performAll_standard (ν := ν) policy project supply
    { backend with output := none }
  have hwet := sameSaved_performAll_standard (ν := ν) policy project other
    { backend with output := some path, disk }
  rw [hfirst] at hdry
  rw [hsecond] at hwet
  rw [run_standard_of_save_ok hfirst (Backend.save_of_output_eq_none hdry.output)]
  by_cases hwritable : disk.Writable path
  · obtain ⟨written, hsave, hread⟩ := Backend.save_of_writable hwet.output (hwet.disk ▸ hwritable)
    have hcount : entered.backend.saveCount = before.backend.saveCount :=
      hwet.saveCount.trans hdry.saveCount.symm
    rw [run_standard_of_save_ok hsecond hsave, hnatives]
    refine ⟨⟨hgraph.objects, hgraph.suppressed, hgraph.listed⟩, fun _ herror => ?_,
      fun summary hok _ => ⟨hok, ?_, ?_, _, rfl, fun hactions => ?_⟩,
      fun _ _ hnot => absurd hwritable hnot⟩
    · cases herror
    · exact congrArg some hgraph.snapshot
    · exact congrArg (· + 1) hcount
    · -- What was written is the text of a well-formed list.
      have hdistinct := actionsDistinct_performAll_standard (ν := ν) policy project other
        (show Backend.ActionsDistinct { backend with output := some path, disk } from hactions)
      rw [hsecond] at hdistinct
      exact SchemeList.load_of_read (Backend.wellFormed_snapshot hdistinct) hread
  · obtain ⟨error, left, hsave, hgrows, hfile⟩ :=
      Backend.save_of_not_writable hwet.output (hwet.disk ▸ hwritable)
    rw [hwet.disk] at hgrows hfile
    rw [run_standard_of_save_error hsecond hsave]
    refine ⟨⟨hgraph.objects, hgraph.suppressed, hgraph.listed⟩, fun _ herror => ?_,
      fun _ _ hyes => absurd hyes hwritable,
      fun _ _ _ => ⟨⟨error, rfl⟩, hwet.saved, hwet.saveCount, hgrows, hfile⟩⟩
    cases herror

end Ends

/-- With an output file, a run of the standard pipeline does what it does without one, and then it
writes the list. -/
theorem standard_agreesWithDry (policy : TestTargetPolicy) (project : Project)
    (supply other : Supply) (backend : Backend) (path : String) (disk : Disk) :
    AgreesWithDry (ν := ν) backend path disk
      ((Pipeline.standard policy).run project supply { backend with output := none })
      ((Pipeline.standard policy).run project other
        { backend with output := some path, disk }) := by
  have hstart : Backend.SameGraph { backend with output := none }
      { backend with output := some path, disk } := ⟨rfl, rfl, rfl⟩
  obtain ⟨hresult, hgraph, hnatives⟩ :=
    performAll_sameGraph (ν := ν) policy project supply other hstart
  rcases hfirst : Instruction.performAll (ν := ν) (Plan.standard policy project)
    (Session.start project supply { backend with output := none }) with ⟨result, before⟩
  rcases hsecond : Instruction.performAll (ν := ν) (Plan.standard policy project)
    (Session.start project other { backend with output := some path, disk })
    with ⟨result', entered⟩
  rw [hfirst, hsecond] at hresult hgraph hnatives
  obtain rfl : result' = result := hresult
  cases result' with
  | error error => exact agreesWithDry_of_error hfirst hsecond hgraph
  | ok answer => exact agreesWithDry_of_ok hfirst hsecond hgraph hnatives

end Pipeline

end ProjectCompiler
