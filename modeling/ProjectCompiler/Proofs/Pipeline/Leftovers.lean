import ProjectCompiler.Proofs.Pipeline.Keeping
import ProjectCompiler.Proofs.Pipeline.Persistence

/-!
# Leftovers — what a run leaves for the next one

Runs over one backend share its scheme list. A run puts targets and schemes on it while its callbacks
are still running, and nothing takes them off again: not the end of the run, even if the run fails, and
no later run either. So they are saved with the list of the next run that succeeds.

- `Job.runAll`: runs one after another over one backend, however they end;
- `Job.leftovers_saved`: what was on the list after one run is in the list that a later one saves.
-/

namespace ProjectCompiler

open Stateful

variable {ν : Type}

/-- A run to be made. -/
structure Job (ν : Type) where
  pipeline : Pipeline ν
  project : Project
  supply : Supply

namespace Job

def run (job : Job ν) (backend : Backend) : Except PipelineError RunSummary × Session ν :=
  job.pipeline.run job.project job.supply backend

/-- Runs one after another; the next one starts from the backend that the last one left. -/
def runAll (jobs : List (Job ν)) (backend : Backend) : Backend :=
  jobs.foldl (fun backend job => (job.run backend).2.backend) backend

theorem run_keeps (job : Job ν) (backend : Backend) : backend.Keeps (job.run backend).2.backend :=
  (job.pipeline.run_keeps job.project job.supply backend).backend

theorem runAll_keeps (jobs : List (Job ν)) (backend : Backend) :
    backend.Keeps (runAll jobs backend) := by
  induction jobs generalizing backend with
  | nil => exact refl_of Backend.Keeps backend
  | cons job rest ih =>
    have hfirst := job.run_keeps backend
    exact trans_of Backend.Keeps hfirst (ih (job.run backend).2.backend)

end Job

/-! ## Lists that are kept -/

namespace Backend.Keeps

variable {before after : Backend} {id : NativeId}

/-- A target on the list is named in every later snapshot. -/
theorem name_mem_snapshot (h : before.Keeps after) (hid : id ∈ before.suppressed)
    {native : NativeTarget} (hobject : before.object? id = some (.target native)) :
    native.name ∈ after.snapshot.suppressed := by
  obtain ⟨later, hlater, -, hname⟩ := h.objects id _ hobject
  have hnamed : after.nameOf id = native.name := by
    rw [nameOf, hlater]
    exact hname nofun
  exact List.mem_map.2 ⟨id, h.suppressed.subset hid, hnamed⟩

/-- A scheme on the list is in every later snapshot, as it is by then. -/
theorem scheme_mem_snapshot (h : before.Keeps after) (hid : id ∈ before.listed)
    {scheme : NativeScheme} (hobject : before.object? id = some (.scheme scheme)) :
    ∃ later, after.object? id = some (.scheme later) ∧
      after.savedScheme later ∈ after.snapshot.schemes := by
  obtain ⟨object, hlater, hkind, -⟩ := h.objects id _ hobject
  obtain ⟨later, rfl⟩ : ∃ later, object = .scheme later := by
    cases object with
    | scheme later => exact ⟨later, rfl⟩
    | project | group | target | configuration => cases hkind
  have hfound : after.scheme? id = some later := by
    rw [scheme?, hlater]
  refine ⟨later, hlater, List.mem_map.2 ⟨later, ?_, rfl⟩⟩
  exact List.mem_filterMap.2 ⟨id, h.listed.subset hid, hfound⟩

end Backend.Keeps

/-! ## Runs over one backend -/

namespace Job

/-- Whatever stood on the scheme list after an earlier run, failed or not, is saved by every later run
that succeeds and saves: targets under their names, and schemes. -/
theorem leftovers_saved (earlier last : Job ν) (between : List (Job ν)) (backend : Backend)
    (honly : last.pipeline.Only (¬ ·.Saves)) {summary : RunSummary} {after : Session ν}
    (hrun : last.run (runAll between (earlier.run backend).2.backend) = (.ok summary, after))
    (hstage : .stage ∈ last.pipeline.calls last.project last.supply
      (runAll between (earlier.run backend).2.backend)) :
    ∃ list, after.backend.saved = some list ∧
      (∀ id ∈ (earlier.run backend).2.backend.suppressed, ∀ native,
        (earlier.run backend).2.backend.object? id = some (.target native) →
          native.name ∈ list.suppressed) ∧
      ∀ id ∈ (earlier.run backend).2.backend.listed, ∀ scheme,
        (earlier.run backend).2.backend.object? id = some (.scheme scheme) →
          ∃ later, after.backend.object? id = some (.scheme later) ∧
            after.backend.savedScheme later ∈ list.schemes := by
  have hsaved := ((Pipeline.saved_of_run_ok honly hrun).1 hstage).2
  have hkept : (earlier.run backend).2.backend.Keeps after.backend := by
    have hlast := last.run_keeps (runAll between (earlier.run backend).2.backend)
    rw [hrun] at hlast
    exact trans_of Backend.Keeps (runAll_keeps between _) hlast
  exact ⟨after.backend.snapshot, hsaved,
    fun _ hid _ hobject => hkept.name_mem_snapshot hid hobject,
    fun _ hid _ hobject => hkept.scheme_mem_snapshot hid hobject⟩

/-- A plugin that gives up once all schemes are made. -/
def giveUp : Plugin Nat where
  name := "guard"
  after generator :=
    if generator = "scheme" then Program.fail (.plugin "guard" "no") else pure ()

/-- The target and the scheme of a run that failed are in the list that the run of an empty project
saves. -/
theorem leftover_scheme_saved :
    let app := { (Target.new "App" .application .ios "17.0" ⟨10⟩).1 with
      schemes := [(Scheme.new "App" ⟨15⟩).1] }
    let failing : Job Nat := {
      pipeline := { Pipeline.standard .unique with plugins := [giveUp] }
      project := { (Project.new "Demo" ⟨0⟩).1 with targets := [app] }
      supply := ⟨20⟩ }
    let last : Job Nat := {
      pipeline := Pipeline.standard .unique
      project := (Project.new "Empty" ⟨20⟩).1
      supply := ⟨30⟩ }
    (failing.run Backend.empty).1.isOk = false ∧ last.project.targets = [] ∧
      ∃ summary after list, last.run (failing.run Backend.empty).2.backend = (.ok summary, after) ∧
        after.backend.saved = some list ∧ "App" ∈ list.suppressed ∧
        ∃ scheme ∈ list.schemes, scheme.name = "App" := by
  intro app failing last
  let left := (failing.run Backend.empty).2.backend
  have hfailed : (failing.run Backend.empty).1.isOk = false := by decide +kernel
  have honly : last.pipeline.Only (¬ ·.Saves) := Pipeline.standard_only .unique
  have hordered : last.pipeline.ordered = .ok (Generators.standard .unique) := rfl
  have hstage : .stage ∈ last.pipeline.calls last.project last.supply left :=
    (Pipeline.staged_enterAll honly hordered last.project last.supply left).1 (by decide +kernel)
  -- What the failed run leaves: the target stands at 3 and its scheme at 6.
  have htarget : ⟨3⟩ ∈ left.suppressed ∧ left.object? ⟨3⟩ = some (.target {
      name := "App"
      productType := "com.apple.product-type.application"
      sdkRoot := "iphoneos"
      deploymentTarget := "17.0"
      language := "objc"
      configurations := []
      dependencies := [] }) := by
    decide +kernel
  have hscheme : ⟨6⟩ ∈ left.listed ∧ left.object? ⟨6⟩ = some (.scheme {
      name := "App"
      buildTargets := [⟨3⟩]
      launchTarget := some ⟨3⟩
      testTargets := []
      actions := [(.test, "Debug"), (.launch, "Debug"), (.profile, "Release"),
        (.analyze, "Debug"), (.archive, "Release")] }) := by
    decide +kernel
  have hname : ((last.run left).2.backend.object? ⟨6⟩).map NativeObject.name = some "App" := by
    decide +kernel
  rcases hrun : last.run left with ⟨error | summary, after⟩
  · have hok : (last.run left).1.isOk = true := by decide +kernel
    rw [hrun] at hok
    cases hok
  · obtain ⟨list, hsaved, htargets, hschemes⟩ :=
      leftovers_saved failing last [] Backend.empty honly hrun hstage
    obtain ⟨later, hlater, hmem⟩ := hschemes ⟨6⟩ hscheme.1 _ hscheme.2
    rw [hrun, hlater] at hname
    exact ⟨hfailed, rfl, summary, after, list, rfl, hsaved,
      htargets ⟨3⟩ htarget.1 _ htarget.2, _, hmem, Option.some.inj hname⟩

end Job

end ProjectCompiler
