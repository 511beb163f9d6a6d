import ProjectCompiler.Proofs.Compilation.Laid
import ProjectCompiler.Proofs.Project.Growth

/-!
# Scheme errors — which of several defects is reported

The last generator looks at targets one by one, and at schemes of a target one by one. It asks for the test
bundle before it looks at the first scheme. So a target with too many bundles is rejected for them, whatever
its schemes are like, and only otherwise for the first scheme that uses a configuration which is not declared.

- `Scheme.Declared`, `Scheme.FirstUndeclared`: what a scheme uses, against what the project declares;
- `Target.AtFault`: targets that the generator rejects;
- `Pipeline.first_scheme_error`: the error of a run in which everything else succeeds.
-/

namespace ProjectCompiler

open Stateful

variable {ν : Type}

/-! ## Schemes and declared configurations -/

namespace Scheme

variable {project : Project} {scheme : Scheme} {action : SchemeAction}

/-- All configurations that the scheme uses are declared. -/
def Declared (project : Project) (scheme : Scheme) : Prop :=
  ∀ action, scheme.configurationFor action ∈ project.declared

/-- An action whose configuration is not declared, while those of earlier actions are. -/
structure FirstUndeclared (project : Project) (scheme : Scheme) (action : SchemeAction) : Prop where
  undeclared : scheme.configurationFor action ∉ project.declared
  first : ∃ before after, SchemeAction.all = before ++ action :: after ∧
    ∀ earlier ∈ before, scheme.configurationFor earlier ∈ project.declared

theorem declared_iff : scheme.Declared project ↔
    Generators.firstUnknownConfiguration? project scheme = none := by
  rw [Generators.firstUnknownConfiguration?_eq_none]
  simp [Declared, Project.declared]

theorem firstUndeclared_of_eq_some {configuration : String}
    (h : Generators.firstUnknownConfiguration? project scheme = some (action, configuration)) :
    configuration = scheme.configurationFor action ∧ scheme.FirstUndeclared project action := by
  rw [Generators.firstUnknownConfiguration?, List.find?_eq_some_iff_append] at h
  obtain ⟨hunknown, before, after, hall, hbefore⟩ := h
  -- The search goes through pairs, which are actions by their order.
  obtain ⟨actions, rest, hactions, rfl, hrest⟩ := List.map_eq_append_iff.1 hall
  obtain ⟨_, later, rfl, hpair, -⟩ := List.map_eq_cons_iff.1 hrest
  obtain ⟨rfl, rfl⟩ := Prod.mk.inj hpair
  refine ⟨rfl, ?_, actions, later, hactions, ?_⟩
  · rw [← Project.hasConfiguration_iff]
    simpa using hunknown
  · intro earlier hearlier
    rw [← Project.hasConfiguration_iff]
    simpa using hbefore _ (List.mem_map_of_mem hearlier)

instance (project : Project) (scheme : Scheme) : Decidable (scheme.Declared project) :=
  decidable_of_iff _ declared_iff.symm

theorem exists_first_not_declared {schemes : List Scheme}
    (h : ∃ scheme ∈ schemes, ¬ scheme.Declared project) :
    ∃ before scheme after, schemes = before ++ scheme :: after ∧
      (∀ earlier ∈ before, earlier.Declared project) ∧ ¬ scheme.Declared project := by
  have hsome : (schemes.find? fun scheme => ¬ scheme.Declared project).isSome := by
    simpa using h
  obtain ⟨scheme, hfind⟩ := Option.isSome_iff_exists.1 hsome
  obtain ⟨hnot, before, after, hsplit, hbefore⟩ := List.find?_eq_some_iff_append.1 hfind
  exact ⟨before, scheme, after, hsplit, by simpa using hbefore, by simpa using hnot⟩

end Scheme

/-! ## Targets at fault -/

/-- A target with schemes that is rejected for one of them or for its test bundles. -/
def Target.AtFault (policy : TestTargetPolicy) (project : Project) (target : Target) : Prop :=
  target.schemes ≠ [] ∧
    ((∃ scheme ∈ target.schemes, ¬ scheme.Declared project) ∨ target.Ambiguous policy project)

instance (policy : TestTargetPolicy) (project : Project) (target : Target) :
    Decidable (target.AtFault policy project) :=
  inferInstanceAs (Decidable (_ ∧ _))

namespace Plan

variable {policy : TestTargetPolicy} {project : Project} {target : Target}

theorem addSchemes_of_ambiguous (hschemes : target.schemes ≠ [])
    (h : target.Ambiguous policy project) :
    addSchemes policy project target = [.fail (project.ambiguity target)] := by
  rw [addSchemes, Generators.unitTestTarget_eq, if_pos h]
  rcases hlist : target.schemes with _ | ⟨first, rest⟩
  · exact absurd hlist hschemes
  · rfl

/-- Unless the bundle is in question, it is suppressed first, and then come the schemes. -/
theorem addSchemes_of_not_ambiguous (hschemes : target.schemes ≠ [])
    (h : ¬ target.Ambiguous policy project) :
    addSchemes policy project target =
      ((project.unitTestTargets target).head?.toList.flatMap fun test =>
          [.translate (.target test), .suppress test]) ++
        target.schemes.flatMap
          (addScheme project target (project.unitTestTargets target).head?) := by
  rw [addSchemes, Generators.unitTestTarget_eq, if_neg h]
  rcases hlist : target.schemes with _ | ⟨first, rest⟩
  · exact absurd hlist hschemes
  · cases (project.unitTestTargets target).head? <;> rfl

theorem head_mem_targets {test : Target} (h : test ∈ (project.unitTestTargets target).head?) :
    test ∈ project.targets :=
  (Project.mem_of_mem_unitTestTargets (List.mem_of_mem_head? h)).1

theorem granted_suppressTest :
    ∀ instruction ∈ (project.unitTestTargets target).head?.toList.flatMap fun test =>
      [Instruction.translate (.target test), .suppress test],
    instruction.Granted project := by
  intro instruction hinstruction
  obtain ⟨test, htest, hmem⟩ := List.mem_flatMap.1 hinstruction
  have htarget := head_mem_targets (Option.mem_toList.1 htest)
  simp only [List.mem_cons, List.not_mem_nil, or_false] at hmem
  rcases hmem with rfl | rfl
  · exact .target htarget
  · exact .suppress htarget

theorem granted_addScheme (htarget : target ∈ project.targets) {scheme : Scheme}
    (hscheme : scheme ∈ target.schemes) (h : scheme.Declared project) :
    ∀ instruction ∈ addScheme project target (project.unitTestTargets target).head? scheme,
      instruction.Granted project := by
  rw [addScheme, Scheme.declared_iff.1 h]
  simp only [List.forall_mem_cons, List.not_mem_nil, false_implies, implies_true, and_true]
  exact ⟨.scheme htarget hscheme, .list htarget (fun _ => head_mem_targets) hscheme⟩

theorem granted_addSchemes (htarget : target ∈ project.targets)
    (h : ¬ target.AtFault policy project) :
    ∀ instruction ∈ addSchemes policy project target, instruction.Granted project := by
  by_cases hschemes : target.schemes = []
  · simp [addSchemes, hschemes]
  · obtain ⟨hdeclared, hambiguous⟩ := not_or.1 fun hfault => h ⟨hschemes, hfault⟩
    push Not at hdeclared
    rw [addSchemes_of_not_ambiguous hschemes hambiguous]
    refine List.forall_mem_append.2 ⟨granted_suppressTest, List.forall_mem_flatMap.2 ?_⟩
    exact fun scheme hscheme => granted_addScheme htarget hscheme (hdeclared scheme hscheme)

/-- If the bundle is not in question, the first scheme that uses an undeclared configuration fails. -/
theorem fails_addSchemes (htarget : target ∈ project.targets)
    (h : target.AtFault policy project) (hambiguous : ¬ target.Ambiguous policy project) :
    ∃ before scheme after action, target.schemes = before ++ scheme :: after ∧
      (∀ earlier ∈ before, earlier.Declared project) ∧ scheme.FirstUndeclared project action ∧
      Fails project
        (.unknownConfiguration scheme.name (scheme.configurationFor action) action)
        (addSchemes policy project target) := by
  obtain ⟨hschemes, hfault⟩ := h
  obtain ⟨before, scheme, after, hsplit, hbefore, hundeclared⟩ :=
    Scheme.exists_first_not_declared (hfault.resolve_right hambiguous)
  obtain ⟨⟨action, configuration⟩, hunknown⟩ := Option.ne_none_iff_exists'.1 fun hnone =>
    hundeclared (Scheme.declared_iff.2 hnone)
  obtain ⟨rfl, hfirst⟩ := Scheme.firstUndeclared_of_eq_some hunknown
  refine ⟨before, scheme, after, action, hsplit, hbefore, hfirst, ?_⟩
  rw [addSchemes_of_not_ambiguous hschemes hambiguous]
  -- The bundle is suppressed, the schemes before go on the list, and then the search ends with this one.
  have hmem : ∀ earlier ∈ before, earlier ∈ target.schemes := by simp +contextual [hsplit]
  rw [hsplit]
  refine Fails.append_left granted_suppressTest (Fails.flatMap ?_ ?_)
  · intro earlier hearlier
    exact granted_addScheme htarget (hmem earlier hearlier) (hbefore earlier hearlier)
  · rw [addScheme, hunknown]
    exact Fails.head []

/-- The generator passes by targets that are not at fault, up to the first that is. -/
theorem fails_schemes {before after : List Target} {error : PipelineError}
    (htargets : project.targets = before ++ target :: after)
    (hbefore : ∀ earlier ∈ before, ¬ earlier.AtFault policy project)
    (h : Fails project error (addSchemes policy project target)) :
    Fails project error ((schemes policy project).plan project) := by
  have hmem : ∀ other ∈ before ++ [target], other ∈ project.targets := by
    rw [htargets, List.append_cons before target after]
    exact fun other hother => List.mem_append_left after hother
  -- What a target is asked for before its schemes is granted in any case.
  have hopening : ∀ other ∈ before ++ [target], ∀ instruction ∈
      [.enter (.visitTarget "scheme" other), .translate (.target other), .suppress other],
      Instruction.Granted project instruction := by
    intro other hother
    simp only [List.forall_mem_cons, List.not_mem_nil, false_implies, implies_true, and_true]
    exact ⟨.enter _, .target (hmem other hother), .suppress (hmem other hother)⟩
  rw [Pass.plan, htargets]
  refine (Fails.append_left ?_ (Fails.flatMap ?_ ?_)).append_right _
  · simp only [schemes, List.forall_mem_append, List.forall_mem_cons, List.forall_mem_flatMap,
      List.not_mem_nil, false_implies, implies_true, and_true]
    exact ⟨⟨.enter _, .project⟩, fun configuration _ => ⟨.enter _, .enter _⟩⟩
  · intro other hother
    have hother' := List.mem_append_left [target] hother
    have hadded := granted_addSchemes (hmem other hother') (hbefore other hother)
    refine List.forall_mem_append.2 ⟨List.forall_mem_append.2 ⟨hopening other hother', hadded⟩, ?_⟩
    simpa using Instruction.Granted.enter _
  · exact (Fails.append_left (hopening target (by simp)) h).append_right _

end Plan

/-! ## Whole runs -/

namespace Pipeline

variable {policy : TestTargetPolicy} {project : Project} {supply : Supply} {backend : Backend}

theorem run_standard_of_fails {summary : RunSummary} (hkinds : KindsApart project.nodes)
    (hlaying : ((laying (ν := ν) []).run project supply backend).1 = .ok summary)
    {error : PipelineError}
    (h : Plan.Fails project error ((Plan.schemes policy project).plan project)) :
    ((Pipeline.standard (ν := ν) policy).run project supply backend).1 = .error error := by
  obtain ⟨entered, hentered, hlaid⟩ := laid_of_laying hlaying
  obtain ⟨after, hschemes⟩ := h.performAll hlaid hkinds
  have hplan : Instruction.performAll (Plan.standard policy project)
      (Session.start (ν := ν) project supply backend) = (.error error, after) := by
    rw [Plan.standard_eq_laying, Instruction.performAll_append, bind_of_ok hentered]
    exact hschemes
  rw [run_standard, hplan]

/-- Suppose that nothing goes wrong without schemes, in a project whose objects of different kinds have
different identities, and consider the first target at fault. If it has several bundles where one is asked
for, this is the error, even if its first scheme is wrong by itself. Otherwise the error is the first
undeclared configuration of the first scheme that uses one. -/
theorem first_scheme_error (hkinds : KindsApart project.nodes)
    (hlaying : ∃ summary, ((laying (ν := ν) []).run project supply backend).1 = .ok summary)
    {before after : List Target} {target : Target}
    (htargets : project.targets = before ++ target :: after)
    (hbefore : ∀ earlier ∈ before, ¬ earlier.AtFault policy project)
    (htarget : target.AtFault policy project) :
    let result := ((Pipeline.standard (ν := ν) policy).run project supply backend).1
    (target.Ambiguous policy project → result = .error (.ambiguousTestTarget target.name
        ((project.unitTestTargets target).map Target.name))) ∧
      (¬ target.Ambiguous policy project → ∃ earlier scheme later action,
        target.schemes = earlier ++ scheme :: later ∧
        (∀ other ∈ earlier, other.Declared project) ∧
        scheme.FirstUndeclared project action ∧
        result = .error (.unknownConfiguration scheme.name (scheme.configurationFor action)
          action)) := by
  intro result
  obtain ⟨summary, hsummary⟩ := hlaying
  constructor
  · intro hambiguous
    refine run_standard_of_fails hkinds hsummary (Plan.fails_schemes htargets hbefore ?_)
    rw [Plan.addSchemes_of_ambiguous htarget.1 hambiguous]
    exact Plan.Fails.head []
  · intro hambiguous
    have hmem : target ∈ project.targets := by simp [htargets]
    obtain ⟨earlier, scheme, later, action, hsplit, hdeclared, hfirst, hfails⟩ :=
      Plan.fails_addSchemes hmem htarget hambiguous
    exact ⟨earlier, scheme, later, action, hsplit, hdeclared, hfirst,
      run_standard_of_fails hkinds hsummary (Plan.fails_schemes htargets hbefore hfails)⟩

/-- Both defects in one target: the first scheme already uses a configuration that is not declared, and still
it is the bundles that are reported, unless the first one is taken. -/
theorem bundles_before_schemes :
    let scheme := (Scheme.new "App" ⟨15⟩).1.setConfiguration .test "Staging"
    let application :=
      { (Target.new "App" .application .ios "17.0" ⟨10⟩).1 with schemes := [scheme] }
    let tests := (Target.unitTestBundle "AppTests" application ⟨20⟩).1
    let more := (Target.unitTestBundle "AppUITests" application ⟨30⟩).1
    let project := { (Project.new "Demo" ⟨0⟩).1 with targets := [application, tests, more] }
    let run (policy : TestTargetPolicy) :=
      ((Pipeline.standard (ν := Nat) policy).run project ⟨40⟩ Backend.empty).1
    scheme.FirstUndeclared project .test ∧
      run .unique = .error (.ambiguousTestTarget "App" ["AppTests", "AppUITests"]) ∧
      run .firstMatch = .error (.unknownConfiguration "App" "Staging" .test) := by
  intro scheme application tests more project run
  have hkinds : KindsApart project.nodes := by
    unfold KindsApart
    decide +kernel
  have hok : ((laying (ν := Nat) []).run project ⟨40⟩ Backend.empty).1.isOk = true := by
    decide +kernel
  have hlaying := exists_of_isOk hok
  have hfault : ∀ policy, application.AtFault policy project := by
    intro policy
    cases policy <;> decide +kernel
  have htargets : project.targets = [] ++ application :: [tests, more] := rfl
  obtain ⟨hstrict, -⟩ := first_scheme_error hkinds hlaying htargets nofun (hfault .unique)
  obtain ⟨-, hlax⟩ := first_scheme_error hkinds hlaying htargets nofun (hfault .firstMatch)
  refine ⟨⟨by decide +kernel, [], _, rfl, nofun⟩, hstrict (by decide +kernel), ?_⟩
  obtain ⟨earlier, found, later, action, hsplit, -, hfirst, hrun⟩ := hlax (by decide +kernel)
  -- There is no other scheme, and of its actions no other is undeclared.
  have hfound : found = scheme := by
    have hmem : found ∈ [scheme] := by
      rw [show [scheme] = earlier ++ found :: later from hsplit]
      simp
    exact List.mem_singleton.1 hmem
  subst hfound
  have haction : action = .test := by
    cases action with
    | test => rfl
    | launch | profile | analyze | archive =>
      exact absurd (by decide +kernel) hfirst.undeclared
  subst haction
  exact hrun

end Pipeline

end ProjectCompiler
