import ProjectCompiler.Proofs.Compilation.Success

/-!
# Policies — what the stricter policy refuses

The policy has its say in one place only: where a target with schemes has several test bundles. Up to the
first such target both policies give the same instructions. There the stricter one gives up, and the other
one goes on with the first bundle.

- `Generators.unitTestTarget_eq`: the bundle of a target, or the verdict on several;
- `Plan.GivesUp`: a plan that follows another one, to its end or up to an error of its own;
- `Pipeline.first_match_extends_unique`: runs under the two policies.
-/

namespace ProjectCompiler

open Stateful

variable {ν : Type}

/-! ## The bundle of a target -/

/-- There are several bundles where only one may be. -/
def Target.Ambiguous (policy : TestTargetPolicy) (project : Project) (target : Target) : Prop :=
  policy = .unique ∧ 1 < (project.unitTestTargets target).length

instance (policy : TestTargetPolicy) (project : Project) (target : Target) :
    Decidable (target.Ambiguous policy project) :=
  inferInstanceAs (Decidable (policy = .unique ∧ 1 < (project.unitTestTargets target).length))

/-- The error that names a target and all its bundles. -/
def Project.ambiguity (project : Project) (target : Target) : PipelineError :=
  .ambiguousTestTarget target.name ((project.unitTestTargets target).map Target.name)

theorem Generators.unitTestTarget_eq (policy : TestTargetPolicy) (project : Project)
    (target : Target) : unitTestTarget policy project target =
      if target.Ambiguous policy project then .error (project.ambiguity target)
      else .ok (project.unitTestTargets target).head? := by
  by_cases hambiguous : target.Ambiguous policy project
  · obtain ⟨rfl, hseveral⟩ := hambiguous
    rw [if_pos ⟨rfl, hseveral⟩]
    unfold unitTestTarget Project.ambiguity
    rcases hbundles : project.unitTestTargets target with _ | ⟨first, _ | ⟨second, rest⟩⟩
    · simp [hbundles] at hseveral
    · simp [hbundles] at hseveral
    · rfl
  · rw [if_neg hambiguous]
    unfold unitTestTarget
    rcases hbundles : project.unitTestTargets target with _ | ⟨first, _ | ⟨second, rest⟩⟩
    · rfl
    · rfl
    · cases policy with
      | firstMatch => rfl
      | unique => exact absurd ⟨rfl, by simp [hbundles]⟩ hambiguous

/-! ## Plans that give up -/

namespace Plan

/-- The strict plan is the lax one, or it is the same up to an error of a certain kind. -/
inductive GivesUp (refusal : PipelineError → Prop) : (strict lax : List Instruction) → Prop
  | never (plan : List Instruction) : GivesUp refusal plan plan
  | midway (common rest rest' : List Instruction) {error : PipelineError} (reason : refusal error) :
      GivesUp refusal (common ++ .fail error :: rest) (common ++ rest')

namespace GivesUp

variable {refusal : PipelineError → Prop} {strict lax strict' lax' : List Instruction}

theorem append (h : GivesUp refusal strict lax) (h' : GivesUp refusal strict' lax') :
    GivesUp refusal (strict ++ strict') (lax ++ lax') := by
  cases h with
  | midway common rest rest' reason =>
    -- What comes later does not count any more.
    rw [List.append_assoc, List.append_assoc, List.cons_append]
    exact .midway common _ _ reason
  | never plan =>
    cases h' with
    | never plan' => exact .never _
    | midway common rest rest' reason =>
      rw [← List.append_assoc, ← List.append_assoc]
      exact .midway (_ ++ common) rest rest' reason

theorem flatMap {α : Type} {items : List α} {plan plan' : α → List Instruction}
    (h : ∀ item ∈ items, GivesUp refusal (plan item) (plan' item)) :
    GivesUp refusal (items.flatMap plan) (items.flatMap plan') := by
  induction items with
  | nil => exact .never []
  | cons item rest ih =>
    rw [List.flatMap_cons, List.flatMap_cons]
    have hrest := ih fun other hother => h other (List.mem_cons_of_mem _ hother)
    exact (h item List.mem_cons_self).append hrest

/-- The two plans do the same from the same session, or the strict one ends with an error of its own. -/
theorem performAll (h : GivesUp refusal strict lax) (session : Session ν) :
    Instruction.performAll strict session = Instruction.performAll lax session ∨
      ∃ error after, refusal error ∧
        Instruction.performAll strict session = (.error error, after) := by
  cases h with
  | never plan => exact Or.inl rfl
  | midway common rest rest' reason =>
    rw [Instruction.performAll_append, Instruction.performAll_append]
    -- If what the plans have in common fails already, it fails for both.
    rcases hcommon : Instruction.performAll common session with ⟨reached | answer, middle⟩
    · left
      rw [bind_of_error hcommon, bind_of_error hcommon]
    · right
      refine ⟨_, middle, reason, ?_⟩
      rw [bind_of_ok hcommon, Instruction.performAll_cons]
      exact bind_of_error rfl _

end GivesUp

/-! ## Plans under the two policies -/

variable (project : Project)

/-- The verdict on a target of the project that has schemes and several bundles. -/
inductive Ambiguity : PipelineError → Prop
  | several {target : Target} (declared : target ∈ project.targets) (schemes : target.schemes ≠ [])
      (ambiguous : 1 < (project.unitTestTargets target).length) :
      Ambiguity (project.ambiguity target)

theorem addSchemes_givesUp {target : Target} (htarget : target ∈ project.targets) :
    GivesUp (Ambiguity project) (addSchemes .unique project target)
      (addSchemes .firstMatch project target) := by
  have hlax : ¬ target.Ambiguous .firstMatch project := nofun
  rw [addSchemes, addSchemes, Generators.unitTestTarget_eq, Generators.unitTestTarget_eq,
    if_neg hlax]
  rcases hschemes : target.schemes with _ | ⟨first, rest⟩
  · exact .never []
  · by_cases hambiguous : target.Ambiguous .unique project
    · rw [if_pos hambiguous]
      exact .midway [] [] _ (.several htarget (by simp [hschemes]) hambiguous.2)
    · rw [if_neg hambiguous]
      exact .never _

theorem schemes_givesUp : GivesUp (Ambiguity project) ((schemes .unique project).plan project)
    ((schemes .firstMatch project).plan project) := by
  have htargets : ∀ target ∈ project.targets, GivesUp (Ambiguity project)
      (.enter (.visitTarget "scheme" target) :: (schemes .unique project).onTarget target ++
        [.enter (.leaveTarget "scheme" target)])
      (.enter (.visitTarget "scheme" target) :: (schemes .firstMatch project).onTarget target ++
        [.enter (.leaveTarget "scheme" target)]) := by
    intro target htarget
    refine GivesUp.append ?_ (.never _)
    exact GivesUp.append (.never [_, _, _]) (addSchemes_givesUp project htarget)
  rw [Pass.plan, Pass.plan]
  exact (GivesUp.append (.never _) (.flatMap htargets)).append (.never _)

theorem standard_givesUp :
    GivesUp (Ambiguity project) (standard .unique project) (standard .firstMatch project) := by
  simp only [standard, passes, List.flatMap_cons, List.flatMap_nil, List.append_nil]
  refine (GivesUp.never _).append ((GivesUp.never _).append ((GivesUp.never _).append ?_))
  exact schemes_givesUp project

end Plan

/-! ## Whole runs -/

namespace Pipeline

/-- The same happens under both policies, or the stricter one rejects a target. -/
theorem run_unique_eq_or (project : Project) (supply : Supply) (backend : Backend) :
    (Pipeline.standard (ν := ν) .unique).run project supply backend =
        (Pipeline.standard .firstMatch).run project supply backend ∨
      ∃ error, Plan.Ambiguity project error ∧
        ((Pipeline.standard (ν := ν) .unique).run project supply backend).1 = .error error := by
  rcases (Plan.standard_givesUp project).performAll (Session.start (ν := ν) project supply backend)
    with hsame | ⟨error, after, hambiguity, hrun⟩
  · left
    rw [run_standard, run_standard, hsame]
    rfl
  · right
    exact ⟨error, hambiguity, by rw [run_standard, hrun]⟩

/-- Where the policy that asks for a single test bundle lets a run succeed, the other one lets it succeed in
the same way and leave the same session, with the same backend in it. Where a run fails under the other one,
it fails under the first, for the same reason or because a target with schemes has several bundles. -/
theorem first_match_extends_unique (project : Project) (supply : Supply) (backend : Backend) :
    let unique := (Pipeline.standard (ν := ν) .unique).run project supply backend
    let firstMatch := (Pipeline.standard (ν := ν) .firstMatch).run project supply backend
    (∀ summary, unique.1 = .ok summary →
        firstMatch.1 = .ok summary ∧ firstMatch.2 = unique.2) ∧
      ∀ error, firstMatch.1 = .error error →
        unique.1 = .error error ∨
          ∃ target ∈ project.targets, target.schemes ≠ [] ∧
            1 < (project.unitTestTargets target).length ∧
            unique.1 = .error (.ambiguousTestTarget target.name
              ((project.unitTestTargets target).map Target.name)) := by
  intro unique firstMatch
  rcases run_unique_eq_or (ν := ν) project supply backend with
    hsame | ⟨_, ⟨htarget, hschemes, hseveral⟩, hrun⟩
  · have hequal : firstMatch = unique := hsame.symm
    rw [hequal]
    exact ⟨fun summary hsummary => ⟨hsummary, rfl⟩, fun error herror => Or.inl herror⟩
  · refine ⟨fun summary hsummary => ?_, fun error _ => ?_⟩
    · rw [hrun] at hsummary
      cases hsummary
    · exact Or.inr ⟨_, htarget, hschemes, hseveral, hrun⟩

/-- With one bundle both policies do the same. With a second one, and a scheme that is wrong itself, one policy
fails for the scheme and the other for the bundles. -/
theorem one_or_two_bundles :
    let application := { (Target.new "App" .application .ios "17.0" ⟨10⟩).1 with
      schemes := [(Scheme.new "App" ⟨15⟩).1] }
    let broken := { application with
      schemes := application.schemes.map fun scheme => scheme.setConfiguration .test "Staging" }
    let tests := (Target.unitTestBundle "AppTests" application ⟨20⟩).1
    let more := (Target.unitTestBundle "AppUITests" application ⟨30⟩).1
    let single := { (Project.new "Demo" ⟨0⟩).1 with targets := [tests, application] }
    let several := { single with targets := [broken, tests, more] }
    let run (policy : TestTargetPolicy) (project : Project) :=
      (Pipeline.standard (ν := Nat) policy).run project ⟨40⟩ Backend.empty
    (∃ summary, (run .unique single).1 = .ok summary ∧
        (run .firstMatch single).1 = .ok summary ∧
        (run .firstMatch single).2.backend = (run .unique single).2.backend) ∧
      (run .firstMatch several).1 = .error (.unknownConfiguration "App" "Staging" .test) ∧
      ∃ target ∈ several.targets, 1 < (several.unitTestTargets target).length ∧
        (run .unique several).1 = .error (.ambiguousTestTarget target.name
          ((several.unitTestTargets target).map Target.name)) := by
  intro application broken tests more single several run
  constructor
  · have hok : (run .unique single).1.isOk = true := by decide +kernel
    obtain ⟨summary, hresult⟩ := exists_of_isOk hok
    obtain ⟨hextends, -⟩ := first_match_extends_unique (ν := Nat) single ⟨40⟩ Backend.empty
    obtain ⟨hsummary, hsession⟩ := hextends summary hresult
    exact ⟨summary, hresult, hsummary, congrArg Session.backend hsession⟩
  · have hfirst : (run .firstMatch several).1 =
        .error (.unknownConfiguration "App" "Staging" .test) := by decide +kernel
    refine ⟨hfirst, ?_⟩
    obtain ⟨-, hfails⟩ := first_match_extends_unique (ν := Nat) several ⟨40⟩ Backend.empty
    rcases hfails _ hfirst with hsame | ⟨target, htarget, -, hseveral, hrun⟩
    · have hdiffers : (run .unique several).1 ≠
          .error (.unknownConfiguration "App" "Staging" .test) := by decide +kernel
      exact absurd hsame hdiffers
    · exact ⟨target, htarget, hseveral, hrun⟩

end Pipeline

end ProjectCompiler
