import ProjectCompiler.Manifest.Label
import ProjectCompiler.Proofs.Manifest.Validation

/-!
# First violation — which of several is reported

Several things can be wrong with a manifest at once. Each of them is wrong at a place of its own, and places
come in an order: those of the project, names of targets, and then target by target what is said about the
host, about where the target runs, and about overrides. Validation reports what is wrong at the first place.

- `Manifest.Place`: the places and their order;
- `Manifest.Wrong`: what can be wrong at a place, said without validation;
- `Reports`: lists of violations that begin with the first thing wrong;
- `Manifest.validate_reports_first`: what validation accepts and what it reports.
-/

namespace ProjectCompiler

namespace Manifest

/-! ## Places -/

/-- Where something can be wrong. Targets, and overrides of a target, go by their numbers. -/
inductive Place
  | projectName
  | defaultConfiguration
  | name (target : Nat)
  | host (target : Nat)
  | platform (target : Nat)
  | deploymentTarget (target : Nat)
  | override (target override : Nat)
  deriving DecidableEq, Repr

/-- Places are compared by their ranks, from left to right. -/
def Place.rank : Place → List Nat
  | projectName => [0, 0]
  | defaultConfiguration => [0, 1]
  | name target => [1, target]
  | host target => [2, target, 0]
  | platform target => [2, target, 1]
  | deploymentTarget target => [2, target, 2]
  | override target number => [2, target, 3, number]

instance : LT Place :=
  ⟨fun first second => first.rank < second.rank⟩

theorem Place.lt_iff {first second : Place} : first < second ↔ first.rank < second.rank :=
  Iff.rfl

instance (first second : Place) : Decidable (first < second) :=
  inferInstanceAs (Decidable (first.rank < second.rank))

theorem Place.lt_asymm {first second : Place} (h : first < second) : ¬ second < first :=
  List.lt_asymm h

/-! ## What can be wrong -/

/-- What is wrong with the target of a number. -/
inductive WrongTarget (manifest : Manifest) (number : Nat) (entry : TargetEntry) :
    Place → Violation → Prop
  | missingHost (bundle : entry.type = .unitTestBundle) (alone : entry.host = none) :
      WrongTarget manifest number entry (.host number) (.missingHost entry.name)
  | unwantedHost {host : String} (other : entry.type ≠ .unitTestBundle)
      (hosted : entry.host = some host) :
      WrongTarget manifest number entry (.host number) (.unwantedHost entry.name entry.type host)
  | unknownHost {host : String} (bundle : entry.type = .unitTestBundle)
      (hosted : entry.host = some host) (unknown : ∀ other ∈ manifest.targets, other.name ≠ host) :
      WrongTarget manifest number entry (.host number) (.unknownHost entry.name host)
  | nestedHost {host : TargetEntry} (bundle : entry.type = .unitTestBundle)
      (hosted : entry.host = some host.name) (known : host ∈ manifest.targets)
      (nested : host.type = .unitTestBundle) :
      WrongTarget manifest number entry (.host number) (.nestedHost entry.name host.name)
  | missingPlatform (alone : entry.host = none) (missing : entry.platform = none) :
      WrongTarget manifest number entry (.platform number) (.missingPlatform entry.name)
  | missingDeploymentTarget (alone : entry.host = none) (missing : entry.deploymentTarget = none) :
      WrongTarget manifest number entry (.deploymentTarget number)
        (.missingDeploymentTarget entry.name)
  | undeclaredOverride {place : Nat} {override : String × Settings}
      (at_place : entry.configurations[place]? = some override)
      (undeclared : override.1 ∉ manifest.configurationNames) :
      WrongTarget manifest number entry (.override number place)
        (.undeclaredOverride entry.name override.1)

/-- What is wrong with the manifest. -/
inductive Wrong (manifest : Manifest) : Place → Violation → Prop
  | blankName (blank : ∀ c ∈ manifest.projectName.toList, Blank.isWhiteSpace c) :
      Wrong manifest .projectName .blankProjectName
  | undeclaredDefault {name : String} (given : manifest.defaultConfiguration = some name)
      (undeclared : name ∉ manifest.configurationNames) :
      Wrong manifest .defaultConfiguration (.undeclaredDefault name)
  | repeatedName {earlier again : Nat} {name : String} (behind : earlier < again)
      (first : (manifest.targets.map TargetEntry.name)[earlier]? = some name)
      (second : (manifest.targets.map TargetEntry.name)[again]? = some name) :
      Wrong manifest (.name again) (.duplicateTarget name)
  | target {number : Nat} {entry : TargetEntry} {place : Place} {violation : Violation}
      (declared : manifest.targets[number]? = some entry)
      (wrong : WrongTarget manifest number entry place violation) : Wrong manifest place violation

end Manifest

open Manifest

/-! ## Lists that begin with the first violation -/

/-- There is no other violation at the place, and none before. -/
def IsFirst (wrong : Place → Violation → Prop) (place : Place) (violation : Violation) : Prop :=
  wrong place violation ∧ ∀ other found, wrong other found →
    (other = place ∧ found = violation) ∨ place < other

/-- The list is empty if nothing is wrong, and begins with what is wrong at the first place. -/
def Reports (wrong : Place → Violation → Prop) : List Violation → Prop
  | [] => ∀ place violation, ¬ wrong place violation
  | violation :: _ => ∃ place, IsFirst wrong place violation

namespace Reports

variable {wrong wrong' : Place → Violation → Prop} {first second : List Violation}

theorem congr (h : Reports wrong first) (hsame : ∀ place violation,
    wrong' place violation ↔ wrong place violation) : Reports wrong' first := by
  have hequal : wrong' = wrong := funext fun place => funext fun found => propext (hsame place found)
  exact hequal ▸ h

theorem nothing {place : Place} (h : ∀ violation, ¬ wrong place violation) :
    Reports (fun other found => other = place ∧ wrong other found) [] := by
  rintro _ violation ⟨rfl, hwrong⟩
  exact h violation hwrong

theorem one {place : Place} {violation : Violation}
    (h : ∀ found, wrong place found ↔ found = violation) :
    Reports (fun other found => other = place ∧ wrong other found) [violation] := by
  refine ⟨place, ⟨rfl, (h violation).2 rfl⟩, ?_⟩
  rintro other found ⟨rfl, hfound⟩
  exact Or.inl ⟨rfl, (h found).1 hfound⟩

/-- A place at which one condition is checked. -/
theorem single {place : Place} {violation : Violation} {P : Prop} [Decidable P]
    (h : ∀ found, wrong place found ↔ P ∧ found = violation) :
    Reports (fun other found => other = place ∧ wrong other found)
      (if P then [violation] else []) := by
  by_cases hP : P
  · rw [if_pos hP]
    exact one fun found => (h found).trans (and_iff_right hP)
  · rw [if_neg hP]
    exact nothing fun found hfound => hP ((h found).1 hfound).1

/-- The same where nothing but the condition is said about the place. -/
theorem condition (place : Place) (violation : Violation) (P : Prop) [Decidable P] :
    Reports (fun other found => other = place ∧ P ∧ found = violation)
      (if P then [violation] else []) := by
  have hwrong : Reports (fun other found => other = place ∧
      (fun _ found => P ∧ found = violation) other found) (if P then [violation] else []) :=
    single fun _ => Iff.rfl
  exact hwrong

/-- The second list counts only if there is nothing on the first. -/
theorem append (hfirst : Reports wrong first) (hsecond : first = [] → Reports wrong' second)
    (horder : ∀ {place place' found found'}, wrong place found → wrong' place' found' →
      place < place') :
    Reports (fun place found => wrong place found ∨ wrong' place found) (first ++ second) := by
  cases first with
  | nil =>
    have hnothing : ∀ place found, ¬ wrong place found := hfirst
    exact (hsecond rfl).congr fun place found => or_iff_right (hnothing place found)
  | cons violation rest =>
    obtain ⟨place, hwrong, hleast⟩ := hfirst
    refine ⟨place, Or.inl hwrong, ?_⟩
    rintro other found (hfound | hfound)
    · exact hleast other found hfound
    · exact Or.inr (horder hwrong hfound)

/-- Parts of a list, each of which reports what is wrong with its item. -/
theorem flatMap {α : Type} {items : List α} {part : α → List Violation}
    {wrong : Nat → α → Place → Violation → Prop}
    (h : ∀ i item, items[i]? = some item → Reports (wrong i item) (part item))
    (horder : ∀ {i j item item' place place' found found'}, i < j → wrong i item place found →
      wrong j item' place' found' → place < place') :
    Reports (fun place found => ∃ i item, items[i]? = some item ∧ wrong i item place found)
      (items.flatMap part) := by
  induction items generalizing wrong with
  | nil => exact fun _ _ ⟨_, _, hitem, _⟩ => by simp at hitem
  | cons item rest ih =>
    have hrest : Reports (fun place found => ∃ i item, rest[i]? = some item ∧
        wrong (i + 1) item place found) (rest.flatMap part) :=
      ih (fun i => h (i + 1)) fun hlt => horder (Nat.succ_lt_succ hlt)
    rw [List.flatMap_cons]
    refine ((h 0 item rfl).append (fun _ => hrest) ?_).congr ?_
    · rintro place place' found found' hfirst ⟨i, other, -, hlater⟩
      exact horder (Nat.succ_pos i) hfirst hlater
    · intro place found
      constructor
      · rintro ⟨_ | i, other, hother, hwrong⟩
        · obtain rfl : item = other := Option.some.inj hother
          exact Or.inl hwrong
        · exact Or.inr ⟨i, other, hother, hwrong⟩
      · rintro (hwrong | ⟨i, other, hother, hwrong⟩)
        · exact ⟨0, item, rfl, hwrong⟩
        · exact ⟨i + 1, other, hother, hwrong⟩

end Reports

/-! ## Parts of validation -/

namespace Manifest

variable {manifest : Manifest}

theorem reports_projectName :
    Reports (fun place found => place = .projectName ∧ manifest.Wrong place found)
      (if Blank.isBlank manifest.projectName then [.blankProjectName] else []) := by
  refine Reports.single fun found => ⟨fun hfound => ?_, ?_⟩
  · cases hfound with
    | blankName blank => exact ⟨by simpa [Blank.isBlank] using blank, rfl⟩
    | target declared wrong => cases wrong
  · rintro ⟨hblank, rfl⟩
    exact .blankName (by simpa [Blank.isBlank] using hblank)

theorem reports_default :
    Reports (fun place found => place = .defaultConfiguration ∧ manifest.Wrong place found)
      (match manifest.defaultConfiguration with
        | some name => if manifest.hasConfiguration name then [] else [.undeclaredDefault name]
        | none => []) := by
  rcases hgiven : manifest.defaultConfiguration with _ | name
  · refine Reports.nothing fun found hfound => ?_
    cases hfound with
    | undeclaredDefault given undeclared => simp [hgiven] at given
    | target declared wrong => cases wrong
  · dsimp only
    rw [← ite_not]
    refine Reports.single fun found => ⟨fun hfound => ?_, ?_⟩
    · cases hfound with
      | undeclaredDefault given undeclared =>
        obtain rfl := Option.some.inj (hgiven.symm.trans given)
        exact ⟨mt hasConfiguration_iff.1 undeclared, rfl⟩
      | target declared wrong => cases wrong
    · rintro ⟨hundeclared, rfl⟩
      exact .undeclaredDefault hgiven (mt hasConfiguration_iff.2 hundeclared)

/-- A name is repeated if it was seen before, or if it stands earlier in what is left. -/
theorem reports_repeated_go (seen names : List String) (number : Nat) :
    Reports (fun place found => ∃ i name, names[i]? = some name ∧
        (name ∈ seen ∨ ∃ j < i, names[j]? = some name) ∧
        place = .name (number + i) ∧ found = .duplicateTarget name)
      ((repeated.go seen names).map .duplicateTarget) := by
  induction names generalizing seen number with
  | nil => exact fun _ _ ⟨_, _, hname, _⟩ => by simp at hname
  | cons name rest ih =>
    have hfirst := Reports.condition (.name number) (.duplicateTarget name) (name ∈ seen)
    have hlist : (repeated.go seen (name :: rest)).map Violation.duplicateTarget =
        (if name ∈ seen then [.duplicateTarget name] else []) ++
          (repeated.go (name :: seen) rest).map .duplicateTarget := by
      rw [repeated.go, List.map_append]
      congr 1
      split <;> rfl
    rw [hlist]
    refine (hfirst.append (fun _ => ih (name :: seen) (number + 1)) ?_).congr ?_
    · rintro _ _ _ _ ⟨rfl, -⟩ ⟨i, -, -, -, rfl, -⟩
      simp [Place.lt_iff, Place.rank, List.cons_lt_cons_iff]
      omega
    · intro place found
      constructor
      · rintro ⟨_ | i, other, hother, hrepeated, rfl, rfl⟩
        · obtain rfl : name = other := Option.some.inj hother
          exact Or.inl ⟨rfl, by simpa using hrepeated, rfl⟩
        · refine Or.inr ⟨i, other, hother, ?_, by rw [Nat.add_right_comm]; rfl, rfl⟩
          simp only [Nat.exists_lt_succ_left, List.getElem?_cons_zero, Option.some.injEq,
            List.getElem?_cons_succ] at hrepeated
          simp only [List.mem_cons]
          tauto
      · rintro (⟨rfl, hseen, rfl⟩ | ⟨i, other, hother, hrepeated, rfl, rfl⟩)
        · exact ⟨0, name, rfl, Or.inl hseen, rfl, rfl⟩
        · refine ⟨i + 1, other, hother, ?_, by rw [Nat.add_right_comm]; rfl, rfl⟩
          simp only [Nat.exists_lt_succ_left, List.getElem?_cons_zero, Option.some.injEq,
            List.getElem?_cons_succ]
          simp only [List.mem_cons] at hrepeated
          tauto

theorem reports_names :
    Reports (fun place found => (∃ number, place = .name number) ∧ manifest.Wrong place found)
      manifest.nameViolations := by
  have hgo := reports_repeated_go [] (manifest.targets.map TargetEntry.name) 0
  refine hgo.congr fun place found => ?_
  constructor
  · rintro ⟨⟨number, rfl⟩, hwrong⟩
    cases hwrong with
    | repeatedName behind first second =>
      exact ⟨number, _, second, Or.inr ⟨_, behind, first⟩, by rw [Nat.zero_add], rfl⟩
    | target declared wrong => cases wrong
  · rintro ⟨i, name, hname, hrepeated, rfl, rfl⟩
    obtain ⟨j, hlt, hearlier⟩ := hrepeated.resolve_left (by simp)
    rw [Nat.zero_add]
    exact ⟨⟨i, rfl⟩, .repeatedName hlt hearlier hname⟩

variable (number : Nat) {entry : TargetEntry}

theorem isUnitTestBundle_iff : entry.isUnitTestBundle = true ↔ entry.type = .unitTestBundle := by
  simp [TargetEntry.isUnitTestBundle]

/-- A host is looked up by its name, which finds the right one only if names are distinct. -/
theorem reports_named_host (hnames : (manifest.targets.map TargetEntry.name).Nodup)
    (hbundle : entry.type = .unitTestBundle) {host : String} (hhost : entry.host = some host) :
    Reports (fun place found => place = .host number ∧ manifest.WrongTarget number entry place found)
      (match manifest.target? host with
        | none => [.unknownHost entry.name host]
        | some hostEntry =>
            if hostEntry.isUnitTestBundle then [.nestedHost entry.name host] else []) := by
  rcases hlookup : manifest.target? host with _ | hostEntry
  · have hnone : ∀ other ∈ manifest.targets, other.name ≠ host := by
      intro other hother hname
      exact target?_eq_none_iff.1 hlookup (List.mem_map.2 ⟨other, hother, hname⟩)
    refine Reports.one fun found => ⟨fun hfound => ?_, ?_⟩
    · cases hfound with
      | missingHost _ alone => simp [hhost] at alone
      | unwantedHost other => exact absurd hbundle other
      | unknownHost _ hosted =>
        obtain rfl := Option.some.inj (hhost.symm.trans hosted)
        rfl
      | nestedHost _ hosted known =>
        exact absurd (Option.some.inj (hhost.symm.trans hosted)).symm (hnone _ known)
    · rintro rfl
      exact .unknownHost hbundle hhost hnone
  · obtain ⟨hmem, rfl⟩ := mem_of_target? hlookup
    refine Reports.single fun found => ⟨fun hfound => ?_, ?_⟩
    · cases hfound with
      | missingHost _ alone => simp [hhost] at alone
      | unwantedHost other => exact absurd hbundle other
      | unknownHost _ hosted unknown =>
        exact absurd (Option.some.inj (hhost.symm.trans hosted)) (unknown hostEntry hmem)
      | @nestedHost other _ hosted known nested =>
        have hname := Option.some.inj (hhost.symm.trans hosted)
        obtain rfl := List.inj_on_of_nodup_map hnames hmem known hname
        exact ⟨isUnitTestBundle_iff.2 nested, rfl⟩
    · rintro ⟨hnested, rfl⟩
      exact .nestedHost hbundle hhost hmem (isUnitTestBundle_iff.1 hnested)

theorem reports_host (hnames : (manifest.targets.map TargetEntry.name).Nodup) :
    Reports (fun place found => place = .host number ∧ manifest.WrongTarget number entry place found)
      (manifest.hostViolations entry) := by
  rw [hostViolations]
  rcases hhost : entry.host with _ | host
  · refine Reports.single fun found => ⟨fun hfound => ?_, ?_⟩
    · cases hfound with
      | missingHost bundle => exact ⟨isUnitTestBundle_iff.2 bundle, rfl⟩
      | unwantedHost _ hosted | unknownHost _ hosted | nestedHost _ hosted => simp [hhost] at hosted
    · rintro ⟨hbundle, rfl⟩
      exact .missingHost (isUnitTestBundle_iff.1 hbundle) hhost
  · by_cases hbundle : entry.type = .unitTestBundle
    · simp only [isUnitTestBundle_iff.2 hbundle, if_true]
      exact reports_named_host number hnames hbundle hhost
    · simp only [mt isUnitTestBundle_iff.1 hbundle]
      refine Reports.one fun found => ⟨fun hfound => ?_, ?_⟩
      · cases hfound with
        | unwantedHost _ hosted =>
          obtain rfl := Option.some.inj (hhost.symm.trans hosted)
          rfl
        | missingHost bundle | unknownHost bundle | nestedHost bundle => exact absurd bundle hbundle
      · rintro rfl
        exact .unwantedHost hbundle hhost

theorem reports_standalone (manifest : Manifest) (entry : TargetEntry) :
    Reports (fun place found => (place = .platform number ∨ place = .deploymentTarget number) ∧
        manifest.WrongTarget number entry place found)
      (standaloneViolations entry) := by
  have hplatform : Reports
      (fun place found => place = .platform number ∧ manifest.WrongTarget number entry place found)
      (if entry.host = none ∧ entry.platform = none then [.missingPlatform entry.name] else []) := by
    refine Reports.single fun found => ⟨fun hfound => ?_, ?_⟩
    · cases hfound with
      | missingPlatform alone missing => exact ⟨⟨alone, missing⟩, rfl⟩
    · rintro ⟨⟨halone, hmissing⟩, rfl⟩
      exact .missingPlatform halone hmissing
  have hdeployment : Reports
      (fun place found => place = .deploymentTarget number ∧
        manifest.WrongTarget number entry place found)
      (if entry.host = none ∧ entry.deploymentTarget = none then
        [.missingDeploymentTarget entry.name] else []) := by
    refine Reports.single fun found => ⟨fun hfound => ?_, ?_⟩
    · cases hfound with
      | missingDeploymentTarget alone missing => exact ⟨⟨alone, missing⟩, rfl⟩
    · rintro ⟨⟨halone, hmissing⟩, rfl⟩
      exact .missingDeploymentTarget halone hmissing
  have hlist : standaloneViolations entry =
      (if entry.host = none ∧ entry.platform = none then [.missingPlatform entry.name] else []) ++
        if entry.host = none ∧ entry.deploymentTarget = none then
          [.missingDeploymentTarget entry.name] else [] := by
    rw [standaloneViolations]
    cases entry.host <;> simp
  rw [hlist]
  refine (hplatform.append (fun _ => hdeployment) ?_).congr fun place found => or_and_right
  rintro _ _ _ _ ⟨rfl, -⟩ ⟨rfl, -⟩
  simp [Place.lt_iff, Place.rank, List.cons_lt_cons_iff]

theorem reports_overrides (manifest : Manifest) (entry : TargetEntry) :
    Reports (fun place found => (∃ i, place = .override number i) ∧
        manifest.WrongTarget number entry place found)
      (manifest.overrideViolations entry) := by
  have hlist : manifest.overrideViolations entry = entry.configurations.flatMap fun override =>
      if override.1 ∉ manifest.configurationNames then
        [.undeclaredOverride entry.name override.1] else [] := by
    rw [overrideViolations]
    induction entry.configurations with
    | nil => rfl
    | cons override rest ih =>
      rw [List.flatMap_cons, ← ih, List.map_cons, List.filter_cons]
      by_cases hdeclared : override.1 ∈ manifest.configurationNames
      · simp [hasConfiguration_iff.2 hdeclared, hdeclared]
      · simp [hdeclared, mt hasConfiguration_iff.1 hdeclared]
  rw [hlist]
  refine (Reports.flatMap (fun i override _ => Reports.condition (.override number i)
    (.undeclaredOverride entry.name override.1) (override.1 ∉ manifest.configurationNames))
    ?_).congr ?_
  · rintro i j _ _ _ _ _ _ hlt ⟨rfl, -⟩ ⟨rfl, -⟩
    simpa [Place.lt_iff, Place.rank, List.cons_lt_cons_iff] using hlt
  · intro place found
    constructor
    · rintro ⟨⟨i, rfl⟩, hwrong⟩
      cases hwrong with
      | undeclaredOverride at_place undeclared => exact ⟨i, _, at_place, rfl, undeclared, rfl⟩
    · rintro ⟨i, override, hat, rfl, hundeclared, rfl⟩
      exact ⟨⟨i, rfl⟩, .undeclaredOverride hat hundeclared⟩

theorem WrongTarget.place_eq {place : Place} {violation : Violation}
    (h : manifest.WrongTarget number entry place violation) :
    (place = .host number ∨ place = .platform number ∨ place = .deploymentTarget number) ∨
      ∃ i, place = .override number i := by
  cases h <;> simp

theorem WrongTarget.exists_rank {place : Place} {violation : Violation}
    (h : manifest.WrongTarget number entry place violation) :
    ∃ rest, place.rank = 2 :: number :: rest := by
  cases h <;> exact ⟨_, rfl⟩

theorem reports_target (hnames : (manifest.targets.map TargetEntry.name).Nodup)
    (entry : TargetEntry) :
    Reports (manifest.WrongTarget number entry) (manifest.targetViolations entry) := by
  rw [targetViolations]
  refine (((reports_host number hnames).append
    (fun _ => reports_standalone number manifest entry) ?_).append
    (fun _ => reports_overrides number manifest entry) ?_).congr ?_
  · rintro _ _ _ _ ⟨rfl, -⟩ ⟨rfl | rfl, -⟩ <;>
      simp [Place.lt_iff, Place.rank, List.cons_lt_cons_iff]
  · rintro _ _ _ _ (⟨rfl, -⟩ | ⟨rfl | rfl, -⟩) ⟨⟨i, rfl⟩, -⟩ <;>
      simp [Place.lt_iff, Place.rank, List.cons_lt_cons_iff]
  · intro place found
    rw [← or_and_right, ← or_and_right]
    exact (and_iff_right_of_imp (WrongTarget.place_eq number)).symm

/-- What validation finds begins with the first thing wrong. -/
theorem reports_violations (manifest : Manifest) :
    Reports manifest.Wrong manifest.violations := by
  have hproject : Reports (fun place found =>
      (place = .projectName ∨ place = .defaultConfiguration) ∧ manifest.Wrong place found)
      manifest.projectViolations := by
    refine (reports_projectName.append (fun _ => reports_default) ?_).congr fun _ _ => or_and_right
    rintro _ _ _ _ ⟨rfl, -⟩ ⟨rfl, -⟩
    decide
  have hnames : Reports (fun place found => ((place = .projectName ∨ place = .defaultConfiguration) ∨
      ∃ number, place = .name number) ∧ manifest.Wrong place found)
      (manifest.projectViolations ++ manifest.nameViolations) := by
    refine (hproject.append (fun _ => reports_names) ?_).congr fun _ _ => or_and_right
    rintro _ _ _ _ ⟨rfl | rfl, -⟩ ⟨⟨number, rfl⟩, -⟩ <;>
      simp [Place.lt_iff, Place.rank, List.cons_lt_cons_iff]
  -- When targets are looked at, nothing is wrong with their names.
  refine (hnames.append (fun hnil => Reports.flatMap (fun number entry _ => reports_target number
    (nameViolations_eq_nil.1 (List.append_eq_nil_iff.1 hnil).2) entry) ?_) ?_).congr ?_
  · intro i j _ _ place place' _ _ hlt hfirst hsecond
    obtain ⟨rest, hrank⟩ := hfirst.exists_rank
    obtain ⟨rest', hrank'⟩ := hsecond.exists_rank
    simp [Place.lt_iff, hrank, hrank', List.cons_lt_cons_iff, hlt]
  · rintro _ _ _ _ ⟨(rfl | rfl) | ⟨number, rfl⟩, -⟩ ⟨i, entry, -, hwrong⟩
    all_goals
      obtain ⟨rest, hrank⟩ := hwrong.exists_rank
      rw [Place.lt_iff, hrank]
      simp [Place.rank, List.cons_lt_cons_iff]
  · intro place found
    constructor
    · intro hwrong
      cases hwrong with
      | target declared wrong => exact Or.inr ⟨_, _, declared, wrong⟩
      | blankName blank => exact Or.inl ⟨by simp, .blankName blank⟩
      | undeclaredDefault given undeclared =>
        exact Or.inl ⟨by simp, .undeclaredDefault given undeclared⟩
      | repeatedName behind first second =>
        exact Or.inl ⟨by simp, .repeatedName behind first second⟩
    · rintro (⟨-, hwrong⟩ | ⟨number, entry, hdeclared, hwrong⟩)
      · exact hwrong
      · exact .target hdeclared hwrong

/-! ## Validation -/

theorem validate_eq_error {violation : Violation} : manifest.validate = .error violation ↔
    ∃ place, IsFirst manifest.Wrong place violation := by
  have hreports := reports_violations manifest
  rw [validate]
  rcases hlist : manifest.violations with _ | ⟨first, rest⟩ <;> rw [hlist] at hreports
  · have hnothing : ∀ place found, ¬ manifest.Wrong place found := hreports
    simp [IsFirst, hnothing]
  · obtain ⟨place, hwrong, hleast⟩ := hreports
    simp only [Except.error.injEq]
    constructor
    · rintro rfl
      exact ⟨place, hwrong, hleast⟩
    · rintro ⟨other, hother, hleastOther⟩
      -- Neither of the two places can be before the other.
      rcases hleast other violation hother with ⟨-, hsame⟩ | hlt
      · exact hsame.symm
      · rcases hleastOther place first hwrong with ⟨-, hsame⟩ | hgt
        · exact hsame
        · exact absurd hgt (Place.lt_asymm hlt)

/-- The name a host is given is that of a target that is no unit-test bundle. -/
theorem exists_host_iff (hnames : (manifest.targets.map TargetEntry.name).Nodup) {host : String} :
    (∃ other, manifest.target? host = some other ∧ other.isUnitTestBundle = false) ↔
      ∃ other ∈ manifest.targets, other.name = host ∧ other.type ≠ .unitTestBundle := by
  simp only [target?_eq_some_iff hnames, and_assoc, TargetEntry.isUnitTestBundle,
    decide_eq_false_iff_not, ne_eq]

/-- Validation accepts a manifest exactly if its project has a name to show and a default that is declared, if
no two targets share a name, and if each target has a host exactly if it is a unit-test bundle, the host being
a target that is none, says where it runs unless it has a host, and overrides declared configurations only.
Otherwise the error is what is wrong at the first of all places at which something is. It is about a duplicate
or about an unknown host only if there is one; in all other cases it has the code of a plain violation. -/
theorem validate_reports_first (manifest : Manifest) :
    (manifest.validate = .ok () ↔
      (∃ c ∈ manifest.projectName.toList, Blank.isWhiteSpace c = false) ∧
      (∀ name, manifest.defaultConfiguration = some name →
        name ∈ manifest.configurationNames) ∧
      (manifest.targets.map TargetEntry.name).Nodup ∧
      ∀ entry ∈ manifest.targets,
        (entry.host.isSome ↔ entry.type = .unitTestBundle) ∧
        (∀ host, entry.host = some host →
          ∃ other ∈ manifest.targets, other.name = host ∧ other.type ≠ .unitTestBundle) ∧
        (entry.host = none → entry.platform.isSome ∧ entry.deploymentTarget.isSome) ∧
        ∀ override ∈ entry.configurations, override.1 ∈ manifest.configurationNames) ∧
    (∀ violation, manifest.validate = .error violation ↔
      ∃ place, manifest.Wrong place violation ∧ ∀ other found, manifest.Wrong other found →
        (other = place ∧ found = violation) ∨ place < other) ∧
    ∀ violation, manifest.validate = .error violation →
      (violation.code = "xcforge::duplicate_target" ∧ ∃ name, violation = .duplicateTarget name ∧
        ∃ earlier again : Nat, earlier < again ∧
          (manifest.targets.map TargetEntry.name)[earlier]? = some name ∧
          (manifest.targets.map TargetEntry.name)[again]? = some name) ∨
      (violation.code = "xcforge::unknown_host" ∧ ∃ entry ∈ manifest.targets, ∃ host,
        violation = .unknownHost entry.name host ∧ entry.type = .unitTestBundle ∧
        entry.host = some host ∧ ∀ other ∈ manifest.targets, other.name ≠ host) ∨
      violation.code = "xcforge::validation_error" := by
  refine ⟨?_, fun violation => validate_eq_error, ?_⟩
  · rw [validate_eq_ok]
    constructor
    · intro h
      refine ⟨by simpa [Blank.isBlank] using h.named, h.default, h.distinct, ?_⟩
      intro entry hentry
      refine ⟨?_, fun host hhost => ?_, h.standalone entry hentry, h.overrides entry hentry⟩
      · rw [h.hosted entry hentry]
        exact isUnitTestBundle_iff
      · exact (exists_host_iff h.distinct).1 (h.host entry hentry host hhost)
    · rintro ⟨hnamed, hdefault, hdistinct, htargets⟩
      exact {
        named := by simpa [Blank.isBlank] using hnamed
        default := hdefault
        distinct := hdistinct
        hosted := fun entry hentry =>
          Bool.eq_iff_iff.2 ((htargets entry hentry).1.trans isUnitTestBundle_iff.symm)
        host := fun entry hentry host hhost =>
          (exists_host_iff hdistinct).2 ((htargets entry hentry).2.1 host hhost)
        standalone := fun entry hentry => (htargets entry hentry).2.2.1
        overrides := fun entry hentry => (htargets entry hentry).2.2.2 }
  · intro violation hviolation
    obtain ⟨place, hwrong, -⟩ := validate_eq_error.1 hviolation
    cases hwrong with
    | repeatedName behind first second =>
      exact Or.inl ⟨rfl, _, rfl, _, _, behind, first, second⟩
    | @target number entry _ _ declared wrong =>
      cases wrong with
      | unknownHost bundle hosted unknown =>
        exact Or.inr (Or.inl ⟨rfl, entry, List.mem_of_getElem? declared, _, rfl, bundle, hosted,
          unknown⟩)
      | _ => exact Or.inr (Or.inr rfl)
    | _ => exact Or.inr (Or.inr rfl)

/-- An unknown host is reported before an override that is wrong as well, even of the same target, and a name
that is repeated later on is reported before both. -/
theorem host_before_override :
    let application := { TargetEntry.empty with
      name := "App", platform := some .ios, deploymentTarget := some "17.0" }
    let tests := { TargetEntry.empty with
      name := "AppTests", type := .unitTestBundle, host := some "Application"
      configurations := [("Staging", Settings.empty)] }
    let manifest := { Manifest.empty with projectName := "Demo", targets := [application, tests] }
    let repeated := { manifest with targets := [application, tests, application] }
    manifest.Wrong (.override 1 0) (.undeclaredOverride "AppTests" "Staging") ∧
      (∃ place < .override 1 0, manifest.Wrong place (.unknownHost "AppTests" "Application")) ∧
      manifest.validate = .error (.unknownHost "AppTests" "Application") ∧
      repeated.Wrong (.host 1) (.unknownHost "AppTests" "Application") ∧
      ∃ place < .host 1, repeated.Wrong place (.duplicateTarget "App") := by
  intro application tests manifest repeated
  have htests : manifest.targets[1]? = some tests := rfl
  have hagain : repeated.targets[1]? = some tests := rfl
  have hoverride : manifest.Wrong (.override 1 0) (.undeclaredOverride "AppTests" "Staging") := by
    have hplace : tests.configurations[0]? = some ("Staging", Settings.empty) := rfl
    refine .target htests (.undeclaredOverride hplace ?_)
    decide
  have hhost : repeated.Wrong (.host 1) (.unknownHost "AppTests" "Application") := by
    refine .target hagain (.unknownHost rfl rfl ?_)
    decide
  obtain ⟨-, hmanifest, -⟩ := validate_reports_first manifest
  obtain ⟨-, hrepeated, -⟩ := validate_reports_first repeated
  have herror : manifest.validate = .error (.unknownHost "AppTests" "Application") := by
    decide +kernel
  obtain ⟨place, hwrong, hleast⟩ := (hmanifest _).1 herror
  obtain ⟨first, hfirst, hbefore⟩ := (hrepeated (.duplicateTarget "App")).1 (by decide +kernel)
  refine ⟨hoverride, ⟨place, ?_, hwrong⟩, herror, hhost, first, ?_, hfirst⟩
  · exact (hleast _ _ hoverride).resolve_left nofun
  · exact (hbefore _ _ hhost).resolve_left nofun

end Manifest

end ProjectCompiler
