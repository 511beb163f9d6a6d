import ProjectCompiler.Proofs.Compilation.Drawn
import ProjectCompiler.Proofs.Occurrences

/-!
# SavedSchemes — the saved list is what the project describes

The scheme list comes about in pieces. Targets are suppressed one by one, test bundles in between, some
of them twice; schemes are made empty and filled in, in four steps; and only when the list is saved are
numbers turned into names. What is saved can be told from the project alone.

- `Project.savedList`: the list that a project describes;
- `Plan.list_mem_standard`, `Plan.eq_list_of_owner`: what is made of a scheme, and that nothing else is;
- `Drawn.nameOf_target`, `Drawn.scheme?_of_mem`: targets and schemes as they stand in the graph;
- `Pipeline.standard_saves_described_list`: a successful run saves this list, once.
-/

namespace ProjectCompiler

open Stateful

variable {ν : Type}

/-! ## The described list -/

/-- The test bundle among several. -/
def TestTargetPolicy.pick : TestTargetPolicy → List Target → Option Target
  | .firstMatch, bundles => bundles.head?
  | .unique, [bundle] => some bundle
  | .unique, _ => none

theorem TestTargetPolicy.mem_of_pick {policy : TestTargetPolicy} {bundles : List Target}
    {bundle : Target} (h : policy.pick bundles = some bundle) : bundle ∈ bundles := by
  unfold pick at h
  split at h
  · exact List.mem_of_mem_head? h
  · obtain rfl := Option.some.inj h
    exact List.mem_cons_self
  · cases h

namespace Project

/-- The test bundle of a target. -/
def pickedBundle? (policy : TestTargetPolicy) (project : Project) (target : Target) :
    Option Target :=
  policy.pick (project.unitTestTargets target)

/-- What is saved for a scheme of a target. -/
def savedScheme (policy : TestTargetPolicy) (project : Project) (target : Target)
    (scheme : Scheme) : SavedScheme :=
  let tests := ((project.pickedBundle? policy target).map Target.name).toList
  { name := scheme.name
    buildTargets := target.name :: tests
    launchTarget := some target.name
    testTargets := tests
    actions := [
      (.test, scheme.testConfiguration),
      (.launch, scheme.launchConfiguration),
      (.profile, scheme.profileConfiguration),
      (.analyze, scheme.analyzeConfiguration),
      (.archive, scheme.archiveConfiguration)] }

/-- Every target, and after one with schemes its test bundle. -/
def suppressedTargets (policy : TestTargetPolicy) (project : Project) : List Target :=
  project.targets.flatMap fun target =>
    target :: if target.schemes = [] then [] else (project.pickedBundle? policy target).toList

def savedList (policy : TestTargetPolicy) (project : Project) : SchemeList :=
  { suppressed := ((project.suppressedTargets policy).map Target.name).eraseDups
    schemes := project.targets.flatMap fun target =>
      target.schemes.map (project.savedScheme policy target) }

end Project

/-- Numbers that are appended if they are new stand at their first places. -/
theorem foldl_appendNew (ids : List NativeId) : ids.foldl Backend.appendNew [] = ids.eraseDups := by
  induction ids using List.reverseRecOn with
  | nil => rfl
  | append_singleton ids id ih =>
    rw [List.foldl_append, ih, eraseDups_append_singleton]
    simp [Backend.appendNew, List.mem_eraseDups]

/-! ## Scheme instructions -/

namespace Instruction

/-- The schemes that an instruction fills in, each with its target and its test bundle. -/
def listings : Instruction → List (Target × Option Target × Scheme)
  | list target test scheme => [(target, test, scheme)]
  | _ => []

theorem mem_listings {plan : List Instruction} {target : Target} {test : Option Target}
    {scheme : Scheme} :
    (target, test, scheme) ∈ plan.flatMap listings ↔ .list target test scheme ∈ plan := by
  rw [List.mem_flatMap]
  constructor
  · rintro ⟨instruction, hmem, hlisting⟩
    cases instruction with
    | list =>
      cases List.mem_singleton.1 hlisting
      exact hmem
    | enter | translate | group | attach | settle | suppress | stage | fail => cases hlisting
  · intro hmem
    exact ⟨_, hmem, by simp [listings]⟩

theorem mem_mentions_of_owner {instruction : Instruction} {owner : Node}
    (h : instruction.owner? = some owner) : owner ∈ instruction.mentions := by
  cases instruction <;> cases h <;> simp [mentions]

end Instruction

namespace Plan

variable {policy : TestTargetPolicy} {project : Project} {target : Target}

theorem eq_pickedBundle? {test : Option Target}
    (h : Generators.unitTestTarget policy project target = .ok test) :
    test = project.pickedBundle? policy target := by
  unfold Generators.unitTestTarget at h
  rw [Project.pickedBundle?]
  generalize project.unitTestTargets target = bundles at h
  rcases bundles with _ | ⟨first, _ | ⟨second, rest⟩⟩
  · cases policy <;> cases h <;> rfl
  · cases policy <;> cases h <;> rfl
  · cases policy with
    | firstMatch =>
      cases h
      rfl
    | unique => cases h

/-- If no instruction fails, every scheme is listed, with the picked test bundle. -/
theorem addScheme_of_fits {test : Option Target} {scheme : Scheme}
    (h : Fits (addScheme project target test scheme)) :
    addScheme project target test scheme = [.translate (.scheme scheme), .list target test scheme] := by
  rw [addScheme] at h ⊢
  split
  · rename_i hunknown
    rw [hunknown] at h
    simp [fits_cons, fault?_fail] at h
  · rfl

theorem flatMap_addScheme {α : Type} {f : Instruction → List α} (hreads : ReadsLists f)
    {test : Option Target} {schemes : List Scheme}
    (h : Fits (schemes.flatMap (addScheme project target test))) :
    (schemes.flatMap (addScheme project target test)).flatMap f =
      schemes.flatMap fun scheme => f (.list target test scheme) := by
  rw [List.flatMap_assoc]
  refine List.flatMap_congr fun scheme hscheme => ?_
  rw [addScheme_of_fits (fits_flatMap.1 h scheme hscheme)]
  simp [hreads.translate]

/-- What is read off the schemes of a target, if none of their instructions fails. -/
theorem flatMap_addSchemes {α : Type} {f : Instruction → List α} (hreads : ReadsLists f)
    (h : Fits (addSchemes policy project target)) :
    (addSchemes policy project target).flatMap f =
      (if target.schemes = [] then []
        else (project.pickedBundle? policy target).toList.flatMap fun bundle => f (.suppress bundle)) ++
      target.schemes.flatMap fun scheme =>
        f (.list target (project.pickedBundle? policy target) scheme) := by
  unfold addSchemes at h ⊢
  split at h
  · rename_i hnone
    simp [hnone]
  · simp [fits_cons, fault?_fail] at h
  · rename_i hfound hsome
    have hschemes : target.schemes ≠ [] := hsome
    simp only [← eq_pickedBundle? hfound]
    simp [hschemes, flatMap_addScheme hreads h]
  · rename_i bundle hfound hsome
    have hschemes : target.schemes ≠ [] := hsome
    rw [fits_cons, fits_cons] at h
    simp only [← eq_pickedBundle? hfound]
    simp [hschemes, hreads.translate, flatMap_addScheme hreads h.2.2]

theorem fits_addSchemes_of_fits (h : Fits (standard policy project))
    (htarget : target ∈ project.targets) : Fits (addSchemes policy project target) := by
  rw [Fits, forall_mem_standard fun _ => rfl] at h
  rcases h with ⟨-, -, -, -, hschemes, -⟩
  exact (fits_schemes_iff.1 (hschemes target htarget)).2

theorem suppressed_standard (h : Fits (standard policy project)) :
    (standard policy project).flatMap Instruction.suppressed = project.suppressedTargets policy := by
  have hreads : ReadsLists Instruction.suppressed := by
    constructor <;> intros <;> rfl
  rw [hreads.standard, Project.suppressedTargets]
  have hgroups : (Generators.defaultGroups.flatMap fun name =>
      (Instruction.group project name).suppressed) = [] := rfl
  rw [hgroups, List.nil_append]
  refine List.flatMap_congr fun target htarget => ?_
  rw [flatMap_addSchemes hreads (fits_addSchemes_of_fits h htarget)]
  simp [Instruction.suppressed]

/-- Which schemes are filled in, and with what, can be told from the project. -/
theorem listings_standard (h : Fits (standard policy project)) :
    (standard policy project).flatMap Instruction.listings =
      project.targets.flatMap fun target => target.schemes.map fun scheme =>
        (target, project.pickedBundle? policy target, scheme) := by
  have hreads : ReadsLists Instruction.listings := by
    constructor <;> intros <;> rfl
  rw [hreads.standard]
  have hgroups : (Generators.defaultGroups.flatMap fun name =>
      (Instruction.group project name).listings) = [] := rfl
  rw [hgroups, List.nil_append]
  refine List.flatMap_congr fun target htarget => ?_
  rw [flatMap_addSchemes hreads (fits_addSchemes_of_fits h htarget)]
  simp [Instruction.listings, List.map_eq_flatMap]

theorem listed_standard (h : Fits (standard policy project)) :
    (standard policy project).flatMap Instruction.listed =
      project.targets.flatMap Target.schemes := by
  have hlisted : Instruction.listed = fun instruction =>
      instruction.listings.map fun listing => listing.2.2 := by
    funext instruction
    cases instruction <;> rfl
  rw [hlisted, ← List.map_flatMap, listings_standard h]
  simp [List.map_flatMap, Function.comp_def]

theorem list_mem_standard (h : Fits (standard policy project)) {test : Option Target}
    {scheme : Scheme} :
    .list target test scheme ∈ standard policy project ↔
      target ∈ project.targets ∧ scheme ∈ target.schemes ∧
        test = project.pickedBundle? policy target := by
  rw [← Instruction.mem_listings, listings_standard h]
  simp only [List.mem_flatMap, List.mem_map, Prod.mk.injEq]
  constructor
  · rintro ⟨_, htarget, _, hscheme, rfl, rfl, rfl⟩
    exact ⟨htarget, hscheme, rfl⟩
  · rintro ⟨htarget, hscheme, rfl⟩
    exact ⟨target, htarget, scheme, hscheme, rfl, rfl, rfl⟩

/-- Whatever is about a scheme of the project is the one instruction that fills it in. -/
theorem eq_list_of_owner (hids : project.identities.Nodup) (h : Fits (standard policy project))
    (htarget : target ∈ project.targets) {scheme : Scheme} (hscheme : scheme ∈ target.schemes)
    {instruction : Instruction} (hmem : instruction ∈ standard policy project)
    (howner : instruction.owner?.map Node.id = some scheme.id) :
    instruction = .list target (project.pickedBundle? policy target) scheme := by
  rcases Option.map_eq_some_iff.1 howner with ⟨owner, howner, hid⟩
  obtain rfl : owner = .scheme scheme := by
    have hnode : owner ∈ project.nodes :=
      within_standard instruction hmem owner (Instruction.mem_mentions_of_owner howner)
    exact project.eq_of_id_eq hids hnode (project.scheme_mem_nodes htarget hscheme) hid
  -- Groups and settings are about projects and configurations, which no scheme is.
  cases instruction with
  | enter | translate | group | settle | suppress | stage | fail => cases howner
  | attach parent child =>
    -- A scheme holds no objects.
    obtain rfl : parent = .scheme scheme := Option.some.inj howner
    have hattachable := (fault?_attach_eq_none.1 (h _ hmem)).2
    simp [Node.attachable, Node.nativeKind, NativeKind.holds] at hattachable
  | list other test listed =>
    obtain rfl : listed = scheme := Node.scheme.inj (Option.some.inj howner)
    rcases (list_mem_standard h).1 hmem with ⟨hother, hlisted, rfl⟩
    obtain rfl := project.eq_of_scheme_mem hids hother htarget hlisted hscheme
    rfl

theorem scheme_mem_mentions (h : Fits (standard policy project)) (htarget : target ∈ project.targets)
    {scheme : Scheme} (hscheme : scheme ∈ target.schemes) :
    .scheme scheme ∈ (standard policy project).flatMap Instruction.mentions := by
  refine List.mem_flatMap.2 ⟨_, (list_mem_standard h).2 ⟨htarget, hscheme, rfl⟩, ?_⟩
  simp [Instruction.mentions]

end Plan

/-! ## The saved list -/

theorem Project.mem_of_pickedBundle? {policy : TestTargetPolicy} {project : Project}
    {target bundle : Target} (h : project.pickedBundle? policy target = some bundle) :
    bundle ∈ project.targets := by
  have hmem : bundle ∈ project.unitTestTargets target := TestTargetPolicy.mem_of_pick h
  exact (mem_of_mem_unitTestTargets hmem).1

theorem Project.mem_suppressedTargets {policy : TestTargetPolicy} {project : Project}
    {target : Target} : target ∈ project.suppressedTargets policy ↔ target ∈ project.targets := by
  simp only [suppressedTargets, List.mem_flatMap, List.mem_cons]
  constructor
  · rintro ⟨owner, howner, rfl | hbundle⟩
    · exact howner
    · split at hbundle
      · cases hbundle
      · exact mem_of_pickedBundle? (Option.mem_toList.1 hbundle)
  · intro htarget
    exact ⟨target, htarget, Or.inl rfl⟩

/-- Every target is suppressed exactly once. -/
theorem Project.suppressed_perm {policy : TestTargetPolicy} {project : Project}
    (hnames : (project.targets.map Target.name).Nodup) :
    (project.savedList policy).suppressed.Perm (project.targets.map Target.name) := by
  refine (List.perm_ext_iff_of_nodup (nodup_eraseDups _) hnames).2 fun name => ?_
  simp only [List.mem_eraseDups, List.mem_map, mem_suppressedTargets]

/-! ## What stands in the graph when the list is saved -/

section Saving

variable {policy : TestTargetPolicy} {project : Project} {start : Backend} {session : Session ν}
  {target : Target}

/-- The numbers of the objects of a run. -/
abbrev Plan.number (policy : TestTargetPolicy) (project : Project) (start : Backend) :
    Key → NativeId :=
  Instruction.number (standard policy project) start

namespace Drawn

/-- The names of targets, by number. -/
theorem nameOf_target (hids : project.identities.Nodup)
    (h : Drawn (Plan.standard policy project) start session)
    (htarget : target ∈ project.targets) :
    session.backend.nameOf (Plan.number policy project start (.object target.id)) =
      target.name := by
  rcases h.exists_target_of_mem (Plan.legible_standard hids) (Plan.target_mem_mentions htarget) with
    ⟨native, hobject, hrep⟩
  rw [Backend.nameOf, hobject]
  exact hrep.name

/-- The schemes of targets, by number. -/
theorem scheme?_of_mem (hids : project.identities.Nodup)
    (hfits : Plan.Fits (Plan.standard policy project))
    (h : Drawn (Plan.standard policy project) start session)
    (htarget : target ∈ project.targets) {scheme : Scheme} (hscheme : scheme ∈ target.schemes) :
    session.backend.scheme? (Plan.number policy project start (.object scheme.id)) =
      some (Item.filledScheme (Plan.number policy project start) target
        (project.pickedBundle? policy target) scheme) := by
  have hmention := Plan.scheme_mem_mentions hfits htarget hscheme
  rcases h.object?_of_mem (Plan.legible_standard hids) hmention with ⟨-, hobject⟩
  have hlist := (Plan.list_mem_standard hfits).2 ⟨htarget, hscheme, rfl⟩
  -- No other instruction is about the scheme, so it is as this one fills it in.
  have honly : ∀ instruction ∈ Plan.standard policy project,
      instruction.owner?.map Node.id = some scheme.id →
        instruction = .list target (project.pickedBundle? policy target) scheme :=
    fun _ hmem howner => Plan.eq_list_of_owner hids hfits htarget hscheme hmem howner
  rw [Item.drawn_scheme hlist honly, Node.id] at hobject
  rw [Backend.scheme?, hobject]

/-- Once names stand for numbers, a filled-in scheme is the one that the project describes. -/
theorem savedScheme_filledScheme (hids : project.identities.Nodup)
    (h : Drawn (Plan.standard policy project) start session)
    (htarget : target ∈ project.targets) (scheme : Scheme) :
    session.backend.savedScheme (Item.filledScheme (Plan.number policy project start) target
        (project.pickedBundle? policy target) scheme) =
      project.savedScheme policy target scheme := by
  have hname : session.backend.nameOf (Plan.number policy project start (.object target.id)) =
      target.name := h.nameOf_target hids htarget
  have htests : ((project.pickedBundle? policy target).map fun bundle =>
      session.backend.nameOf (Plan.number policy project start (.object bundle.id))) =
        (project.pickedBundle? policy target).map Target.name := by
    refine Option.map_congr fun bundle hbundle => ?_
    exact h.nameOf_target hids (Project.mem_of_pickedBundle? hbundle)
  simp only [Backend.savedScheme, Item.filledScheme, Project.savedScheme, List.map_cons,
    Option.map_some, hname, ← htests]
  cases project.pickedBundle? policy target <;> rfl

theorem suppressed_snapshot (hnames : (project.targets.map Target.name).Nodup)
    (hids : project.identities.Nodup) (hfits : Plan.Fits (Plan.standard policy project))
    (h : Drawn (Plan.standard policy project) start session)
    (hstart : start.suppressed = []) :
    session.backend.suppressed.map session.backend.nameOf =
      (project.savedList policy).suppressed := by
  have hname : ∀ target ∈ project.suppressedTargets policy, session.backend.nameOf
      (Plan.number policy project start (.object target.id)) = target.name := by
    intro target htarget
    exact h.nameOf_target hids (Project.mem_suppressedTargets.1 htarget)
  have hnumbers : session.backend.suppressed = ((project.suppressedTargets policy).map fun target =>
      Plan.number policy project start (.object target.id)).eraseDups := by
    rw [← foldl_appendNew, List.foldl_map, h.suppressed, Plan.suppressed_standard hfits, hstart]
  -- Two targets of one name are one target, so numbers repeat where names do.
  have hinjective : ∀ first ∈ (project.suppressedTargets policy).map fun target =>
      Plan.number policy project start (.object target.id),
      ∀ second ∈ (project.suppressedTargets policy).map fun target =>
        Plan.number policy project start (.object target.id),
      session.backend.nameOf first = session.backend.nameOf second → first = second := by
    intro first hfirst second hsecond heq
    rcases List.mem_map.1 hfirst with ⟨one, hone, rfl⟩
    rcases List.mem_map.1 hsecond with ⟨other, hother, rfl⟩
    rw [hname one hone, hname other hother] at heq
    obtain rfl : one = other := List.inj_on_of_nodup_map hnames
      (Project.mem_suppressedTargets.1 hone) (Project.mem_suppressedTargets.1 hother) heq
    rfl
  rw [hnumbers, map_eraseDups hinjective, List.map_map]
  exact congrArg List.eraseDups (List.map_congr_left hname)

theorem schemes_snapshot (hids : project.identities.Nodup)
    (hfits : Plan.Fits (Plan.standard policy project))
    (h : Drawn (Plan.standard policy project) start session)
    (hstart : start.listed = []) :
    (session.backend.listed.filterMap session.backend.scheme?).map session.backend.savedScheme =
      (project.savedList policy).schemes := by
  rw [h.listed, hstart, List.nil_append, Plan.listed_standard hfits, List.map_flatMap,
    List.filterMap_flatMap, List.map_flatMap, Project.savedList]
  refine List.flatMap_congr fun target htarget => ?_
  have hfound : target.schemes.filterMap (fun scheme => session.backend.scheme?
      (Plan.number policy project start (.object scheme.id))) =
      target.schemes.map (Item.filledScheme (Plan.number policy project start) target
        (project.pickedBundle? policy target)) := by
    rw [← List.filterMap_eq_map]
    exact List.filterMap_congr fun scheme hscheme => h.scheme?_of_mem hids hfits htarget hscheme
  rw [List.filterMap_map]
  -- First numbers become native schemes, and these then become saved ones.
  calc
    _ = (target.schemes.map (Item.filledScheme (Plan.number policy project start) target
          (project.pickedBundle? policy target))).map session.backend.savedScheme :=
      congrArg (List.map _) hfound
    _ = target.schemes.map (project.savedScheme policy target) := by
      rw [List.map_map]
      exact List.map_congr_left fun scheme _ => h.savedScheme_filledScheme hids htarget scheme

end Drawn

end Saving

/-! ## Whole runs -/

namespace Pipeline

variable {policy : TestTargetPolicy} {project : Project} {supply : Supply}

/-- A run on an empty backend that succeeds saves the list that the project describes, and saves it
once; every target is suppressed in it exactly once. -/
theorem standard_saves_described_list (policy : TestTargetPolicy) (project : Project)
    (supply : Supply) (output : Option String) (disk : Disk)
    (hnames : (project.targets.map Target.name).Nodup) (hids : project.identities.Nodup)
    {summary : RunSummary} {after : Session ν}
    (hrun : (Pipeline.standard policy).run project supply { Backend.empty with output, disk } =
      (.ok summary, after)) :
    after.backend.saved = some (project.savedList policy) ∧ after.backend.saveCount = 1 ∧
      (project.savedList policy).suppressed.Perm (project.targets.map Target.name) := by
  have hfits : Plan.Fits (Plan.standard policy project) := fits_of_run_standard hids hrun
  rcases drawn_of_run_standard hids hrun with ⟨entered, written, hdrawn, hafter⟩
  -- The list is the snapshot of the graph as it stands after the last callback.
  have hsnapshot : entered.backend.snapshot = project.savedList policy := by
    have hsuppressed := hdrawn.suppressed_snapshot hnames hids hfits rfl
    have hschemes := hdrawn.schemes_snapshot hids hfits rfl
    rw [Backend.snapshot, hsuppressed, hschemes]
  have hcount : entered.backend.saveCount = 0 := hdrawn.sameSaved.saveCount
  rw [hafter]
  refine ⟨?_, ?_, Project.suppressed_perm hnames⟩
  · rw [hsnapshot]
  · simp [hcount]

/-- A test bundle is suppressed right after its target, before a target declared between them. -/
theorem application_with_tests_saved :
    let application := { (Target.new "App" .application .ios "17.0" ⟨10⟩).1 with
      schemes := [(Scheme.new "App" ⟨15⟩).1] }
    let library := (Target.new "Core" .staticLibrary .ios "17.0" ⟨20⟩).1
    let tests := (Target.unitTestBundle "AppTests" application ⟨30⟩).1
    let project := { (Project.new "Demo" ⟨0⟩).1 with targets := [application, library, tests] }
    ∃ summary after, (Pipeline.standard (ν := Nat) .firstMatch).run project ⟨40⟩
        { Backend.empty with output := none, disk := Disk.empty } = (.ok summary, after) ∧
      after.backend.saveCount = 1 ∧ after.backend.saved = some {
        suppressed := ["App", "AppTests", "Core"]
        schemes := [{
          name := "App"
          buildTargets := ["App", "AppTests"]
          launchTarget := some "App"
          testTargets := ["AppTests"]
          actions := [(.test, "Debug"), (.launch, "Debug"), (.profile, "Release"),
            (.analyze, "Debug"), (.archive, "Release")] }] } := by
  intro application library tests project
  rcases hrun : (Pipeline.standard (ν := Nat) .firstMatch).run project ⟨40⟩
    { Backend.empty with output := none, disk := Disk.empty } with ⟨error | summary, after⟩
  · have hok : ((Pipeline.standard (ν := Nat) .firstMatch).run project ⟨40⟩
        { Backend.empty with output := none, disk := Disk.empty }).1.isOk = true := by
      decide +kernel
    rw [hrun] at hok
    cases hok
  · rcases standard_saves_described_list .firstMatch project ⟨40⟩ none Disk.empty (by decide)
      (by decide) hrun with ⟨hsaved, hcount, -⟩
    refine ⟨summary, after, rfl, hcount, hsaved.trans ?_⟩
    decide +kernel

end Pipeline

end ProjectCompiler
