import ProjectCompiler.Proofs.Schedule.Placement

/-!
# Leaves — what nothing depends on can be left out

Where the generators that are kept depend on none of the others, leaving the others out does not move
those that are kept: each is ready just when it was before, so the first that is ready stays the first
of them. A generator that no other one depends on is the case of a single one that is left out.

- `Schedule.Closed`, `Schedule.restrict`: a choice of names that contains what it depends on, and the
  generators that it keeps;
- `Schedule.Greedy.restrict`: placing step by step, with and without the others;
- `Schedule.Greedy.last`: a leaf that is registered last waits until all others are placed;
- `Pipeline.ordered_restrict`: the order of what is kept;
- `Pipeline.ordered_without_leaf`: the order without one leaf.
-/

namespace ProjectCompiler

namespace Schedule

variable {generators waiting placed : List GeneratorInfo} {generator : GeneratorInfo}
  {keep : String → Bool}

/-! ## Choices of generators -/

/-- No generator that is kept depends on one that is not. -/
def Closed (keep : String → Bool) (generators : List GeneratorInfo) : Prop :=
  ∀ generator ∈ generators, keep generator.name →
    ∀ dependency ∈ generator.dependencies, keep dependency

def restrict (keep : String → Bool) (generators : List GeneratorInfo) : List GeneratorInfo :=
  generators.filter fun generator => keep generator.name

theorem Closed.subset {others : List GeneratorInfo} (h : Closed keep generators)
    (hsubset : others ⊆ generators) : Closed keep others :=
  fun generator hgenerator => h generator (hsubset hgenerator)

theorem mem_restrict :
    generator ∈ restrict keep generators ↔ generator ∈ generators ∧ keep generator.name := by
  simp [restrict]

theorem mem_names_restrict {name : String} :
    name ∈ names (restrict keep generators) ↔ name ∈ names generators ∧ keep name := by
  simp only [mem_names, mem_restrict]
  constructor
  · rintro ⟨generator, ⟨hgenerator, hkept⟩, rfl⟩
    exact ⟨⟨generator, hgenerator, rfl⟩, hkept⟩
  · rintro ⟨⟨generator, hgenerator, rfl⟩, hkept⟩
    exact ⟨generator, ⟨hgenerator, hkept⟩, rfl⟩

theorem Distinct.restrict (h : Distinct generators) : Distinct (restrict keep generators) :=
  List.Nodup.sublist (List.filter_sublist.map GeneratorInfo.name) h

theorem Registered.restrict (h : Registered generators) (hclosed : Closed keep generators) :
    Registered (restrict keep generators) := by
  intro generator hgenerator dependency hdependency
  obtain ⟨hmem, hkept⟩ := mem_restrict.1 hgenerator
  have hregistered := h generator hmem dependency hdependency
  exact mem_names_restrict.2 ⟨hregistered, hclosed generator hmem hkept dependency hdependency⟩

/-- Those that are left out do not keep one waiting that is kept. -/
theorem ready_restrict (hclosed : Closed keep waiting) (hmem : generator ∈ waiting)
    (hkept : keep generator.name) :
    Ready (restrict keep waiting) generator ↔ Ready waiting generator := by
  constructor
  · intro hready dependency hdependency hwaiting
    have hdependencyKept := hclosed generator hmem hkept dependency hdependency
    exact hready dependency hdependency (mem_names_restrict.2 ⟨hwaiting, hdependencyKept⟩)
  · intro hready dependency hdependency hwaiting
    exact hready dependency hdependency (mem_names_restrict.1 hwaiting).1

/-! ## Placing what is kept -/

/-- By induction on the placement. A step that places a generator that is kept is a step without the
others too, and any other step falls away. -/
theorem Greedy.restrict (h : Greedy waiting placed) (hclosed : Closed keep waiting) :
    Greedy (restrict keep waiting) (restrict keep placed) := by
  induction h with
  | nil => exact Greedy.nil
  | @place earlier later placed generator ready first _ ih =>
    have hfewer : earlier ++ later ⊆ earlier ++ generator :: later :=
      ((List.sublist_cons_self generator later).append_left earlier).subset
    have hrest := ih (hclosed.subset hfewer)
    by_cases hkept : keep generator.name
    · have hsplit : Schedule.restrict keep (earlier ++ generator :: later) =
          Schedule.restrict keep earlier ++ generator :: Schedule.restrict keep later := by
        simp [Schedule.restrict, hkept]
      have hready := (ready_restrict hclosed (by simp) hkept).2 ready
      have hfirst : ∀ other ∈ Schedule.restrict keep earlier,
          ¬ Ready (Schedule.restrict keep (earlier ++ generator :: later)) other := by
        intro other hother hotherReady
        obtain ⟨hearlier, hotherKept⟩ := mem_restrict.1 hother
        have hmem : other ∈ earlier ++ generator :: later := List.mem_append_left _ hearlier
        exact first other hearlier ((ready_restrict hclosed hmem hotherKept).1 hotherReady)
      have hplaced : Schedule.restrict keep (generator :: placed) =
          generator :: Schedule.restrict keep placed := List.filter_cons_of_pos hkept
      rw [hsplit] at hready hfirst ⊢
      rw [hplaced]
      exact Greedy.place hready hfirst (by simpa [Schedule.restrict] using hrest)
    · simpa [Schedule.restrict, hkept] using hrest

theorem order_restrict (h : order generators = .ok placed) (hclosed : Closed keep generators) :
    order (restrict keep generators) = .ok (restrict keep placed) := by
  obtain ⟨hdistinct, hregistered, -⟩ := order_eq_ok h
  exact order_of_greedy ((greedy_of_order h).restrict hclosed) hdistinct.restrict
    (hregistered.restrict hclosed)

/-! ## A leaf that is registered last -/

/-- As long as something waits, something is ready. -/
theorem Greedy.exists_ready (h : Greedy waiting placed) (hwaiting : waiting ≠ []) :
    ∃ generator ∈ waiting, Ready waiting generator := by
  cases h with
  | nil => exact absurd rfl hwaiting
  | @place _ _ _ generator ready _ _ => exact ⟨generator, by simp, ready⟩

/-- As long as others wait, one of them is ready, and it stands before the leaf. -/
theorem Greedy.last {others : List GeneratorInfo} {leaf : GeneratorInfo}
    (h : Greedy (others ++ [leaf]) placed)
    (hleaf : ∀ other ∈ others, leaf.name ∉ other.dependencies) :
    ∃ before, placed = before ++ [leaf] := by
  generalize hwaiting : others ++ [leaf] = waiting at h
  induction h generalizing others with
  | nil => simp at hwaiting
  | @place earlier later placed generator ready first rest ih =>
    rcases List.eq_nil_or_concat later with rfl | ⟨middle, last, rfl⟩
    · -- The leaf is the first that is ready, so there are no others left.
      obtain ⟨rfl, rfl⟩ : others = earlier ∧ leaf = generator := by simpa using hwaiting
      rw [List.append_nil] at rest
      by_cases hothers : others = []
      · subst hothers
        obtain rfl : placed = [] := rest.perm.eq_nil
        exact ⟨[], rfl⟩
      · obtain ⟨other, hother, hready⟩ := rest.exists_ready hothers
        refine absurd ?_ (first other hother)
        intro dependency hdependency hwaits
        have hne : dependency ≠ leaf.name := by
          rintro rfl
          exact hleaf other hother hdependency
        exact hready dependency hdependency (by simpa [names, hne] using hwaits)
    · -- One of the others is placed, and the leaf still stands last.
      have hparts : others ++ [leaf] = (earlier ++ generator :: middle) ++ [last] := by
        simpa using hwaiting
      obtain ⟨rfl, rfl⟩ : others = earlier ++ generator :: middle ∧ leaf = last := by
        simpa using List.append_inj' hparts rfl
      have hfewer : ∀ other ∈ earlier ++ middle, leaf.name ∉ other.dependencies := by
        intro other hother
        exact hleaf other (((List.sublist_cons_self generator middle).append_left earlier).subset
          hother)
      obtain ⟨before, rfl⟩ := ih hfewer (by simp)
      exact ⟨generator :: before, rfl⟩

end Schedule

/-! ## The generators of a pipeline -/

namespace Pipeline

open Generators (projectStructure targets configurations schemes)

variable {ν : Type} {pipeline : Pipeline ν} {ordered : List (Generator ν)} {keep : String → Bool}

def restrict (keep : String → Bool) (pipeline : Pipeline ν) : Pipeline ν :=
  { pipeline with
    generators := pipeline.generators.filter fun generator => keep generator.info.name }

theorem infos_restrict : (pipeline.restrict keep).infos = Schedule.restrict keep pipeline.infos := by
  simp [infos, restrict, Schedule.restrict, List.filter_map, Function.comp_def]

/-- An entry of the order that is kept stands for the same generator. -/
theorem standing?_restrict {info : GeneratorInfo} (hkept : keep info.name) :
    (pipeline.restrict keep).standing? info = pipeline.standing? info := by
  simp only [standing?, restrict, List.find?_filter]
  congr 1
  funext generator
  by_cases hname : generator.info.name = info.name
  · simp [hname, hkept]
  · simp [hname]

/-- What an entry of the order stands for is kept just when the entry is. -/
theorem filter_standing? {info : GeneratorInfo} :
    (pipeline.standing? info).filter (fun generator => keep generator.info.name) =
      if keep info.name then pipeline.standing? info else none := by
  rcases hfound : pipeline.standing? info with _ | generator
  · simp
  · have hname : generator.info.name = info.name := by simpa using List.find?_some hfound
    simp [Option.filter, hname]

theorem ordered_restrict (h : pipeline.ordered = .ok ordered)
    (hclosed : Schedule.Closed keep pipeline.infos) :
    (pipeline.restrict keep).ordered =
      .ok (ordered.filter fun generator => keep generator.info.name) := by
  obtain ⟨placed, horder, rfl⟩ := ordered_eq_ok h
  have hrest : Schedule.order (pipeline.restrict keep).infos =
      .ok (Schedule.restrict keep placed) := by
    rw [infos_restrict]
    exact Schedule.order_restrict horder hclosed
  rw [ordered_of_order hrest]
  congr 1
  calc
    (Schedule.restrict keep placed).filterMap (pipeline.restrict keep).standing?
        = (Schedule.restrict keep placed).filterMap pipeline.standing? :=
          List.filterMap_congr fun info hinfo => standing?_restrict (Schedule.mem_restrict.1 hinfo).2
    _ = placed.filterMap fun info => if keep info.name then pipeline.standing? info else none :=
          List.filterMap_filter
    _ = placed.filterMap fun info =>
          (pipeline.standing? info).filter fun generator => keep generator.info.name :=
          List.filterMap_congr fun info _ => filter_standing?.symm
    _ = (placed.filterMap pipeline.standing?).filter fun generator => keep generator.info.name :=
          List.filter_filterMap.symm

/-! ## One leaf -/

/-- All names but the one of the leaf. -/
def allBut (leaf : Generator ν) (name : String) : Bool :=
  name ≠ leaf.info.name

theorem nodup_names_of_ordered (h : pipeline.ordered = .ok ordered) :
    (pipeline.generators.map fun generator => generator.info.name).Nodup := by
  obtain ⟨placed, horder, -⟩ := ordered_eq_ok h
  obtain ⟨hdistinct, -, -⟩ := Schedule.order_eq_ok horder
  simpa [Schedule.Distinct, Schedule.names, infos, Function.comp_def] using hdistinct

theorem perm_of_ordered (h : pipeline.ordered = .ok ordered) :
    ordered.Perm pipeline.generators := by
  obtain ⟨placed, horder, rfl⟩ := ordered_eq_ok h
  obtain ⟨hdistinct, -, -⟩ := Schedule.order_eq_ok horder
  exact perm_standing hdistinct (Schedule.order_feasible horder).perm

/-- None of the others depends on the leaf. -/
theorem closed_allBut {earlier later : List (Generator ν)} {leaf : Generator ν}
    (hgenerators : pipeline.generators = earlier ++ leaf :: later)
    (hleaf : ∀ other ∈ earlier ++ later, leaf.info.name ∉ other.info.dependencies) :
    Schedule.Closed (allBut leaf) pipeline.infos := by
  intro info hinfo hkept dependency hdependency
  obtain ⟨other, hother, rfl⟩ := List.mem_map.1 hinfo
  have hne : other ≠ leaf := by
    rintro rfl
    simp [allBut] at hkept
  have hmem : other ∈ earlier ++ later := by
    rw [hgenerators] at hother
    simpa [hne] using hother
  have hdependencyNe : dependency ≠ leaf.info.name := by
    rintro rfl
    exact hleaf other hmem hdependency
  simpa [allBut] using hdependencyNe

theorem last_of_registered_last {earlier : List (Generator ν)} {leaf : Generator ν}
    (hgenerators : pipeline.generators = earlier ++ [leaf])
    (hleaf : ∀ other ∈ earlier, leaf.info.name ∉ other.info.dependencies)
    (h : pipeline.ordered = .ok ordered) : ∃ before, ordered = before ++ [leaf] := by
  obtain ⟨placed, horder, rfl⟩ := ordered_eq_ok h
  have hgreedy := Schedule.greedy_of_order horder
  have hinfos : pipeline.infos = earlier.map Generator.info ++ [leaf.info] := by
    simp [infos, hgenerators]
  rw [hinfos] at hgreedy
  obtain ⟨before, rfl⟩ := hgreedy.last (by simpa using hleaf)
  have hstanding : pipeline.standing? leaf.info = some leaf :=
    standing?_info (Schedule.order_eq_ok horder).1 (by simp [hgenerators])
  exact ⟨before.filterMap pipeline.standing?, by simp [hstanding]⟩

/-- A generator that no other one depends on can be left out, wherever it is registered, and the others
run in the same order. If it is registered last, it runs last. -/
theorem ordered_without_leaf {earlier later : List (Generator ν)} {leaf : Generator ν}
    (hgenerators : pipeline.generators = earlier ++ leaf :: later)
    (hleaf : ∀ other ∈ earlier ++ later, leaf.info.name ∉ other.info.dependencies)
    (h : pipeline.ordered = .ok ordered) :
    ∃ before after, ordered = before ++ leaf :: after ∧
      ({ pipeline with generators := earlier ++ later } : Pipeline ν).ordered =
        .ok (before ++ after) ∧
      (later = [] → after = []) := by
  have hperm := perm_of_ordered h
  have hdistinct := nodup_names_of_ordered h
  obtain ⟨before, after, rfl, hlast⟩ :
      ∃ before after, ordered = before ++ leaf :: after ∧ (later = [] → after = []) := by
    cases later with
    | nil =>
      obtain ⟨before, rfl⟩ := last_of_registered_last hgenerators (by simpa using hleaf) h
      exact ⟨before, [], rfl, fun _ => rfl⟩
    | cons next rest =>
      have hmem : leaf ∈ ordered := hperm.mem_iff.2 (by simp [hgenerators])
      obtain ⟨before, after, hsplit⟩ := List.append_of_mem hmem
      exact ⟨before, after, hsplit, by simp⟩
  refine ⟨before, after, rfl, ?_, hlast⟩
  have hregistered : pipeline.restrict (allBut leaf) =
      { pipeline with generators := earlier ++ later } := by
    rw [hgenerators] at hdistinct
    simp only [restrict, hgenerators, allBut]
    rw [Schedule.filter_ne_of_nodup hdistinct]
  have hordered : (before ++ leaf :: after).filter (fun other => allBut leaf other.info.name) =
      before ++ after := Schedule.filter_ne_of_nodup ((hperm.map _).symm.nodup hdistinct)
  calc
    ({ pipeline with generators := earlier ++ later } : Pipeline ν).ordered
        = (pipeline.restrict (allBut leaf)).ordered := by rw [hregistered]
    _ = .ok ((before ++ leaf :: after).filter fun other => allBut leaf other.info.name) :=
          ordered_restrict h (closed_allBut hgenerators hleaf)
    _ = .ok (before ++ after) := by rw [hordered]

/-- A pass of one's own, which needs the native targets. -/
def audit : Generator Unit :=
  { info := { name := "audit", description := "", dependencies := ["target"] } }

def auditedFirst : Pipeline Unit :=
  { generators := audit :: Generators.standard .unique, plugins := [] }

def auditedLast : Pipeline Unit :=
  { generators := Generators.standard .unique ++ [audit], plugins := [] }

theorem audited_without_audit :
    (auditedFirst.ordered =
        .ok [projectStructure, targets, audit, configurations, schemes .unique] ∧
      ∃ before after,
        [projectStructure, targets, audit, configurations, schemes .unique] =
          before ++ audit :: after ∧
        (standard (ν := Unit) .unique).ordered = .ok (before ++ after)) ∧
    ∃ before, auditedLast.ordered = .ok (before ++ [audit]) ∧
      (standard (ν := Unit) .unique).ordered = .ok before := by
  have hleaf : ∀ other ∈ Generators.standard (ν := Unit) .unique,
      audit.info.name ∉ other.info.dependencies := by
    decide
  have hfirst : auditedFirst.ordered =
    .ok [projectStructure, targets, audit, configurations, schemes .unique] := rfl
  have hlast : auditedLast.ordered = .ok (Generators.standard .unique ++ [audit]) := rfl
  constructor
  · obtain ⟨before, after, hsplit, hrest, -⟩ :=
      @ordered_without_leaf _ auditedFirst _ [] _ audit rfl hleaf hfirst
    exact ⟨hfirst, before, after, hsplit, hrest⟩
  · obtain ⟨before, after, hsplit, hrest, hafter⟩ :=
      @ordered_without_leaf _ auditedLast _ _ [] audit rfl (by simpa using hleaf) hlast
    obtain rfl : after = [] := hafter rfl
    rw [List.append_nil, List.append_nil] at hrest
    exact ⟨before, hlast.trans (congrArg _ hsplit), hrest⟩

end Pipeline

end ProjectCompiler
