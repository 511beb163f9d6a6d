import ProjectCompiler.Pipeline.Basic
import Mathlib.Data.List.Induction
import Mathlib.Data.List.Nodup

/-!
# Checks — what is asked of generators before they are ordered

Names must be distinct, and dependencies must be registered. The error tells the first name that
occurred before, or the first dependency that is missing.

- `Schedule.FirstRepeated`, `Schedule.FirstMissing`: what these errors tell;
- `Schedule.order_of_firstRepeated`, `Schedule.order_of_firstMissing`: generators that fail a check;
- `Schedule.order_of_registered`: generators that pass both are placed.
-/

namespace ProjectCompiler

namespace Schedule

variable {generators : List GeneratorInfo}

/-! ## Conditions -/

def Distinct (generators : List GeneratorInfo) : Prop :=
  (names generators).Nodup

/-- Every dependency is the name of a generator. -/
def Registered (generators : List GeneratorInfo) : Prop :=
  ∀ generator ∈ generators, ∀ dependency ∈ generator.dependencies, dependency ∈ names generators

/-- The name has occurred before, and no name had until then. -/
def FirstRepeated (generators : List GeneratorInfo) (name : String) : Prop :=
  ∃ earlier generator later, generators = earlier ++ generator :: later ∧
    generator.name = name ∧ name ∈ names earlier ∧ Distinct earlier

/-- The generator has a dependency that is not registered. Those of the generators before it are,
and so are those that it declares before. -/
def FirstMissing (generators : List GeneratorInfo) (name dependency : String) : Prop :=
  ∃ earlier generator later, generators = earlier ++ generator :: later ∧
    generator.name = name ∧
    (∀ other ∈ earlier, ∀ registered ∈ other.dependencies, registered ∈ names generators) ∧
    ∃ before after, generator.dependencies = before ++ dependency :: after ∧
      dependency ∉ names generators ∧ ∀ registered ∈ before, registered ∈ names generators

/-! ## Names -/

theorem distinct_cons {first : GeneratorInfo} :
    Distinct (first :: generators) ↔ first.name ∉ names generators ∧ Distinct generators := by
  simp [Distinct, names]

theorem mem_names {name : String} :
    name ∈ names generators ↔ ∃ generator ∈ generators, generator.name = name :=
  List.mem_map

/-- Names that are distinct are passed over, and have been seen from then on. -/
theorem firstRepeated?_append {seen : List String} {earlier later : List GeneratorInfo}
    (hdistinct : Distinct earlier) (hfresh : ∀ name ∈ names earlier, name ∉ seen) :
    firstRepeated? seen (earlier ++ later) =
      firstRepeated? ((names earlier).reverse ++ seen) later := by
  induction earlier generalizing seen with
  | nil => rfl
  | cons first rest ih =>
    obtain ⟨hfirst, hrest⟩ := distinct_cons.1 hdistinct
    have hunseen : first.name ∉ seen := hfresh _ List.mem_cons_self
    have hlater : ∀ name ∈ names rest, name ∉ first.name :: seen := by
      intro name hname hold
      rcases List.mem_cons.1 hold with rfl | hold
      · exact hfirst hname
      · exact hfresh name (List.mem_cons_of_mem _ hname) hold
    calc
      firstRepeated? seen (first :: rest ++ later)
          = firstRepeated? (first.name :: seen) (rest ++ later) := by
            simp [firstRepeated?, hunseen]
      _ = firstRepeated? ((names rest).reverse ++ first.name :: seen) later := ih hrest hlater
      _ = firstRepeated? ((names (first :: rest)).reverse ++ seen) later := by simp [names]

theorem firstRepeated?_of_distinct (hdistinct : Distinct generators) :
    firstRepeated? [] generators = none := by
  have hpassed := @firstRepeated?_append [] generators [] hdistinct (by simp)
  simpa [firstRepeated?] using hpassed

/-- Every list of generators has distinct names or a first one that is repeated. -/
theorem distinct_or_firstRepeated (generators : List GeneratorInfo) :
    Distinct generators ∨ ∃ name, FirstRepeated generators name := by
  induction generators using List.reverseRecOn with
  | nil => exact Or.inl List.nodup_nil
  | append_singleton earlier generator ih =>
    rcases ih with hdistinct | ⟨name, before, first, later, rfl, hname, hold, hbefore⟩
    · by_cases hold : generator.name ∈ names earlier
      · exact Or.inr ⟨_, earlier, generator, [], rfl, rfl, hold, hdistinct⟩
      · refine Or.inl ?_
        have hperm : (names (earlier ++ [generator])).Perm (generator.name :: names earlier) := by
          simp [names]
        exact hperm.nodup_iff.2 (List.nodup_cons.2 ⟨hold, hdistinct⟩)
    · exact Or.inr ⟨name, before, first, later ++ [generator], by simp, hname, hold, hbefore⟩

theorem firstRepeated?_of_firstRepeated {name : String} (h : FirstRepeated generators name) :
    firstRepeated? [] generators = some name := by
  obtain ⟨earlier, generator, later, rfl, rfl, hold, hdistinct⟩ := h
  have hseen : generator.name ∈ (names earlier).reverse ++ [] := by simpa using hold
  rw [firstRepeated?_append hdistinct (by simp), firstRepeated?, if_pos hseen]

/-! ## Dependencies -/

theorem firstMissing?_eq_none : firstMissing? generators = none ↔ Registered generators := by
  simp [firstMissing?, Registered]

/-- The first dependency of one generator that is not registered. -/
theorem find?_missing_eq_some {registered dependencies : List String} {dependency : String} :
    dependencies.find? (fun name => decide (name ∉ registered)) = some dependency ↔
      ∃ before after, dependencies = before ++ dependency :: after ∧
        dependency ∉ registered ∧ ∀ name ∈ before, name ∈ registered := by
  simp only [List.find?_eq_some_iff_append, decide_eq_true_eq, Bool.not_eq_true',
    decide_eq_false_iff_not, not_not]
  constructor
  · rintro ⟨hmissing, before, after, hsplit, hbefore⟩
    exact ⟨before, after, hsplit, hmissing, hbefore⟩
  · rintro ⟨before, after, hsplit, hmissing, hbefore⟩
    exact ⟨hmissing, before, after, hsplit, hbefore⟩

theorem firstMissing?_eq_some {name dependency : String} :
    firstMissing? generators = some (name, dependency) ↔
      FirstMissing generators name dependency := by
  simp only [firstMissing?, List.findSome?_eq_some_iff, FirstMissing, Option.map_eq_some_iff,
    Option.map_eq_none_iff, find?_missing_eq_some, List.find?_eq_none, decide_eq_true_eq, not_not,
    Prod.mk.injEq]
  constructor
  · rintro ⟨earlier, generator, later, hsplit, ⟨_, hdependency, rfl, rfl⟩, hearlier⟩
    exact ⟨earlier, generator, later, hsplit, rfl, hearlier, hdependency⟩
  · rintro ⟨earlier, generator, later, hsplit, rfl, hearlier, hdependency⟩
    exact ⟨earlier, generator, later, hsplit, ⟨_, hdependency, rfl, rfl⟩, hearlier⟩

/-! ## The order after the checks -/

theorem order_of_firstRepeated {name : String} (h : FirstRepeated generators name) :
    order generators = .error (.duplicateGenerator name) := by
  simp [order, firstRepeated?_of_firstRepeated h]

theorem order_of_firstMissing {name dependency : String} (hdistinct : Distinct generators)
    (h : FirstMissing generators name dependency) :
    order generators = .error (.missingDependency name dependency) := by
  have hrepeated : firstRepeated? [] generators = none :=
    firstRepeated?_of_distinct hdistinct
  simp [order, hrepeated, firstMissing?_eq_some.2 h]

/-- Generators that pass both checks are placed. -/
theorem order_of_registered (hdistinct : Distinct generators) (hregistered : Registered generators) :
    order generators =
      (place generators.length generators).mapError fun waiting =>
        .dependencyCycle (cycleFrom waiting) := by
  have hrepeated : firstRepeated? [] generators = none :=
    firstRepeated?_of_distinct hdistinct
  have hmissing : firstMissing? generators = none := firstMissing?_eq_none.2 hregistered
  rcases hplace : place generators.length generators with waiting | placed <;>
    simp [order, hrepeated, hmissing, hplace, Except.mapError]

theorem registered_or_firstMissing (generators : List GeneratorInfo) :
    Registered generators ∨ ∃ name dependency, FirstMissing generators name dependency := by
  rcases hmissing : firstMissing? generators with _ | ⟨name, dependency⟩
  · exact Or.inl (firstMissing?_eq_none.1 hmissing)
  · exact Or.inr ⟨name, dependency, firstMissing?_eq_some.1 hmissing⟩

theorem order_eq_ok {placed : List GeneratorInfo} (h : order generators = .ok placed) :
    Distinct generators ∧ Registered generators ∧
      place generators.length generators = .ok placed := by
  rcases distinct_or_firstRepeated generators with hdistinct | ⟨name, hname⟩
  · rcases registered_or_firstMissing generators with hregistered | ⟨name, dependency, hmissing⟩
    · refine ⟨hdistinct, hregistered, ?_⟩
      rw [order_of_registered hdistinct hregistered] at h
      rcases hplace : place generators.length generators with waiting | rest
      · simp [hplace, Except.mapError] at h
      · simpa [hplace, Except.mapError] using h
    · simp [order_of_firstMissing hdistinct hmissing] at h
  · simp [order_of_firstRepeated hname] at h

end Schedule

end ProjectCompiler
