import ProjectCompiler.Proofs.Schedule.WellFormed
import Mathlib.Data.List.Chain

/-!
# Cycles — the cycle that is reported is one

Where each of the generators that are left waits for another one of them, a walk along these
dependencies can always go on. It has come to a name twice after as many steps as there are generators,
and what lies between is a cycle; what came before leads into the cycle and is left out.

- `Schedule.IsCycle`: a path of dependencies back to where it began, through no name twice;
- `Schedule.Walk`: a walk that ends where it comes to a name again, and in no other way;
- `Schedule.walk_follow`: the scheduler's walk is one, so the bound on its steps is never reached;
- `Schedule.Walk.isCycle`: what such a walk ends in;
- `Pipeline.reported_cycle`: both, for the cycle that is reported.
-/

namespace ProjectCompiler

namespace Schedule

variable {generators waiting stuck : List GeneratorInfo} {path cycle : List String}
  {name next : String}

/-! ## Cycles and walks -/

/-- A path along dependencies that ends with the name it begins with. -/
structure IsCycle (generators : List GeneratorInfo) (path : List String) : Prop where
  long : 2 ≤ path.length
  closed : path.head? = path.getLast?
  distinct : path.dropLast.Nodup
  linked : path.IsChain (DependsOn generators)

/-- A walk along waiting dependencies, with the names behind it and the one it has come to, and the
cycle that it ends in. There is no rule for a name without a waiting dependency. -/
inductive Walk (waiting : List GeneratorInfo) :
    (behind : List String) → (name : String) → (cycle : List String) → Prop
  | closed {behind : List String} {name : String} (again : name ∈ behind) :
      Walk waiting behind name (behind.dropWhile (· ≠ name) ++ [name])
  | onward {behind cycle : List String} {name next : String} (fresh : name ∉ behind)
      (waits : waitingDependency? waiting name = some next)
      (rest : Walk waiting (behind ++ [name]) next cycle) : Walk waiting behind name cycle

/-! ## Waiting dependencies -/

theorem waitingDependency?_eq_some (h : waitingDependency? waiting name = some next) :
    DependsOn waiting name next ∧ next ∈ names waiting := by
  obtain ⟨generator, hfound, hnext⟩ := Option.bind_eq_some_iff.1 h
  have hname : generator.name = name := by simpa using List.find?_some hfound
  have hdeclared : next ∈ generator.dependencies := List.mem_of_find?_eq_some hnext
  refine ⟨⟨generator, List.mem_of_find?_eq_some hfound, hname, hdeclared⟩, ?_⟩
  simpa using List.find?_some hnext

/-- Each of those that are left waits for another one of them. -/
theorem Stuck.exists_waitingDependency (h : Stuck generators waiting) (hname : name ∈ names waiting) :
    ∃ next, waitingDependency? waiting name = some next := by
  obtain ⟨other, hother, hsame⟩ := mem_names.1 hname
  have hsome : (waiting.find? fun generator => generator.name = name).isSome :=
    List.find?_isSome.2 ⟨other, hother, by simpa using hsame⟩
  obtain ⟨generator, hfound⟩ := Option.isSome_iff_exists.1 hsome
  have hwaits : ¬ Ready waiting generator := h.waits generator (List.mem_of_find?_eq_some hfound)
  simp only [Ready, not_forall, not_not] at hwaits
  obtain ⟨dependency, hdependency, hwaiting⟩ := hwaits
  have hfirst : (generator.dependencies.find? fun dependency => dependency ∈ names waiting).isSome :=
    List.find?_isSome.2 ⟨dependency, hdependency, by simpa using hwaiting⟩
  obtain ⟨next, hnext⟩ := Option.isSome_iff_exists.1 hfirst
  exact ⟨next, Option.bind_eq_some_iff.2 ⟨generator, hfound, hnext⟩⟩

/-! ## Walking on -/

/-- With one step more than there are names left to come to, the scheduler's walk comes to its end. -/
theorem walk_follow (h : Stuck generators waiting) {bound : Nat} (hdistinct : path.Nodup)
    (hpath : path ⊆ names waiting) (hname : name ∈ names waiting)
    (hbound : waiting.length < path.length + bound) :
    Walk waiting path name (follow waiting bound path name) := by
  induction bound generalizing path name with
  | zero =>
    -- The names behind are distinct, so they are at most as many as there are names.
    have hlength : path.length ≤ (names waiting).length :=
      (List.subperm_of_subset hdistinct hpath).length_le
    simp only [names, List.length_map] at hlength
    omega
  | succ bound ih =>
    rw [follow]
    by_cases hagain : name ∈ path
    · rw [if_pos hagain]
      exact Walk.closed hagain
    · obtain ⟨next, hnext⟩ := h.exists_waitingDependency hname
      rw [if_neg hagain, hnext]
      refine Walk.onward hagain hnext (ih ?_ ?_ (waitingDependency?_eq_some hnext).2 ?_)
      · rw [← List.concat_eq_append]
        exact hdistinct.concat hagain
      · exact List.append_subset.2 ⟨hpath, List.cons_subset.2 ⟨hname, List.nil_subset _⟩⟩
      · simp only [List.length_append, List.length_singleton]
        omega

theorem walk_cycleFrom {first : GeneratorInfo} {rest : List GeneratorInfo}
    (h : Stuck generators (first :: rest)) :
    Walk (first :: rest) [] first.name (cycleFrom (first :: rest)) := by
  refine walk_follow h List.nodup_nil (List.nil_subset _) List.mem_cons_self ?_
  simp

/-! ## Coming round -/

/-- A walk over distinct names, linked by dependencies as far as it has come, ends in a cycle. -/
theorem Walk.isCycle (h : Walk waiting path name cycle) (hdistinct : path.Nodup)
    (hlinked : (path ++ [name]).IsChain (DependsOn waiting)) : IsCycle waiting cycle := by
  induction h with
  | @closed behind name again =>
    obtain ⟨before, after, rfl⟩ := List.append_of_mem again
    have hbefore : ∀ other ∈ before, decide (other ≠ name) = true := by
      intro other hother
      have hne : other ≠ name := (List.nodup_append.1 hdistinct).2.2 other hother name
        List.mem_cons_self
      simpa using hne
    -- The way into the cycle is dropped, and the rest begins where the walk has come to again.
    have hround : (before ++ name :: after).dropWhile (· ≠ name) = name :: after := by
      rw [List.dropWhile_append_of_pos hbefore]
      simp
    rw [hround]
    constructor
    · simp
    · rw [List.getLast?_concat]
      rfl
    · rw [List.dropLast_concat]
      exact (List.nodup_append.1 hdistinct).2.1
    · rw [List.append_assoc] at hlinked
      exact hlinked.right_of_append
  | @onward behind cycle name next fresh waits rest ih =>
    apply ih
    · rw [← List.concat_eq_append]
      exact hdistinct.concat fresh
    · refine hlinked.append (List.isChain_singleton next) ?_
      intro last hlast first hfirst
      obtain rfl : name = last := by simpa using hlast
      obtain rfl : next = first := by simpa using hfirst
      exact (waitingDependency?_eq_some waits).1

theorem IsCycle.of_sublist (h : IsCycle stuck path) (hsublist : stuck.Sublist generators) :
    IsCycle generators path where
  long := h.long
  closed := h.closed
  distinct := h.distinct
  linked := by
    refine h.linked.imp ?_
    rintro first second ⟨generator, hmem, hname, hdependency⟩
    exact ⟨generator, hsublist.subset hmem, hname, hdependency⟩

/-! ## The report -/

theorem order_eq_cycle (h : order generators = .error (.dependencyCycle path)) :
    ∃ first rest, place generators.length generators = .error (first :: rest) ∧
      Stuck generators (first :: rest) ∧ path = cycleFrom (first :: rest) := by
  obtain ⟨hdistinct, hregistered, -⟩ := order_cycle_iff.1 ⟨path, h⟩
  rw [order_of_registered hdistinct hregistered] at h
  rcases hplace : place generators.length generators with stuck | placed
  · have hstuck := stuck_of_place hplace
    obtain ⟨first, rest, rfl⟩ := List.exists_cons_of_ne_nil hstuck.nonempty
    rw [hplace] at h
    cases h
    exact ⟨first, rest, rfl, hstuck, rfl⟩
  · rw [hplace] at h
    cases h

end Schedule

/-! ## The generators of a pipeline -/

namespace Pipeline

variable {ν : Type} {pipeline : Pipeline ν} {path : List String}

/-- The reported path is a cycle of dependencies. The walk that finds it begins with the first generator
that could not be placed, always finds a dependency to go on with, and ends where it comes round. -/
theorem reported_cycle (h : pipeline.ordered = .error (.dependencyCycle path)) :
    Schedule.IsCycle pipeline.infos path ∧
      ∃ first rest, Schedule.place pipeline.infos.length pipeline.infos = .error (first :: rest) ∧
        Schedule.Walk (first :: rest) [] first.name path := by
  rw [ordered_eq_error] at h
  obtain ⟨first, rest, hplace, hstuck, rfl⟩ := Schedule.order_eq_cycle h
  have hwalk := Schedule.walk_cycleFrom hstuck
  refine ⟨?_, first, rest, hplace, hwalk⟩
  exact (hwalk.isCycle List.nodup_nil (List.isChain_singleton _)).of_sublist hstuck.sublist

/-- Two generators lead into a cycle of three. Beside it, one generator depends on itself. -/
def winding : Pipeline Unit where
  generators := [
    { info := { name := "free", description := "", dependencies := [] } },
    { info := { name := "report", description := "", dependencies := ["free", "check"] } },
    { info := { name := "check", description := "", dependencies := ["lint", "self"] } },
    { info := { name := "self", description := "", dependencies := ["self"] } },
    { info := { name := "lint", description := "", dependencies := ["format"] } },
    { info := { name := "format", description := "", dependencies := ["parse"] } },
    { info := { name := "parse", description := "", dependencies := ["lint", "report"] } }]
  plugins := []

theorem winding_reported :
    winding.ordered = .error (.dependencyCycle ["lint", "format", "parse", "lint"]) ∧
      Schedule.IsCycle winding.infos ["lint", "format", "parse", "lint"] := by
  have hreported :
    winding.ordered = .error (.dependencyCycle ["lint", "format", "parse", "lint"]) := rfl
  exact ⟨hreported, (reported_cycle hreported).1⟩

end Pipeline

end ProjectCompiler
