import ProjectCompiler.Proofs.Schedule.Placement
import Mathlib.Data.Fintype.Order
import Mathlib.Logic.Relation
import Mathlib.Order.WellFounded

/-!
# WellFormed — which generators have an order

Generators have an order just when their names are distinct, their dependencies are registered, and no
dependency leads back to where it began. If they have none, the first of these conditions that fails
is the one that is reported. None of them depends on the order of registration.

- `Schedule.WellFormed`: the three conditions;
- `Schedule.Stuck`: what the scheduler leaves when it gives up, and `Stuck.not_acyclic`: a cycle among it;
- `Schedule.Feasible.acyclic`: an order rules cycles out;
- `Pipeline.ordered_verdict`: which generators have an order, and what is reported of the others.
-/

namespace ProjectCompiler

namespace Schedule

variable {generators others waiting stuck placed : List GeneratorInfo}

/-! ## Dependency -/

/-- The generator of the first name declares the second. -/
def DependsOn (generators : List GeneratorInfo) (name dependency : String) : Prop :=
  ∃ generator ∈ generators, generator.name = name ∧ dependency ∈ generator.dependencies

/-- No generator depends on itself, be it through others. -/
def Acyclic (generators : List GeneratorInfo) : Prop :=
  ∀ name, ¬ Relation.TransGen (DependsOn generators) name name

structure WellFormed (generators : List GeneratorInfo) : Prop where
  distinct : Distinct generators
  registered : Registered generators
  acyclic : Acyclic generators

/-! ## An order has no cycle -/

/-- Names of dependencies stand before the names of those that depend on them. -/
theorem Feasible.idxOf_lt (h : Feasible generators placed) (hdistinct : Distinct generators)
    {name dependency : String} (hdependency : DependsOn generators name dependency) :
    (names placed).idxOf dependency < (names placed).idxOf name := by
  obtain ⟨generator, hmem, rfl, hdeclared⟩ := hdependency
  obtain ⟨earlier, later, rfl⟩ := List.append_of_mem (h.perm.symm.subset hmem)
  have hbefore : dependency ∈ names earlier :=
    h.dependencies earlier generator later rfl dependency hdeclared
  have hnodup : (names earlier ++ generator.name :: names later).Nodup := by
    have hperm := h.perm.map GeneratorInfo.name
    simpa [names] using hperm.symm.nodup hdistinct
  have hfresh : generator.name ∉ names earlier := fun hmem =>
    (List.nodup_append.1 hnodup).2.2 _ hmem _ List.mem_cons_self rfl
  have hsplit : names (earlier ++ generator :: later) =
      names earlier ++ generator.name :: names later := by
    simp [names]
  calc
    (names (earlier ++ generator :: later)).idxOf dependency
        = (names earlier).idxOf dependency := by
          rw [hsplit, List.idxOf_append_of_mem hbefore]
    _ < (names earlier).length := List.idxOf_lt_length_of_mem hbefore
    _ = (names (earlier ++ generator :: later)).idxOf generator.name := by
          rw [hsplit, List.idxOf_append_of_notMem hfresh, List.idxOf_cons_self, Nat.add_zero]

theorem Feasible.acyclic (h : Feasible generators placed) (hdistinct : Distinct generators) :
    Acyclic generators := by
  -- Along every path of dependencies the place in the order gets smaller.
  have hdown : ∀ first last, Relation.TransGen (DependsOn generators) first last →
      (names placed).idxOf last < (names placed).idxOf first := by
    intro first last hpath
    induction hpath with
    | single hstep => exact h.idxOf_lt hdistinct hstep
    | tail _ hstep ih => exact (h.idxOf_lt hdistinct hstep).trans ih
  intro name hcycle
  exact Nat.lt_irrefl _ (hdown name name hcycle)

/-! ## No order, a cycle -/

/-- Some generators wait, and each for another one of them. -/
structure Stuck (generators stuck : List GeneratorInfo) : Prop where
  nonempty : stuck ≠ []
  sublist : stuck.Sublist generators
  waits : ∀ generator ∈ stuck, ¬ Ready stuck generator

theorem stuck_of_place {bound : Nat} (h : place bound waiting = .error stuck) :
    Stuck waiting stuck := by
  induction bound generalizing waiting with
  | zero => cases h
  | succ bound ih =>
    rw [place] at h
    rcases hfound : ready? waiting with _ | generator
    · cases waiting with
      | nil => simp [hfound] at h
      | cons first rest =>
        obtain rfl : first :: rest = stuck := by simpa [hfound] using h
        exact ⟨List.cons_ne_nil first rest, List.Sublist.refl _, ready?_eq_none.1 hfound⟩
    · simp only [hfound] at h
      rcases hrest : place bound (waiting.filter fun other => other.name ≠ generator.name)
        with left | rest
      · obtain rfl : left = stuck := by
          rw [hrest] at h
          exact Except.error.inj h
        obtain ⟨hnonempty, hsublist, hwaits⟩ := ih hrest
        exact ⟨hnonempty, hsublist.trans List.filter_sublist, hwaits⟩
      · rw [hrest] at h
        cases h

/-- Where each waits for another, dependencies lead round. -/
theorem Stuck.not_acyclic (h : Stuck generators stuck) : ¬ Acyclic generators := by
  intro hacyclic
  let Name := { name : String // name ∈ names stuck }
  let below : Name → Name → Prop := fun second first =>
    Relation.TransGen (DependsOn generators) first.1 second.1
  have hfinite : Finite Name := List.finite_toSet (names stuck)
  have htrans : IsTrans Name below := ⟨fun _ _ _ hthird hsecond => hsecond.trans hthird⟩
  have hirrefl : Std.Irrefl below := ⟨fun name => hacyclic name.1⟩
  have hwf : WellFounded below := Finite.wellFounded_of_trans_of_irrefl below
  obtain ⟨first, hfirst⟩ := List.exists_mem_of_ne_nil stuck h.nonempty
  have hname : first.name ∈ names stuck := List.mem_map.2 ⟨first, hfirst, rfl⟩
  -- The generator that depends on no other one that is left would be ready.
  obtain ⟨⟨last, hlast⟩, -, hminimal⟩ := hwf.has_min Set.univ ⟨⟨first.name, hname⟩, trivial⟩
  obtain ⟨generator, hgenerator, rfl⟩ := mem_names.1 hlast
  refine h.waits generator hgenerator fun dependency hdependency hwaiting => ?_
  have hdepends : DependsOn generators generator.name dependency :=
    ⟨generator, h.sublist.subset hgenerator, rfl, hdependency⟩
  exact hminimal ⟨dependency, hwaiting⟩ trivial (Relation.TransGen.single hdepends)

/-! ## The three conditions in turn -/

/-- What comes of ordering generators, told from the generators. -/
inductive Report (generators : List GeneratorInfo) :
    Except ScheduleError (List GeneratorInfo) → Prop
  | ordered {placed : List GeneratorInfo} (wellFormed : WellFormed generators) :
      Report generators (.ok placed)
  | repeated {name : String} (first : FirstRepeated generators name) :
      Report generators (.error (.duplicateGenerator name))
  | missing {name dependency : String} (distinct : Distinct generators)
      (first : FirstMissing generators name dependency) :
      Report generators (.error (.missingDependency name dependency))
  | cyclic {path : List String} (distinct : Distinct generators)
      (registered : Registered generators) (cycle : ¬ Acyclic generators) :
      Report generators (.error (.dependencyCycle path))

theorem report_order (generators : List GeneratorInfo) : Report generators (order generators) := by
  rcases distinct_or_firstRepeated generators with hdistinct | ⟨name, hrepeated⟩
  · rcases registered_or_firstMissing generators with hregistered | ⟨name, dependency, hmissing⟩
    · have horder := order_of_registered hdistinct hregistered
      rcases hplace : place generators.length generators with stuck | placed
      · have hcycle : order generators = .error (.dependencyCycle (cycleFrom stuck)) := by
          simpa [hplace, Except.mapError] using horder
        rw [hcycle]
        exact Report.cyclic hdistinct hregistered (stuck_of_place hplace).not_acyclic
      · have hok : order generators = .ok placed := by
          simpa [hplace, Except.mapError] using horder
        rw [hok]
        exact Report.ordered ⟨hdistinct, hregistered, (order_feasible hok).acyclic hdistinct⟩
    · rw [order_of_firstMissing hdistinct hmissing]
      exact Report.missing hdistinct hmissing
  · rw [order_of_firstRepeated hrepeated]
    exact Report.repeated hrepeated

theorem FirstRepeated.not_distinct {name : String} (h : FirstRepeated generators name) :
    ¬ Distinct generators := by
  obtain ⟨earlier, generator, later, rfl, rfl, hbefore, -⟩ := h
  intro hdistinct
  have hnodup : (names earlier ++ generator.name :: names later).Nodup := by
    simpa [Distinct, names] using hdistinct
  exact (List.nodup_append.1 hnodup).2.2 _ hbefore _ List.mem_cons_self rfl

theorem FirstMissing.not_registered {name dependency : String}
    (h : FirstMissing generators name dependency) : ¬ Registered generators := by
  obtain ⟨earlier, generator, later, hsplit, -, -, before, after, hdeclared, hmissing, -⟩ := h
  intro hregistered
  exact hmissing (hregistered generator (by simp [hsplit]) dependency (by simp [hdeclared]))

theorem order_ok_iff : (∃ placed, order generators = .ok placed) ↔ WellFormed generators := by
  constructor
  · rintro ⟨placed, hok⟩
    have hreport := report_order generators
    rw [hok] at hreport
    cases hreport with
    | ordered hwellFormed => exact hwellFormed
  · intro hwellFormed
    have hreport := report_order generators
    rcases horder : order generators with error | placed
    · rw [horder] at hreport
      cases hreport with
      | repeated hfirst => exact absurd hwellFormed.distinct hfirst.not_distinct
      | missing _ hfirst => exact absurd hwellFormed.registered hfirst.not_registered
      | cyclic _ _ hcycle => exact absurd hwellFormed.acyclic hcycle
    · exact ⟨placed, rfl⟩

theorem order_duplicate_iff {name : String} :
    order generators = .error (.duplicateGenerator name) ↔ FirstRepeated generators name := by
  refine ⟨fun herror => ?_, order_of_firstRepeated⟩
  have hreport := report_order generators
  rw [herror] at hreport
  cases hreport with
  | repeated hfirst => exact hfirst

theorem order_missing_iff {name dependency : String} :
    order generators = .error (.missingDependency name dependency) ↔
      Distinct generators ∧ FirstMissing generators name dependency := by
  refine ⟨fun herror => ?_, fun h => order_of_firstMissing h.1 h.2⟩
  have hreport := report_order generators
  rw [herror] at hreport
  cases hreport with
  | missing hdistinct hfirst => exact ⟨hdistinct, hfirst⟩

theorem order_cycle_iff :
    (∃ path, order generators = .error (.dependencyCycle path)) ↔
      Distinct generators ∧ Registered generators ∧ ¬ Acyclic generators := by
  constructor
  · rintro ⟨path, herror⟩
    have hreport := report_order generators
    rw [herror] at hreport
    cases hreport with
    | cyclic hdistinct hregistered hcycle => exact ⟨hdistinct, hregistered, hcycle⟩
  · rintro ⟨hdistinct, hregistered, hcycle⟩
    have hreport := report_order generators
    rcases horder : order generators with error | placed
    · rw [horder] at hreport
      cases hreport with
      | repeated hfirst => exact absurd hdistinct hfirst.not_distinct
      | missing _ hfirst => exact absurd hregistered hfirst.not_registered
      | cyclic => exact ⟨_, rfl⟩
    · rw [horder] at hreport
      cases hreport with
      | ordered hwellFormed => exact absurd hwellFormed.acyclic hcycle

/-! ## Registered in another order -/

theorem Distinct.perm (h : Distinct generators) (hperm : others.Perm generators) :
    Distinct others :=
  (hperm.map GeneratorInfo.name).symm.nodup h

theorem Registered.perm (h : Registered generators) (hperm : others.Perm generators) :
    Registered others := by
  intro generator hgenerator dependency hdependency
  have hmem := h generator (hperm.subset hgenerator) dependency hdependency
  exact (hperm.map GeneratorInfo.name).symm.subset hmem

theorem Acyclic.perm (h : Acyclic generators) (hperm : others.Perm generators) :
    Acyclic others := by
  intro name hcycle
  have hdepends : ∀ first last, DependsOn others first last → DependsOn generators first last := by
    rintro first last ⟨generator, hgenerator, hname, hdependency⟩
    exact ⟨generator, hperm.subset hgenerator, hname, hdependency⟩
  exact h name (Relation.TransGen.mono hdepends name name hcycle)

/-- What comes of ordering generators, apart from the names that it tells. -/
inductive Verdict
  | ordered
  | duplicateGenerator
  | missingDependency
  | dependencyCycle
  deriving DecidableEq, Repr

def verdict {α : Type} : Except ScheduleError α → Verdict
  | .ok _ => .ordered
  | .error (.duplicateGenerator _) => .duplicateGenerator
  | .error (.missingDependency ..) => .missingDependency
  | .error (.dependencyCycle _) => .dependencyCycle

theorem verdict_order_perm (hperm : others.Perm generators) :
    verdict (order others) = verdict (order generators) := by
  have hreport := report_order generators
  generalize order generators = result at hreport
  cases hreport with
  | ordered h =>
    have hwellFormed : WellFormed others :=
      ⟨h.distinct.perm hperm, h.registered.perm hperm, h.acyclic.perm hperm⟩
    obtain ⟨placed, hok⟩ := order_ok_iff.2 hwellFormed
    rw [hok]
    rfl
  | repeated hfirst =>
    rcases distinct_or_firstRepeated others with hdistinct | ⟨name, hrepeated⟩
    · exact absurd (hdistinct.perm hperm.symm) hfirst.not_distinct
    · rw [order_of_firstRepeated hrepeated]
      rfl
  | missing hdistinct hfirst =>
    rcases registered_or_firstMissing others with hregistered | ⟨name, dependency, hmissing⟩
    · exact absurd (hregistered.perm hperm.symm) hfirst.not_registered
    · rw [order_of_firstMissing (hdistinct.perm hperm) hmissing]
      rfl
  | cyclic hdistinct hregistered hcycle =>
    have hothers : ¬ Acyclic others := fun hacyclic => hcycle (hacyclic.perm hperm.symm)
    obtain ⟨path, herror⟩ := order_cycle_iff.2
      ⟨hdistinct.perm hperm, hregistered.perm hperm, hothers⟩
    rw [herror]
    rfl

end Schedule

/-! ## The generators of a pipeline -/

namespace Pipeline

open Schedule (verdict WellFormed FirstRepeated FirstMissing Distinct Registered Acyclic)

variable {ν : Type}

theorem ordered_eq_error (pipeline : Pipeline ν) {error : ScheduleError} :
    pipeline.ordered = .error error ↔ Schedule.order pipeline.infos = .error error := by
  rcases horder : Schedule.order pipeline.infos with reason | placed <;>
    simp [Pipeline.ordered, horder, bind, Except.bind, pure, Except.pure]

theorem ordered_isOk_iff (pipeline : Pipeline ν) :
    (∃ ordered, pipeline.ordered = .ok ordered) ↔ WellFormed pipeline.infos := by
  rw [← Schedule.order_ok_iff]
  rcases horder : Schedule.order pipeline.infos with reason | placed <;>
    simp [Pipeline.ordered, horder, bind, Except.bind, pure, Except.pure]

theorem verdict_ordered (pipeline : Pipeline ν) :
    verdict pipeline.ordered = verdict (Schedule.order pipeline.infos) := by
  rcases horder : Schedule.order pipeline.infos with reason | placed
  · rw [(ordered_eq_error pipeline).2 horder]
    cases reason <;> rfl
  · simp [Pipeline.ordered, horder, bind, Except.bind, pure, Except.pure, verdict]

/-- Generators have an order just when they are well-formed; of others the first condition that fails
is reported, and its first failure. How it ends does not depend on the order of registration. -/
theorem ordered_verdict (pipeline : Pipeline ν) :
    ((∃ ordered, pipeline.ordered = .ok ordered) ↔ WellFormed pipeline.infos) ∧
      (∀ name, pipeline.ordered = .error (.duplicateGenerator name) ↔
        FirstRepeated pipeline.infos name) ∧
      (∀ name dependency, pipeline.ordered = .error (.missingDependency name dependency) ↔
        Distinct pipeline.infos ∧ FirstMissing pipeline.infos name dependency) ∧
      ((∃ path, pipeline.ordered = .error (.dependencyCycle path)) ↔
        Distinct pipeline.infos ∧ Registered pipeline.infos ∧ ¬ Acyclic pipeline.infos) ∧
      ∀ other : Pipeline ν, other.generators.Perm pipeline.generators →
        verdict other.ordered = verdict pipeline.ordered := by
  refine ⟨ordered_isOk_iff pipeline, fun name => ?_, fun name dependency => ?_, ?_, ?_⟩
  · rw [ordered_eq_error, Schedule.order_duplicate_iff]
  · rw [ordered_eq_error, Schedule.order_missing_iff]
  · simp only [ordered_eq_error, Schedule.order_cycle_iff]
  · intro other hperm
    rw [verdict_ordered, verdict_ordered]
    exact Schedule.verdict_order_perm (hperm.map Generator.info)

/-- Two generators that depend on one another, and one that depends on the first of them. -/
def circular : Pipeline Unit where
  generators := [
    { info := { name := "report", description := "", dependencies := ["lint"] } },
    { info := { name := "lint", description := "", dependencies := ["format"] } },
    { info := { name := "format", description := "", dependencies := ["lint"] } }]
  plugins := []

def circularBackwards : Pipeline Unit :=
  { circular with generators := circular.generators.reverse }

theorem circular_verdict :
    circular.ordered = .error (.dependencyCycle ["lint", "format", "lint"]) ∧
      (Distinct circular.infos ∧ Registered circular.infos ∧ ¬ Acyclic circular.infos) ∧
      circularBackwards.generators.Perm circular.generators ∧
      verdict circularBackwards.ordered = verdict circular.ordered := by
  have hcycle : circular.ordered = .error (.dependencyCycle ["lint", "format", "lint"]) := rfl
  have hperm : circularBackwards.generators.Perm circular.generators := List.reverse_perm _
  obtain ⟨-, -, -, hreported, hanyway⟩ := ordered_verdict circular
  exact ⟨hcycle, hreported.1 ⟨_, hcycle⟩, hperm, hanyway circularBackwards hperm⟩

end Pipeline

end ProjectCompiler
