import ProjectCompiler.Generators.Schemes
import ProjectCompiler.Proofs.Schedule.Checks
import Mathlib.Data.List.Pairwise

/-!
# Placement — the order of generators is the first of all possible ones

Generators are placed one after another, each time the first registered one whose dependencies are
all placed. What comes out is an order in which dependencies come first. Many lists may be such orders
of the same generators. At the first place where another one differs, the greedy one has a generator
that was registered earlier.

- `Schedule.Feasible`: orders in which dependencies come first;
- `Schedule.Greedy`: the placement as a relation, one rule for each generator that is placed;
- `Schedule.greedy_of_place`, `Schedule.place_of_greedy`: what the scheduler does;
- `Greedy.perm`, `Greedy.inOrder`, `Greedy.least`: what placing one generator after another comes to;
- `Pipeline.ordered_canonical`: the order in which generators run.
-/

namespace ProjectCompiler

namespace Schedule

/-! ## Possible orders -/

/-- The generators in an order in which each stands after all that it depends on. -/
structure Feasible (generators order : List GeneratorInfo) : Prop where
  perm : order.Perm generators
  dependencies : ∀ earlier generator later, order = earlier ++ generator :: later →
    ∀ dependency ∈ generator.dependencies, dependency ∈ names earlier

/-- The place of each generator of an order in the order of registration. -/
def places (generators order : List GeneratorInfo) : List Nat :=
  order.map fun generator => (names generators).idxOf generator.name

/-- Each generator stands after all that it depends on, apart from what was settled before. -/
def InOrder (settled : String → Prop) (order : List GeneratorInfo) : Prop :=
  ∀ earlier generator later, order = earlier ++ generator :: later →
    ∀ dependency ∈ generator.dependencies, dependency ∈ names earlier ∨ settled dependency

theorem inOrder_nil (settled : String → Prop) : InOrder settled [] := by
  intro earlier generator later h
  simp at h

/-- What stands first is settled for the rest. -/
theorem inOrder_cons {settled : String → Prop} {generator : GeneratorInfo}
    {rest : List GeneratorInfo} :
    InOrder settled (generator :: rest) ↔
      (∀ dependency ∈ generator.dependencies, settled dependency) ∧
        InOrder (fun name => name = generator.name ∨ settled name) rest := by
  constructor
  · intro h
    constructor
    · intro dependency hdependency
      have hnone := h [] generator rest rfl dependency hdependency
      simpa [names] using hnone
    · intro earlier other later hrest dependency hdependency
      have hsplit : generator :: rest = (generator :: earlier) ++ other :: later := by
        simp [hrest]
      have hbefore := h (generator :: earlier) other later hsplit dependency hdependency
      simpa [names, or_assoc, or_left_comm] using hbefore
  · rintro ⟨hfirst, hrest⟩ earlier other later hsplit dependency hdependency
    cases earlier with
    | nil =>
      obtain ⟨rfl, -⟩ : generator = other ∧ rest = later := by simpa using hsplit
      exact Or.inr (hfirst dependency hdependency)
    | cons first earlier =>
      obtain ⟨rfl, htail⟩ : generator = first ∧ rest = earlier ++ other :: later := by
        simpa using hsplit
      have hbefore := hrest earlier other later htail dependency hdependency
      simpa [names, or_assoc, or_left_comm] using hbefore

theorem InOrder.mono {settled others : String → Prop} {order : List GeneratorInfo}
    (h : InOrder settled order) (himp : ∀ name, settled name → others name) :
    InOrder others order := by
  intro earlier generator later hsplit dependency hdependency
  exact (h earlier generator later hsplit dependency hdependency).imp_right (himp dependency)

/-! ## Placing the first that is ready -/

/-- The generator does not wait for any of those that wait. -/
def Ready (waiting : List GeneratorInfo) (generator : GeneratorInfo) : Prop :=
  ∀ dependency ∈ generator.dependencies, dependency ∉ names waiting

/-- Generators are placed one after another, each time the first that is ready. -/
inductive Greedy : (waiting placed : List GeneratorInfo) → Prop
  | nil : Greedy [] []
  | place {earlier later placed : List GeneratorInfo} {generator : GeneratorInfo}
      (ready : Ready (earlier ++ generator :: later) generator)
      (first : ∀ other ∈ earlier, ¬ Ready (earlier ++ generator :: later) other)
      (rest : Greedy (earlier ++ later) placed) :
      Greedy (earlier ++ generator :: later) (generator :: placed)

variable {waiting placed generators : List GeneratorInfo}

theorem ready?_eq_none :
    ready? waiting = none ↔ ∀ generator ∈ waiting, ¬ Ready waiting generator := by
  simp [ready?, Ready]

theorem ready?_eq_some {generator : GeneratorInfo} :
    ready? waiting = some generator ↔ Ready waiting generator ∧
      ∃ earlier later, waiting = earlier ++ generator :: later ∧
        ∀ other ∈ earlier, ¬ Ready waiting other := by
  simp [ready?, Ready, List.find?_eq_some_iff_append]

/-- Names are distinct, so taking an item out by its name takes out no other. -/
theorem filter_ne_of_nodup {α β : Type} [DecidableEq β] {name : α → β} {earlier later : List α}
    {item : α} (hdistinct : ((earlier ++ item :: later).map name).Nodup) :
    (earlier ++ item :: later).filter (fun other => name other ≠ name item) = earlier ++ later := by
  have hparts : name item ∉ earlier.map name ∧ name item ∉ later.map name := by
    have hperm : ((earlier ++ item :: later).map name).Perm
        (name item :: (earlier.map name ++ later.map name)) := by
      simp
    have hfirst := (List.nodup_cons.1 (hperm.nodup hdistinct)).1
    simpa using hfirst
  have hkept : ∀ part : List α, name item ∉ part.map name →
      part.filter (fun other => name other ≠ name item) = part := by
    intro part hpart
    refine List.filter_eq_self.2 fun other hother => ?_
    have hne : name other ≠ name item := by
      intro hsame
      exact hpart (List.mem_map.2 ⟨other, hother, hsame⟩)
    simp [hne]
  have hearlier := hkept earlier hparts.1
  have hlater := hkept later hparts.2
  simp only [List.filter_append, hearlier]
  simpa using hlater

theorem distinct_of_place {earlier later : List GeneratorInfo} {generator : GeneratorInfo}
    (hdistinct : Distinct (earlier ++ generator :: later)) : Distinct (earlier ++ later) := by
  have hsublist : (earlier ++ later).Sublist (earlier ++ generator :: later) :=
    (List.sublist_cons_self generator later).append_left earlier
  exact List.Nodup.sublist (hsublist.map GeneratorInfo.name) hdistinct

/-- The bound is large enough, so the scheduler comes to its end. -/
theorem greedy_of_place {bound : Nat} (hdistinct : Distinct waiting)
    (hbound : waiting.length ≤ bound) (h : place bound waiting = .ok placed) :
    Greedy waiting placed := by
  induction bound generalizing waiting placed with
  | zero =>
    obtain rfl : waiting = [] := List.length_eq_zero_iff.1 (Nat.le_zero.1 hbound)
    cases h
    exact Greedy.nil
  | succ bound ih =>
    rw [place] at h
    rcases hfound : ready? waiting with _ | generator
    · cases waiting with
      | nil =>
        simp only [hfound] at h
        cases h
        exact Greedy.nil
      | cons first rest => simp [hfound] at h
    · obtain ⟨hready, earlier, later, rfl, hfirst⟩ := ready?_eq_some.1 hfound
      simp only [hfound, filter_ne_of_nodup hdistinct] at h
      rcases hrest : place bound (earlier ++ later) with stuck | rest
      · rw [hrest] at h
        cases h
      · rw [hrest] at h
        cases h
        have hshorter : (earlier ++ later).length ≤ bound := by
          simp only [List.length_append, List.length_cons] at hbound ⊢
          omega
        exact Greedy.place hready hfirst (ih (distinct_of_place hdistinct) hshorter hrest)

/-- Whatever is placed one after another so is what the scheduler places. -/
theorem place_of_greedy {bound : Nat} (h : Greedy waiting placed) (hdistinct : Distinct waiting)
    (hbound : waiting.length ≤ bound) : place bound waiting = .ok placed := by
  induction h generalizing bound with
  | nil => cases bound <;> rfl
  | @place earlier later placed generator ready first rest ih =>
    cases bound with
    | zero => simp at hbound
    | succ bound =>
      have hfound : ready? (earlier ++ generator :: later) = some generator :=
        ready?_eq_some.2 ⟨ready, earlier, later, rfl, first⟩
      have hshorter : (earlier ++ later).length ≤ bound := by
        simp only [List.length_append, List.length_cons] at hbound ⊢
        omega
      have hrest := ih (distinct_of_place hdistinct) hshorter
      simp only [Schedule.place, hfound, filter_ne_of_nodup hdistinct, hrest]
      rfl

/-! ## What placing comes to -/

namespace Greedy

theorem perm (h : Greedy waiting placed) : placed.Perm waiting := by
  induction h with
  | nil => exact List.Perm.refl []
  | @place earlier later placed generator _ _ _ ih =>
    calc
      (generator :: placed).Perm (generator :: (earlier ++ later)) := ih.cons generator
      _ |>.Perm (earlier ++ generator :: later) := List.perm_middle.symm

/-- What does not wait is settled. -/
theorem inOrder (h : Greedy waiting placed) : InOrder (· ∉ names waiting) placed := by
  induction h with
  | nil => exact inOrder_nil _
  | @place earlier later placed generator ready _ _ ih =>
    refine inOrder_cons.2 ⟨ready, ih.mono ?_⟩
    intro name hname
    by_cases hsame : name = generator.name
    · exact Or.inl hsame
    · refine Or.inr ?_
      simpa [names, hsame] using hname

/-- Any other order has a generator of higher rank where it first differs, when those that wait stand
by rank. -/
theorem least {rank : GeneratorInfo → Nat} {other : List GeneratorInfo}
    (h : Greedy waiting placed) (hdistinct : Distinct waiting)
    (hranked : waiting.Pairwise fun first second => rank first < rank second)
    (hperm : other.Perm waiting) (hother : InOrder (· ∉ names waiting) other) :
    other = placed ∨ placed.map rank < other.map rank := by
  induction h generalizing other with
  | nil => exact Or.inl hperm.eq_nil
  | @place earlier later placed generator _ first _ ih =>
    have hlast : (earlier ++ generator :: later).Perm (generator :: (earlier ++ later)) :=
      List.perm_middle
    cases other with
    | nil => simp at hperm
    | cons head others =>
      obtain ⟨hready, hothers⟩ := inOrder_cons.1 hother
      have hhead : head ∈ earlier ++ generator :: later := hperm.subset List.mem_cons_self
      rcases List.mem_append.1 hhead with hearlier | hlater
      · -- An earlier one waits for others that wait, so no order begins with it.
        exact absurd hready (first head hearlier)
      · rcases List.mem_cons.1 hlater with rfl | hlater
        · have hrest : others.Perm (earlier ++ later) := (hperm.trans hlast).cons_inv
          have hsorted : (earlier ++ later).Pairwise fun first second => rank first < rank second :=
            hranked.sublist ((List.sublist_cons_self head later).append_left earlier)
          have hfresh : head.name ∉ names (earlier ++ later) := by
            have hnodup : (names (head :: (earlier ++ later))).Nodup :=
              (hlast.map GeneratorInfo.name).nodup hdistinct
            exact (List.nodup_cons.1 hnodup).1
          have hsettled : InOrder (· ∉ names (earlier ++ later)) others := by
            refine hothers.mono fun name hname => ?_
            rcases hname with rfl | hname
            · exact hfresh
            · exact fun hmem => hname ((hlast.map GeneratorInfo.name).symm.subset
                (List.mem_cons_of_mem _ hmem))
          rcases ih (distinct_of_place hdistinct) hsorted hrest hsettled with hsame | hless
          · exact Or.inl (congrArg (head :: ·) hsame)
          · exact Or.inr (List.cons_lt_cons_iff.2 (Or.inr ⟨rfl, hless⟩))
        · have hless : rank generator < rank head := by
            have hsecond := (List.pairwise_append.1 hranked).2.1
            exact (List.pairwise_cons.1 hsecond).1 head hlater
          exact Or.inr (List.cons_lt_cons_iff.2 (Or.inl hless))

end Greedy

/-! ## The order of registered generators -/

/-- Generators with distinct names stand by the places of their names. -/
theorem pairwise_idxOf (hdistinct : Distinct generators) :
    generators.Pairwise fun first second =>
      (names generators).idxOf first.name < (names generators).idxOf second.name := by
  refine List.pairwise_iff_getElem.2 fun i j hi hj hij => ?_
  have hplace : ∀ k, ∀ hk : k < generators.length,
      (names generators).idxOf generators[k].name = k := by
    intro k hk
    have hk' : k < (names generators).length := by simpa [names] using hk
    simpa [names] using hdistinct.idxOf_getElem k hk'
  simpa [hplace i hi, hplace j hj] using hij

/-- Dependencies of generators in an order are among those that wait. -/
theorem feasible_iff_inOrder {other : List GeneratorInfo} (hregistered : Registered generators)
    (hperm : other.Perm generators) :
    Feasible generators other ↔ InOrder (· ∉ names generators) other := by
  constructor
  · intro h earlier generator later hsplit dependency hdependency
    exact Or.inl (h.dependencies earlier generator later hsplit dependency hdependency)
  · intro h
    refine ⟨hperm, fun earlier generator later hsplit dependency hdependency => ?_⟩
    have hmem : generator ∈ generators := hperm.subset (by simp [hsplit])
    rcases h earlier generator later hsplit dependency hdependency with hbefore | hmissing
    · exact hbefore
    · exact absurd (hregistered generator hmem dependency hdependency) hmissing

theorem greedy_of_order (h : order generators = .ok placed) : Greedy generators placed := by
  obtain ⟨hdistinct, -, hplace⟩ := order_eq_ok h
  exact greedy_of_place hdistinct (Nat.le_refl _) hplace

theorem order_of_greedy (h : Greedy generators placed) (hdistinct : Distinct generators)
    (hregistered : Registered generators) : order generators = .ok placed := by
  rw [order_of_registered hdistinct hregistered, place_of_greedy h hdistinct (Nat.le_refl _)]
  rfl

theorem order_feasible (h : order generators = .ok placed) : Feasible generators placed := by
  have hgreedy := greedy_of_order h
  obtain ⟨-, hregistered, -⟩ := order_eq_ok h
  exact (feasible_iff_inOrder hregistered hgreedy.perm).2 hgreedy.inOrder

/-- The order is the first of all possible ones, by places of registration. -/
theorem order_least {other : List GeneratorInfo} (h : order generators = .ok placed)
    (hother : Feasible generators other) :
    other = placed ∨ places generators placed < places generators other := by
  obtain ⟨hdistinct, hregistered, -⟩ := order_eq_ok h
  have hinorder := (feasible_iff_inOrder hregistered hother.perm).1 hother
  exact (greedy_of_order h).least hdistinct (pairwise_idxOf hdistinct) hother.perm hinorder

end Schedule

/-! ## The generators of a pipeline -/

namespace Pipeline

variable {ν : Type} {pipeline : Pipeline ν} {ordered : List (Generator ν)}

/-- The generator that an entry of the order stands for. -/
def standing? (pipeline : Pipeline ν) (info : GeneratorInfo) : Option (Generator ν) :=
  pipeline.generators.find? fun generator => generator.info.name = info.name

/-- Distinct names lead back to the generators that have them. -/
theorem standing?_info (hdistinct : Schedule.Distinct pipeline.infos) {generator : Generator ν}
    (hmem : generator ∈ pipeline.generators) :
    pipeline.standing? generator.info = some generator := by
  obtain ⟨earlier, later, hsplit⟩ := List.append_of_mem hmem
  refine List.find?_eq_some_iff_append.2 ⟨by simp, earlier, later, hsplit, fun other hother => ?_⟩
  have hnames : ((earlier.map Generator.info).map GeneratorInfo.name ++
      generator.info.name :: (later.map Generator.info).map GeneratorInfo.name).Nodup := by
    simpa [Schedule.Distinct, Schedule.names, infos, hsplit] using hdistinct
  have hne : other.info.name ≠ generator.info.name := by
    intro hsame
    have hbefore : generator.info.name ∈ (earlier.map Generator.info).map GeneratorInfo.name :=
      List.mem_map.2 ⟨other.info, List.mem_map.2 ⟨other, hother, rfl⟩, hsame⟩
    exact (List.nodup_append.1 hnames).2.2 _ hbefore _ List.mem_cons_self rfl
  simp [hne]

theorem ordered_of_order {placed : List GeneratorInfo}
    (h : Schedule.order pipeline.infos = .ok placed) :
    pipeline.ordered = .ok (placed.filterMap pipeline.standing?) := by
  simp only [Pipeline.ordered, h]
  rfl

theorem ordered_eq_ok (h : pipeline.ordered = .ok ordered) :
    ∃ placed, Schedule.order pipeline.infos = .ok placed ∧
      ordered = placed.filterMap pipeline.standing? := by
  rcases horder : Schedule.order pipeline.infos with error | placed
  · simp [Pipeline.ordered, horder, bind, Except.bind] at h
  · exact ⟨placed, rfl, Except.ok.inj (h.symm.trans (ordered_of_order horder))⟩

variable {placed : List GeneratorInfo}

/-- The order of generators is the order of what is known of them. -/
theorem map_info_standing (hdistinct : Schedule.Distinct pipeline.infos)
    (hperm : placed.Perm pipeline.infos) :
    (placed.filterMap pipeline.standing?).map Generator.info = placed := by
  have hsome : ∀ info ∈ placed, (pipeline.standing? info).map Generator.info = some info := by
    intro info hinfo
    obtain ⟨generator, hmem, rfl⟩ := List.mem_map.1 (hperm.subset hinfo)
    simp [standing?_info hdistinct hmem]
  calc
    (placed.filterMap pipeline.standing?).map Generator.info
        = placed.filterMap fun info => (pipeline.standing? info).map Generator.info :=
          List.map_filterMap
    _ = placed.filterMap some := List.filterMap_congr hsome
    _ = placed := List.filterMap_some

theorem perm_standing (hdistinct : Schedule.Distinct pipeline.infos)
    (hperm : placed.Perm pipeline.infos) :
    (placed.filterMap pipeline.standing?).Perm pipeline.generators := by
  have hback : pipeline.infos.filterMap pipeline.standing? = pipeline.generators := by
    calc
      pipeline.infos.filterMap pipeline.standing?
          = pipeline.generators.filterMap fun generator => pipeline.standing? generator.info :=
            List.filterMap_map
      _ = pipeline.generators.filterMap some :=
            List.filterMap_congr fun generator hmem => standing?_info hdistinct hmem
      _ = pipeline.generators := List.filterMap_some
  have hmapped := hperm.filterMap pipeline.standing?
  rwa [hback] at hmapped

/-- Generators run in an order in which dependencies come first. Any other such order has, where the
two first differ, a generator that was registered later. -/
theorem ordered_canonical (h : pipeline.ordered = .ok ordered) :
    ordered.Perm pipeline.generators ∧
      Schedule.Feasible pipeline.infos (ordered.map Generator.info) ∧
      ∀ other, Schedule.Feasible pipeline.infos other →
        other = ordered.map Generator.info ∨
          Schedule.places pipeline.infos (ordered.map Generator.info) <
            Schedule.places pipeline.infos other := by
  obtain ⟨placed, horder, rfl⟩ := ordered_eq_ok h
  obtain ⟨hdistinct, -, -⟩ := Schedule.order_eq_ok horder
  have hfeasible := Schedule.order_feasible horder
  rw [map_info_standing hdistinct hfeasible.perm]
  exact ⟨perm_standing hdistinct hfeasible.perm, hfeasible,
    fun _ hother => Schedule.order_least horder hother⟩

/-- The standard generators, registered the other way round. -/
def backwards : Pipeline Unit :=
  { generators := (Generators.standard .unique).reverse, plugins := [] }

theorem backwards_canonical :
    backwards.ordered = .ok (Generators.standard .unique) ∧
      ((Generators.standard .unique).Perm backwards.generators ∧
        Schedule.Feasible backwards.infos (standard (ν := Unit) .unique).infos ∧
        ∀ other, Schedule.Feasible backwards.infos other →
          other = (standard (ν := Unit) .unique).infos ∨
            Schedule.places backwards.infos (standard (ν := Unit) .unique).infos <
              Schedule.places backwards.infos other) :=
  ⟨rfl, ordered_canonical rfl⟩

end Pipeline

end ProjectCompiler
