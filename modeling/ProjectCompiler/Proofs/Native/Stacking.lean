import ProjectCompiler.Proofs.Native.Steps
import Mathlib.Data.List.Basic

/-!
# Stacking — the same operations above other objects

An object's number is its place, so a graph that is built above the objects of another one has all its
numbers moved up. Nothing else changes: no operation looks for an object except by a number, and
numbers that are moved up meet none of those below.

- `NativeId.raised`, `NativeObject.raised`, `BackendError.raised`: numbers moved up;
- `Backend.Stacked`: a graph as it stands alone, and above a base;
- `Backend.attach_inStep` and its like: operations do the same to both;
- `Backend.fillScheme_inStep`: so do sequences of them.
-/

namespace ProjectCompiler

open Stateful

/-! ## Numbers moved up -/

def NativeId.raised (n : Nat) (id : NativeId) : NativeId :=
  ⟨id.index + n⟩

def NativeProject.raised (n : Nat) (p : NativeProject) : NativeProject :=
  { p with
    groups := p.groups.map (NativeId.raised n)
    targets := p.targets.map (NativeId.raised n)
    configurations := p.configurations.map (NativeId.raised n) }

def NativeTarget.raised (n : Nat) (t : NativeTarget) : NativeTarget :=
  { t with
    configurations := t.configurations.map (NativeId.raised n)
    dependencies := t.dependencies.map (NativeId.raised n) }

def NativeScheme.raised (n : Nat) (s : NativeScheme) : NativeScheme :=
  { s with
    buildTargets := s.buildTargets.map (NativeId.raised n)
    launchTarget := s.launchTarget.map (NativeId.raised n)
    testTargets := s.testTargets.map (NativeId.raised n) }

def NativeObject.raised (n : Nat) : NativeObject → NativeObject
  | .project p => .project (p.raised n)
  | .group g => .group g
  | .target t => .target (t.raised n)
  | .configuration c => .configuration c
  | .scheme s => .scheme (s.raised n)

def BackendError.raised (n : Nat) : BackendError → BackendError
  | .unknownObject id => .unknownObject (id.raised n)
  | .wrongKind id found expected => .wrongKind (id.raised n) found expected
  | error => error

theorem NativeId.raised_injective (n : Nat) : Function.Injective (NativeId.raised n) := by
  rintro ⟨first⟩ ⟨second⟩ heq
  exact congrArg NativeId.mk (Nat.add_right_cancel (NativeId.mk.inj heq))

theorem NativeObject.kind_raised (n : Nat) (object : NativeObject) :
    (object.raised n).kind = object.kind := by
  cases object <;> rfl

theorem NativeId.raised_zero : NativeId.raised 0 = id := rfl

theorem NativeObject.raised_zero : NativeObject.raised 0 = id := by
  funext object
  cases object with
  | project p => simp [raised, NativeProject.raised, NativeId.raised_zero]
  | target t => simp [raised, NativeTarget.raised, NativeId.raised_zero]
  | scheme s => simp [raised, NativeScheme.raised, NativeId.raised_zero]
  | group | configuration => rfl

theorem BackendError.raised_zero : BackendError.raised 0 = id := by
  funext error
  cases error <;> rfl

/-- A new object holds no numbers. -/
theorem NativeObject.raised_of_ofNode {node : Node} {object : NativeObject}
    (h : ofNode node = .ok object) (n : Nat) : object.raised n = object := by
  cases node with
  | target t =>
    rw [ofNode] at h
    split at h
    · cases h
      rfl
    · cases h
  | project | configuration | scheme =>
    cases h
    rfl

theorem BackendError.raised_of_ofNode {node : Node} {error : BackendError}
    (h : NativeObject.ofNode node = .error error) (n : Nat) : error.raised n = error := by
  cases node with
  | target t =>
    rw [NativeObject.ofNode] at h
    split at h
    · cases h
    · cases h
      rfl
  | project | configuration | scheme => cases h

namespace Backend

theorem appendNew_append {ids : List NativeId} {id : NativeId} (h : id ∉ ids)
    (more : List NativeId) : appendNew (ids ++ more) id = ids ++ appendNew more id := by
  unfold appendNew
  by_cases hmem : id ∈ more
  · rw [if_pos hmem, if_pos (List.mem_append_right ids hmem)]
  · have hnew : id ∉ ids ++ more := fun happend => (List.mem_append.1 happend).elim h hmem
    rw [if_neg hmem, if_neg hnew, List.append_assoc]

theorem appendNew_raised (n : Nat) (ids : List NativeId) (id : NativeId) :
    appendNew (ids.map (NativeId.raised n)) (id.raised n) =
      (appendNew ids id).map (NativeId.raised n) := by
  unfold appendNew
  simp only [List.mem_map_of_injective (NativeId.raised_injective n)]
  split <;> simp

theorem attached?_raised (n : Nat) (parent : NativeObject) (child : NativeId) (kind : NativeKind) :
    attached? (parent.raised n) (child.raised n) kind =
      (attached? parent child kind).map (NativeObject.raised n) := by
  cases parent <;> cases kind <;>
    simp [attached?, NativeObject.raised, NativeProject.raised, NativeTarget.raised,
      appendNew_raised]

/-! ## A graph above others -/

/-- The whole graph is the base with what stands alone above it, and so are its lists. Where and what
it saves is of no account. -/
structure Stacked (base alone whole : Backend) : Prop where
  objects : whole.objects =
    base.objects ++ alone.objects.map (NativeObject.raised base.objects.length)
  suppressed : whole.suppressed =
    base.suppressed ++ alone.suppressed.map (NativeId.raised base.objects.length)
  listed : whole.listed = base.listed ++ alone.listed.map (NativeId.raised base.objects.length)

/-- Targets without an automatic scheme are objects. -/
def Grounded (backend : Backend) : Prop :=
  ∀ id ∈ backend.suppressed, id.index < backend.objects.length

namespace Stacked

variable {base alone whole : Backend}

theorem object? (h : base.Stacked alone whole) (id : NativeId) :
    whole.object? (id.raised base.objects.length) =
      (alone.object? id).map (NativeObject.raised base.objects.length) := by
  have habove : base.objects.length ≤ id.index + base.objects.length := Nat.le_add_left _ _
  rw [Backend.object?, NativeId.raised, h.objects, List.getElem?_append_right habove,
    Nat.add_sub_cancel, List.getElem?_map]
  rfl

theorem length (h : base.Stacked alone whole) :
    whole.objects.length = alone.objects.length + base.objects.length := by
  rw [h.objects, List.length_append, List.length_map, Nat.add_comm]

theorem extended (h : base.Stacked alone whole) (object : NativeObject) :
    base.Stacked (alone.extended object)
      (whole.extended (object.raised base.objects.length)) where
  objects := by simp [h.objects]
  suppressed := h.suppressed
  listed := h.listed

theorem replaced (h : base.Stacked alone whole) (id : NativeId) (object : NativeObject) :
    base.Stacked (alone.replaced id object)
      (whole.replaced (id.raised base.objects.length)
        (object.raised base.objects.length)) where
  objects := by
    have habove : base.objects.length ≤ id.index + base.objects.length := Nat.le_add_left _ _
    rw [objects_replaced, objects_replaced, NativeId.raised, h.objects,
      List.set_append_right _ _ habove, Nat.add_sub_cancel, List.map_set]
  suppressed := h.suppressed
  listed := h.listed

theorem suppress (h : base.Stacked alone whole) (hbase : base.Grounded) (id : NativeId) :
    base.Stacked { alone with suppressed := appendNew alone.suppressed id }
      { whole with
        suppressed := appendNew whole.suppressed (id.raised base.objects.length) } where
  objects := h.objects
  suppressed := by
    -- A number that is moved up is not among those of the base.
    have hnew : id.raised base.objects.length ∉ base.suppressed := by
      intro hmem
      exact Nat.not_lt_of_le (Nat.le_add_left _ _) (hbase _ hmem)
    rw [h.suppressed, appendNew_append hnew, appendNew_raised]
  listed := h.listed

theorem push (h : base.Stacked alone whole) (id : NativeId) :
    base.Stacked { alone with listed := alone.listed ++ [id] }
      { whole with listed := whole.listed ++ [id.raised base.objects.length] } where
  objects := h.objects
  suppressed := h.suppressed
  listed := by simp [h.listed]

end Stacked

/-- Above nothing, a graph is as it stands alone. -/
theorem stacked_empty_iff {alone whole : Backend} :
    empty.Stacked alone whole ↔ alone.SameGraph whole := by
  have hobjects : empty.objects ++ alone.objects.map (NativeObject.raised empty.objects.length) =
      alone.objects := by
    simp [empty, NativeObject.raised_zero]
  have hids : ∀ ids : List NativeId, [] ++ ids.map (NativeId.raised empty.objects.length) = ids := by
    intro ids
    simp [empty, NativeId.raised_zero]
  constructor
  · intro h
    exact ⟨h.objects.trans hobjects, h.suppressed.trans (hids _), h.listed.trans (hids _)⟩
  · intro h
    exact ⟨h.objects.trans hobjects.symm, h.suppressed.trans (hids _).symm,
      h.listed.trans (hids _).symm⟩

theorem grounded_empty : empty.Grounded := by
  simp [Grounded, empty]

/-! ## Operations on both -/

section Operations

variable {base : Backend}

theorem requireObject_inStep (number : NativeId) :
    InStep base.Stacked (NativeObject.raised base.objects.length)
      (BackendError.raised base.objects.length) (requireObject number)
      (requireObject (number.raised base.objects.length)) := by
  intro alone whole h
  rw [requireObject, requireObject, get_bind, get_bind, h.object? number]
  cases alone.object? number with
  | none => exact ⟨rfl, h⟩
  | some object => exact ⟨rfl, h⟩

theorem requireProject_inStep (number : NativeId) :
    InStep base.Stacked (NativeProject.raised base.objects.length)
      (BackendError.raised base.objects.length) (requireProject number)
      (requireProject (number.raised base.objects.length)) := by
  refine (requireObject_inStep number).bind fun object => ?_
  cases object with
  | project p => exact InStep.pure p
  | group | target | configuration | scheme => exact InStep.throw _

theorem requireTarget_inStep (number : NativeId) :
    InStep base.Stacked (NativeTarget.raised base.objects.length)
      (BackendError.raised base.objects.length) (requireTarget number)
      (requireTarget (number.raised base.objects.length)) := by
  refine (requireObject_inStep number).bind fun object => ?_
  cases object with
  | target t => exact InStep.pure t
  | project | group | configuration | scheme => exact InStep.throw _

theorem requireConfiguration_inStep (number : NativeId) :
    InStep base.Stacked id (BackendError.raised base.objects.length) (requireConfiguration number)
      (requireConfiguration (number.raised base.objects.length)) := by
  refine (requireObject_inStep number).bind fun object => ?_
  cases object with
  | configuration c => exact InStep.pure c
  | project | group | target | scheme => exact InStep.throw _

theorem requireScheme_inStep (number : NativeId) :
    InStep base.Stacked (NativeScheme.raised base.objects.length)
      (BackendError.raised base.objects.length) (requireScheme number)
      (requireScheme (number.raised base.objects.length)) := by
  refine (requireObject_inStep number).bind fun object => ?_
  cases object with
  | scheme s => exact InStep.pure s
  | project | group | target | configuration => exact InStep.throw _

theorem store_inStep (number : NativeId) (object : NativeObject) :
    InStep base.Stacked id (BackendError.raised base.objects.length) (store number object)
      (store (number.raised base.objects.length) (object.raised base.objects.length)) :=
  InStep.update fun _ _ h => h.replaced number object

theorem insert_inStep (object : NativeObject) :
    InStep base.Stacked (NativeId.raised base.objects.length)
      (BackendError.raised base.objects.length) (insert object)
      (insert (object.raised base.objects.length)) := by
  intro alone whole h
  refine ⟨?_, h.extended object⟩
  exact congrArg (fun number => Except.ok (NativeId.mk number)) h.length

theorem create_inStep (node : Node) :
    InStep base.Stacked (NativeId.raised base.objects.length)
      (BackendError.raised base.objects.length) (create node) (create node) := by
  unfold create
  cases hnode : NativeObject.ofNode node with
  | ok object =>
    have hinsert : InStep base.Stacked _ _ (insert object) (insert (object.raised _)) :=
      insert_inStep object
    rwa [NativeObject.raised_of_ofNode hnode] at hinsert
  | error error =>
    intro alone whole h
    exact ⟨congrArg Except.error (BackendError.raised_of_ofNode hnode _).symm, h⟩

theorem createGroup_inStep (project : NativeId) (name : String) :
    InStep base.Stacked (NativeId.raised base.objects.length)
      (BackendError.raised base.objects.length) (createGroup project name)
      (createGroup (project.raised base.objects.length) name) := by
  refine (requireProject_inStep project).bind fun _ => ?_
  refine (insert_inStep (.group { name })).bind fun group => ?_
  refine (requireProject_inStep project).bind fun p => ?_
  have hproject : (p.raised base.objects.length).groups ++ [group.raised base.objects.length] =
      (p.groups ++ [group]).map (NativeId.raised base.objects.length) := by
    simp [NativeProject.raised]
  rw [hproject]
  exact (store_inStep project (.project { p with groups := p.groups ++ [group] })).bind
    fun _ => InStep.pure group

theorem attach_inStep (parent child : NativeId) :
    InStep base.Stacked id (BackendError.raised base.objects.length) (attach parent child)
      (attach (parent.raised base.objects.length) (child.raised base.objects.length)) := by
  refine (requireObject_inStep child).bind fun childObject => ?_
  refine (requireObject_inStep parent).bind fun parentObject => ?_
  simp only [NativeObject.kind_raised, (NativeId.raised_injective _).eq_iff, attached?_raised]
  by_cases hsame : parent = child
  · simp only [hsame, if_true]
    exact InStep.throw _
  · simp only [hsame, if_false]
    cases attached? parentObject child childObject.kind with
    | none => exact InStep.throw _
    | some object => exact store_inStep parent object

theorem setBuildSettings_inStep (configuration : NativeId) (settings : Settings) :
    InStep base.Stacked id (BackendError.raised base.objects.length)
      (setBuildSettings configuration settings)
      (setBuildSettings (configuration.raised base.objects.length) settings) :=
  (requireConfiguration_inStep configuration).bind fun c =>
    store_inStep configuration (.configuration { c with settings })

theorem setSchemeName_inStep (scheme : NativeId) (name : String) :
    InStep base.Stacked id (BackendError.raised base.objects.length) (setSchemeName scheme name)
      (setSchemeName (scheme.raised base.objects.length) name) :=
  (requireScheme_inStep scheme).bind fun s => store_inStep scheme (.scheme { s with name })

theorem setAction_inStep (scheme : NativeId) (action : SchemeAction) (configuration : String) :
    InStep base.Stacked id (BackendError.raised base.objects.length)
      (setAction scheme action configuration)
      (setAction (scheme.raised base.objects.length) action configuration) :=
  (requireScheme_inStep scheme).bind fun s =>
    store_inStep scheme (.scheme { s with actions := Entries.insert s.actions action configuration })

theorem configureScheme_inStep (scheme target : NativeId) (test : Option NativeId) :
    InStep base.Stacked id (BackendError.raised base.objects.length)
      (configureScheme scheme target test)
      (configureScheme (scheme.raised base.objects.length) (target.raised base.objects.length)
        (test.map (NativeId.raised base.objects.length))) := by
  refine (requireTarget_inStep target).bind fun _ => ?_
  cases test with
  | none =>
    exact (requireScheme_inStep scheme).bind fun s => store_inStep scheme (.scheme { s with
      buildTargets := [target]
      launchTarget := some target
      testTargets := [] })
  | some bundle =>
    refine (requireTarget_inStep bundle).bind fun _ => ?_
    exact (requireScheme_inStep scheme).bind fun s => store_inStep scheme (.scheme { s with
      buildTargets := [target, bundle]
      launchTarget := some target
      testTargets := [bundle] })

theorem suppress_inStep (hbase : base.Grounded) (target : NativeId) :
    InStep base.Stacked id (BackendError.raised base.objects.length) (suppress target)
      (suppress (target.raised base.objects.length)) :=
  InStep.update fun _ _ h => h.suppress hbase target

theorem push_inStep (scheme : NativeId) :
    InStep base.Stacked id (BackendError.raised base.objects.length) (push scheme)
      (push (scheme.raised base.objects.length)) :=
  InStep.update fun _ _ h => h.push scheme

theorem fillScheme_inStep (target : NativeId) (test : Option NativeId) (scheme : Scheme)
    (number : NativeId) :
    InStep base.Stacked id (BackendError.raised base.objects.length)
      (fillScheme target test scheme number)
      (fillScheme (target.raised base.objects.length)
        (test.map (NativeId.raised base.objects.length)) scheme
        (number.raised base.objects.length)) := by
  refine (setSchemeName_inStep number scheme.name).bind fun _ => ?_
  refine (configureScheme_inStep number target test).bind fun _ => ?_
  refine (InStep.forM fun action _ => setAction_inStep number action.1 action.2).bind fun _ => ?_
  exact push_inStep number

end Operations

end Backend

end ProjectCompiler
