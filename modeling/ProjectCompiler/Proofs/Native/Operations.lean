import ProjectCompiler.Native.Backend
import ProjectCompiler.Proofs.Stateful

/-!
# Operations — what an edit of known objects comes to

An operation that finds objects of the right kinds under its numbers puts one changed object in the
place of the old one. There is one equation for each operation.

- `Backend.attach_apply`: the child goes to the list for its kind;
- `Backend.createGroup_apply`, `Backend.setBuildSettings_apply`, `Backend.setSchemeName_apply`,
  `Backend.configureScheme_apply`, `Backend.setAction_apply`: likewise;
- `Backend.fillScheme_apply`: a scheme is filled in and put on the list.
-/

namespace ProjectCompiler

open Stateful

/-- The kinds of objects that may hold others, and which. -/
def NativeKind.holds : NativeKind → NativeKind → Bool
  | .project, .group | .project, .target | .project, .configuration => true
  | .target, .configuration | .target, .target => true
  | _, _ => false

namespace Backend

variable {backend : Backend} {id : NativeId}

/-- Another object in the place of one. -/
def replaced (backend : Backend) (id : NativeId) (object : NativeObject) : Backend :=
  { backend with objects := backend.objects.set id.index object }

/-- A new object after all others. -/
def extended (backend : Backend) (object : NativeObject) : Backend :=
  { backend with objects := backend.objects ++ [object] }

@[simp]
theorem objects_extended (backend : Backend) (object : NativeObject) :
    (backend.extended object).objects = backend.objects ++ [object] :=
  rfl

@[simp]
theorem objects_replaced (backend : Backend) (id : NativeId) (object : NativeObject) :
    (backend.replaced id object).objects = backend.objects.set id.index object :=
  rfl

theorem object?_extended {object : NativeObject} (h : backend.object? id = some object)
    (new : NativeObject) : (backend.extended new).object? id = some object := by
  rcases List.getElem?_eq_some_iff.1 h with ⟨hlt, -⟩
  rw [object?, extended, List.getElem?_append_left hlt]
  exact h

theorem object?_extended_new (backend : Backend) (new : NativeObject) :
    (backend.extended new).object? ⟨backend.objects.length⟩ = some new := by
  simp [object?]

/-- Objects stand below the number of the next one. -/
theorem index_lt_of_object? {object : NativeObject} (h : backend.object? id = some object) :
    id.index < backend.objects.length := by
  rcases List.getElem?_eq_some_iff.1 h with ⟨hlt, -⟩
  exact hlt

theorem object?_of_extended {object new : NativeObject}
    (h : (backend.extended new).object? id = some object) :
    backend.object? id = some object ∨ id = ⟨backend.objects.length⟩ ∧ object = new := by
  have hlt := index_lt_of_object? h
  rw [objects_extended, List.length_append, List.length_singleton] at hlt
  rcases Nat.lt_succ_iff_lt_or_eq.1 hlt with hold | hlast
  · rw [object?, objects_extended, List.getElem?_append_left hold] at h
    exact Or.inl h
  · obtain rfl : id = ⟨backend.objects.length⟩ := congrArg NativeId.mk hlast
    rw [object?_extended_new] at h
    exact Or.inr ⟨rfl, (Option.some.inj h).symm⟩

theorem object?_replaced_self {object : NativeObject} (h : backend.object? id = some object)
    (new : NativeObject) : (backend.replaced id new).object? id = some new := by
  rcases List.getElem?_eq_some_iff.1 h with ⟨hlt, -⟩
  simp [object?, replaced, hlt]

theorem object?_replaced_ne {other : NativeId} (h : other ≠ id) (new : NativeObject) :
    (backend.replaced id new).object? other = backend.object? other := by
  have hindex : id.index ≠ other.index := by
    intro heq
    apply h
    cases id
    cases other
    simp_all
  simp [object?, replaced, List.getElem?_set_ne hindex]

theorem replaced_replaced (backend : Backend) (id : NativeId) (first second : NativeObject) :
    (backend.replaced id first).replaced id second = backend.replaced id second := by
  simp [replaced]

/-! ## Looking objects up -/

theorem requireObject_apply {object : NativeObject} (h : backend.object? id = some object) :
    requireObject id backend = (.ok object, backend) := by
  rw [requireObject, get_bind, h]
  rfl

theorem requireProject_apply {p : NativeProject} (h : backend.object? id = some (.project p)) :
    requireProject id backend = (.ok p, backend) := by
  rw [requireProject, bind_of_ok (requireObject_apply h)]
  rfl

theorem requireTarget_apply {t : NativeTarget} (h : backend.object? id = some (.target t)) :
    requireTarget id backend = (.ok t, backend) := by
  rw [requireTarget, bind_of_ok (requireObject_apply h)]
  rfl

theorem requireConfiguration_apply {c : NativeConfiguration}
    (h : backend.object? id = some (.configuration c)) :
    requireConfiguration id backend = (.ok c, backend) := by
  rw [requireConfiguration, bind_of_ok (requireObject_apply h)]
  rfl

theorem requireScheme_apply {s : NativeScheme} (h : backend.object? id = some (.scheme s)) :
    requireScheme id backend = (.ok s, backend) := by
  rw [requireScheme, bind_of_ok (requireObject_apply h)]
  rfl

/-! ## Objects of the graph -/

theorem kind_attached? {parent object : NativeObject} {child : NativeId} {kind : NativeKind}
    (h : attached? parent child kind = some object) : object.kind = parent.kind := by
  cases parent <;> cases kind <;> cases h <;> rfl

theorem isSome_attached? (parent : NativeObject) (child : NativeId) (kind : NativeKind) :
    (attached? parent child kind).isSome = parent.kind.holds kind := by
  cases parent <;> cases kind <;> rfl

theorem attach_apply {parent child : NativeId} {parentObject childObject : NativeObject}
    (hparent : backend.object? parent = some parentObject)
    (hchild : backend.object? child = some childObject) :
    attach parent child backend =
      match if parent = child then none else attached? parentObject child childObject.kind with
      | some object => (.ok (), backend.replaced parent object)
      | none => (.error (.invalidAttachment parentObject.kind childObject.kind), backend) := by
  rw [attach, bind_of_ok (requireObject_apply hchild), bind_of_ok (requireObject_apply hparent)]
  -- An object is refused as its own parent in the same words as one of a wrong kind.
  by_cases hsame : parent = child
  · simp only [hsame, if_true]
    rfl
  · simp only [hsame, if_false]
    rcases attached? parentObject child childObject.kind with _ | object
    · rfl
    · rfl

theorem createGroup_apply {p : NativeProject} (h : backend.object? id = some (.project p))
    (name : String) :
    createGroup id name backend =
      (.ok ⟨backend.objects.length⟩, (backend.extended (.group { name })).replaced id
        (.project { p with groups := p.groups ++ [⟨backend.objects.length⟩] })) := by
  have hinsert : insert (.group { name }) backend =
      (.ok ⟨backend.objects.length⟩, backend.extended (.group { name })) := rfl
  -- The project is looked up twice: before the group is made, and once more to hold it.
  rw [createGroup, bind_of_ok (requireProject_apply h), bind_of_ok hinsert,
    bind_of_ok (requireProject_apply (object?_extended h _))]
  rfl

theorem setBuildSettings_apply {c : NativeConfiguration}
    (h : backend.object? id = some (.configuration c)) (settings : Settings) :
    setBuildSettings id settings backend =
      (.ok (), backend.replaced id (.configuration { c with settings })) := by
  rw [setBuildSettings, bind_of_ok (requireConfiguration_apply h)]
  rfl

/-! ## Schemes -/

theorem setSchemeName_apply {s : NativeScheme} (h : backend.object? id = some (.scheme s))
    (name : String) :
    setSchemeName id name backend = (.ok (), backend.replaced id (.scheme { s with name })) := by
  rw [setSchemeName, bind_of_ok (requireScheme_apply h)]
  rfl

theorem configureScheme_apply {s : NativeScheme} {t : NativeTarget} {target : NativeId}
    {test : Option NativeId} (h : backend.object? id = some (.scheme s))
    (htarget : backend.object? target = some (.target t))
    (htest : ∀ bundle ∈ test, ∃ b, backend.object? bundle = some (.target b)) :
    configureScheme id target test backend =
      (.ok (), backend.replaced id (.scheme { s with
        buildTargets := target :: test.toList
        launchTarget := some target
        testTargets := test.toList })) := by
  rw [configureScheme, bind_of_ok (requireTarget_apply htarget)]
  rcases test with _ | bundle
  · exact bind_of_ok (requireScheme_apply h) _
  · rcases htest bundle rfl with ⟨b, hb⟩
    refine (bind_of_ok (requireTarget_apply hb) _).trans ?_
    exact bind_of_ok (requireScheme_apply h) _

theorem setAction_apply {s : NativeScheme} (h : backend.object? id = some (.scheme s))
    (action : SchemeAction) (configuration : String) :
    setAction id action configuration backend =
      (.ok (), backend.replaced id
        (.scheme { s with actions := Entries.insert s.actions action configuration })) := by
  rw [setAction, bind_of_ok (requireScheme_apply h)]
  rfl

theorem setActions_apply {s : NativeScheme} (h : backend.object? id = some (.scheme s))
    (actions : List (SchemeAction × String)) :
    (actions.forM fun action => setAction id action.1 action.2) backend =
      (.ok (), backend.replaced id (.scheme { s with
        actions := actions.foldl (fun entries pair => Entries.insert entries pair.1 pair.2)
          s.actions })) := by
  induction actions generalizing backend s with
  | nil =>
    -- A scheme in its own place changes nothing.
    have hsame : backend.replaced id (.scheme s) = backend := by
      rcases List.getElem?_eq_some_iff.1 h with ⟨hlt, hget⟩
      rw [replaced, ← hget, List.set_getElem_self]
    rw [List.foldl_nil, hsame]
    rfl
  | cons action rest ih =>
    have hnext := ih (object?_replaced_self h (.scheme { s with
      actions := Entries.insert s.actions action.1 action.2 }))
    rw [replaced_replaced] at hnext
    exact (bind_of_ok (setAction_apply h action.1 action.2) _).trans hnext

/-- Fill in a scheme and put it on the scheme list. -/
def fillScheme (target : NativeId) (test : Option NativeId) (scheme : Scheme) (id : NativeId) :
    Edit Unit := do
  setSchemeName id scheme.name
  configureScheme id target test
  scheme.configurations.forM fun action => setAction id action.1 action.2
  push id

theorem fillScheme_apply {s : NativeScheme} {t : NativeTarget} {target : NativeId}
    {test : Option NativeId} (scheme : Scheme) (h : backend.object? id = some (.scheme s))
    (htarget : backend.object? target = some (.target t))
    (htest : ∀ bundle ∈ test, ∃ b, backend.object? bundle = some (.target b)) :
    fillScheme target test scheme id backend =
      (.ok (), { backend.replaced id (.scheme {
        name := scheme.name
        buildTargets := target :: test.toList
        launchTarget := some target
        testTargets := test.toList
        actions := scheme.configurations.foldl
          (fun entries pair => Entries.insert entries pair.1 pair.2) s.actions }) with
        listed := backend.listed ++ [id] }) := by
  -- Targets are not the scheme, so they are found as before.
  have hkept : ∀ {other : NativeId} {object : NativeTarget} (new : NativeObject),
      backend.object? other = some (.target object) →
        (backend.replaced id new).object? other = some (.target object) := by
    intro other object new hother
    rw [object?_replaced_ne _ new, hother]
    rintro rfl
    rw [h] at hother
    cases hother
  -- Each step finds the scheme as the one before left it, and only the last object counts.
  have hnamed := object?_replaced_self h (.scheme { s with name := scheme.name })
  have hconfigured := configureScheme_apply hnamed (hkept _ htarget) fun bundle hbundle => by
    rcases htest bundle hbundle with ⟨b, hb⟩
    exact ⟨b, hkept _ hb⟩
  rw [replaced_replaced] at hconfigured
  have hfilled := setActions_apply (object?_replaced_self h (.scheme { s with
    name := scheme.name
    buildTargets := target :: test.toList
    launchTarget := some target
    testTargets := test.toList })) scheme.configurations
  rw [replaced_replaced] at hfilled
  rw [fillScheme, bind_of_ok (setSchemeName_apply h scheme.name), bind_of_ok hconfigured,
    bind_of_ok hfilled]
  rfl

end Backend

end ProjectCompiler
