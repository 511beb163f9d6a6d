import ProjectCompiler.Proofs.Native.Steps
import Mathlib.Data.List.Nodup

/-!
# WellTyped — what the numbers in the graph stand for

Objects refer to each other by number, and operations take any numbers. An operation therefore looks up
every number that it is given, and stores only what it has found. A graph that starts out empty stays
well-typed in this way, whatever is asked of it and however often it refuses.

- `NativeObject.lists`: the lists of an object, each with the kind of objects that it is for;
- `Backend.WellTyped`: numbers stand for objects of the right kinds, and lists hold each number once;
- `Backend.Step.wellTyped`: no change of the graph breaks this;
- `Operation.performAll_wellTyped`: so it holds after every sequence of operations, none of which takes
  an object away.
-/

namespace ProjectCompiler

open Stateful

/-! ## Lists of numbers -/

/-- The numbers that an object holds, by the kind of objects that each list is for. -/
def NativeObject.lists : NativeObject → List (NativeKind × List NativeId)
  | .project p => [(.group, p.groups), (.target, p.targets), (.configuration, p.configurations)]
  | .group _ => []
  | .target t => [(.configuration, t.configurations), (.target, t.dependencies)]
  | .configuration _ => []
  | .scheme s =>
      [(.target, s.buildTargets), (.target, s.launchTarget.toList), (.target, s.testTargets)]

namespace Backend

variable {before after backend : Backend} {id : NativeId} {object : NativeObject}

/-- An object may stand at a number: what it holds are other objects, of the right kinds. Only a scheme
may hold an object twice. -/
structure Admits (backend : Backend) (id : NativeId) (object : NativeObject) : Prop where
  typed : ∀ list ∈ object.lists, ∀ link ∈ list.2, ∃ linked,
    backend.object? link = some linked ∧ linked.kind = list.1
  distinct : object.kind ≠ .scheme → ∀ list ∈ object.lists, list.2.Nodup
  other : ∀ list ∈ object.lists, id ∉ list.2

/-- Every object may stand where it does, and no target is suppressed twice. -/
structure WellTyped (backend : Backend) : Prop where
  objects : ∀ id object, backend.object? id = some object → backend.Admits id object
  suppressed : backend.suppressed.Nodup

/-! ## Objects that are admitted -/

theorem Admits.mono (h : before.Admits id object) (hkeeps : before.Keeps after) :
    after.Admits id object where
  typed := by
    intro list hlist link hlink
    obtain ⟨linked, hlinked, hkind⟩ := h.typed list hlist link hlink
    obtain ⟨later, hlater, hsame, -⟩ := hkeeps.objects link linked hlinked
    exact ⟨later, hlater, hsame.trans hkind⟩
  distinct := h.distinct
  other := h.other

/-- An object with other contents, but the same numbers. -/
theorem Admits.of_lists_eq {other : NativeObject} (h : backend.Admits id object)
    (hlists : other.lists = object.lists) (hkind : other.kind = object.kind) :
    backend.Admits id other where
  typed := hlists ▸ h.typed
  distinct := by
    rw [hlists, hkind]
    exact h.distinct
  other := hlists ▸ h.other

/-- A new object holds no numbers yet. -/
theorem lists_of_ofNode {node : Node} (h : NativeObject.ofNode node = .ok object) :
    ∀ list ∈ object.lists, list.2 = [] := by
  cases node with
  | target t =>
    rw [NativeObject.ofNode] at h
    split at h
    · cases h
      simp [NativeObject.lists]
    · cases h
  | project | configuration | scheme =>
    cases h
    simp [NativeObject.lists]

theorem admits_of_empty (h : ∀ list ∈ object.lists, list.2 = []) : backend.Admits id object where
  typed := by
    intro list hlist link hlink
    simp [h list hlist] at hlink
  distinct := by
    intro _ list hlist
    rw [h list hlist]
    exact List.nodup_nil
  other := by
    intro list hlist
    simp [h list hlist]

theorem nodup_appendNew {ids : List NativeId} (h : ids.Nodup) (id : NativeId) :
    (appendNew ids id).Nodup := by
  unfold appendNew
  split
  · exact h
  · rename_i hnew
    rw [← List.concat_eq_append]
    exact List.Nodup.concat hnew h

/-- Attaching adds one number, to the lists for its kind. -/
theorem lists_attached? {parent : NativeObject} {child : NativeId} {kind : NativeKind}
    (h : attached? parent child kind = some object) :
    object.lists = parent.lists.map fun list =>
      if list.1 = kind then (list.1, appendNew list.2 child) else list := by
  cases parent <;> cases kind <;> cases h <;> rfl

theorem Admits.attached {parent : NativeId} {parentObject childObject : NativeObject}
    (h : backend.Admits parent parentObject) {child : NativeId}
    (hchild : backend.object? child = some childObject) (hother : parent ≠ child)
    (hattached : attached? parentObject child childObject.kind = some object) :
    backend.Admits parent object := by
  have hlists : ∀ list ∈ object.lists, ∃ old ∈ parentObject.lists, list.1 = old.1 ∧
      (list.2 = old.2 ∨ old.1 = childObject.kind ∧ list.2 = appendNew old.2 child) := by
    intro list hlist
    rw [lists_attached? hattached] at hlist
    obtain ⟨old, hold, rfl⟩ := List.mem_map.1 hlist
    refine ⟨old, hold, ?_⟩
    split
    · rename_i hkind
      exact ⟨rfl, Or.inr ⟨hkind, rfl⟩⟩
    · exact ⟨rfl, Or.inl rfl⟩
  constructor
  · intro list hlist link hlink
    obtain ⟨old, hold, hkind, hsame | ⟨hchildKind, hnew⟩⟩ := hlists list hlist
    · rw [hkind]
      exact h.typed old hold link (hsame ▸ hlink)
    · rw [hkind]
      rw [hnew] at hlink
      rcases mem_appendNew hlink with hmem | rfl
      · exact h.typed old hold link hmem
      · exact ⟨childObject, hchild, hchildKind.symm⟩
  · intro hkind list hlist
    rw [kind_attached? hattached] at hkind
    obtain ⟨old, hold, -, hsame | ⟨-, hnew⟩⟩ := hlists list hlist
    · exact hsame ▸ h.distinct hkind old hold
    · exact hnew ▸ nodup_appendNew (h.distinct hkind old hold) child
  · intro list hlist hmem
    obtain ⟨old, hold, -, hsame | ⟨-, hnew⟩⟩ := hlists list hlist
    · exact h.other old hold (hsame ▸ hmem)
    · rcases mem_appendNew (hnew ▸ hmem) with hmem | hsame
      · exact h.other old hold hmem
      · exact hother hsame

/-! ## One change -/

namespace WellTyped

theorem extended (h : backend.WellTyped) (hempty : ∀ list ∈ object.lists, list.2 = []) :
    (backend.extended object).WellTyped where
  objects := by
    intro id other hother
    rcases object?_of_extended hother with hold | ⟨-, rfl⟩
    · exact (h.objects id other hold).mono (keeps_extended backend object)
    · exact admits_of_empty hempty
  suppressed := h.suppressed

theorem replaced (h : backend.WellTyped) {old : NativeObject}
    (hold : backend.object? id = some old) (hadmits : backend.Admits id object)
    (hkind : object.kind = old.kind) (hname : old.kind ≠ .scheme → object.name = old.name) :
    (backend.replaced id object).WellTyped where
  objects := by
    have hkeeps := keeps_replaced hold hkind hname
    intro other found hfound
    by_cases hsame : other = id
    · subst hsame
      rw [object?_replaced_self hold] at hfound
      obtain rfl := Option.some.inj hfound
      exact hadmits.mono hkeeps
    · rw [object?_replaced_ne hsame] at hfound
      exact (h.objects other found hfound).mono hkeeps
  suppressed := h.suppressed

theorem attached (h : backend.WellTyped) {parent child : NativeId}
    {parentObject childObject : NativeObject} (hparent : backend.object? parent = some parentObject)
    (hchild : backend.object? child = some childObject) (hother : parent ≠ child)
    (hattached : attached? parentObject child childObject.kind = some object) :
    (backend.replaced parent object).WellTyped :=
  h.replaced hparent ((h.objects parent parentObject hparent).attached hchild hother hattached)
    (kind_attached? hattached) fun _ => name_attached? hattached

/-- A scheme may hold any targets. -/
theorem configured (h : backend.WellTyped) {s : NativeScheme}
    (hfound : backend.object? id = some (.scheme s)) {t : NativeTarget} {target : NativeId}
    {test : Option NativeId} (htarget : backend.object? target = some (.target t))
    (htest : ∀ bundle ∈ test, ∃ b, backend.object? bundle = some (.target b)) :
    (backend.replaced id (.scheme { s with
      buildTargets := target :: test.toList
      launchTarget := some target
      testTargets := test.toList })).WellTyped := by
  have htargets : ∀ link ∈ target :: test.toList, ∃ b, backend.object? link = some (.target b) := by
    intro link hlink
    rcases List.mem_cons.1 hlink with rfl | hbundle
    · exact ⟨t, htarget⟩
    · exact htest link (Option.mem_toList.1 hbundle)
  have hlists : ∀ list ∈ (NativeObject.scheme { s with
      buildTargets := target :: test.toList
      launchTarget := some target
      testTargets := test.toList }).lists, list.1 = .target ∧ list.2 ⊆ target :: test.toList := by
    simp [NativeObject.lists]
  refine h.replaced hfound ⟨?_, fun hkind => absurd rfl hkind, ?_⟩ rfl fun _ => rfl
  · intro list hlist link hlink
    obtain ⟨hkind, hsubset⟩ := hlists list hlist
    obtain ⟨b, hb⟩ := htargets link (hsubset hlink)
    exact ⟨.target b, hb, hkind.symm⟩
  · intro list hlist hmem
    -- The scheme itself is no target.
    obtain ⟨b, hb⟩ := htargets id ((hlists list hlist).2 hmem)
    rw [hfound] at hb
    cases hb

/-- Nothing but the scheme list changes. -/
theorem of_objects_eq (h : before.WellTyped) (hobjects : after.objects = before.objects)
    (hsuppressed : after.suppressed.Nodup) : after.WellTyped where
  objects := by
    have hobject? : ∀ id, after.object? id = before.object? id := by
      intro id
      rw [object?, object?, hobjects]
    intro id object hobject
    have hadmits := h.objects id object (hobject? id ▸ hobject)
    refine ⟨?_, hadmits.distinct, hadmits.other⟩
    intro list hlist link hlink
    rw [hobject?]
    exact hadmits.typed list hlist link hlink
  suppressed := hsuppressed

end WellTyped

theorem Step.wellTyped (hstep : before.Step after) (h : before.WellTyped) : after.WellTyped := by
  cases hstep with
  | create made => exact h.extended (lists_of_ofNode made)
  | @group id p name found =>
    -- A group is made by itself and then attached to the project, which did not hold it before.
    have hmiddle : (before.extended (.group { name })).WellTyped :=
      h.extended (by simp [NativeObject.lists])
    have hlt := index_lt_of_object? found
    have hnew : (⟨before.objects.length⟩ : NativeId) ∉ p.groups := by
      intro hmem
      obtain ⟨linked, hlinked, -⟩ := (h.objects id _ found).typed (.group, p.groups)
        (by simp [NativeObject.lists]) _ hmem
      exact Nat.lt_irrefl _ (index_lt_of_object? hlinked)
    refine hmiddle.attached (object?_extended found _) (object?_extended_new before _) ?_ ?_
    · rintro rfl
      exact Nat.lt_irrefl _ hlt
    · simp only [NativeObject.kind, attached?, appendNew, if_neg hnew]
  | attach parentFound childFound other attached =>
    exact h.attached parentFound childFound other attached
  | @settle id c settings found =>
    exact h.replaced found ((h.objects id _ found).of_lists_eq rfl rfl) rfl fun _ => rfl
  | @rename id s name found =>
    exact h.replaced found ((h.objects id _ found).of_lists_eq rfl rfl) rfl
      fun hscheme => absurd rfl hscheme
  | configure found targetFound testFound => exact h.configured found targetFound testFound
  | @act id s action configuration found =>
    exact h.replaced found ((h.objects id _ found).of_lists_eq rfl rfl) rfl fun _ => rfl
  | suppress id => exact h.of_objects_eq rfl (nodup_appendNew h.suppressed id)
  | push id => exact h.of_objects_eq rfl h.suppressed

theorem SameGraph.wellTyped (hsame : before.SameGraph after) (h : before.WellTyped) :
    after.WellTyped :=
  h.of_objects_eq hsame.objects (hsame.suppressed ▸ h.suppressed)

end Backend

/-! ## Sequences of operations -/

namespace Operation

/-- Operations one after another, whether they fail or not. -/
def performAll (operations : List Operation) (backend : Backend) : Backend :=
  operations.foldl (fun backend operation => (operation.perform backend).2) backend

theorem performAll_append (first second : List Operation) (backend : Backend) :
    performAll (first ++ second) backend = performAll second (performAll first backend) :=
  List.foldl_append

theorem perform_wellTyped (operation : Operation) {backend : Backend} (h : backend.WellTyped) :
    (operation.perform backend).2.WellTyped := by
  by_cases hsave : operation = .save
  · subst hsave
    exact backend.save_sameGraph.wellTyped h
  · rcases operation.sameOrStep hsave backend with hsame | hstep
    · rwa [hsame]
    · exact hstep.wellTyped h

theorem performAll_wellTyped (operations : List Operation) {backend : Backend}
    (h : backend.WellTyped) : (performAll operations backend).WellTyped := by
  induction operations generalizing backend with
  | nil => exact h
  | cons operation rest ih => exact ih (operation.perform_wellTyped h)

theorem performAll_keeps (operations : List Operation) (backend : Backend) :
    backend.Keeps (performAll operations backend) := by
  induction operations generalizing backend with
  | nil => exact refl_of Backend.Keeps backend
  | cons operation rest ih =>
    exact trans_of Backend.Keeps (operation.perform_keeps backend) (ih _)

end Operation

namespace Backend

/-- However a graph came about, its numbers stand for objects of the right kinds, its lists hold each
number once, and no target depends on itself; and whatever follows, no object goes away or changes its
kind, and only schemes change their names. -/
theorem graph_stays_wellTyped {start : Backend}
    (hstart : start = empty ∨ ∃ path disk, start = withOutput path disk)
    (operations : List Operation) :
    (Operation.performAll operations start).WellTyped ∧
      ∀ later, (Operation.performAll operations start).Keeps
        (Operation.performAll (operations ++ later) start) := by
  have hempty : start.objects = [] ∧ start.suppressed = [] := by
    rcases hstart with rfl | ⟨path, disk, rfl⟩
    · exact ⟨rfl, rfl⟩
    · exact ⟨rfl, rfl⟩
  have hnew : start.WellTyped := by
    constructor
    · intro id object hobject
      simp [object?, hempty.1] at hobject
    · rw [hempty.2]
      exact List.nodup_nil
  refine ⟨Operation.performAll_wellTyped operations hnew, fun later => ?_⟩
  rw [Operation.performAll_append]
  exact Operation.performAll_keeps later _

/-- A bundle depends on an application, and the application is not attached to itself. -/
theorem dependency_wellTyped :
    let app := (Target.new "App" .application .ios "17.0" ⟨10⟩).1
    let tests := (Target.new "AppTests" .unitTestBundle .ios "17.0" ⟨11⟩).1
    let operations := [.create (.target app), .create (.target tests), .attach ⟨1⟩ ⟨0⟩,
      .attach ⟨1⟩ ⟨0⟩, .attach ⟨0⟩ ⟨0⟩, .attach ⟨0⟩ ⟨7⟩, .suppress ⟨7⟩, .save]
    let final := Operation.performAll operations (withOutput "out/schemes.json" Disk.empty)
    final.WellTyped ∧ (final.target? ⟨0⟩).map NativeTarget.dependencies = some [] ∧
      (final.target? ⟨1⟩).map NativeTarget.dependencies = some [⟨0⟩] := by
  intro app tests operations final
  have hnew : withOutput "out/schemes.json" Disk.empty = empty ∨
      ∃ path disk, withOutput "out/schemes.json" Disk.empty = withOutput path disk :=
    Or.inr ⟨_, _, rfl⟩
  exact ⟨(graph_stays_wellTyped hnew operations).1, by decide +kernel, by decide +kernel⟩

end Backend

end ProjectCompiler
