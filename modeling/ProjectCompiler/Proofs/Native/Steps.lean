import ProjectCompiler.Proofs.Disk.Writing
import ProjectCompiler.Proofs.Native.Refusals
import Mathlib.Logic.Relation

/-!
# Steps — what operations make of a backend

An operation that fails leaves the graph as it is, and one that succeeds changes it in one of a few
ways. Here these ways are listed once, with what the operation has checked before; whatever holds of a
backend along all of them holds along every run.

- `Backend.Step`: one change of the graph, by any operation with any numbers;
- `Operation.settles`: an operation that does not save makes one of these changes, or it is refused and
  makes none;
- `Backend.failed_operation_does_nothing`: what fails changes nothing, and what fails is told beforehand;
- `Operation.moves`: so what holds along every change holds along every operation;
- `Backend.Keeps`: what no operation takes away.
-/

namespace ProjectCompiler

open Stateful

namespace Backend

/-! ## One change -/

/-- What an operation may do to a backend. -/
inductive Step (before : Backend) : Backend → Prop
  | create {node : Node} {object : NativeObject} (made : NativeObject.ofNode node = .ok object) :
      Step before (before.extended object)
  | group {id : NativeId} {p : NativeProject} (name : String)
      (found : before.object? id = some (.project p)) :
      Step before ((before.extended (.group { name })).replaced id
        (.project { p with groups := p.groups ++ [⟨before.objects.length⟩] }))
  | attach {parent child : NativeId} {parentObject childObject object : NativeObject}
      (parentFound : before.object? parent = some parentObject)
      (childFound : before.object? child = some childObject) (other : parent ≠ child)
      (attached : attached? parentObject child childObject.kind = some object) :
      Step before (before.replaced parent object)
  | settle {id : NativeId} {c : NativeConfiguration} (settings : Settings)
      (found : before.object? id = some (.configuration c)) :
      Step before (before.replaced id (.configuration { c with settings }))
  | rename {id : NativeId} {s : NativeScheme} (name : String)
      (found : before.object? id = some (.scheme s)) :
      Step before (before.replaced id (.scheme { s with name }))
  | configure {id target : NativeId} {test : Option NativeId} {s : NativeScheme} {t : NativeTarget}
      (found : before.object? id = some (.scheme s))
      (targetFound : before.object? target = some (.target t))
      (testFound : ∀ bundle ∈ test, ∃ b, before.object? bundle = some (.target b)) :
      Step before (before.replaced id (.scheme { s with
        buildTargets := target :: test.toList
        launchTarget := some target
        testTargets := test.toList }))
  | act {id : NativeId} {s : NativeScheme} (action : SchemeAction) (configuration : String)
      (found : before.object? id = some (.scheme s)) :
      Step before (before.replaced id
        (.scheme { s with actions := Entries.insert s.actions action configuration }))
  | suppress (id : NativeId) :
      Step before { before with suppressed := appendNew before.suppressed id }
  | push (id : NativeId) : Step before { before with listed := before.listed ++ [id] }

/-- The graph is the same, and so is the scheme list that a run works on. -/
structure SameGraph (before after : Backend) : Prop where
  objects : after.objects = before.objects
  suppressed : after.suppressed = before.suppressed
  listed : after.listed = before.listed

/-! ## One operation -/

/-- An operation fails for a reason and changes nothing, or there is no reason to refuse it and it makes
one change. -/
inductive Settles (before : Backend) (operation : Operation) :
    Except BackendError operation.Answer × Backend → Prop
  | done {answer : operation.Answer} {after : Backend} (step : before.Step after)
      (proper : ∀ error, ¬ before.Refuses operation error) :
      Settles before operation (.ok answer, after)
  | refused {error : BackendError} (reason : before.Refuses operation error) :
      Settles before operation (.error error, before)

theorem create_settles (node : Node) (backend : Backend) :
    backend.Settles (.create node) (create node backend) := by
  rcases hnode : NativeObject.ofNode node with error | object
  · rw [create, hnode]
    exact .refused (refuses_create_iff.2 hnode)
  · rw [create, hnode]
    refine .done (.create hnode) fun error hrefuses => ?_
    rw [refuses_create_iff, hnode] at hrefuses
    cases hrefuses

theorem createGroup_settles (project : NativeId) (name : String) (backend : Backend) :
    backend.Settles (.createGroup project name) (createGroup project name backend) := by
  rcases requireProject_result project backend with ⟨p, hp⟩ | ⟨error, hunmet, herror⟩
  · rw [createGroup_apply hp]
    exact .done (.group name hp) (not_refuses_of_need rfl hp)
  · rw [createGroup, bind_of_error herror]
    exact .refused (.unmet List.mem_cons_self hunmet)

/-- The child is looked up first, then the parent. -/
theorem attach_settles (parent child : NativeId) (backend : Backend) :
    backend.Settles (.attach parent child) (attach parent child backend) := by
  rcases requireObject_result child backend with ⟨childObject, hchild⟩ | ⟨error, hnone, herror⟩
  · rcases requireObject_result parent backend with ⟨parentObject, hparent⟩ | ⟨error, hnone, herror⟩
    · rw [attach_apply hparent hchild]
      by_cases hsame : parent = child
      · rw [if_pos hsame]
        exact .refused (.unfit hparent hchild (.inl hsame))
      · rw [if_neg hsame]
        -- The child joins a list of the parent exactly if the parent's kind has one for it.
        have hholds := isSome_attached? parentObject child childObject.kind
        rcases hattached : attached? parentObject child childObject.kind with _ | object
        · rw [hattached] at hholds
          exact .refused (.unfit hparent hchild (.inr hholds.symm))
        · rw [hattached] at hholds
          exact .done (.attach hparent hchild hsame hattached)
            (not_refuses_attach hparent hchild hsame hholds.symm)
    · obtain ⟨habsent, rfl⟩ := hnone
      rw [attach, bind_of_ok (requireObject_apply hchild), bind_of_error herror]
      exact .refused (.unknown (.inl rfl) habsent)
  · obtain ⟨habsent, rfl⟩ := hnone
    rw [attach, bind_of_error herror]
    exact .refused (.unknown (.inr rfl) habsent)

theorem setBuildSettings_settles (id : NativeId) (settings : Settings) (backend : Backend) :
    backend.Settles (.setBuildSettings id settings) (setBuildSettings id settings backend) := by
  rcases requireConfiguration_result id backend with ⟨c, hc⟩ | ⟨error, hunmet, herror⟩
  · rw [setBuildSettings_apply hc]
    exact .done (.settle settings hc) (not_refuses_of_need rfl hc)
  · rw [setBuildSettings, bind_of_error herror]
    exact .refused (.unmet List.mem_cons_self hunmet)

theorem setSchemeName_settles (id : NativeId) (name : String) (backend : Backend) :
    backend.Settles (.setSchemeName id name) (setSchemeName id name backend) := by
  rcases requireScheme_result id backend with ⟨s, hs⟩ | ⟨error, hunmet, herror⟩
  · rw [setSchemeName_apply hs]
    exact .done (.rename name hs) (not_refuses_of_need rfl hs)
  · rw [setSchemeName, bind_of_error herror]
    exact .refused (.unmet List.mem_cons_self hunmet)

theorem setAction_settles (id : NativeId) (action : SchemeAction) (configuration : String)
    (backend : Backend) :
    backend.Settles (.setAction id action configuration)
      (setAction id action configuration backend) := by
  rcases requireScheme_result id backend with ⟨s, hs⟩ | ⟨error, hunmet, herror⟩
  · rw [setAction_apply hs]
    exact .done (.act action configuration hs) (not_refuses_of_need rfl hs)
  · rw [setAction, bind_of_error herror]
    exact .refused (.unmet List.mem_cons_self hunmet)

/-- A test bundle may be left out, and one that is given must be a target. -/
theorem requireTest_result (test : Option NativeId) (backend : Backend) :
    (∀ bundle ∈ test, ∃ b, backend.object? bundle = some (.target b)) ∨
      ∃ bundle error, test = some bundle ∧ backend.Unmet bundle .target error ∧
        requireTarget bundle backend = (.error error, backend) := by
  cases test with
  | none => exact Or.inl nofun
  | some bundle =>
    rcases requireTarget_result bundle backend with ⟨b, hb⟩ | ⟨error, hunmet, herror⟩
    · refine Or.inl fun other hother => ?_
      obtain rfl := Option.some.inj hother
      exact ⟨b, hb⟩
    · exact Or.inr ⟨bundle, error, rfl, hunmet, herror⟩

theorem configureScheme_settles (id target : NativeId) (test : Option NativeId)
    (backend : Backend) :
    backend.Settles (.configureScheme id target test) (configureScheme id target test backend) := by
  rcases requireTarget_result target backend with ⟨t, ht⟩ | ⟨error, hunmet, herror⟩
  · rcases requireTest_result test backend with htests | ⟨bundle, error, rfl, hunmet, herror⟩
    · rcases requireScheme_result id backend with ⟨s, hs⟩ | ⟨error, hunmet, herror⟩
      · rw [configureScheme_apply hs ht htests]
        refine .done (.configure hs ht htests) (not_refuses_of_needs (List.cons_ne_nil _ _) ?_)
        intro need hneed
        rcases List.mem_cons.1 hneed with rfl | hneed
        · exact ⟨_, ht, rfl⟩
        · rcases List.mem_cons.1 hneed with rfl | hneed
          · exact ⟨_, hs, rfl⟩
          · obtain ⟨bundle, hbundle, rfl⟩ := List.mem_map.1 hneed
            obtain ⟨b, hb⟩ := htests bundle (Option.mem_toList.1 hbundle)
            exact ⟨_, hb, rfl⟩
      · have hfailed : configureScheme id target test backend = (.error error, backend) := by
          rw [configureScheme, bind_of_ok (requireTarget_apply ht)]
          cases test with
          | none => exact bind_of_error herror _
          | some bundle =>
            obtain ⟨b, hb⟩ := htests bundle rfl
            exact (bind_of_ok (requireTarget_apply hb) _).trans (bind_of_error herror _)
        rw [hfailed]
        exact .refused (.unmet (by simp [Operation.needs]) hunmet)
    · have hfailed : configureScheme id target (some bundle) backend = (.error error, backend) := by
        rw [configureScheme, bind_of_ok (requireTarget_apply ht)]
        exact bind_of_error herror _
      rw [hfailed]
      exact .refused (.unmet (by simp [Operation.needs]) hunmet)
  · rw [configureScheme, bind_of_error herror]
    exact .refused (.unmet List.mem_cons_self hunmet)

/-! ## Saving -/

variable {backend after : Backend}

/-- The list counts as saved only after it is written. -/
theorem save_apply (backend : Backend) :
    save backend =
      match backend.output with
      | none => (.ok (), { backend with
          saved := some backend.snapshot, saveCount := backend.saveCount + 1 })
      | some path =>
          match writeFile path backend.snapshot.text backend with
          | (.error error, failed) => (.error error, failed)
          | (.ok _, written) => (.ok (), { written with
              saved := some backend.snapshot, saveCount := written.saveCount + 1 }) := by
  rcases houtput : backend.output with _ | path
  · simp only [save, get_bind, houtput, modify_apply]
  · rcases hwrite : writeFile path backend.snapshot.text backend with ⟨result, written⟩
    cases result with
    | ok answer => simp only [save, get_bind, houtput, bind_of_ok hwrite, hwrite, modify_apply]
    | error error => simp only [save, get_bind, houtput, bind_of_error hwrite, hwrite]

theorem save_eq_ok (h : save backend = (.ok (), after)) :
    ∃ disk, after = { backend with
      saved := some backend.snapshot, saveCount := backend.saveCount + 1, disk } := by
  rw [save_apply] at h
  split at h
  · cases h
    exact ⟨backend.disk, rfl⟩
  · rename_i path _
    rcases hwrite : writeFile path backend.snapshot.text backend with ⟨result, written⟩
    rw [hwrite] at h
    cases result with
    | error error => cases h
    | ok answer =>
      cases h
      rcases frame_of_writeFile_ok hwrite with ⟨disk, rfl⟩
      exact ⟨disk, rfl⟩

/-- A list that is not saved may leave new directories, and the output file as it was. -/
theorem save_eq_error {error : BackendError} (h : save backend = (.error error, after)) :
    ∃ disk, after = { backend with disk } ∧
      ∀ path, backend.output = some path → disk.file? path = backend.disk.file? path := by
  rw [save_apply] at h
  split at h
  · cases h
  · rename_i path houtput
    rcases hwrite : writeFile path backend.snapshot.text backend with ⟨result, written⟩
    rw [hwrite] at h
    cases result with
    | ok answer => cases h
    | error reason =>
      cases h
      -- The list in memory is set after the write, which did not come to its end.
      rcases file?_of_writeFile_error hwrite with ⟨disk, rfl, hfile⟩
      refine ⟨disk, rfl, ?_⟩
      intro other hother
      obtain rfl := Option.some.inj (houtput.symm.trans hother)
      exact hfile

theorem save_sameGraph (backend : Backend) : backend.SameGraph (save backend).2 := by
  rcases hsave : save backend with ⟨error | answer, after⟩
  · obtain ⟨disk, rfl, -⟩ := save_eq_error hsave
    exact ⟨rfl, rfl, rfl⟩
  · obtain ⟨disk, rfl⟩ := save_eq_ok hsave
    exact ⟨rfl, rfl, rfl⟩

end Backend

/-! ## Operations -/

namespace Operation

theorem settles (operation : Operation) (h : operation ≠ .save) (backend : Backend) :
    backend.Settles operation (operation.perform backend) := by
  cases operation with
  | create node => exact Backend.create_settles node backend
  | createGroup project name => exact Backend.createGroup_settles project name backend
  | attach parent child => exact Backend.attach_settles parent child backend
  | setBuildSettings id settings => exact Backend.setBuildSettings_settles id settings backend
  | setSchemeName id name => exact Backend.setSchemeName_settles id name backend
  | configureScheme id target test => exact Backend.configureScheme_settles id target test backend
  | setAction id action configuration =>
    exact Backend.setAction_settles id action configuration backend
  | suppress target =>
    refine .done (.suppress target) fun error h => ?_
    cases h with
    | unmet need => cases need
  | push scheme =>
    refine .done (.push scheme) fun error h => ?_
    cases h with
    | unmet need => cases need
  | save => exact absurd rfl h

/-- The backend is as before, or one change away from it. -/
theorem sameOrStep (operation : Operation) (h : operation ≠ .save) (backend : Backend) :
    (operation.perform backend).2 = backend ∨ backend.Step (operation.perform backend).2 := by
  have hsettles := operation.settles h backend
  rcases hrun : operation.perform backend with ⟨result, after⟩
  rw [hrun] at hsettles
  cases hsettles with
  | done step => exact Or.inr step
  | refused => exact Or.inl rfl

variable {related : Backend → Backend → Prop} [IsPreorder Backend related]

/-- What holds along every change holds along every operation that does not save. -/
theorem moves_of_ne_save (hstep : ∀ before after, before.Step after → related before after)
    (operation : Operation) (h : operation ≠ .save) : Moves related operation.perform := by
  intro backend
  rcases operation.sameOrStep h backend with hsame | hchanged
  · rw [hsame]
    exact refl_of related backend
  · exact hstep backend _ hchanged

theorem moves (hstep : ∀ before after, before.Step after → related before after)
    (hsame : ∀ before after, before.SameGraph after → related before after)
    (operation : Operation) : Moves related operation.perform := by
  by_cases h : operation = .save
  · subst h
    exact fun backend => hsame backend _ backend.save_sameGraph
  · exact operation.moves_of_ne_save hstep h

end Operation

namespace Backend

/-! ## Failures -/

/-- An operation that fails does nothing, except that a save may leave new directories. Operations other
than saving fail exactly if something is wrong with them, and then they tell something that is. -/
theorem failed_operation_does_nothing (backend : Backend) (operation : Operation) :
    (∀ error after, operation.perform backend = (.error error, after) →
      (∃ disk, after = { backend with disk } ∧
        ∀ path, backend.output = some path → disk.file? path = backend.disk.file? path) ∧
      (operation ≠ .save → after = backend ∧ backend.Refuses operation error)) ∧
    (operation ≠ .save →
      ((∃ error, (operation.perform backend).1 = .error error) ↔
        ∃ error, backend.Refuses operation error)) := by
  by_cases hsave : operation = .save
  · subst hsave
    refine ⟨fun error after h => ⟨save_eq_error h, ?_⟩, ?_⟩
    · exact fun hother => absurd rfl hother
    · exact fun hother => absurd rfl hother
  · have hsettles := operation.settles hsave backend
    rcases hrun : operation.perform backend with ⟨result, final⟩
    rw [hrun] at hsettles
    cases hsettles with
    | done step proper =>
      constructor
      · intro error after h
        cases h
      · refine fun _ => ⟨fun ⟨error, h⟩ => ?_, fun ⟨error, hrefuses⟩ => ?_⟩
        · cases h
        · exact absurd hrefuses (proper error)
    | refused reason =>
      constructor
      · intro error after h
        cases h
        exact ⟨⟨backend.disk, rfl, fun _ _ => rfl⟩, fun _ => ⟨rfl, reason⟩⟩
      · exact fun _ => ⟨fun _ => ⟨_, reason⟩, fun _ => ⟨_, rfl⟩⟩

/-- A scheme for a group, tested by an object that is not there, and a file in the place of the output
directory. -/
theorem scheme_of_group_does_nothing :
    let backend : Backend :=
      { withOutput "out/xcschemes.json" (Disk.empty.putFile "out" (.text "")) with
        objects := [.group { name := "Products" }, .scheme {
          name := "App", buildTargets := [], launchTarget := none, testTargets := [], actions := [] }]
        listed := [⟨1⟩] }
    let configure := Operation.configureScheme ⟨1⟩ ⟨0⟩ (some ⟨7⟩)
    configure.perform backend = (.error (.wrongKind ⟨0⟩ .group .target), backend) ∧
      backend.Refuses configure (.wrongKind ⟨0⟩ .group .target) ∧
      backend.Refuses configure (.unknownObject ⟨7⟩) ∧
      Operation.save.perform backend = (.error (.inaccessible "out"), backend) := by
  intro backend configure
  have hconfigure : configure.perform backend =
      (.error (.wrongKind ⟨0⟩ .group .target), backend) := rfl
  have hsave : Operation.save.perform backend = (.error (.inaccessible "out"), backend) := rfl
  obtain ⟨hfails, -⟩ := failed_operation_does_nothing backend configure
  have hrefuses := (hfails _ _ hconfigure).2 nofun
  refine ⟨hconfigure, hrefuses.2, ?_, hsave⟩
  exact .unmet (List.mem_cons_of_mem _ (List.mem_cons_of_mem _ List.mem_cons_self)) (.missing rfl)

end Backend

/-! ## What stays -/

namespace Backend

/-- No object goes away or changes its kind, only schemes change their names, and the scheme list only
grows at its end. -/
structure Keeps (before after : Backend) : Prop where
  objects : ∀ id object, before.object? id = some object → ∃ later, after.object? id = some later ∧
    later.kind = object.kind ∧ (object.kind ≠ .scheme → later.name = object.name)
  suppressed : before.suppressed <+: after.suppressed
  listed : before.listed <+: after.listed

instance : IsPreorder Backend Keeps where
  refl _ := ⟨fun _ object h => ⟨object, h, rfl, fun _ => rfl⟩, List.prefix_rfl, List.prefix_rfl⟩
  trans _ _ _ first second := by
    refine ⟨fun id object h => ?_, first.suppressed.trans second.suppressed,
      first.listed.trans second.listed⟩
    obtain ⟨middle, hmiddle, hkind, hname⟩ := first.objects id object h
    obtain ⟨later, hlater, hlaterKind, hlaterName⟩ := second.objects id middle hmiddle
    refine ⟨later, hlater, hlaterKind.trans hkind, fun hscheme => ?_⟩
    exact (hlaterName (hkind ▸ hscheme)).trans (hname hscheme)

variable {before after : Backend}

theorem keeps_extended (before : Backend) (object : NativeObject) :
    before.Keeps (before.extended object) where
  objects _ old h := ⟨old, object?_extended h object, rfl, fun _ => rfl⟩
  suppressed := List.prefix_rfl
  listed := List.prefix_rfl

theorem keeps_replaced {id : NativeId} {old new : NativeObject} (h : before.object? id = some old)
    (hkind : new.kind = old.kind) (hname : old.kind ≠ .scheme → new.name = old.name) :
    before.Keeps (before.replaced id new) where
  objects := by
    intro other object hobject
    by_cases hsame : other = id
    · subst hsame
      obtain rfl : old = object := Option.some.inj (h.symm.trans hobject)
      exact ⟨new, object?_replaced_self h new, hkind, hname⟩
    · exact ⟨object, (object?_replaced_ne hsame new).trans hobject, rfl, fun _ => rfl⟩
  suppressed := List.prefix_rfl
  listed := List.prefix_rfl

theorem isPrefix_appendNew (ids : List NativeId) (id : NativeId) : ids <+: appendNew ids id := by
  unfold appendNew
  split
  · exact List.prefix_rfl
  · exact List.prefix_append ids [id]

theorem mem_appendNew {ids : List NativeId} {id other : NativeId} (h : other ∈ appendNew ids id) :
    other ∈ ids ∨ other = id := by
  unfold appendNew at h
  split at h
  · exact Or.inl h
  · simpa using h

theorem name_attached? {parent object : NativeObject} {child : NativeId} {kind : NativeKind}
    (h : attached? parent child kind = some object) : object.name = parent.name := by
  cases parent <;> cases kind <;> cases h <;> rfl

theorem Step.keeps (h : before.Step after) : before.Keeps after := by
  cases h with
  | create made => exact keeps_extended before _
  | group name found =>
    refine trans_of Keeps (keeps_extended before (.group { name })) ?_
    exact keeps_replaced (object?_extended found _) rfl fun _ => rfl
  | attach parentFound childFound other attached =>
    exact keeps_replaced parentFound (kind_attached? attached) fun _ => name_attached? attached
  | settle settings found => exact keeps_replaced found rfl fun _ => rfl
  | rename name found => exact keeps_replaced found rfl fun hscheme => absurd rfl hscheme
  | configure found targetFound testFound => exact keeps_replaced found rfl fun _ => rfl
  | act action configuration found => exact keeps_replaced found rfl fun _ => rfl
  | suppress id =>
    exact ⟨(refl_of Keeps before).objects, isPrefix_appendNew before.suppressed id, List.prefix_rfl⟩
  | push id =>
    exact ⟨(refl_of Keeps before).objects, List.prefix_rfl, List.prefix_append before.listed [id]⟩

theorem SameGraph.keeps (h : before.SameGraph after) : before.Keeps after where
  objects id object hobject := by
    refine ⟨object, ?_, rfl, fun _ => rfl⟩
    rwa [object?, h.objects]
  suppressed := h.suppressed ▸ List.prefix_rfl
  listed := h.listed ▸ List.prefix_rfl

end Backend

theorem Operation.perform_keeps (operation : Operation) : Moves Backend.Keeps operation.perform :=
  operation.moves (fun _ _ step => step.keeps) fun _ _ same => same.keeps

end ProjectCompiler
