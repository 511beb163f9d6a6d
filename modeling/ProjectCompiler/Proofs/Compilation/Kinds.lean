import ProjectCompiler.Proofs.Compilation.Standard
import ProjectCompiler.Proofs.Native.Stacking

/-!
# Kinds — known nodes have objects of their kind

A run asks the backend for a change only with numbers that it was answered for nodes of the project. As
long as nodes of different kinds do not share an identity, these numbers stand for objects of the right
kinds. So the backend refuses a number never, and no error of a run names one.

- `KindsApart`: nodes that share an identity are of one kind;
- `Session.Matched`, `Session.Kinded`: what is known in a session, against the objects of the backend;
- `Safe`: runs that keep this and fail without naming numbers;
- `Plan.safe_standard`: the instructions of the standard pipeline.
-/

namespace ProjectCompiler

open Stateful

variable {ν α β : Type}

/-- Nodes that share an identity are of one kind. -/
def KindsApart (nodes : List Node) : Prop :=
  ∀ first ∈ nodes, ∀ second ∈ nodes, first.id = second.id → first.nativeKind = second.nativeKind

/-! ## Errors without numbers -/

namespace PipelineError

/-- The error with the numbers of native objects moved up. -/
def raised (n : Nat) : PipelineError → PipelineError
  | .translation object reason => .translation object (reason.raised n)
  | .backend error => .backend (error.raised n)
  | .persist error => .persist (error.raised n)
  | error => error

theorem raised_zero : raised 0 = id := by
  funext error
  cases error <;> simp [raised, BackendError.raised_zero]

/-- No native object is named by its number. -/
def Numberless (error : PipelineError) : Prop :=
  ∀ n, error.raised n = error

end PipelineError

/-- The plan may fail by itself, but not for a native object. -/
def Instruction.Numberless (instruction : Instruction) : Prop :=
  ∀ error, instruction = .fail error → error.Numberless

namespace Plan

variable {policy : TestTargetPolicy} {project : Project}

theorem numberless_linkHost (target : Target) :
    ∀ instruction ∈ linkHost project target, instruction.Numberless := by
  unfold linkHost
  split
  · simp
  · split <;> simp [Instruction.Numberless, PipelineError.Numberless, PipelineError.raised]

theorem numberless_addScheme (target : Target) (test : Option Target) (scheme : Scheme) :
    ∀ instruction ∈ addScheme project target test scheme, instruction.Numberless := by
  unfold addScheme
  split <;> simp [Instruction.Numberless, PipelineError.Numberless, PipelineError.raised]

theorem numberless_addSchemes (target : Target) :
    ∀ instruction ∈ addSchemes policy project target, instruction.Numberless := by
  unfold addSchemes
  split
  · simp
  · rename_i error hfound _
    have herror : error.Numberless := by
      unfold Generators.unitTestTarget at hfound
      split at hfound <;> cases hfound
      exact fun _ => rfl
    simp [Instruction.Numberless, herror]
  · simp only [List.forall_mem_flatMap]
    exact fun scheme _ => numberless_addScheme target none scheme
  · rename_i test _ _
    simp only [List.forall_mem_cons, List.forall_mem_flatMap]
    exact ⟨by simp [Instruction.Numberless], by simp [Instruction.Numberless],
      fun scheme _ => numberless_addScheme target (some test) scheme⟩

theorem numberless_standard : ∀ instruction ∈ standard policy project, instruction.Numberless := by
  have hlink : ∀ target, ∀ instruction ∈ linkHost project target, instruction.Numberless :=
    numberless_linkHost
  have hadd : ∀ target, ∀ instruction ∈ addSchemes policy project target,
      instruction.Numberless := numberless_addSchemes
  rw [forall_mem_standard (by simp [Instruction.Numberless])]
  simp only [projectStructure, targets, configurations, schemes, placeConfiguration,
    List.forall_mem_cons, List.forall_mem_flatMap]
  -- What is left are the two places in which a plan may fail.
  simp only [Instruction.Numberless] at hlink hadd ⊢
  simp
  exact ⟨fun target _ => hlink target, fun target _ => hadd target⟩

end Plan

/-! ## Targets that are suppressed -/

namespace Backend

/-- No object goes away, and the list of suppressed targets stays as it is. -/
structure SuppressesNone (before after : Backend) : Prop where
  suppressed : after.suppressed = before.suppressed
  length : before.objects.length ≤ after.objects.length

instance : IsPreorder Backend SuppressesNone where
  refl _ := ⟨rfl, Nat.le_refl _⟩
  trans _ _ _ first second :=
    ⟨second.suppressed.trans first.suppressed, Nat.le_trans first.length second.length⟩

theorem SuppressesNone.grounded {before after : Backend} (h : before.SuppressesNone after)
    (hbefore : before.Grounded) : after.Grounded := by
  intro id hid
  rw [h.suppressed] at hid
  exact Nat.lt_of_lt_of_le (hbefore id hid) h.length

theorem requireObject_moves (id : NativeId) : Moves SuppressesNone (requireObject id) := by
  refine Moves.bind Moves.get fun backend => ?_
  cases backend.object? id with
  | none => exact Moves.throw _
  | some object => exact Moves.pure _

theorem requireProject_moves (id : NativeId) : Moves SuppressesNone (requireProject id) := by
  refine (requireObject_moves id).bind fun object => ?_
  cases object with
  | project p => exact Moves.pure _
  | group | target | configuration | scheme => exact Moves.throw _

theorem requireTarget_moves (id : NativeId) : Moves SuppressesNone (requireTarget id) := by
  refine (requireObject_moves id).bind fun object => ?_
  cases object with
  | target t => exact Moves.pure _
  | project | group | configuration | scheme => exact Moves.throw _

theorem requireConfiguration_moves (id : NativeId) :
    Moves SuppressesNone (requireConfiguration id) := by
  refine (requireObject_moves id).bind fun object => ?_
  cases object with
  | configuration c => exact Moves.pure _
  | project | group | target | scheme => exact Moves.throw _

theorem requireScheme_moves (id : NativeId) : Moves SuppressesNone (requireScheme id) := by
  refine (requireObject_moves id).bind fun object => ?_
  cases object with
  | scheme s => exact Moves.pure _
  | project | group | target | configuration => exact Moves.throw _

theorem store_moves (id : NativeId) (object : NativeObject) :
    Moves SuppressesNone (store id object) :=
  fun backend => ⟨rfl, by simp [store]⟩

theorem insert_moves (object : NativeObject) : Moves SuppressesNone (insert object) := by
  intro backend
  have hinsert : (insert object backend).2 = backend.extended object := rfl
  rw [hinsert]
  exact ⟨rfl, by simp⟩

theorem createGroup_moves (project : NativeId) (name : String) :
    Moves SuppressesNone (createGroup project name) := by
  refine (requireProject_moves project).bind fun _ => (insert_moves _).bind fun group => ?_
  refine (requireProject_moves project).bind fun p => ?_
  exact (store_moves project _).bind fun _ => Moves.pure _

theorem attach_moves (parent child : NativeId) : Moves SuppressesNone (attach parent child) := by
  refine (requireObject_moves child).bind fun childObject => ?_
  refine (requireObject_moves parent).bind fun parentObject => ?_
  by_cases hsame : parent = child
  · simp only [hsame, if_true]
    exact (Moves.throw _).bind fun _ => by
      split
      · exact store_moves _ _
      · exact Moves.throw _
  · simp only [hsame, if_false]
    cases attached? parentObject child childObject.kind with
    | none => exact Moves.throw _
    | some object => exact store_moves parent object

theorem setBuildSettings_moves (configuration : NativeId) (settings : Settings) :
    Moves SuppressesNone (setBuildSettings configuration settings) :=
  (requireConfiguration_moves configuration).bind fun _ => store_moves configuration _

theorem configureScheme_moves (scheme target : NativeId) (test : Option NativeId) :
    Moves SuppressesNone (configureScheme scheme target test) := by
  refine (requireTarget_moves target).bind fun _ => ?_
  cases test with
  | none => exact (requireScheme_moves scheme).bind fun _ => store_moves scheme _
  | some bundle =>
    refine (requireTarget_moves bundle).bind fun _ => ?_
    exact (requireScheme_moves scheme).bind fun _ => store_moves scheme _

theorem fillScheme_moves (target : NativeId) (test : Option NativeId) (scheme : Scheme)
    (number : NativeId) : Moves SuppressesNone (fillScheme target test scheme number) := by
  have hrequired := requireScheme_moves number
  refine (hrequired.bind fun _ => store_moves number _).bind fun _ => ?_
  refine (configureScheme_moves number target test).bind fun _ => ?_
  refine (Moves.forM fun action _ => hrequired.bind fun _ => store_moves number _).bind fun _ => ?_
  exact fun backend => ⟨rfl, Nat.le_refl _⟩

/-- Its steps are operations, and so it keeps what they keep. -/
theorem fillScheme_keeps (target : NativeId) (test : Option NativeId) (scheme : Scheme)
    (number : NativeId) : Moves Keeps (fillScheme target test scheme number) := by
  refine ((Operation.setSchemeName number scheme.name).perform_keeps).bind fun _ => ?_
  refine ((Operation.configureScheme number target test).perform_keeps).bind fun _ => ?_
  refine (Moves.forM fun action _ =>
    (Operation.setAction number action.1 action.2).perform_keeps).bind fun _ => ?_
  exact (Operation.push number).perform_keeps

end Backend

/-! ## Known nodes -/

namespace Session

/-- What is known stands under identities of nodes, for objects of the kinds of these nodes. -/
def Matched (nodes : List Node) (session : Session ν) : Prop :=
  ∀ entry ∈ session.natives, ∃ node ∈ nodes, node.id = entry.1 ∧
    ∃ object, session.backend.object? entry.2 = some object ∧ object.kind = node.nativeKind

namespace Matched

variable {nodes : List Node} {session after : Session ν} {node : Node} {id : NativeId}

theorem of_natives_eq (h : session.Matched nodes) (hkeeps : session.backend.Keeps after.backend)
    (hnatives : after.natives = session.natives) : after.Matched nodes := by
  intro entry hentry
  obtain ⟨node, hnode, hid, object, hobject, hkind⟩ := h entry (hnatives ▸ hentry)
  obtain ⟨later, hlater, hsame, -⟩ := hkeeps.objects entry.2 object hobject
  exact ⟨node, hnode, hid, later, hlater, hsame.trans hkind⟩

/-- The object may have been made for another node of the identity, but that is of the same kind. -/
theorem object (h : session.Matched nodes) (hkinds : KindsApart nodes) (hnode : node ∈ nodes)
    (hknown : session.Knows node id) :
    ∃ object, session.backend.object? id = some object ∧ object.kind = node.nativeKind := by
  obtain ⟨other, hother, hid, object, hobject, hkind⟩ := h _ (Entries.mem_of_find? hknown)
  exact ⟨object, hobject, hkind.trans (hkinds other hother node hnode hid)⟩

/-- A new node gets an object of its kind. -/
theorem native (h : session.Matched nodes) (hnode : node ∈ nodes) :
    (Session.native node session).2.Matched nodes := by
  rw [Session.native_apply]
  rcases Entries.find? session.natives node.id with _ | id
  · rcases hobject : NativeObject.ofNode node with reason | object
    · exact h
    · intro entry hentry
      rcases List.mem_append.1 hentry with hold | hnew
      · obtain ⟨other, hother, hid, found, hfound, hkind⟩ := h entry hold
        exact ⟨other, hother, hid, found, Backend.object?_extended hfound object, hkind⟩
      · obtain rfl := List.mem_singleton.1 hnew
        exact ⟨node, hnode, rfl, object, Backend.object?_extended_new _ object,
          NativeObject.kind_of_ofNode hobject⟩
  · exact h

end Matched

end Session

/-- What is known stands under identities of nodes, for objects of the kinds of these nodes; and
targets without an automatic scheme are objects. -/
structure Session.Kinded (nodes : List Node) (session : Session ν) : Prop where
  known : ∀ entry ∈ session.natives, ∃ node ∈ nodes, node.id = entry.1 ∧
    ∃ object, session.backend.object? entry.2 = some object ∧ object.kind = node.nativeKind
  grounded : session.backend.Grounded

namespace Session.Kinded

variable {nodes : List Node} {session after : Session ν} {node : Node} {id : NativeId}

theorem start (project : Project) (supply : Supply) {backend : Backend} (h : backend.Grounded) :
    (Session.start (ν := ν) project supply backend).Kinded nodes :=
  ⟨nofun, h⟩

theorem matched (h : session.Kinded nodes) : session.Matched nodes :=
  h.known

theorem of_natives_eq (h : session.Kinded nodes) (hkeeps : session.backend.Keeps after.backend)
    (hgrounded : after.backend.Grounded) (hnatives : after.natives = session.natives) :
    after.Kinded nodes :=
  ⟨h.matched.of_natives_eq hkeeps hnatives, hgrounded⟩

theorem object (h : session.Kinded nodes) (hkinds : KindsApart nodes) (hnode : node ∈ nodes)
    (hknown : session.Knows node id) :
    ∃ object, session.backend.object? id = some object ∧ object.kind = node.nativeKind :=
  h.matched.object hkinds hnode hknown

theorem index_lt (h : session.Kinded nodes) (hknown : session.Knows node id) :
    id.index < session.backend.objects.length := by
  obtain ⟨other, hother, hid, object, hobject, hkind⟩ := h.known _ (Entries.mem_of_find? hknown)
  exact Backend.index_lt_of_object? hobject

theorem project (h : session.Kinded nodes) (hkinds : KindsApart nodes) {p : Project}
    (hnode : .project p ∈ nodes) (hknown : session.Knows (.project p) id) :
    ∃ native, session.backend.object? id = some (.project native) := by
  obtain ⟨object, hobject, hkind⟩ := h.object hkinds hnode hknown
  cases object with
  | project native => exact ⟨native, hobject⟩
  | group | target | configuration | scheme => cases hkind

theorem target (h : session.Kinded nodes) (hkinds : KindsApart nodes) {t : Target}
    (hnode : .target t ∈ nodes) (hknown : session.Knows (.target t) id) :
    ∃ native, session.backend.object? id = some (.target native) := by
  obtain ⟨object, hobject, hkind⟩ := h.object hkinds hnode hknown
  cases object with
  | target native => exact ⟨native, hobject⟩
  | project | group | configuration | scheme => cases hkind

theorem configuration (h : session.Kinded nodes) (hkinds : KindsApart nodes)
    {c : BuildConfiguration} (hnode : .configuration c ∈ nodes)
    (hknown : session.Knows (.configuration c) id) :
    ∃ native, session.backend.object? id = some (.configuration native) := by
  obtain ⟨object, hobject, hkind⟩ := h.object hkinds hnode hknown
  cases object with
  | configuration native => exact ⟨native, hobject⟩
  | project | group | target | scheme => cases hkind

theorem scheme (h : session.Kinded nodes) (hkinds : KindsApart nodes) {s : Scheme}
    (hnode : .scheme s ∈ nodes) (hknown : session.Knows (.scheme s) id) :
    ∃ native, session.backend.object? id = some (.scheme native) := by
  obtain ⟨object, hobject, hkind⟩ := h.object hkinds hnode hknown
  cases object with
  | scheme native => exact ⟨native, hobject⟩
  | project | group | target | configuration => cases hkind

theorem native (h : session.Kinded nodes) (hnode : node ∈ nodes) :
    (Session.native node session).2.Kinded nodes ∧
      ∀ error, (Session.native node session).1 = .error error → error.Numberless := by
  have hmatched := h.matched.native hnode
  rw [Session.native_apply] at hmatched ⊢
  rcases hfound : Entries.find? session.natives node.id with _ | id
  · rcases hobject : NativeObject.ofNode node with reason | object
    · refine ⟨h, fun error herror n => ?_⟩
      obtain rfl := Except.error.inj herror
      exact congrArg _ (BackendError.raised_of_ofNode hobject n)
    · rw [hfound, hobject] at hmatched
      have hspares : session.backend.SuppressesNone (session.backend.extended object) :=
        ⟨rfl, by simp⟩
      exact ⟨⟨hmatched, hspares.grounded h.grounded⟩, nofun⟩
  · exact ⟨h, nofun⟩

end Session.Kinded

/-! ## Safe runs -/

/-- From sessions that know certain nodes, the run leads to sessions whose known nodes have objects of
their kind; and it never fails for a number, as long as kinds are apart. -/
def Safe (nodes : List Node) (known : List (Node × NativeId)) (x : Run ν α) : Prop :=
  ∀ session : Session ν, session.Kinded nodes → (∀ entry ∈ known, session.Knows entry.1 entry.2) →
    (x session).2.Kinded nodes ∧
      (KindsApart nodes → ∀ error, (x session).1 = .error error → error.Numberless)

namespace Safe

variable {nodes : List Node} {known : List (Node × NativeId)}

theorem pure (a : α) : Safe nodes known (Pure.pure a : Run ν α) :=
  fun _ h _ => ⟨h, nofun⟩

theorem throw {error : PipelineError} (h : error.Numberless) :
    Safe nodes known (MonadExcept.throw error : Run ν α) :=
  fun _ hsession _ => ⟨hsession, fun _ _ herror => Except.error.inj herror ▸ h⟩

/-- Nothing is known and no object is there that was not before. -/
theorem update {change : Session ν → Session ν} (h : ∀ session,
      (change session).backend = session.backend ∧ (change session).natives = session.natives) :
    Safe nodes known (modify change : Run ν PUnit) := by
  intro session hsession _
  have hbackend := (h session).1
  refine ⟨hsession.of_natives_eq (hbackend ▸ refl_of Backend.Keeps _)
    (hbackend ▸ hsession.grounded) (h session).2, ?_⟩
  intro _ error herror
  cases herror

/-- What follows a run does not count on what was known before. -/
theorem bind {x : Run ν α} {f : α → Run ν β} (hx : Safe nodes known x)
    (hf : ∀ a, Safe nodes [] (f a)) : Safe nodes known (x >>= f) := by
  intro session hsession hknown
  obtain ⟨hkinded, herror⟩ := hx session hsession hknown
  rcases hrun : x session with ⟨reason | a, middle⟩
  · rw [bind_of_error hrun]
    rw [hrun] at hkinded herror
    exact ⟨hkinded, fun hkinds _ heq => Except.error.inj heq ▸ herror hkinds reason rfl⟩
  · rw [bind_of_ok hrun]
    rw [hrun] at hkinded
    exact hf a middle hkinded nofun

/-- After a node is looked up, it is known. -/
theorem native {node : Node} (hnode : node ∈ nodes) {f : NativeId → Run ν α}
    (hf : ∀ id, Safe nodes ((node, id) :: known) (f id)) :
    Safe nodes known (Session.native node >>= f) := by
  intro session hsession hknown
  obtain ⟨hkinded, herror⟩ := hsession.native hnode
  have hremembers := Session.native_remembers node session
  rcases hrun : Session.native node session with ⟨reason | id, middle⟩
  · rw [bind_of_error hrun]
    rw [hrun] at hkinded herror
    exact ⟨hkinded, fun _ _ heq => Except.error.inj heq ▸ herror reason rfl⟩
  · rw [bind_of_ok hrun]
    rw [hrun] at hkinded hremembers
    refine hf id middle hkinded ?_
    intro entry hentry
    rcases List.mem_cons.1 hentry with rfl | hold
    · exact Session.knows_of_native hrun
    · exact hremembers.knows _ _ (hknown entry hold)

theorem edit {change : Edit α} (hkeeps : Moves Backend.Keeps change)
    (hspares : Moves Backend.SuppressesNone change)
    (herror : ∀ session : Session ν, session.Kinded nodes →
      (∀ entry ∈ known, session.Knows entry.1 entry.2) → KindsApart nodes →
        ∀ error, (change session.backend).1 = .error error → ∀ n, error.raised n = error) :
    Safe nodes known (Session.edit (ν := ν) .backend change) := by
  intro session hsession hknown
  rw [Session.edit_apply]
  refine ⟨hsession.of_natives_eq (hkeeps session.backend)
    ((hspares session.backend).grounded hsession.grounded) rfl, ?_⟩
  intro hkinds error heq n
  rcases hresult : (change session.backend).1 with reason | answer
  · rw [hresult] at heq
    obtain rfl := Except.error.inj heq
    exact congrArg PipelineError.backend (herror session hsession hknown hkinds reason hresult n)
  · rw [hresult] at heq
    cases heq

/-! ## Instructions -/

theorem createGroup {p : Project} {id : NativeId} (hnode : .project p ∈ nodes)
    (h : (.project p, id) ∈ known) (name : String) :
    Safe nodes known (Session.edit (ν := ν) .backend (Backend.createGroup id name)) := by
  refine edit (Operation.createGroup id name).perform_keeps (Backend.createGroup_moves id name) ?_
  intro session hsession hknown hkinds error herror
  obtain ⟨native, hobject⟩ := hsession.project hkinds hnode (hknown _ h)
  rw [Backend.createGroup_apply hobject] at herror
  cases herror

/-- An object that cannot hold the other is refused for the two kinds. -/
theorem attach {parent child : Node} {nativeParent nativeChild : NativeId}
    (hparentNode : parent ∈ nodes) (hchildNode : child ∈ nodes)
    (hparent : (parent, nativeParent) ∈ known) (hchild : (child, nativeChild) ∈ known) :
    Safe nodes known
      (Session.edit (ν := ν) .backend (Backend.attach nativeParent nativeChild)) := by
  refine edit (Operation.attach nativeParent nativeChild).perform_keeps
    (Backend.attach_moves nativeParent nativeChild) ?_
  intro session hsession hknown hkinds error herror n
  obtain ⟨parentObject, hparentObject, -⟩ := hsession.object hkinds hparentNode (hknown _ hparent)
  obtain ⟨childObject, hchildObject, -⟩ := hsession.object hkinds hchildNode (hknown _ hchild)
  rw [Backend.attach_apply hparentObject hchildObject] at herror
  split at herror
  · cases herror
  · cases herror
    rfl

theorem setBuildSettings {c : BuildConfiguration} {id : NativeId}
    (hnode : .configuration c ∈ nodes) (h : (.configuration c, id) ∈ known) (settings : Settings) :
    Safe nodes known (Session.edit (ν := ν) .backend (Backend.setBuildSettings id settings)) := by
  refine edit (Operation.setBuildSettings id settings).perform_keeps
    (Backend.setBuildSettings_moves id settings) ?_
  intro session hsession hknown hkinds error herror
  obtain ⟨native, hobject⟩ := hsession.configuration hkinds hnode (hknown _ h)
  rw [Backend.setBuildSettings_apply hobject] at herror
  cases herror

/-- The number that goes on the list is that of an object. -/
theorem suppress {t : Target} {id : NativeId} (h : (.target t, id) ∈ known) :
    Safe nodes known (Session.edit (ν := ν) .backend (Backend.suppress id)) := by
  intro session hsession hknown
  have hkeeps := (Operation.suppress id).perform_keeps session.backend
  have hgrounded : (Backend.suppress id session.backend).2.Grounded := by
    intro other hother
    rcases Backend.mem_appendNew hother with hold | rfl
    · exact hsession.grounded other hold
    · exact hsession.index_lt (hknown _ h)
  exact ⟨hsession.of_natives_eq hkeeps hgrounded rfl, nofun⟩

theorem fillScheme {target : Target} (test : Option (Target × NativeId)) {scheme : Scheme}
    {nativeTarget id : NativeId} (htargetNode : .target target ∈ nodes)
    (htestNode : ∀ entry ∈ test, .target entry.1 ∈ nodes) (hnode : .scheme scheme ∈ nodes)
    (htarget : (.target target, nativeTarget) ∈ known)
    (htest : ∀ entry ∈ test, (.target entry.1, entry.2) ∈ known)
    (h : (.scheme scheme, id) ∈ known) :
    Safe nodes known (Session.edit (ν := ν) .backend
      (Backend.fillScheme nativeTarget (test.map Prod.snd) scheme id)) := by
  refine edit (Backend.fillScheme_keeps _ _ _ _) (Backend.fillScheme_moves _ _ _ _) ?_
  intro session hsession hknown hkinds error herror
  obtain ⟨s, hs⟩ := hsession.scheme hkinds hnode (hknown _ h)
  obtain ⟨t, ht⟩ := hsession.target hkinds htargetNode (hknown _ htarget)
  have htests : ∀ bundle ∈ test.map Prod.snd, ∃ b,
      session.backend.object? bundle = some (.target b) := by
    intro bundle hbundle
    obtain ⟨entry, hentry, rfl⟩ := Option.map_eq_some_iff.1 hbundle
    exact hsession.target hkinds (htestNode entry hentry) (hknown _ (htest entry hentry))
  rw [Backend.fillScheme_apply scheme hs ht htests] at herror
  cases herror

theorem perform {instruction : Instruction} (hnodes : ∀ node ∈ instruction.mentions, node ∈ nodes)
    (hfail : instruction.Numberless) : Safe nodes [] (instruction.perform (ν := ν)) := by
  cases instruction with
  | enter event => exact update fun _ => ⟨rfl, rfl⟩
  | translate node => exact native (hnodes node (by simp [Instruction.mentions])) fun _ => pure _
  | group project name =>
    have hproject := hnodes (.project project) (by simp [Instruction.mentions])
    exact native hproject fun id =>
      (createGroup hproject List.mem_cons_self name).bind fun _ => pure _
  | attach parent child =>
    have hparent := hnodes parent (by simp [Instruction.mentions])
    have hchild := hnodes child (by simp [Instruction.mentions])
    exact native hparent fun nativeParent => native hchild fun nativeChild =>
      attach hparent hchild (List.mem_cons_of_mem _ List.mem_cons_self) List.mem_cons_self
  | settle configuration =>
    have hconfiguration := hnodes (.configuration configuration) (by simp [Instruction.mentions])
    exact native hconfiguration fun id =>
      setBuildSettings hconfiguration List.mem_cons_self configuration.settings
  | suppress target =>
    exact native (hnodes _ (by simp [Instruction.mentions])) fun id => suppress List.mem_cons_self
  | list target test scheme =>
    have htarget := hnodes (.target target) (by simp [Instruction.mentions])
    have hscheme := hnodes (.scheme scheme) (by simp [Instruction.mentions])
    refine native htarget fun nativeTarget => ?_
    cases test with
    | none =>
      exact native hscheme fun id =>
        fillScheme none htarget (by simp) hscheme (by simp) (by simp) List.mem_cons_self
    | some bundle =>
      have hbundle := hnodes (.target bundle) (by simp [Instruction.mentions])
      simp only [Session.nativeTarget?, bind_assoc, pure_bind]
      exact native hbundle fun nativeBundle => native hscheme fun id =>
        fillScheme (some (bundle, nativeBundle)) htarget (by simpa using hbundle) hscheme
          (by simp) (by simp) List.mem_cons_self
  | stage => exact update fun _ => ⟨rfl, rfl⟩
  | fail error => exact throw (hfail error rfl)

theorem performAll {plan : List Instruction}
    (hnodes : ∀ instruction ∈ plan, ∀ node ∈ instruction.mentions, node ∈ nodes)
    (hfail : ∀ instruction ∈ plan, instruction.Numberless) :
    Safe nodes [] (Instruction.performAll (ν := ν) plan) := by
  induction plan with
  | nil => exact pure ()
  | cons instruction rest ih =>
    have hfirst : Safe nodes [] (instruction.perform (ν := ν)) :=
      perform (hnodes instruction List.mem_cons_self) (hfail instruction List.mem_cons_self)
    have hrest := ih (fun other hother => hnodes other (List.mem_cons_of_mem _ hother))
      fun other hother => hfail other (List.mem_cons_of_mem _ hother)
    exact hfirst.bind fun _ => hrest

end Safe

theorem Plan.safe_standard (policy : TestTargetPolicy) (project : Project) :
    Safe project.nodes [] (Instruction.performAll (ν := ν) (Plan.standard policy project)) :=
  Safe.performAll Plan.within_standard Plan.numberless_standard

end ProjectCompiler
