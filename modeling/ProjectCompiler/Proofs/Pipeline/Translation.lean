import ProjectCompiler.Proofs.Occurrences
import ProjectCompiler.Proofs.Pipeline.Keeping
import ProjectCompiler.Proofs.Pipeline.Replay

/-!
# Translation — one native object for each identity

A session remembers its translations by identity, next to a backend that any call may change. Whatever
the calls are and whatever they are answered, the entries of the session are the identities that were
translated, each with the number of an object that was made for it.

- `Backend.StandsFor`: an object of the kind and name of a node;
- `Session.Holds`: the entries of a session, against the translations so far, kept by every call;
- `Session.Faithful`: what this says about look-ups, numbers and objects;
- `Pipeline.translation_faithful`: after all calls of all runs.
-/

namespace ProjectCompiler

open Stateful

variable {ν : Type}

/-! ## Objects that stand for nodes -/

/-- The object of this number is of the node's kind and, unless it is a scheme, of the node's name. -/
def Backend.StandsFor (backend : Backend) (native : NativeId) (node : Node) : Prop :=
  ∃ object, backend.object? native = some object ∧ object.kind.tag = node.kind ∧
    (object.kind ≠ .scheme → object.name = node.name)

theorem Backend.standsFor_extended (backend : Backend) {node : Node} {object : NativeObject}
    (h : NativeObject.ofNode node = .ok object) :
    (backend.extended object).StandsFor ⟨backend.objects.length⟩ node := by
  refine ⟨object, backend.object?_extended_new object, ?_⟩
  cases node with
  | project p =>
    cases h
    exact ⟨rfl, fun _ => rfl⟩
  | configuration c =>
    cases h
    exact ⟨rfl, fun _ => rfl⟩
  | target t =>
    rw [NativeObject.ofNode] at h
    split at h
    · cases h
      exact ⟨rfl, fun _ => rfl⟩
    · cases h
  | scheme s =>
    cases h
    exact ⟨rfl, fun hscheme => absurd rfl hscheme⟩

theorem Backend.Keeps.standsFor {before after : Backend} (h : before.Keeps after)
    {native : NativeId} {node : Node} (hstands : before.StandsFor native node) :
    after.StandsFor native node := by
  obtain ⟨object, hobject, hkind, hname⟩ := hstands
  obtain ⟨later, hlater, hlaterKind, hlaterName⟩ := h.objects native object hobject
  refine ⟨later, hlater, hlaterKind ▸ hkind, fun hscheme => ?_⟩
  have hother : object.kind ≠ .scheme := hlaterKind ▸ hscheme
  exact (hlaterName hother).trans (hname hother)

/-! ## Translations so far -/

/-- A node and the number that a call for its native object was answered. -/
structure Resolution where
  node : Node
  native : NativeId

def Resolution.identity (resolution : Resolution) : Identity :=
  resolution.node.id

/-- The first one that is looked for stands among the old ones, or none of these is. -/
theorem Resolution.find?_append_cases {made : List Resolution} {last found : Resolution}
    {sought : Resolution → Bool} (h : (made ++ [last]).find? sought = some found) :
    made.find? sought = some found ∨ made.find? sought = none ∧ found = last := by
  rw [List.find?_append] at h
  rcases hold : made.find? sought with _ | old
  · rw [hold, Option.none_or] at h
    exact Or.inr ⟨rfl, List.mem_singleton.1 (List.mem_of_find?_eq_some h)⟩
  · rw [hold, Option.some_or] at h
    exact Or.inl h

namespace Call

/-- What a call and its answer say about translations. -/
def resolution? : (c : Call ν) → Except PipelineError c.Answer → Option Resolution
  | .native node, .ok id => some ⟨node, id⟩
  | _, _ => none

/-- The translations of calls in order, first ones and repeated ones. -/
def resolutions : List (Call ν) → Session ν → List Resolution
  | [], _ => []
  | c :: rest, session =>
      (c.resolution? (c.perform session).1).toList ++ resolutions rest (c.perform session).2

theorem resolutions_append (first second : List (Call ν)) (session : Session ν) :
    resolutions (first ++ second) session =
      resolutions first session ++ resolutions second (performAll first session) := by
  induction first generalizing session with
  | nil => rfl
  | cons c rest ih =>
    rw [List.cons_append, resolutions, resolutions, ih, List.append_assoc, performAll_cons]

/-- Only translations make entries. -/
theorem natives_perform (c : Call ν) (h : ∀ node, c ≠ .native node) (session : Session ν) :
    (c.perform session).2.natives = session.natives := by
  cases c with
  | native node => exact absurd rfl (h node)
  | commit =>
    rw [perform, Session.commit_apply]
    split
    · rcases Backend.save session.backend with ⟨error | answer, backend⟩ <;> rfl
    · rfl
  | backend operation => rw [perform, Session.edit_apply]
  | lookup | translated | project | staged | stage | construct | note => rfl

end Call

namespace Session

/-- The session holds an entry for each identity among the translations, and no others. -/
structure Holds (session : Session ν) (made : List Resolution) : Prop where
  keys : Entries.keys session.natives = (made.map Resolution.identity).eraseDups
  known : ∀ resolution ∈ made, session.Knows resolution.node resolution.native
  /-- The object was made for the node that came first. -/
  first : ∀ resolution, made.find? (·.identity = resolution.identity) = some resolution →
    session.backend.StandsFor resolution.native resolution.node
  natives : (session.natives.map Prod.snd).Nodup
  present : ∀ entry ∈ session.natives, ∃ object, session.backend.object? entry.2 = some object

namespace Holds

variable {session after : Session ν} {made : List Resolution} {node : Node} {native : NativeId}

theorem of_natives_eq (h : session.Holds made) (hbackend : session.backend.Keeps after.backend)
    (hnatives : after.natives = session.natives) : after.Holds made where
  keys := hnatives ▸ h.keys
  known resolution hmem := by
    rw [Knows, hnatives]
    exact h.known resolution hmem
  first resolution hfirst := hbackend.standsFor (h.first resolution hfirst)
  natives := hnatives ▸ h.natives
  present entry hentry := by
    obtain ⟨object, hobject⟩ := h.present entry (hnatives ▸ hentry)
    obtain ⟨later, hlater, -⟩ := hbackend.objects entry.2 object hobject
    exact ⟨later, hlater⟩

theorem mem_identities_iff (h : session.Holds made) (node : Node) :
    node.id ∈ made.map Resolution.identity ↔ ∃ native, session.Knows node native := by
  rw [← List.mem_eraseDups, ← h.keys]
  rcases hfind : Entries.find? session.natives node.id with _ | native
  · have hnew := (Entries.find?_eq_none_iff session.natives node.id).1 hfind
    simp [Knows, hfind, hnew]
  · have hknown : node.id ∈ Entries.keys session.natives := by
      by_contra hnew
      rw [(Entries.find?_eq_none_iff session.natives node.id).2 hnew] at hfind
      cases hfind
    simp [Knows, hfind, hknown]

/-- A known node is answered the number that it has. -/
theorem again (h : session.Holds made) (hknown : session.Knows node native) :
    session.Holds (made ++ [⟨node, native⟩]) where
  keys := by
    have hmem : node.id ∈ made.map Resolution.identity := (h.mem_identities_iff node).2 ⟨_, hknown⟩
    rw [List.map_append, List.map_singleton, eraseDups_append_singleton]
    simpa [Resolution.identity, hmem] using h.keys
  known resolution hmem := by
    rcases List.mem_append.1 hmem with hold | hlast
    · exact h.known resolution hold
    · obtain rfl := List.mem_singleton.1 hlast
      exact hknown
  first resolution hfirst := by
    rcases Resolution.find?_append_cases hfirst with hold | ⟨hnone, rfl⟩
    · exact h.first resolution hold
    · -- It would be the first of its identity, which is known already.
      exfalso
      obtain ⟨other, hother, hsame⟩ := List.mem_map.1 ((h.mem_identities_iff node).2 ⟨_, hknown⟩)
      exact List.find?_eq_none.1 hnone other hother (decide_eq_true hsame)
  natives := h.natives
  present := h.present

/-- A new node gets an object of its own. -/
theorem extended (h : session.Holds made) {object : NativeObject}
    (hnew : Entries.find? session.natives node.id = none)
    (hmade : NativeObject.ofNode node = .ok object) :
    Holds { session with
        backend := session.backend.extended object
        natives := session.natives ++ [(node.id, ⟨session.backend.objects.length⟩)] }
      (made ++ [⟨node, ⟨session.backend.objects.length⟩⟩]) := by
  have hkeeps := Backend.keeps_extended session.backend object
  have hunmade : node.id ∉ made.map Resolution.identity := by
    intro hmem
    obtain ⟨native, hknown⟩ := (h.mem_identities_iff node).1 hmem
    rw [Knows, hnew] at hknown
    cases hknown
  constructor
  · have hkeys := h.keys
    simp only [Entries.keys] at hkeys
    simp [Entries.keys, hkeys, Resolution.identity, eraseDups_append_singleton, hunmade]
  · intro resolution hmem
    rcases List.mem_append.1 hmem with hold | hlast
    · have hfound : Entries.find? session.natives resolution.node.id = some resolution.native :=
        h.known resolution hold
      simp [Knows, Entries.find?_append, hfound]
    · obtain rfl := List.mem_singleton.1 hlast
      simp [Knows, Entries.find?_append, hnew, Entries.find?]
  · intro resolution hfirst
    rcases Resolution.find?_append_cases hfirst with hold | ⟨-, rfl⟩
    · exact hkeeps.standsFor (h.first resolution hold)
    · exact session.backend.standsFor_extended hmade
  · -- The numbers of all entries are below that of the new object.
    rw [List.map_append, List.map_singleton]
    rw [← List.concat_eq_append]
    refine List.Nodup.concat ?_ h.natives
    intro hmem
    obtain ⟨entry, hentry, hsame⟩ := List.mem_map.1 hmem
    obtain ⟨old, hold⟩ := h.present entry hentry
    have hlt := Backend.index_lt_of_object? hold
    rw [hsame] at hlt
    exact Nat.lt_irrefl _ hlt
  · intro entry hentry
    rcases List.mem_append.1 hentry with hold | hlast
    · obtain ⟨old, hobject⟩ := h.present entry hold
      exact ⟨old, Backend.object?_extended hobject object⟩
    · obtain rfl := List.mem_singleton.1 hlast
      exact ⟨object, session.backend.object?_extended_new object⟩

theorem perform (h : session.Holds made) (c : Call ν) :
    (c.perform session).2.Holds (made ++ (c.resolution? (c.perform session).1).toList) := by
  by_cases hnative : ∃ node, c = .native node
  · obtain ⟨node, rfl⟩ := hnative
    rw [Call.perform]
    rcases hfind : Entries.find? session.natives node.id with _ | native
    · rcases hnode : NativeObject.ofNode node with error | object
      · have hrefused : Session.native node session =
            (.error (.translation node.text error), session) := by
          rw [native_apply, hfind, hnode]
        rw [hrefused]
        simpa [Call.resolution?] using h
      · have hmade : Session.native node session =
            (.ok ⟨session.backend.objects.length⟩, { session with
              backend := session.backend.extended object
              natives := session.natives ++ [(node.id, ⟨session.backend.objects.length⟩)] }) := by
          rw [native_apply, hfind, hnode]
        rw [hmade]
        exact h.extended hfind hnode
    · rw [native_of_knows hfind]
      exact h.again hfind
  · have hother : ∀ node, c ≠ .native node := fun node heq => hnative ⟨node, heq⟩
    have hnone : c.resolution? (c.perform session).1 = none := by
      cases c with
      | native node => exact absurd rfl (hother node)
      | lookup | translated | project | staged | stage | commit | backend | construct | note =>
        simp [Call.resolution?]
    rw [hnone, Option.toList_none, List.append_nil]
    exact h.of_natives_eq (c.perform_keeps session).backend (c.natives_perform hother session)

/-- The induction is on the calls, each from the session that the one before it left. -/
theorem performAll (h : session.Holds made) (calls : List (Call ν)) :
    (Call.performAll calls session).Holds (made ++ Call.resolutions calls session) := by
  induction calls generalizing session made with
  | nil => simpa [Call.performAll, Call.resolutions] using h
  | cons c rest ih =>
    have hrest := ih (h.perform c)
    rwa [List.append_assoc] at hrest

end Holds

/-! ## What a session says about its translations -/

/-- Look-ups, numbers and objects agree with the translations so far. -/
structure Faithful (session : Session ν) (made : List Resolution) : Prop where
  /-- A node is found exactly if its identity was translated, by the number of that translation. -/
  lookup : ∀ node native, (Session.lookup node session).1 = .ok (some native) ↔
    ∃ resolution ∈ made, resolution.identity = node.id ∧ resolution.native = native
  /-- Nodes share an object exactly if they share their identity. -/
  same : ∀ first second a b, (Session.lookup first session).1 = .ok (some a) →
    (Session.lookup second session).1 = .ok (some b) → (a = b ↔ first.id = second.id)
  /-- An object is of the kind and name of each node that it was answered for, as long as the nodes
  of one identity agree in these. -/
  object : ∀ earlier resolution later, made = earlier ++ resolution :: later →
    (∀ other ∈ earlier, other.identity = resolution.identity →
      other.node.kind = resolution.node.kind ∧ other.node.name = resolution.node.name) →
    session.backend.StandsFor resolution.native resolution.node
  translated : (Call.translated.perform session).1 =
    .ok (made.map Resolution.identity).eraseDups.length
  /-- Only a target of an unknown type is refused, and that changes nothing. -/
  refused : ∀ node error after, Session.native node session = (.error error, after) →
    after = session ∧ ∃ target tag, node = .target target ∧ target.type = .other tag

theorem lookup_eq_some_iff (node : Node) (native : NativeId) (session : Session ν) :
    (Session.lookup node session).1 = .ok (some native) ↔ session.Knows node native := by
  have hlookup : (Session.lookup node session).1 =
      .ok (Entries.find? session.natives node.id) := rfl
  rw [hlookup, Except.ok.injEq]
  exact Iff.rfl

theorem native_refused {session after : Session ν} {node : Node} {error : PipelineError}
    (h : native node session = (.error error, after)) :
    after = session ∧ ∃ target tag, node = .target target ∧ target.type = .other tag := by
  rw [native_apply] at h
  rcases hfind : Entries.find? session.natives node.id with _ | id
  · rcases hnode : NativeObject.ofNode node with reason | object
    · rw [hfind, hnode] at h
      cases h
      obtain ⟨t, tag, hnodeTarget, htype, -⟩ := NativeObject.ofNode_eq_error.1 hnode
      exact ⟨rfl, t, tag, hnodeTarget, htype⟩
    · rw [hfind, hnode] at h
      cases h
  · rw [hfind] at h
    cases h

namespace Holds

variable {session : Session ν} {made : List Resolution}

theorem knows_iff (h : session.Holds made) (node : Node) (native : NativeId) :
    session.Knows node native ↔
      ∃ resolution ∈ made, resolution.identity = node.id ∧ resolution.native = native := by
  constructor
  · intro hknown
    obtain ⟨resolution, hmem, hsame⟩ :=
      List.mem_map.1 ((h.mem_identities_iff node).2 ⟨native, hknown⟩)
    have hanswered := (h.known resolution hmem).of_id_eq hsame.symm
    exact ⟨resolution, hmem, hsame, hanswered.eq hknown⟩
  · rintro ⟨resolution, hmem, hsame, rfl⟩
    exact (h.known resolution hmem).of_id_eq hsame.symm

/-- No two entries have one number. -/
theorem native_eq_iff (h : session.Holds made) {first second : Node} {a b : NativeId}
    (hfirst : session.Knows first a) (hsecond : session.Knows second b) :
    a = b ↔ first.id = second.id := by
  constructor
  · rintro rfl
    have hentry := List.inj_on_of_nodup_map h.natives (Entries.mem_of_find? hfirst)
      (Entries.mem_of_find? hsecond) rfl
    exact congrArg Prod.fst hentry
  · intro hsame
    exact (hfirst.of_id_eq hsame.symm).eq hsecond

/-- The object was made for the first node of the identity, and the others agree with that one. -/
theorem standsFor (h : session.Holds made) {earlier later : List Resolution}
    {resolution : Resolution} (hmade : made = earlier ++ resolution :: later)
    (hagree : ∀ other ∈ earlier, other.identity = resolution.identity →
      other.node.kind = resolution.node.kind ∧ other.node.name = resolution.node.name) :
    session.backend.StandsFor resolution.native resolution.node := by
  rcases hfind : earlier.find? (·.identity = resolution.identity) with _ | other
  · refine h.first resolution ?_
    rw [hmade, List.find?_append, hfind, Option.none_or]
    exact List.find?_cons_of_pos (by simp)
  · have hearlier : other ∈ earlier := List.mem_of_find?_eq_some hfind
    have hsame : other.identity = resolution.identity := by simpa using List.find?_some hfind
    have hstands : session.backend.StandsFor other.native other.node := by
      refine h.first other ?_
      rw [hsame, hmade, List.find?_append, hfind, Option.some_or]
    have hnative : other.native = resolution.native := by
      have hother := h.known other (by simp [hmade, hearlier])
      exact (hother.of_id_eq hsame.symm).eq (h.known resolution (by simp [hmade]))
    obtain ⟨hkind, hname⟩ := hagree other hearlier hsame
    rwa [hnative, Backend.StandsFor, hkind, hname] at hstands

theorem faithful (h : session.Holds made) : session.Faithful made where
  lookup node native := by
    rw [lookup_eq_some_iff]
    exact h.knows_iff node native
  same first second a b hfirst hsecond := by
    rw [lookup_eq_some_iff] at hfirst hsecond
    exact h.native_eq_iff hfirst hsecond
  object _ _ _ hmade hagree := h.standsFor hmade hagree
  translated := by
    have hlength : session.natives.length = (made.map Resolution.identity).eraseDups.length := by
      rw [← h.keys, Entries.keys, List.length_map]
    exact congrArg Except.ok hlength
  refused _ _ _ := native_refused

end Holds

theorem start_holds (project : Project) (supply : Supply) (backend : Backend) :
    (start (ν := ν) project supply backend).Holds [] where
  keys := rfl
  known _ hmem := nomatch hmem
  first _ hfirst := nomatch hfirst
  natives := List.nodup_nil
  present _ hentry := nomatch hentry

theorem Holds.of_untraced {session : Session ν} {made : List Resolution}
    (h : session.untraced.Holds made) : session.Holds made :=
  ⟨h.keys, h.known, h.first, h.natives, h.present⟩

theorem Keeps.knows {before after : Session ν} (h : before.Keeps after) {node : Node}
    {native : NativeId} (hknown : before.Knows node native) : after.Knows node native := by
  obtain ⟨more, hmore⟩ := h.natives
  have hfound : Entries.find? before.natives node.id = some native := hknown
  rw [Knows, ← hmore, Entries.find?_append, hfound, Option.some_or]

end Session

theorem Call.performAll_keeps (calls : List (Call ν)) (session : Session ν) :
    session.Keeps (performAll calls session) := by
  induction calls generalizing session with
  | nil => exact refl_of Session.Keeps session
  | cons c rest ih => exact trans_of Session.Keeps (c.perform_keeps session) (ih _)

/-! ## Runs -/

namespace Pipeline

theorem holds_run (pipeline : Pipeline ν) (project : Project) (supply : Supply)
    (backend : Backend) :
    (pipeline.run project supply backend).2.Holds
      (Call.resolutions (pipeline.calls project supply backend)
        (Session.start project supply backend)) := by
  obtain ⟨last, hlast, hrun⟩ := pipeline.untraced_run project supply backend
  have hcalls := (Session.start_holds project supply backend).performAll
    (pipeline.calls project supply backend ++ last)
  -- A commit at the end translates nothing.
  have hnone : ∀ session : Session ν, Call.resolutions last session = [] := by
    intro session
    rcases hlast with rfl | rfl
    · rfl
    · simp [Call.resolutions, Call.resolution?]
  rw [List.nil_append, Call.resolutions_append, hnone, List.append_nil, ← hrun] at hcalls
  exact hcalls.of_untraced

theorem knows_run {pipeline : Pipeline ν} {project : Project} {supply : Supply} {backend : Backend}
    {earlier later : List (Call ν)} (h : pipeline.calls project supply backend = earlier ++ later)
    {node : Node} {native : NativeId}
    (hknown : (Call.performAll earlier (Session.start project supply backend)).Knows node native) :
    (pipeline.run project supply backend).2.Knows node native := by
  obtain ⟨last, -, hrun⟩ := pipeline.untraced_run project supply backend
  rw [h, List.append_assoc, Call.performAll_append] at hrun
  have hend := (Call.performAll_keeps (later ++ last) _).knows hknown
  rw [← hrun] at hend
  exact hend

/-- Whatever calls are made, in a run or by themselves, look-ups, numbers and objects agree with the
translations among them, and a node that was found once is found by the same number until the end. -/
theorem translation_faithful (pipeline : Pipeline ν) (project : Project) (supply : Supply)
    (backend : Backend) :
    let start : Session ν := Session.start project supply backend
    let final := (pipeline.run project supply backend).2
    final.Faithful (Call.resolutions (pipeline.calls project supply backend) start) ∧
      (∀ earlier later, pipeline.calls project supply backend = earlier ++ later →
        ∀ node native,
          (Session.lookup node (Call.performAll earlier start)).1 = .ok (some native) →
          (Session.lookup node final).1 = .ok (some native)) ∧
      ∀ calls later : List (Call ν),
        (Call.performAll calls start).Faithful (Call.resolutions calls start) ∧
        ∀ node native,
          (Session.lookup node (Call.performAll calls start)).1 = .ok (some native) →
          (Session.lookup node (Call.performAll (calls ++ later) start)).1 = .ok (some native) := by
  intro start final
  refine ⟨(pipeline.holds_run project supply backend).faithful, ?_, fun calls later => ⟨?_, ?_⟩⟩
  · intro earlier later hcalls node native hfound
    rw [Session.lookup_eq_some_iff] at hfound ⊢
    exact knows_run hcalls hfound
  · exact ((Session.start_holds project supply backend).performAll calls).faithful
  · intro node native hfound
    rw [Session.lookup_eq_some_iff] at hfound ⊢
    rw [Call.performAll_append]
    exact (Call.performAll_keeps later _).knows hfound

/-- Translates the declared configurations, and then their flattened copies and the targets. -/
def translator : Pipeline Unit where
  generators := [{
    info := { name := "translator", description := "", dependencies := [] }
    visitProject := fun project => project.configurations.forM fun configuration => do
      let _ ← Program.native (.configuration configuration)
    visitConfiguration := fun configuration => do
      let _ ← Program.native (.configuration configuration)
    visitTarget := fun target => do
      let _ ← (Program.native (.target target)).attempt }]
  plugins := []

def driverProject : Project :=
  { id := ⟨0⟩, name := "Driver", defaultConfiguration := "Debug"
    settings := Settings.empty.insert "SDKROOT" (.str "macosx")
    configurations := [{ id := ⟨1⟩, name := "Debug", settings := Settings.empty }]
    targets := [
      { (Target.new "App" .application .macos "14.0" ⟨2⟩).1 with
        configurations := [{ id := ⟨3⟩, name := "Debug", settings := Settings.empty }] },
      { (Target.new "Filter" (.other "kext") .macos "14.0" ⟨4⟩).1 with
        configurations := [{ id := ⟨5⟩, name := "Debug", settings := Settings.empty }] }] }

/-- A flattened copy shares the object of the declared configuration, and a target of a type without
an object is not found. -/
theorem flattened_copies_share_objects :
    let start : Session Unit := Session.start driverProject ⟨6⟩ Backend.empty
    let made := Call.resolutions (translator.calls driverProject ⟨6⟩ Backend.empty) start
    let final := (translator.run driverProject ⟨6⟩ Backend.empty).2
    final.Faithful made ∧ (made.map Resolution.native = [⟨0⟩, ⟨0⟩, ⟨1⟩]) ∧
      (driverProject.targets.map fun target => (Session.lookup (.target target) final).1) =
        [.ok (some ⟨1⟩), .ok none] := by
  intro start made final
  exact ⟨(translation_faithful translator driverProject ⟨6⟩ Backend.empty).1, by decide +kernel,
    rfl⟩

end Pipeline

end ProjectCompiler
