import ProjectCompiler.Generators.Schemes
import ProjectCompiler.Proofs.Native.Steps
import ProjectCompiler.Proofs.Pipeline.Quiet
import ProjectCompiler.Proofs.Pipeline.Session

/-!
# Laying — the graph before its schemes

The first three built-in generators lay out projects, groups, targets and configurations. They fire
nothing, put nothing on the scheme list, and no scheme comes into being by what they ask for.

- `Call.Observes`, `Call.Lays`: calls that look at a run, and calls that lay out the graph;
- `Generators.projectStructure_lays` and its like;
- `Pipeline.laying`: the pipeline without the last generator;
- `Backend.NoNewScheme`: every scheme was there before, which holds along such calls.
-/

namespace ProjectCompiler

open Stateful

variable {ν α : Type}

/-! ## Kinds of calls -/

namespace Call

/-- A look at the run, which may also take a note or make a model object of its own. -/
def Observes : Call ν → Prop
  | .lookup _ | .translated | .project | .staged | .construct _ | .note _ => True
  | _ => False

/-- A step in laying out projects, groups, targets and configurations. -/
def Lays : Call ν → Prop
  | .native node => ∀ scheme, node ≠ .scheme scheme
  | .backend operation =>
      match operation with
      | .createGroup .. | .attach .. | .setBuildSettings .. => True
      | _ => False
  | c => c.Observes

theorem Observes.lays {c : Call ν} (h : c.Observes) : c.Lays := by
  cases c with
  | native | backend => exact absurd h id
  | lookup | translated | project | staged | stage | commit | construct | note => exact h

end Call

/-! ## Generators that lay out the graph -/

namespace Generators

open Program

theorem projectStructure_lays : (projectStructure (ν := ν)).All (Within Call.Lays) where
  visitProject _ :=
    (Within.request nofun).bind fun _ => Within.forM fun _ _ =>
      (Within.request trivial).bind fun _ => Within.done _
  visitConfiguration _ := Within.done _
  leaveConfiguration _ := Within.done _
  visitTarget _ := Within.done _
  leaveTarget _ := Within.done _
  leaveProject _ := Within.done _

theorem linkHost_lays (project : Project) (target : Target) (nativeTarget : NativeId)
    (host : String) : (linkHost (ν := ν) project target nativeTarget host).Within Call.Lays := by
  unfold linkHost
  split
  · exact Within.done _
  · exact (Within.request nofun).bind fun _ => Within.request trivial

theorem targets_lays : (targets (ν := ν)).All (Within Call.Lays) where
  visitProject _ := Within.done _
  visitConfiguration _ := Within.done _
  leaveConfiguration _ := Within.done _
  visitTarget target := by
    refine (Within.request trivial).bind fun project => (Within.request nofun).bind fun _ => ?_
    refine (Within.request nofun).bind fun _ => (Within.request trivial).bind fun _ => ?_
    split
    · exact Within.done _
    · exact linkHost_lays _ _ _ _
  leaveTarget _ := Within.done _
  leaveProject _ := Within.done _

theorem placeConfiguration_lays (owner : NativeId) (configuration : BuildConfiguration) :
    (placeConfiguration (ν := ν) owner configuration).Within Call.Lays :=
  (Within.request nofun).bind fun _ => (Within.request trivial).bind fun _ => Within.request trivial

theorem configurations_lays : (configurations (ν := ν)).All (Within Call.Lays) where
  visitProject _ := Within.done _
  visitConfiguration _ :=
    (Within.request trivial).bind fun _ => (Within.request nofun).bind fun _ =>
      placeConfiguration_lays _ _
  leaveConfiguration _ := Within.done _
  visitTarget _ :=
    (Within.request trivial).bind fun _ => (Within.request nofun).bind fun _ =>
      Within.forM fun _ _ => placeConfiguration_lays _ _
  leaveTarget _ := Within.done _
  leaveProject _ := Within.done _

/-- Of the standard generators only one does more. -/
theorem lays_or_eq_schemes {policy : TestTargetPolicy} {generator : Generator ν}
    (h : generator ∈ standard policy) :
    generator.All (Within Call.Lays) ∨ generator = schemes policy := by
  simp only [standard, List.mem_cons, List.not_mem_nil, or_false] at h
  rcases h with rfl | rfl | rfl | hschemes
  · exact .inl projectStructure_lays
  · exact .inl targets_lays
  · exact .inl configurations_lays
  · exact .inr hschemes

end Generators

/-- The standard pipeline without its schemes. -/
def Pipeline.laying (plugins : List (Plugin ν)) : Pipeline ν :=
  { generators := [Generators.projectStructure, Generators.targets, Generators.configurations]
    plugins }

/-! ## Schemes that were there before -/

theorem NativeObject.kind_ne_scheme {node : Node} {object : NativeObject}
    (h : NativeObject.ofNode node = .ok object) (hnode : ∀ scheme, node ≠ .scheme scheme) :
    object.kind ≠ .scheme := by
  cases node with
  | project p => cases h; nofun
  | configuration c => cases h; nofun
  | target t =>
    rw [ofNode] at h
    split at h
    · cases h
      intro hkind
      cases hkind
    · cases h
  | scheme s => exact absurd rfl (hnode s)

namespace Backend

/-- Every scheme was one before. -/
def NoNewScheme (before after : Backend) : Prop :=
  ∀ id scheme, after.object? id = some (.scheme scheme) →
    ∃ old, before.object? id = some (.scheme old)

instance : IsPreorder Backend NoNewScheme where
  refl _ _ scheme h := ⟨scheme, h⟩
  trans _ _ _ first second id scheme h := by
    obtain ⟨middle, hmiddle⟩ := second id scheme h
    exact first id middle hmiddle

variable {backend : Backend}

theorem noNewScheme_extended {object : NativeObject} (h : object.kind ≠ .scheme) :
    backend.NoNewScheme (backend.extended object) := by
  intro id scheme hscheme
  rcases object?_of_extended hscheme with hold | ⟨-, rfl⟩
  · exact ⟨scheme, hold⟩
  · exact absurd rfl h

theorem noNewScheme_replaced {id : NativeId} {old new : NativeObject}
    (hfound : backend.object? id = some old) (hkind : new.kind = old.kind) :
    backend.NoNewScheme (backend.replaced id new) := by
  intro other scheme hscheme
  by_cases hsame : other = id
  · subst hsame
    rw [object?_replaced_self hfound] at hscheme
    obtain rfl := Option.some.inj hscheme
    cases old with
    | scheme old => exact ⟨old, hfound⟩
    | project | group | target | configuration => cases hkind
  · rw [object?_replaced_ne hsame] at hscheme
    exact ⟨scheme, hscheme⟩

theorem createGroup_noNewScheme (project : NativeId) (name : String) :
    Moves NoNewScheme (createGroup project name) := by
  intro backend
  rcases requireProject_result project backend with ⟨p, hp⟩ | ⟨error, -, herror⟩
  · rw [createGroup_apply hp]
    have hgroup : backend.NoNewScheme (backend.extended (.group { name })) :=
      noNewScheme_extended nofun
    have hfound := object?_extended hp (.group { name })
    refine trans_of NoNewScheme hgroup (noNewScheme_replaced hfound ?_)
    rfl
  · rw [createGroup, bind_of_error herror]
    exact refl_of NoNewScheme backend

theorem attach_noNewScheme (parent child : NativeId) : Moves NoNewScheme (attach parent child) := by
  intro backend
  rcases requireObject_result child backend with ⟨childObject, hchild⟩ | ⟨error, -, herror⟩
  · rcases requireObject_result parent backend with ⟨parentObject, hparent⟩ | ⟨error, -, herror⟩
    · rw [attach_apply hparent hchild]
      by_cases hsame : parent = child
      · rw [if_pos hsame]
        exact refl_of NoNewScheme backend
      · rw [if_neg hsame]
        rcases hattached : attached? parentObject child childObject.kind with _ | object
        · exact refl_of NoNewScheme backend
        · exact noNewScheme_replaced hparent (kind_attached? hattached)
    · rw [attach, bind_of_ok (requireObject_apply hchild), bind_of_error herror]
      exact refl_of NoNewScheme backend
  · rw [attach, bind_of_error herror]
    exact refl_of NoNewScheme backend

theorem setBuildSettings_noNewScheme (id : NativeId) (settings : Settings) :
    Moves NoNewScheme (setBuildSettings id settings) := by
  intro backend
  rcases requireConfiguration_result id backend with ⟨c, hc⟩ | ⟨error, -, herror⟩
  · rw [setBuildSettings_apply hc]
    exact noNewScheme_replaced hc rfl
  · rw [setBuildSettings, bind_of_error herror]
    exact refl_of NoNewScheme backend

end Backend

namespace Session

/-- Every scheme of the backend was one before. -/
def NoNewScheme (before after : Session ν) : Prop :=
  before.backend.NoNewScheme after.backend

instance : IsPreorder (Session ν) NoNewScheme where
  refl session := refl_of Backend.NoNewScheme session.backend
  trans _ _ _ first second := trans_of Backend.NoNewScheme first second

end Session

/-- Laying out the graph makes no scheme. -/
theorem Call.Lays.noNewScheme {c : Call ν} (h : c.Lays) : Moves Session.NoNewScheme c.perform := by
  intro session
  cases c with
  | native node =>
    rw [perform, Session.native_apply]
    rcases Entries.find? session.natives node.id with _ | id
    · rcases hobject : NativeObject.ofNode node with error | object
      · exact refl_of Backend.NoNewScheme session.backend
      · exact Backend.noNewScheme_extended (NativeObject.kind_ne_scheme hobject h)
    · exact refl_of Backend.NoNewScheme session.backend
  | backend operation =>
    rw [perform, Session.edit_apply]
    cases operation with
    | createGroup project name => exact Backend.createGroup_noNewScheme project name session.backend
    | attach parent child => exact Backend.attach_noNewScheme parent child session.backend
    | setBuildSettings id settings =>
      exact Backend.setBuildSettings_noNewScheme id settings session.backend
    | create | setSchemeName | configureScheme | setAction | suppress | push | save => exact h.elim
  | stage | commit => exact h.elim
  | lookup | translated | project | staged | construct | note =>
    -- These are about the session alone.
    exact refl_of Backend.NoNewScheme session.backend

end ProjectCompiler
