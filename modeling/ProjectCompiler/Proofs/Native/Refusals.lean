import ProjectCompiler.Proofs.Native.Operations

/-!
# Refusals — what is wrong with an operation that fails

Operations take any numbers. An operation is refused if it needs an object of some kind where there is
none, if it attaches an object to one that cannot hold it, or if it makes an object for a target of a
type without a product. The error tells which of these it was, but not whether it was the only one.

- `Backend.Unmet`: a number without an object of a kind;
- `Operation.needs`: the numbers that an operation names, with the kinds that it needs there;
- `Backend.Refuses`: all that may be wrong with an operation, each with the error that tells it;
- `Backend.requireProject_result` and its like: what looking an object up comes to.
-/

namespace ProjectCompiler

open Stateful

variable {backend : Backend} {id : NativeId} {operation : Operation}

namespace Backend

/-! ## Needs -/

/-- No object of the kind has the number. -/
inductive Unmet (backend : Backend) (id : NativeId) (kind : NativeKind) : BackendError → Prop
  | missing (absent : backend.object? id = none) : Unmet backend id kind (.unknownObject id)
  | mistaken {object : NativeObject} (found : backend.object? id = some object)
      (other : object.kind ≠ kind) : Unmet backend id kind (.wrongKind id object.kind kind)

end Backend

/-- The numbers that an operation names, each with the kind of object that it needs. Attaching needs no
kind by itself, only a pair of kinds. Numbers on the scheme list need no object. -/
def Operation.needs : Operation → List (NativeId × NativeKind)
  | .createGroup project _ => [(project, .project)]
  | .setBuildSettings configuration _ => [(configuration, .configuration)]
  | .setSchemeName scheme _ => [(scheme, .scheme)]
  | .configureScheme scheme target test =>
      (target, .target) :: (scheme, .scheme) :: test.toList.map fun bundle => (bundle, .target)
  | .setAction scheme _ _ => [(scheme, .scheme)]
  | .create _ | .attach .. | .suppress _ | .push _ | .save => []

namespace Backend

/-- What may be wrong with an operation that does not save. -/
inductive Refuses (backend : Backend) : Operation → BackendError → Prop
  | unrepresentable {t : Target} {tag : String} (type : t.type = .other tag) :
      Refuses backend (.create (.target t)) (.unrepresentable tag)
  | unmet {operation : Operation} {id : NativeId} {kind : NativeKind} {error : BackendError}
      (need : (id, kind) ∈ operation.needs) (unmet : backend.Unmet id kind error) :
      Refuses backend operation error
  | unknown {parent child id : NativeId} (named : id = parent ∨ id = child)
      (absent : backend.object? id = none) :
      Refuses backend (.attach parent child) (.unknownObject id)
  | unfit {parent child : NativeId} {parentObject childObject : NativeObject}
      (parentFound : backend.object? parent = some parentObject)
      (childFound : backend.object? child = some childObject)
      (unfit : parent = child ∨ parentObject.kind.holds childObject.kind = false) :
      Refuses backend (.attach parent child)
        (.invalidAttachment parentObject.kind childObject.kind)

theorem not_unmet {object : NativeObject} (h : backend.object? id = some object)
    {error : BackendError} : ¬ backend.Unmet id object.kind error := by
  intro hunmet
  cases hunmet with
  | missing absent => simp [h] at absent
  | mistaken found other =>
    obtain rfl := Option.some.inj (h.symm.trans found)
    exact other rfl

/-- Nothing is wrong with an operation that has needs once they are met. -/
theorem not_refuses_of_needs (hneeds : operation.needs ≠ [])
    (hmet : ∀ need ∈ operation.needs, ∃ object, backend.object? need.1 = some object ∧
      object.kind = need.2) (error : BackendError) : ¬ backend.Refuses operation error := by
  intro h
  cases h with
  | unrepresentable | unknown | unfit => exact hneeds rfl
  | unmet need unmet =>
    obtain ⟨object, hobject, rfl⟩ := hmet _ need
    exact not_unmet hobject unmet

theorem not_refuses_of_need {object : NativeObject} (hneeds : operation.needs = [(id, object.kind)])
    (h : backend.object? id = some object) (error : BackendError) :
    ¬ backend.Refuses operation error := by
  apply not_refuses_of_needs
  · simp [hneeds]
  · intro need hneed
    obtain rfl : need = (id, object.kind) := by simpa [hneeds] using hneed
    exact ⟨object, h, rfl⟩

theorem not_refuses_attach {parent child : NativeId} {parentObject childObject : NativeObject}
    (hparent : backend.object? parent = some parentObject)
    (hchild : backend.object? child = some childObject) (hother : parent ≠ child)
    (hholds : parentObject.kind.holds childObject.kind = true) (error : BackendError) :
    ¬ backend.Refuses (.attach parent child) error := by
  intro h
  cases h with
  | unmet need => cases need
  | unknown named absent =>
    rcases named with rfl | rfl
    · simp [hparent] at absent
    · simp [hchild] at absent
  | unfit parentFound childFound unfit =>
    obtain rfl := Option.some.inj (hparent.symm.trans parentFound)
    obtain rfl := Option.some.inj (hchild.symm.trans childFound)
    simp [hother, hholds] at unfit

end Backend

/-! ## New objects -/

theorem NativeObject.ofNode_eq_error {node : Node} {error : BackendError} :
    ofNode node = .error error ↔
      ∃ t tag, node = .target t ∧ t.type = .other tag ∧ error = .unrepresentable tag := by
  cases node with
  | target t =>
    rcases htype : t.type with _ | _ | _ | _ | tag <;>
      simp [ofNode, htype, TargetType.productType?, TargetType.tag, eq_comm]
  | project | configuration | scheme => simp [ofNode]

namespace Backend

theorem refuses_create_iff {node : Node} {error : BackendError} :
    backend.Refuses (.create node) error ↔ NativeObject.ofNode node = .error error := by
  rw [NativeObject.ofNode_eq_error]
  constructor
  · intro h
    cases h with
    | unrepresentable type => exact ⟨_, _, rfl, type, rfl⟩
    | unmet need => cases need
  · rintro ⟨t, tag, rfl, htype, rfl⟩
    exact .unrepresentable htype

/-! ## Looking objects up -/

theorem requireObject_result (id : NativeId) (backend : Backend) :
    (∃ object, backend.object? id = some object) ∨
      ∃ error, (backend.object? id = none ∧ error = .unknownObject id) ∧
        requireObject id backend = (.error error, backend) := by
  rcases hobject : backend.object? id with _ | object
  · refine Or.inr ⟨_, ⟨rfl, rfl⟩, ?_⟩
    rw [requireObject, get_bind, hobject]
    rfl
  · exact Or.inl ⟨object, rfl⟩

theorem requireProject_result (id : NativeId) (backend : Backend) :
    (∃ p, backend.object? id = some (.project p)) ∨
      ∃ error, backend.Unmet id .project error ∧
        requireProject id backend = (.error error, backend) := by
  rcases requireObject_result id backend with ⟨object, hobject⟩ | ⟨error, ⟨hnone, rfl⟩, herror⟩
  · cases object with
    | project p => exact Or.inl ⟨p, hobject⟩
    | group | target | configuration | scheme =>
      exact Or.inr ⟨_, .mistaken hobject nofun, bind_of_ok (requireObject_apply hobject) _⟩
  · exact Or.inr ⟨_, .missing hnone, bind_of_error herror _⟩

theorem requireTarget_result (id : NativeId) (backend : Backend) :
    (∃ t, backend.object? id = some (.target t)) ∨
      ∃ error, backend.Unmet id .target error ∧
        requireTarget id backend = (.error error, backend) := by
  rcases requireObject_result id backend with ⟨object, hobject⟩ | ⟨error, ⟨hnone, rfl⟩, herror⟩
  · cases object with
    | target t => exact Or.inl ⟨t, hobject⟩
    | project | group | configuration | scheme =>
      exact Or.inr ⟨_, .mistaken hobject nofun, bind_of_ok (requireObject_apply hobject) _⟩
  · exact Or.inr ⟨_, .missing hnone, bind_of_error herror _⟩

theorem requireConfiguration_result (id : NativeId) (backend : Backend) :
    (∃ c, backend.object? id = some (.configuration c)) ∨
      ∃ error, backend.Unmet id .configuration error ∧
        requireConfiguration id backend = (.error error, backend) := by
  rcases requireObject_result id backend with ⟨object, hobject⟩ | ⟨error, ⟨hnone, rfl⟩, herror⟩
  · cases object with
    | configuration c => exact Or.inl ⟨c, hobject⟩
    | project | group | target | scheme =>
      exact Or.inr ⟨_, .mistaken hobject nofun, bind_of_ok (requireObject_apply hobject) _⟩
  · exact Or.inr ⟨_, .missing hnone, bind_of_error herror _⟩

theorem requireScheme_result (id : NativeId) (backend : Backend) :
    (∃ s, backend.object? id = some (.scheme s)) ∨
      ∃ error, backend.Unmet id .scheme error ∧
        requireScheme id backend = (.error error, backend) := by
  rcases requireObject_result id backend with ⟨object, hobject⟩ | ⟨error, ⟨hnone, rfl⟩, herror⟩
  · cases object with
    | scheme s => exact Or.inl ⟨s, hobject⟩
    | project | group | target | configuration =>
      exact Or.inr ⟨_, .mistaken hobject nofun, bind_of_ok (requireObject_apply hobject) _⟩
  · exact Or.inr ⟨_, .missing hnone, bind_of_error herror _⟩

end Backend

end ProjectCompiler
