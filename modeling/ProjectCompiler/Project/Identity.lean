/-!
# Identity — which model object is which

Every object of a project model has an identity of its own, and equal values can be different
objects. Identities come from a supply that never hands one out twice: whatever makes an object
runs in `Fresh`, which threads the supply.
-/

namespace ProjectCompiler

structure Identity where
  number : Nat
  deriving DecidableEq, Repr, Inhabited

/-- The identities not yet handed out: those from `next` on. -/
structure Supply where
  next : Nat
  deriving DecidableEq, Repr, Inhabited

abbrev Fresh := StateM Supply

/-- An identity that was never handed out before. -/
def freshIdentity : Fresh Identity := fun supply =>
  (⟨supply.next⟩, ⟨supply.next + 1⟩)

end ProjectCompiler
