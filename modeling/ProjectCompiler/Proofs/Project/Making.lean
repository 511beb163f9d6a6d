import ProjectCompiler.Manifest.Lowering
import ProjectCompiler.Proofs.Stateful
import Mathlib.Data.List.Induction
import Mathlib.Data.List.Perm.Basic

/-!
# Making — objects and the identities they are made under

Whatever makes objects takes identities from the supply. Of such a computation two things are said at
once: what it makes, and that the objects in it stand under the identities that were there before and
under new ones, none of which the supply gives out twice. Both are shown step by step.

- `Supply.Issued`: identities that were given out between two points;
- `Fresh.Makes`, `Building.Makes`: what a computation makes, under which identities, if it cannot fail or
  does not;
- `Building.Tries`: likewise, of one that may fail;
- `Building.makes_iff_tries`, `Building.makes_lift_iff`: how one is a case of another. So the rule for
  sequences is shown once, as `Building.Tries.bind`, and that for loops as `Building.Makes.foldlM`.
-/

namespace ProjectCompiler

open Stateful
open scoped List

variable {α β : Type}

/-! ## Identities given out -/

/-- Identities that the supply gave out between two points, none of them twice. -/
structure Supply.Issued (before after : Supply) (ids : List Identity) : Prop where
  grows : before.next ≤ after.next
  nodup : ids.Nodup
  between : ∀ id ∈ ids, before.next ≤ id.number ∧ id.number < after.next

namespace Supply.Issued

variable {before middle after : Supply} {ids first second : List Identity}

theorem nil (supply : Supply) : supply.Issued supply [] :=
  ⟨Nat.le_refl _, List.nodup_nil, by simp⟩

/-- What is given out later is different. -/
theorem append (hfirst : before.Issued middle first) (hsecond : middle.Issued after second) :
    before.Issued after (first ++ second) where
  grows := Nat.le_trans hfirst.grows hsecond.grows
  nodup := by
    refine List.nodup_append.2 ⟨hfirst.nodup, hsecond.nodup, ?_⟩
    -- An identity of both would lie below the middle and not below it.
    rintro id hold _ hnew rfl
    have hbelow := (hfirst.between id hold).2
    have habove := (hsecond.between id hnew).1
    omega
  between := by
    have hgrows := hfirst.grows
    have hgrows' := hsecond.grows
    intro id hid
    rcases List.mem_append.1 hid with hold | hnew
    · have hrange := hfirst.between id hold
      omega
    · have hrange := hsecond.between id hnew
      omega

/-- Identities may be given out for nothing. -/
theorem forget (h : before.Issued after ids) : before.Issued after [] :=
  ⟨h.grows, List.nodup_nil, by simp⟩

end Supply.Issued

/-! ## What is made, and under which identities -/

/-- Given objects under the identities `old`, the computation makes an object that satisfies `Q`, and
what is in it stands under `old` and new identities. -/
def Fresh.Makes (x : Fresh α) (old : List Identity) (ids : α → List Identity) (Q : α → Prop) : Prop :=
  ∀ before, ∃ a after new, x before = (a, after) ∧ before.Issued after new ∧
    (ids a).Perm (old ++ new) ∧ Q a

namespace Building

/-- As for computations that only take identities: this one may fail, but does not. -/
def Makes (x : Building α) (old : List Identity) (ids : α → List Identity) (Q : α → Prop) : Prop :=
  ∀ before, ∃ a after new, x before = (.ok a, after) ∧ before.Issued after new ∧
    (ids a).Perm (old ++ new) ∧ Q a

/-- Either the computation fails for one of certain reasons, and whatever it made is dropped, or it makes
what it is asked for. -/
def Tries (x : Building α) (refusal : ModelError → Prop) (old : List Identity)
    (ids : α → List Identity) (Q : α → Prop) : Prop :=
  ∀ before, (∃ error after, x before = (.error error, after) ∧ before.Issued after [] ∧
      refusal error) ∨
    ∃ a after new, x before = (.ok a, after) ∧ before.Issued after new ∧
      (ids a).Perm (old ++ new) ∧ Q a

/-! ## Computations that may fail -/

namespace Tries

variable {x : Building α} {f : α → Building β} {refusal : ModelError → Prop} {old : List Identity}
  {ids : α → List Identity} {others : β → List Identity} {P : α → Prop} {Q : β → Prop}

theorem of_makes (hx : Makes x old ids P) : Tries x refusal old ids P :=
  fun before => Or.inr (hx before)

theorem throw {error : ModelError} (h : refusal error) :
    Tries (MonadExcept.throw error) refusal old ids P :=
  fun before => Or.inl ⟨error, before, rfl, Supply.Issued.nil before, h⟩

theorem weaken {other : ModelError → Prop} (hx : Tries x refusal old ids P)
    (h : ∀ error, refusal error → other error) : Tries x other old ids P := by
  intro before
  rcases hx before with ⟨error, after, hrun, hissued, herror⟩ | hmade
  · exact Or.inl ⟨error, after, hrun, hissued, h error herror⟩
  · exact Or.inr hmade

theorem bind (hx : Tries x refusal old ids P)
    (hf : ∀ a, P a → Tries (f a) refusal (ids a) others Q) :
    Tries (x >>= f) refusal old others Q := by
  intro before
  rcases hx before with ⟨error, after, hrun, hissued, herror⟩ |
    ⟨a, middle, first, hrun, hfirst, hperm, ha⟩
  · exact Or.inl ⟨error, after, bind_of_error hrun f, hissued, herror⟩
  · rcases hf a ha middle with ⟨error, after, hrun', hsecond, herror⟩ |
      ⟨b, after, second, hrun', hsecond, hperm', hb⟩
    · refine Or.inl ⟨error, after, (bind_of_ok hrun f).trans hrun', ?_, herror⟩
      simpa using hfirst.forget.append hsecond
    · refine Or.inr ⟨b, after, first ++ second, (bind_of_ok hrun f).trans hrun',
        hfirst.append hsecond, ?_, hb⟩
      calc
        others b ~ ids a ++ second := hperm'
        _ ~ old ++ first ++ second := hperm.append_right second
        _ ~ old ++ (first ++ second) := by rw [List.append_assoc]

end Tries

/-! ## Computations that do not fail -/

theorem makes_iff_tries {x : Building α} {old : List Identity} {ids : α → List Identity}
    {P : α → Prop} : Makes x old ids P ↔ Tries x (fun _ => False) old ids P := by
  refine ⟨Tries.of_makes, fun hx before => ?_⟩
  rcases hx before with ⟨_, _, _, _, hnever⟩ | hmade
  · exact hnever.elim
  · exact hmade

namespace Makes

variable {x : Building α} {f : α → Building β} {old : List Identity} {ids : α → List Identity}
  {others : β → List Identity} {P : α → Prop} {Q : β → Prop} {a : α}

theorem pure (hids : (ids a).Perm old) (h : P a) : Makes (Pure.pure a) old ids P := by
  intro before
  refine ⟨a, before, [], rfl, Supply.Issued.nil before, ?_, h⟩
  simpa using hids

theorem bind (hx : Makes x old ids P) (hf : ∀ a, P a → Makes (f a) (ids a) others Q) :
    Makes (x >>= f) old others Q :=
  makes_iff_tries.2 ((makes_iff_tries.1 hx).bind fun a ha => makes_iff_tries.1 (hf a ha))

theorem beside (hx : Makes x [] ids P) (kept : List Identity) :
    Makes x kept (fun a => kept ++ ids a) P := by
  intro before
  rcases hx before with ⟨a, after, new, hrun, hissued, hperm, ha⟩
  exact ⟨a, after, new, hrun, hissued, hperm.append_left kept, ha⟩

/-- What is made may be dropped; what was there before counts. -/
theorem drop (hx : Makes x old ids P) (kept : List Identity) : Makes x kept (fun _ => kept) P := by
  intro before
  rcases hx before with ⟨a, after, new, hrun, hissued, -, ha⟩
  exact ⟨a, after, [], hrun, hissued.forget, by simp, ha⟩

/-- The invariant may speak of the items that are done. The induction is on the last item. -/
theorem foldlM {items : List β} {f : α → β → Building α} {I : List β → α → Prop}
    (hf : ∀ done item rest, items = done ++ item :: rest → ∀ a, I done a →
      Makes (f a item) (ids a) ids (I (done ++ [item]))) (ha : I [] a) :
    Makes (items.foldlM f a) (ids a) ids (I items) := by
  induction items using List.reverseRecOn with
  | nil => exact pure (List.Perm.refl _) ha
  | append_singleton items item ih =>
    have hbefore : Makes (items.foldlM f a) (ids a) ids (I items) := by
      apply ih
      intro done other rest hitems
      apply hf done other (rest ++ [item])
      simp [hitems]
    rw [List.foldlM_append]
    refine bind hbefore fun middle hmiddle => ?_
    simpa using hf items item [] rfl middle hmiddle

end Makes

/-! ## Computations that only take identities -/

theorem lift_apply (x : Fresh α) (supply : Supply) :
    (liftM x : Building α) supply = (.ok (x supply).1, (x supply).2) :=
  rfl

theorem foldlM_lift (f : α → β → Fresh α) (items : List β) (a : α) :
    items.foldlM (fun a item => (liftM (f a item) : Building α)) a = liftM (items.foldlM f a) := by
  induction items generalizing a with
  | nil => rfl
  | cons item rest ih => simp only [List.foldlM_cons, liftM_bind, ih]

theorem makes_lift_iff {x : Fresh α} {old : List Identity} {ids : α → List Identity} {P : α → Prop} :
    Makes (liftM x) old ids P ↔ x.Makes old ids P := by
  constructor
  · intro hx before
    rcases hx before with ⟨a, after, new, hrun, hrest⟩
    cases hrun
    exact ⟨_, _, new, rfl, hrest⟩
  · intro hx before
    rcases hx before with ⟨a, after, new, hrun, hrest⟩
    refine ⟨a, after, new, ?_, hrest⟩
    rw [lift_apply, hrun]

theorem Makes.lift {x : Fresh α} {old : List Identity} {ids : α → List Identity} {P : α → Prop}
    (hx : x.Makes old ids P) : Makes (liftM x) old ids P :=
  makes_lift_iff.2 hx

end Building

namespace Fresh

namespace Makes

variable {x : Fresh α} {f : α → Fresh β} {old : List Identity} {ids : α → List Identity}
  {others : β → List Identity} {P : α → Prop} {Q : β → Prop} {a : α}

theorem pure (hids : (ids a).Perm old) (h : P a) : Makes (Pure.pure a) old ids P :=
  Building.makes_lift_iff.1 (Building.Makes.pure hids h)

theorem bind (hx : Makes x old ids P) (hf : ∀ a, P a → Makes (f a) (ids a) others Q) :
    Makes (x >>= f) old others Q := by
  rw [← Building.makes_lift_iff, liftM_bind]
  exact (Building.Makes.lift hx).bind fun a ha => .lift (hf a ha)

/-- Objects that the computation does not touch keep their identities. -/
theorem frame (hx : Makes x old ids P) (kept : List Identity) :
    Makes x (kept ++ old) (fun a => kept ++ ids a) P := by
  intro before
  rcases hx before with ⟨a, after, new, hrun, hissued, hperm, ha⟩
  refine ⟨a, after, new, hrun, hissued, ?_, ha⟩
  rw [List.append_assoc]
  exact hperm.append_left kept

/-- An object that is made beside others. -/
theorem beside (hx : Makes x [] ids P) (kept : List Identity) :
    Makes x kept (fun a => kept ++ ids a) P := by
  simpa using hx.frame kept

/-- It does not matter in which order the identities are listed. -/
theorem reorder (hx : Makes x old ids P) {kept : List Identity} (h : old.Perm kept) :
    Makes x kept ids P := by
  intro before
  rcases hx before with ⟨a, after, new, hrun, hissued, hperm, ha⟩
  exact ⟨a, after, new, hrun, hissued, hperm.trans (h.append_right new), ha⟩

theorem weaken {Q : α → Prop} (hx : Makes x old ids P) (h : ∀ a, P a → Q a) :
    Makes x old ids Q := by
  intro before
  rcases hx before with ⟨a, after, new, hrun, hissued, hperm, ha⟩
  exact ⟨a, after, new, hrun, hissued, hperm, h a ha⟩

theorem foldlM {items : List β} {f : α → β → Fresh α} {I : List β → α → Prop}
    (hf : ∀ done item rest, items = done ++ item :: rest → ∀ a, I done a →
      Makes (f a item) (ids a) ids (I (done ++ [item]))) (ha : I [] a) :
    Makes (items.foldlM f a) (ids a) ids (I items) := by
  rw [← Building.makes_lift_iff, ← Building.foldlM_lift]
  exact Building.Makes.foldlM
    (fun done item rest hitems a hdone => .lift (hf done item rest hitems a hdone)) ha

/-- Items one by one, each with identities of its own. -/
theorem mapM {items : List β} {f : β → Fresh α} {olds : β → List Identity} {R : β → α → Prop}
    (hf : ∀ item ∈ items, Makes (f item) (olds item) ids (R item)) :
    Makes (items.mapM f) (items.flatMap olds) (List.flatMap ids) (List.Forall₂ R items) := by
  induction items with
  | nil => exact pure (List.Perm.refl _) List.Forall₂.nil
  | cons item rest ih =>
    have hfirst := (hf item List.mem_cons_self).frame (rest.flatMap olds)
    have hrest := ih fun other hother => hf other (List.mem_cons_of_mem _ hother)
    rw [List.mapM_cons, List.flatMap_cons]
    refine bind (hfirst.reorder List.perm_append_comm) fun a ha => ?_
    refine bind ((hrest.frame (ids a)).reorder List.perm_append_comm) fun others hothers => ?_
    exact pure (List.Perm.refl _) (List.Forall₂.cons ha hothers)

end Makes

theorem freshIdentity_makes : Makes freshIdentity [] (fun id => [id]) fun _ => True := by
  intro before
  refine ⟨⟨before.next⟩, ⟨before.next + 1⟩, [⟨before.next⟩], rfl, ?_, by simp, trivial⟩
  exact ⟨by simp, by simp, by simp⟩

end Fresh

end ProjectCompiler
