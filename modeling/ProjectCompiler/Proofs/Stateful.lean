import Mathlib.Order.Defs.Unbundled

/-!
# Stateful — computations that fail and keep their state

Edits of a backend, runs of a pipeline and the building of a model are all of one kind: they thread a
state and may fail, and the state reached by then stays. This module says how such computations
compose, once for all of them.

- `Stateful.bind_of_ok`, `Stateful.bind_of_error`: what a sequence does after its first step;
- `Stateful.Moves`: wherever a computation starts and however it ends, it moves the state along a
  relation. Along a reflexive and transitive one, whole sequences do;
- `Stateful.InStep`: two computations that answer alike and lead from related states to related
  states. Sequences of such computations do the same.
-/

namespace ProjectCompiler

namespace Stateful

variable {σ ε α β : Type}

/-! ## One step after another -/

theorem bind_of_ok {x : ExceptT ε (StateM σ) α} {s s' : σ} {a : α} (h : x s = (.ok a, s'))
    (f : α → ExceptT ε (StateM σ) β) : (x >>= f) s = f a s' := by
  show ExceptT.bind x f s = f a s'
  simp only [ExceptT.bind, ExceptT.mk, bind, StateT.bind, h]
  rfl

theorem bind_of_error {x : ExceptT ε (StateM σ) α} {s s' : σ} {error : ε}
    (h : x s = (.error error, s')) (f : α → ExceptT ε (StateM σ) β) :
    (x >>= f) s = (.error error, s') := by
  show ExceptT.bind x f s = (.error error, s')
  simp only [ExceptT.bind, ExceptT.mk, bind, StateT.bind, h]
  rfl

/-- Whether a computation succeeds can be decided; what it answers then is there. -/
theorem exists_of_isOk {result : Except ε α} (h : result.isOk = true) : ∃ a, result = .ok a := by
  cases result with
  | error error => cases h
  | ok a => exact ⟨a, rfl⟩

@[simp]
theorem pure_apply (a : α) (s : σ) : (pure a : ExceptT ε (StateM σ) α) s = (.ok a, s) :=
  rfl

@[simp]
theorem modify_apply (change : σ → σ) (s : σ) :
    (modify change : ExceptT ε (StateM σ) Unit) s = (.ok (), change s) :=
  rfl

theorem get_bind (f : σ → ExceptT ε (StateM σ) β) (s : σ) : (get >>= f) s = f s s :=
  rfl

theorem modify_bind (change : σ → σ) (f : PUnit → ExceptT ε (StateM σ) β) (s : σ) :
    (modify change >>= f) s = f ⟨⟩ (change s) :=
  rfl

theorem bind_eq_of_eq {x y : ExceptT ε (StateM σ) α} {s s' : σ} (h : x s = y s')
    (f : α → ExceptT ε (StateM σ) β) : (x >>= f) s = (y >>= f) s' := by
  -- The two may start in different states; only where they end counts.
  rcases hy : y s' with ⟨result, after⟩
  cases result with
  | error error => rw [bind_of_error (h.trans hy), bind_of_error hy]
  | ok answer => rw [bind_of_ok (h.trans hy), bind_of_ok hy]

/-- What follows a step may rely on what the step keeps. -/
theorem bind_agree {P : σ → Prop} {x : ExceptT ε (StateM σ) α} {f g : α → ExceptT ε (StateM σ) β}
    (hx : ∀ s, P s → P (x s).2) (h : ∀ a s, P s → f a s = g a s) {s : σ} (hs : P s) :
    (x >>= f) s = (x >>= g) s := by
  have hkeeps : P (x s).2 := hx s hs
  rcases hrun : x s with ⟨result, after⟩
  rw [hrun] at hkeeps
  cases result with
  | error error => rw [bind_of_error hrun, bind_of_error hrun]
  | ok a => rw [bind_of_ok hrun, bind_of_ok hrun, h a after hkeeps]

/-! ## Where a computation can lead -/

/-- However it ends, the computation leads from a state to a related one. -/
def Moves (related : σ → σ → Prop) (x : ExceptT ε (StateM σ) α) : Prop :=
  ∀ s, related s (x s).2

namespace Moves

variable {related : σ → σ → Prop} [IsPreorder σ related]

theorem pure (a : α) : Moves related (Pure.pure a : ExceptT ε (StateM σ) α) := by
  intro s
  exact refl_of related s

theorem throw (error : ε) : Moves related (MonadExcept.throw error : ExceptT ε (StateM σ) α) := by
  intro s
  exact refl_of related s

theorem get : Moves related (MonadState.get : ExceptT ε (StateM σ) σ) := by
  intro s
  exact refl_of related s

theorem bind {x : ExceptT ε (StateM σ) α} {f : α → ExceptT ε (StateM σ) β}
    (hx : Moves related x) (hf : ∀ a, Moves related (f a)) : Moves related (x >>= f) := by
  intro s
  have first : related s (x s).2 := hx s
  rcases h : x s with ⟨result, middle⟩
  rw [h] at first
  cases result with
  | error error =>
    -- What follows does not run, and the state is the one that the first step left.
    rw [bind_of_error h]
    exact first
  | ok a =>
    rw [bind_of_ok h]
    exact trans_of related first (hf a middle)

theorem forM {items : List α} {f : α → ExceptT ε (StateM σ) Unit}
    (h : ∀ item ∈ items, Moves related (f item)) : Moves related (items.forM f) := by
  induction items with
  | nil => exact pure ()
  | cons item rest ih =>
    have hrest : Moves related (rest.forM f) := by
      apply ih
      intro other hother
      exact h other (List.mem_cons_of_mem _ hother)
    exact bind (h item List.mem_cons_self) fun _ => hrest

end Moves

/-! ## Two computations side by side -/

variable {τ δ γ β' : Type}

/-- From related states the two computations come to the same: the second gives what the first gives,
an answer or an error as seen through a map of its own, and they end in related states. -/
def InStep (related : σ → τ → Prop) (onAnswer : α → β) (onError : ε → δ)
    (x : ExceptT ε (StateM σ) α) (y : ExceptT δ (StateM τ) β) : Prop :=
  ∀ s t, related s t →
    (y t).1 = ((x s).1.map onAnswer).mapError onError ∧ related (x s).2 (y t).2

namespace InStep

variable {related : σ → τ → Prop} {onAnswer : α → β} {onError : ε → δ}

theorem pure (a : α) : InStep related onAnswer onError
    (Pure.pure a : ExceptT ε (StateM σ) α) (Pure.pure (onAnswer a)) :=
  fun _ _ h => ⟨rfl, h⟩

theorem throw (error : ε) : InStep related onAnswer onError
    (MonadExcept.throw error : ExceptT ε (StateM σ) α) (MonadExcept.throw (onError error)) :=
  fun _ _ h => ⟨rfl, h⟩

theorem update {change : σ → σ} {other : τ → τ}
    (h : ∀ s t, related s t → related (change s) (other t)) : InStep related id onError
      (modify change : ExceptT ε (StateM σ) PUnit) (modify other) :=
  fun s t hst => ⟨rfl, h s t hst⟩

theorem bind {onNext : γ → β'} {x : ExceptT ε (StateM σ) α} {y : ExceptT δ (StateM τ) β}
    {f : α → ExceptT ε (StateM σ) γ} {g : β → ExceptT δ (StateM τ) β'}
    (hx : InStep related onAnswer onError x y)
    (hf : ∀ a, InStep related onNext onError (f a) (g (onAnswer a))) :
    InStep related onNext onError (x >>= f) (y >>= g) := by
  intro s t h
  obtain ⟨hresult, hafter⟩ := hx s t h
  rcases hfirst : x s with ⟨result, middle⟩
  rcases hsecond : y t with ⟨result', middle'⟩
  rw [hfirst, hsecond] at hresult hafter
  obtain rfl : result' = _ := hresult
  cases result with
  | error error =>
    rw [bind_of_error hfirst, bind_of_error hsecond]
    exact ⟨rfl, hafter⟩
  | ok a =>
    rw [bind_of_ok hfirst, bind_of_ok hsecond]
    exact hf a middle middle' hafter

theorem forM {items : List α} {f : α → ExceptT ε (StateM σ) PUnit}
    {g : α → ExceptT δ (StateM τ) PUnit}
    (h : ∀ item ∈ items, InStep related id onError (f item) (g item)) :
    InStep related id onError (items.forM f) (items.forM g) := by
  induction items with
  | nil => exact pure PUnit.unit
  | cons item rest ih =>
    have hrest := ih fun other hother => h other (List.mem_cons_of_mem _ hother)
    exact (h item List.mem_cons_self).bind fun _ => hrest

end InStep

end Stateful

end ProjectCompiler
