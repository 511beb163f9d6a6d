import ProjectCompiler.Proofs.Compilation.Success

/-!
# Drawn — the targets and schemes of a whole drawing

Several instructions are about one target or scheme, and instructions about others stand between them.
What they make of it together can be said without going through them: a native target keeps the name
and the product type that it starts out with and depends on what was attached to it, and a native scheme
is filled in by one instruction and left alone by all others.

- `Item.drawn_target`: a native target and its dependencies;
- `Item.drawn_scheme`: a native scheme that one instruction fills in;
- `Drawn.object?_of_mem`, `Drawn.exists_target_of_mem`: what stands in the graph of a whole run.
-/

namespace ProjectCompiler

variable {ν : Type}

/-! ## Native targets -/

/-- What a native target has from its target, and what from instructions. -/
structure NativeTarget.Represents (number : Key → NativeId) (done : List Instruction) (target : Target)
    (native : NativeTarget) : Prop where
  name : native.name = target.name
  productType : target.type.productType? = some native.productType
  /-- Every dependency was attached. -/
  attached : ∀ id ∈ native.dependencies, ∃ parent child, .attach parent (.target child) ∈ done ∧
    parent.id = target.id ∧ id = number (.object child.id)

namespace NativeTarget.Represents

variable {number : Key → NativeId} {done : List Instruction} {target : Target}
  {native : NativeTarget} {instruction : Instruction}

theorem mono (h : native.Represents number done target) (instruction : Instruction) :
    native.Represents number (done ++ [instruction]) target where
  name := h.name
  productType := h.productType
  attached := by
    intro id hid
    rcases h.attached id hid with ⟨parent, child, hmem, hparent, heq⟩
    exact ⟨parent, child, List.mem_append_left _ hmem, hparent, heq⟩

/-- The instruction is about the target, or about a node of its identity. -/
theorem alter (h : native.Represents number done target)
    (howner : instruction.owner?.map Node.id = some target.id) :
    ∃ after, instruction.alter number (.target native) = .target after ∧
      after.Represents number (done ++ [instruction]) target := by
  have hmono := h.mono instruction
  -- A configuration is held in another list, and a native target holds nothing else but targets.
  cases instruction with
  | enter | translate | group | settle | suppress | list | stage | fail => exact ⟨native, rfl, hmono⟩
  | attach parent child =>
    have hparent : parent.id = target.id := Option.some.inj howner
    cases child with
    | project p => exact ⟨native, rfl, hmono⟩
    | scheme s => exact ⟨native, rfl, hmono⟩
    | configuration c => exact ⟨_, rfl, { hmono with }⟩
    | target child =>
      refine ⟨_, rfl, { hmono with attached := ?_ }⟩
      intro id hid
      rcases Backend.mem_appendNew hid with hold | rfl
      · exact hmono.attached id hold
      · exact ⟨parent, child, by simp, hparent, rfl⟩

end NativeTarget.Represents

namespace Item

variable {number : Key → NativeId} {done : List Instruction}

theorem drawn_target {target : Target} (h : (Node.target target).fault? = none) :
    ∃ native, drawn number done (.node (.target target)) = .target native ∧
      native.Represents number done target := by
  induction done using List.reverseRecOn with
  | nil =>
    rcases Node.exists_ofNode h with ⟨object, hobject⟩
    have hblank : drawn number [] (.node (.target target)) = object := drawn_nil hobject
    rw [NativeObject.ofNode] at hobject
    split at hobject
    · rename_i productType hproduct
      cases hobject
      exact ⟨_, hblank, rfl, hproduct, by simp⟩
    · cases hobject
  | append_singleton done instruction ih =>
    rcases ih with ⟨native, hnative, hrep⟩
    rw [drawn_concat, hnative, Instruction.redraw]
    -- Only if it is about the target does the instruction change it.
    split
    · rename_i howner
      exact hrep.alter howner
    · exact ⟨native, rfl, hrep.mono instruction⟩

/-! ## Native schemes -/

/-- The native scheme that stands for a scheme of a target. -/
def filledScheme (number : Key → NativeId) (target : Target) (test : Option Target)
    (scheme : Scheme) : NativeScheme :=
  let tests := (test.map fun bundle => number (.object bundle.id)).toList
  { name := scheme.name
    buildTargets := number (.object target.id) :: tests
    launchTarget := some (number (.object target.id))
    testTargets := tests
    actions := scheme.configurations }

/-- Filling a scheme in again changes nothing. -/
theorem alter_filledScheme {target : Target} {test : Option Target} {scheme : Scheme}
    {native : NativeScheme}
    (h : native.actions = [] ∨ native = filledScheme number target test scheme) :
    (Instruction.list target test scheme).alter number (.scheme native) =
      .scheme (filledScheme number target test scheme) := by
  rcases h with hblank | rfl
  · rw [Instruction.alter, hblank]
    rfl
  · rfl

/-- A scheme that only one instruction is about is as this one fills it in. -/
theorem drawn_scheme {target : Target} {test : Option Target} {scheme : Scheme}
    (hlist : .list target test scheme ∈ done)
    (honly : ∀ instruction ∈ done, instruction.owner?.map Node.id = some scheme.id →
      instruction = .list target test scheme) :
    drawn number done (.node (.scheme scheme)) =
      .scheme (filledScheme number target test scheme) := by
  -- Until it is filled in it has no actions, and from then on it stays as it is.
  have hcases : ∃ native, drawn number done (.node (.scheme scheme)) = .scheme native ∧
      (native = filledScheme number target test scheme ∨
        native.actions = [] ∧ .list target test scheme ∉ done) := by
    clear hlist
    induction done using List.reverseRecOn with
    | nil => exact ⟨_, rfl, Or.inr ⟨rfl, by simp⟩⟩
    | append_singleton done instruction ih =>
      have honlyBefore : ∀ other ∈ done, other.owner?.map Node.id = some scheme.id →
          other = .list target test scheme := by
        intro other hother
        exact honly other (List.mem_append_left _ hother)
      rcases ih honlyBefore with ⟨native, hnative, hstate⟩
      rw [drawn_concat, hnative, Instruction.redraw]
      split
      · rename_i howner
        obtain rfl := honly instruction (by simp) howner
        refine ⟨_, alter_filledScheme ?_, Or.inl rfl⟩
        rcases hstate with hfilled | ⟨hblank, -⟩
        · exact Or.inr hfilled
        · exact Or.inl hblank
      · rename_i howner
        refine ⟨native, rfl, hstate.imp_right ?_⟩
        rintro ⟨hblank, hnew⟩
        have hother : .list target test scheme ≠ instruction := by
          rintro rfl
          exact howner rfl
        exact ⟨hblank, by simp [hnew, hother]⟩
  rcases hcases with ⟨native, hnative, rfl | ⟨-, hnew⟩⟩
  · exact hnative
  · exact absurd hlist hnew

end Item

/-! ## The graph of a whole run -/

namespace Drawn

variable {plan : List Instruction} {start : Backend} {session : Session ν}

/-- Every node that was named stands in the graph, as all instructions together draw it. -/
theorem object?_of_mem (hlegible : Instruction.Legible plan) (h : Drawn plan start session)
    {node : Node} (hnode : node ∈ plan.flatMap Instruction.mentions) :
    node.fault? = none ∧
      session.backend.object? (Instruction.number plan start (.object node.id)) =
        some (Item.drawn (Instruction.number plan start) plan (.node node)) := by
  have hitem : .node node ∈ Instruction.items plan := hlegible.node_mem_items hnode
  have hkey : (Item.node node).key ∈ Item.keys (Instruction.items plan) := List.mem_map_of_mem hitem
  exact ⟨h.fits node hitem, Draws.object? h hitem hkey⟩

theorem exists_target_of_mem (hlegible : Instruction.Legible plan) (h : Drawn plan start session)
    {target : Target} (htarget : .target target ∈ plan.flatMap Instruction.mentions) :
    ∃ native, session.backend.object? (Instruction.number plan start (.object target.id)) =
        some (.target native) ∧
      native.Represents (Instruction.number plan start) plan target := by
  rcases h.object?_of_mem hlegible htarget with ⟨hfits, hobject⟩
  rcases Item.drawn_target hfits with ⟨native, hnative, hrep⟩
  rw [hnative] at hobject
  exact ⟨native, hobject, hrep⟩

end Drawn

end ProjectCompiler
