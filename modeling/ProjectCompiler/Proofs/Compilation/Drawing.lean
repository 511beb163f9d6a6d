import ProjectCompiler.Proofs.Compilation.Instruction
import Mathlib.Data.List.Infix
import Mathlib.Data.List.Nodup

/-!
# Drawing — the native graph as a function of instructions

Instructions that are carried out leave a native graph that can be read off from them. Objects stand
in the order in which instructions first name them. Every object is what its node starts out as,
changed by the instructions that are about it, in order; and where it refers to another object, it
does so by that object's place.

An instruction that cannot be carried out says so by itself: whether it fails depends neither on the
session nor on the instructions before it.

- `Instruction.items`: what stands in the graph, in order;
- `Item.drawn`: the native object of an item;
- `Instruction.fault?`: why an instruction fails.
-/

namespace ProjectCompiler

/-! ## Places in the graph -/

/-- What a native object stands for. -/
inductive Item
  | node (node : Node)
  /-- A group of the project. -/
  | group (name : String)

/-- How an item is told apart from others. -/
inductive Key
  | object (id : Identity)
  | group (name : String)
  deriving DecidableEq

namespace Item

def key : Item → Key
  | node n => .object n.id
  | group name => .group name

def keys (items : List Item) : List Key :=
  items.map key

@[simp]
theorem keys_append (items more : List Item) : keys (items ++ more) = keys items ++ keys more :=
  List.map_append

@[simp]
theorem keys_singleton (item : Item) : keys [item] = [item.key] :=
  rfl

/-- Append an item unless it is there. -/
def meet (items : List Item) (item : Item) : List Item :=
  if item.key ∈ keys items then items else items ++ [item]

/-- The number of an item among all items, which stand after `base` older objects. -/
def number (base : Nat) (items : List Item) (key : Key) : NativeId :=
  ⟨base + (keys items).idxOf key⟩

variable {items final : List Item} {item : Item} {base : Nat}

theorem isPrefix_meet (items : List Item) (item : Item) : items <+: meet items item := by
  unfold meet
  split
  · exact List.prefix_rfl
  · exact List.prefix_append items [item]

theorem isPrefix_foldl_meet (items more : List Item) : items <+: more.foldl meet items := by
  induction more generalizing items with
  | nil => exact List.prefix_rfl
  | cons item rest ih =>
    calc
      items <+: meet items item := isPrefix_meet items item
      _ <+: rest.foldl meet (meet items item) := ih (meet items item)

theorem key_mem_meet (items : List Item) (item : Item) : item.key ∈ keys (meet items item) := by
  unfold meet
  split
  · assumption
  · simp [keys]

theorem key_mem_foldl_meet {more : List Item} (h : item ∈ more) :
    item.key ∈ keys (more.foldl meet items) := by
  induction more generalizing items with
  | nil => cases h
  | cons other rest ih =>
    rcases List.mem_cons.1 h with rfl | hrest
    · -- Once it stands in the list, it stays there.
      exact (isPrefix_foldl_meet _ rest).map Item.key |>.subset (key_mem_meet items item)
    · exact ih hrest

theorem key_mem_of_isPrefix {key : Key} (h : items <+: final) (hkey : key ∈ keys items) :
    key ∈ keys final :=
  (h.map Item.key).subset hkey

theorem nodup_keys_foldl_meet {more : List Item} (h : (keys items).Nodup) :
    (keys (more.foldl meet items)).Nodup := by
  induction more generalizing items with
  | nil => exact h
  | cons item rest ih =>
    apply ih
    unfold meet
    split
    · exact h
    · rename_i hnew
      have hnodup : (keys items ++ [item.key]).Nodup := by
        simpa [List.nodup_append] using ⟨h, fun key hkey heq => hnew (heq ▸ hkey)⟩
      simpa [keys] using hnodup

/-- Items with distinct keys are known by their keys. -/
theorem eq_of_key_eq {other : Item} (hnodup : (keys final).Nodup) (h : item ∈ final)
    (hother : other ∈ final) (hkey : item.key = other.key) : item = other :=
  List.inj_on_of_nodup_map hnodup h hother hkey

theorem mem_of_key_mem (hnodup : (keys final).Nodup) (hwithin : items <+: final)
    (h : item ∈ final) (hkey : item.key ∈ keys items) : item ∈ items := by
  rcases List.mem_map.1 hkey with ⟨other, hother, heq⟩
  have hsame : other = item := eq_of_key_eq hnodup (hwithin.subset hother) h heq
  exact hsame ▸ hother

/-- Numbers are places, for the first items as for all. -/
theorem number_of_getElem? (base : Nat) {position : Nat} (hnodup : (keys final).Nodup)
    (hwithin : items <+: final) (h : items[position]? = some item) :
    number base final item.key = ⟨base + position⟩ := by
  have hfinal : final[position]? = some item := by
    rcases hwithin with ⟨rest, rfl⟩
    rcases List.getElem?_eq_some_iff.1 h with ⟨hlt, -⟩
    rw [List.getElem?_append_left hlt]
    exact h
  have hkey : (keys final)[position]? = some item.key := by
    simp [keys, hfinal]
  rcases List.getElem?_eq_some_iff.1 hkey with ⟨hlt, hget⟩
  rw [number, ← hget, hnodup.idxOf_getElem position hlt]

theorem number_injective {first second : Key} (hfirst : first ∈ keys final)
    (h : number base final first = number base final second) : first = second := by
  have hindex : (keys final).idxOf first = (keys final).idxOf second := by
    simpa [number] using h
  exact (List.idxOf_inj hfirst).1 hindex

/-- Nodes of distinct identities that stand among the items have distinct numbers. -/
theorem nodup_numbers {nodes : List Node} (hdistinct : (nodes.map Node.id).Nodup)
    (hknown : ∀ node ∈ nodes, .object node.id ∈ keys final) :
    (nodes.map fun node => number base final (.object node.id)).Nodup := by
  refine (List.Nodup.of_map Node.id hdistinct).map_on fun first hfirst second hsecond hnumber => ?_
  have hkey := number_injective (hknown first hfirst) hnumber
  exact List.inj_on_of_nodup_map hdistinct hfirst hsecond (Key.object.inj hkey)

end Item

/-! ## What an instruction draws -/

/-- The kind of a node's native object. -/
def Node.nativeKind : Node → NativeKind
  | .project _ => .project
  | .configuration _ => .configuration
  | .target _ => .target
  | .scheme _ => .scheme

namespace Instruction

/-- The nodes that an instruction names, in the order in which it looks them up. -/
def mentions : Instruction → List Node
  | translate node => [node]
  | group project _ => [.project project]
  | attach parent child => [parent, child]
  | settle configuration => [.configuration configuration]
  | suppress target => [.target target]
  | list target test scheme => .target target :: (test.toList.map Node.target ++ [.scheme scheme])
  | enter _ | stage | fail _ => []

def groups : Instruction → List String
  | group _ name => [name]
  | _ => []

def introduced (instruction : Instruction) : List Item :=
  instruction.mentions.map Item.node ++ instruction.groups.map Item.group

/-- What stands in the graph after some instructions, in order. -/
def items (plan : List Instruction) : List Item :=
  (plan.flatMap introduced).foldl Item.meet []

/-- The node that an instruction is about. -/
def owner? : Instruction → Option Node
  | group project _ => some (.project project)
  | attach parent _ => some parent
  | settle configuration => some (.configuration configuration)
  | list _ _ scheme => some (.scheme scheme)
  | enter _ | translate _ | suppress _ | stage | fail _ => none

/-- What becomes of the object that an instruction is about. -/
def alter (number : Key → NativeId) : Instruction → NativeObject → NativeObject
  | group _ name, .project p => .project { p with groups := p.groups ++ [number (.group name)] }
  | attach _ child, object =>
      (Backend.attached? object (number (.object child.id)) child.nativeKind).getD object
  | settle configuration, .configuration c =>
      .configuration { c with settings := configuration.settings }
  | list target test scheme, .scheme s =>
      .scheme {
        name := scheme.name
        buildTargets := number (.object target.id) ::
          (test.map fun bundle => number (.object bundle.id)).toList
        launchTarget := some (number (.object target.id))
        testTargets := (test.map fun bundle => number (.object bundle.id)).toList
        actions := scheme.configurations.foldl
          (fun entries pair => Entries.insert entries pair.1 pair.2) s.actions }
  | _, object => object

/-- What becomes of the object of a node. -/
def redraw (number : Key → NativeId) (node : Node) (object : NativeObject)
    (instruction : Instruction) : NativeObject :=
  if instruction.owner?.map Node.id = some node.id then instruction.alter number object else object

/-- Targets that get no automatic scheme. -/
def suppressed : Instruction → List Target
  | suppress target => [target]
  | _ => []

/-- User schemes that go on the list. -/
def listed : Instruction → List Scheme
  | list _ _ scheme => [scheme]
  | _ => []

end Instruction

namespace Item

variable {number : Key → NativeId} {done : List Instruction} {instruction : Instruction}

/-- What an item starts out as. A node without a native object never becomes an item. -/
def blank : Item → NativeObject
  | node n => (NativeObject.ofNode n).toOption.getD (.group { name := n.name })
  | group name => .group { name }

/-- The native object of an item after some instructions. -/
def drawn (number : Key → NativeId) (done : List Instruction) : Item → NativeObject
  | node n => done.foldl (Instruction.redraw number n) (blank (.node n))
  | group name => blank (.group name)

theorem drawn_nil {node : Node} {object : NativeObject} (h : NativeObject.ofNode node = .ok object) :
    drawn number [] (.node node) = object := by
  simp [drawn, blank, h, Except.toOption]

theorem drawn_concat (number : Key → NativeId) (done : List Instruction)
    (instruction : Instruction) (node : Node) :
    drawn number (done ++ [instruction]) (.node node) =
      instruction.redraw number node (drawn number done (.node node)) := by
  simp [drawn]

theorem drawn_append_self {owner : Node} (h : instruction.owner? = some owner) :
    drawn number (done ++ [instruction]) (.node owner) =
      instruction.alter number (drawn number done (.node owner)) := by
  simp [drawn_concat, Instruction.redraw, h]

/-- An instruction changes only the object that it is about. -/
theorem drawn_append_of_ne {item : Item}
    (h : ∀ owner ∈ instruction.owner?, Key.object owner.id ≠ item.key) :
    drawn number (done ++ [instruction]) item = drawn number done item := by
  cases item with
  | group name => rfl
  | node n =>
    have hother : ¬ instruction.owner?.map Node.id = some n.id := by
      intro hsame
      rcases Option.map_eq_some_iff.1 hsame with ⟨owner, howner, hid⟩
      exact h owner howner (by rw [key, hid])
    simp [drawn_concat, Instruction.redraw, hother]

/-- What no instruction is about is as it starts out. -/
theorem drawn_eq_blank {item : Item}
    (h : ∀ instruction ∈ done, ∀ owner ∈ instruction.owner?, Key.object owner.id ≠ item.key) :
    drawn number done item = blank item := by
  -- From the end, since the last instruction is the last change.
  induction done using List.reverseRecOn with
  | nil =>
    cases item with
    | node n => rfl
    | group name => rfl
  | append_singleton done instruction ih =>
    rw [drawn_append_of_ne (h instruction (by simp))]
    apply ih
    intro other hother
    exact h other (by simp [hother])

end Item

/-! ## Why an instruction fails -/

/-- A node that has no native object. -/
def Node.fault? (node : Node) : Option PipelineError :=
  match NativeObject.ofNode node with
  | .ok _ => none
  | .error error => some (.translation node.text error)

/-- Two nodes of which one can hold the other. -/
def Node.attachable (parent child : Node) : Bool :=
  parent.id ≠ child.id && parent.nativeKind.holds child.nativeKind

namespace Instruction

/-- Why an instruction fails although its nodes have native objects. -/
def refusal? : Instruction → Option PipelineError
  | attach parent child =>
      if parent.attachable child then none
      else some (.backend (.invalidAttachment parent.nativeKind child.nativeKind))
  | fail error => some error
  | _ => none

def fault? (instruction : Instruction) : Option PipelineError :=
  (instruction.mentions.findSome? Node.fault?).or instruction.refusal?

/-- The nodes whose native objects are there when an instruction fails. -/
def reached (instruction : Instruction) : List Node :=
  instruction.mentions.takeWhile fun node => node.fault?.isNone

theorem fault?_eq_none {instruction : Instruction} :
    instruction.fault? = none ↔
      (∀ node ∈ instruction.mentions, node.fault? = none) ∧ instruction.refusal? = none := by
  simp [fault?, List.findSome?_eq_none_iff]

end Instruction

/-! ## Kinds of drawn objects -/

theorem NativeObject.kind_of_ofNode {node : Node} {object : NativeObject}
    (h : NativeObject.ofNode node = .ok object) : object.kind = node.nativeKind := by
  cases node with
  | target t =>
    rw [ofNode] at h
    split at h
    · cases h
      rfl
    · cases h
  | project p | configuration c | scheme s =>
    cases h
    rfl

theorem Node.exists_ofNode {node : Node} (h : node.fault? = none) :
    ∃ object, NativeObject.ofNode node = .ok object := by
  rcases hnode : NativeObject.ofNode node with error | object
  · simp [fault?, hnode] at h
  · exact ⟨object, rfl⟩

theorem Instruction.kind_alter (number : Key → NativeId) (instruction : Instruction)
    (object : NativeObject) : (instruction.alter number object).kind = object.kind := by
  cases instruction with
  | attach parent child =>
    rw [alter]
    rcases hattached : Backend.attached? object (number (.object child.id)) child.nativeKind with
      _ | new
    · rfl
    · exact Backend.kind_attached? hattached
  | enter | translate | group | settle | suppress | list | stage | fail =>
    cases object <;> rfl

namespace Item

variable {number : Key → NativeId} {done : List Instruction} {node : Node}

theorem kind_drawn (h : node.fault? = none) :
    (drawn number done (.node node)).kind = node.nativeKind := by
  -- An object starts out with the kind of its node, and no instruction changes kinds.
  induction done using List.reverseRecOn with
  | nil =>
    rcases node.exists_ofNode h with ⟨object, hobject⟩
    rw [drawn_nil hobject, NativeObject.kind_of_ofNode hobject]
  | append_singleton done instruction ih =>
    rw [drawn_concat, Instruction.redraw]
    split
    · rw [Instruction.kind_alter, ih]
    · exact ih

end Item

theorem NativeObject.exists_project {object : NativeObject} (h : object.kind = .project) :
    ∃ p, object = .project p := by
  cases object <;> simp_all [kind]

theorem NativeObject.exists_target {object : NativeObject} (h : object.kind = .target) :
    ∃ t, object = .target t := by
  cases object <;> simp_all [kind]

theorem NativeObject.exists_configuration {object : NativeObject}
    (h : object.kind = .configuration) : ∃ c, object = .configuration c := by
  cases object <;> simp_all [kind]

theorem NativeObject.exists_scheme {object : NativeObject} (h : object.kind = .scheme) :
    ∃ s, object = .scheme s := by
  cases object <;> simp_all [kind]

end ProjectCompiler
