import ProjectCompiler.Proofs.Compilation.Drawing
import ProjectCompiler.Proofs.Native.Operations
import ProjectCompiler.Proofs.Pipeline.Persistence

/-!
# Draws — sessions in which a drawing stands

While instructions are carried out, the session holds the drawing of those that are done. This module
says so once, as an invariant, and shows what the steps of an instruction make of it: a node that is
looked up is known from then on by the place that it has in the whole drawing, and an edit of known
objects is one more instruction that is done.

- `Draws`: a session that stands where some instructions have led;
- `Draws.native_of_fits`, `Draws.native_of_fault`: nodes that are looked up;
- `Draws.edit_attach` and its like: edits of known objects.
-/

namespace ProjectCompiler

open Stateful

variable {ν : Type}

/-! ## Sessions that instructions lead to -/

/-- The session stands where instructions have led from a backend: `items` are there, which are the
first ones of all items that there will be. -/
structure Draws (final : List Item) (start : Backend) (items : List Item)
    (done : List Instruction) (session : Session ν) : Prop where
  nodup : (Item.keys final).Nodup
  isPrefix : items <+: final
  fits : ∀ node, .node node ∈ items → node.fault? = none
  owners : ∀ instruction ∈ done, ∀ owner ∈ instruction.owner?, .object owner.id ∈ Item.keys items
  groups : ∀ name, .group name ∈ Item.keys items → name ∈ done.flatMap Instruction.groups
  natives : ∀ id, Entries.find? session.natives id =
    if .object id ∈ Item.keys items then some (Item.number start.objects.length final (.object id))
    else none
  objects : session.backend.objects = start.objects ++
    items.map (Item.drawn (Item.number start.objects.length final) done)
  suppressed : session.backend.suppressed = (done.flatMap Instruction.suppressed).foldl
    (fun ids target => Backend.appendNew ids
      (Item.number start.objects.length final (.object target.id))) start.suppressed
  listed : session.backend.listed = start.listed ++ (done.flatMap Instruction.listed).map
    fun scheme => Item.number start.objects.length final (.object scheme.id)
  sameSaved : start.SameSaved session.backend
  staged : session.staged = true ↔ .stage ∈ done

namespace Draws

variable {final items : List Item} {start : Backend} {done : List Instruction}
  {session : Session ν} {node : Node}

theorem start_nil (hnodup : (Item.keys final).Nodup) (project : Project) (supply : Supply) :
    Draws final start [] [] (Session.start (ν := ν) project supply start) where
  nodup := hnodup
  isPrefix := List.nil_prefix
  fits := by simp
  owners := by simp
  groups := by simp [Item.keys]
  natives := by simp [Session.start, Item.keys, Entries.find?]
  objects := by simp [Session.start]
  suppressed := by simp [Session.start]
  listed := by simp [Session.start]
  sameSaved := refl_of Backend.SameSaved start
  staged := by simp [Session.start]

/-- An item stands at its number, as drawn so far. -/
theorem object?_of_item (h : Draws final start items done session) {item : Item}
    (hitem : item ∈ items) :
    session.backend.object? (Item.number start.objects.length final item.key) =
      some (Item.drawn (Item.number start.objects.length final) done item) := by
  rcases List.getElem?_of_mem hitem with ⟨position, hposition⟩
  have hnumber := Item.number_of_getElem? start.objects.length h.nodup h.isPrefix hposition
  rw [hnumber, Backend.object?, h.objects, List.getElem?_append_right (Nat.le_add_right _ _)]
  simp [hposition]

/-- A known node stands at its number, as drawn so far. -/
theorem object? (h : Draws final start items done session) (hfinal : .node node ∈ final)
    (hkey : .object node.id ∈ Item.keys items) :
    session.backend.object? (Item.number start.objects.length final (.object node.id)) =
      some (Item.drawn (Item.number start.objects.length final) done (.node node)) :=
  h.object?_of_item (Item.mem_of_key_mem h.nodup h.isPrefix hfinal hkey)

/-- A node that has no native object is not found and not made. -/
theorem native_of_fault (h : Draws final start items done session) (hfinal : .node node ∈ final)
    {error : PipelineError} (hfault : node.fault? = some error) :
    Session.native node session = (.error error, session) := by
  have hunknown : .object node.id ∉ Item.keys items := by
    intro hkey
    have hitem : .node node ∈ items := Item.mem_of_key_mem h.nodup h.isPrefix hfinal hkey
    rw [h.fits node hitem] at hfault
    cases hfault
  have hfind : Entries.find? session.natives node.id = none := by
    rw [h.natives, if_neg hunknown]
  rw [Node.fault?] at hfault
  rw [Session.native_apply, hfind]
  rcases hnode : NativeObject.ofNode node with reason | object
  · rw [hnode] at hfault
    cases hfault
    rfl
  · rw [hnode] at hfault
    cases hfault

/-- The first free number is the place of the next item. -/
theorem number_of_next (h : Draws final start items done session) {item : Item}
    (hwithin : items ++ [item] <+: final) :
    Item.number start.objects.length final item.key = ⟨session.backend.objects.length⟩ := by
  have hplace : (items ++ [item])[items.length]? = some item := by simp
  rw [Item.number_of_getElem? start.objects.length h.nodup hwithin hplace, h.objects]
  simp

/-- A session with one more object, for a node that was not known. -/
theorem with_next (h : Draws final start items done session)
    (hwithin : items ++ [.node node] <+: final) (hnew : .object node.id ∉ Item.keys items)
    {object : NativeObject} (hobject : NativeObject.ofNode node = .ok object) :
    Draws final start (items ++ [.node node]) done { session with
      backend := session.backend.extended object
      natives := session.natives ++ [(node.id, ⟨session.backend.objects.length⟩)] } where
  nodup := h.nodup
  isPrefix := hwithin
  fits := by
    intro other hother
    rcases List.mem_append.1 hother with hold | hlast
    · exact h.fits other hold
    · obtain rfl : other = node := by simpa using hlast
      simp [Node.fault?, hobject]
  owners := by
    intro instruction hinstruction owner howner
    rw [Item.keys_append]
    exact List.mem_append_left _ (h.owners instruction hinstruction owner howner)
  groups := by
    intro name hname
    apply h.groups name
    simpa [Item.key] using hname
  natives := by
    intro id
    have hnumber := h.number_of_next hwithin
    rw [Item.key] at hnumber
    rw [Entries.find?_append, h.natives]
    by_cases hid : .object id ∈ Item.keys items
    · simp [hid]
    · by_cases hsame : node.id = id
      · simp [hid, hsame, Item.key, Entries.find?, ← hnumber]
      · simp [hid, hsame, Ne.symm hsame, Item.key, Entries.find?]
  objects := by
    -- No instruction so far is about a node that was not known.
    have hdrawn : Item.drawn (Item.number start.objects.length final) done (.node node) =
        object := by
      rw [Item.drawn_eq_blank, Item.blank, hobject]
      · rfl
      · intro instruction hinstruction owner howner hsame
        have hold := h.owners instruction hinstruction owner howner
        rw [hsame] at hold
        exact hnew hold
    simp [h.objects, hdrawn]
  suppressed := h.suppressed
  listed := h.listed
  sameSaved := by
    have hmade : session.backend.SameSaved (session.backend.extended object) := ⟨rfl, rfl, rfl, rfl⟩
    exact trans_of Backend.SameSaved h.sameSaved hmade
  staged := h.staged

/-- Looking up a node answers with its number, and makes its object if it is new. -/
theorem native_of_fits (h : Draws final start items done session)
    (hwithin : Item.meet items (.node node) <+: final) (hfits : node.fault? = none) :
    ∃ after, Session.native node session =
        (.ok (Item.number start.objects.length final (.object node.id)), after) ∧
      Draws final start (Item.meet items (.node node)) done after := by
  by_cases hkey : .object node.id ∈ Item.keys items
  · have hmeet : Item.meet items (.node node) = items := if_pos hkey
    have hfind : Entries.find? session.natives node.id =
        some (Item.number start.objects.length final (.object node.id)) := by
      rw [h.natives, if_pos hkey]
    rw [hmeet]
    exact ⟨session, Session.native_of_knows hfind, h⟩
  · have hmeet : Item.meet items (.node node) = items ++ [.node node] := if_neg hkey
    have hfind : Entries.find? session.natives node.id = none := by
      rw [h.natives, if_neg hkey]
    rcases node.exists_ofNode hfits with ⟨object, hobject⟩
    rw [hmeet] at hwithin ⊢
    have hnumber := h.number_of_next hwithin
    rw [Item.key] at hnumber
    rw [Session.native_apply, hfind, hobject, hnumber]
    exact ⟨_, rfl, h.with_next hwithin hkey hobject⟩

/-- Looking up a target, if there is one. -/
theorem nativeTarget?_of_fits (h : Draws final start items done session) (test : Option Target)
    (hwithin : (test.toList.map fun target => .node (.target target)).foldl Item.meet items <+: final)
    (hfits : ∀ target ∈ test, (Node.target target).fault? = none) :
    ∃ after, Session.nativeTarget? test session =
        (.ok (test.map fun target => Item.number start.objects.length final (.object target.id)),
          after) ∧
      Draws final start ((test.toList.map fun target => .node (.target target)).foldl Item.meet items)
        done after := by
  cases test with
  | none => exact ⟨session, rfl, h⟩
  | some target =>
    rcases h.native_of_fits hwithin (hfits target rfl) with ⟨after, hnative, hafter⟩
    exact ⟨after, bind_of_ok hnative _, hafter⟩

/-! ## One instruction -/

/-- The item that an instruction is about changes, and no other. -/
theorem set_drawn (before : List NativeObject) (done : List Instruction)
    (instruction : Instruction) {owner : Node} (hnodup : (Item.keys final).Nodup) (hwithin : items <+: final)
    (howner : instruction.owner? = some owner) (hitem : .node owner ∈ items) :
    (before ++ items.map (Item.drawn (Item.number before.length final) done)).set
        (Item.number before.length final (.object owner.id)).index
        (instruction.alter (Item.number before.length final)
          (Item.drawn (Item.number before.length final) done (.node owner))) =
      before ++ items.map (Item.drawn (Item.number before.length final) (done ++ [instruction])) := by
  rcases List.getElem?_of_mem hitem with ⟨position, hposition⟩
  have hnumber := Item.number_of_getElem? before.length hnodup hwithin hposition
  rw [Item.key] at hnumber
  rw [hnumber, List.set_append_right _ _ (Nat.le_add_right _ _), Nat.add_sub_cancel_left]
  congr 1
  apply List.ext_getElem?
  intro place
  -- Place by place: there is the item that the instruction is about, and there are the others.
  by_cases hplace : position = place
  · subst hplace
    have hlt : position < items.length := (List.getElem?_eq_some_iff.1 hposition).1
    have hlength : position < (items.map (Item.drawn (Item.number before.length final) done)).length := by
      simpa using hlt
    rw [List.getElem?_set_self hlength, List.getElem?_map, hposition, Option.map_some,
      Item.drawn_append_self howner]
  · rw [List.getElem?_set_ne hplace, List.getElem?_map, List.getElem?_map]
    rcases hother : items[place]? with _ | other
    · rfl
    · -- Items at different places have different numbers, so they have different keys.
      have hne : ∀ node ∈ instruction.owner?, Key.object node.id ≠ other.key := by
        intro node hnode hkey
        obtain rfl := Option.some.inj (howner.symm.trans hnode)
        have hat := Item.number_of_getElem? before.length hnodup hwithin hother
        rw [← hkey, hnumber] at hat
        exact hplace (by simpa using hat)
      simp [Item.drawn_append_of_ne hne]

/-- What has to be shown of the session after an instruction, its nodes being known. -/
theorem after (h : Draws final start items done session) {instruction : Instruction}
    {more : List Item} {after : Session ν} (hmore : more = items ++ instruction.groups.map .group)
    (hwithin : more <+: final)
    (howner : ∀ owner ∈ instruction.owner?, .object owner.id ∈ Item.keys items)
    (hnatives : after.natives = session.natives)
    (hobjects : after.backend.objects = start.objects ++ more.map
      (Item.drawn (Item.number start.objects.length final) (done ++ [instruction])))
    (hsuppressed : after.backend.suppressed = instruction.suppressed.foldl (fun ids target =>
      Backend.appendNew ids (Item.number start.objects.length final (.object target.id)))
        session.backend.suppressed)
    (hlisted : after.backend.listed = session.backend.listed ++ instruction.listed.map
      fun scheme => Item.number start.objects.length final (.object scheme.id))
    (hsaved : session.backend.SameSaved after.backend)
    (hstaged : after.staged = true ↔ session.staged = true ∨ .stage = instruction) :
    Draws final start more (done ++ [instruction]) after where
  nodup := h.nodup
  isPrefix := hwithin
  fits := by
    intro node hnode
    rw [hmore] at hnode
    exact h.fits node (by simpa using hnode)
  owners := by
    intro other hother owner hmem
    rw [hmore, Item.keys_append]
    apply List.mem_append_left
    rcases List.mem_append.1 hother with hold | hnew
    · exact h.owners other hold owner hmem
    · obtain rfl := List.mem_singleton.1 hnew
      exact howner owner hmem
  groups := by
    intro name hname
    rw [hmore, Item.keys_append] at hname
    rw [List.flatMap_append, List.flatMap_singleton]
    rcases List.mem_append.1 hname with hold | hnew
    · exact List.mem_append_left _ (h.groups name hold)
    · apply List.mem_append_right
      simpa [Item.keys, Item.key] using hnew
  natives := by
    intro id
    -- New groups have keys of another kind.
    have hkeys : .object id ∈ Item.keys more ↔ .object id ∈ Item.keys items := by
      simp [hmore, Item.keys, Item.key]
    rw [hnatives, h.natives]
    simp only [hkeys]
  objects := hobjects
  suppressed := by
    rw [hsuppressed, h.suppressed, List.flatMap_append, List.foldl_append, List.flatMap_singleton]
  listed := by
    rw [hlisted, h.listed, List.flatMap_append, List.map_append, List.flatMap_singleton,
      List.append_assoc]
  sameSaved := trans_of Backend.SameSaved h.sameSaved hsaved
  staged := by
    rw [hstaged, h.staged]
    simp

theorem map_drawn_of_owner_none {number : Key → NativeId} {instruction : Instruction}
    (h : instruction.owner? = none) :
    items.map (Item.drawn number (done ++ [instruction])) = items.map (Item.drawn number done) := by
  apply List.map_congr_left
  intro item _
  apply Item.drawn_append_of_ne
  simp [h]

/-- An instruction that leaves the graph as it is, its nodes being known. -/
theorem noted (h : Draws final start items done session) {instruction : Instruction}
    {after : Session ν} (howner : instruction.owner? = none) (hgroups : instruction.groups = [])
    (hsuppressed : instruction.suppressed = []) (hlisted : instruction.listed = [])
    (hnatives : after.natives = session.natives) (hbackend : after.backend = session.backend)
    (hstaged : after.staged = true ↔ session.staged = true ∨ .stage = instruction) :
    Draws final start items (done ++ [instruction]) after := by
  have hsaved : session.backend.SameSaved after.backend := by
    rw [hbackend]
    exact refl_of Backend.SameSaved session.backend
  refine h.after (by simp [hgroups]) h.isPrefix (by simp [howner]) hnatives ?_ ?_ ?_ hsaved hstaged
  · rw [hbackend, map_drawn_of_owner_none howner]
    exact h.objects
  · simp [hbackend, hsuppressed]
  · simp [hbackend, hlisted]

/-- An instruction that changes the object that it is about, and nothing else. -/
theorem replaced (h : Draws final start items done session) (instruction : Instruction)
    {owner : Node} (howner : instruction.owner? = some owner) (hfinal : .node owner ∈ final)
    (hkey : .object owner.id ∈ Item.keys items) (hgroups : instruction.groups = [])
    (hsuppressed : instruction.suppressed = []) (hlisted : instruction.listed = [])
    (hstage : .stage ≠ instruction) :
    Draws final start items (done ++ [instruction]) { session with
      backend := session.backend.replaced
        (Item.number start.objects.length final (.object owner.id))
        (instruction.alter (Item.number start.objects.length final)
          (Item.drawn (Item.number start.objects.length final) done (.node owner))) } := by
  have hitem : .node owner ∈ items := Item.mem_of_key_mem h.nodup h.isPrefix hfinal hkey
  refine h.after (by simp [hgroups]) h.isPrefix ?_ rfl ?_ ?_ ?_ ⟨rfl, rfl, rfl, rfl⟩ ?_
  · simpa [howner] using hkey
  · rw [Backend.objects_replaced, h.objects]
    exact set_drawn _ _ _ h.nodup h.isPrefix howner hitem
  · simp [hsuppressed, Backend.replaced]
  · simp [hlisted, Backend.replaced]
  · simp [hstage]

/-! ## Edits of known objects -/

section Edits

variable {parent child : Node}

theorem kind_of_known (h : Draws final start items done session) (hfinal : .node node ∈ final)
    (hkey : .object node.id ∈ Item.keys items) {number : Key → NativeId} :
    (Item.drawn number done (.node node)).kind = node.nativeKind :=
  Item.kind_drawn (h.fits node (Item.mem_of_key_mem h.nodup h.isPrefix hfinal hkey))

theorem edit_attach (h : Draws final start items done session) (hparent : .node parent ∈ final)
    (hparentKey : .object parent.id ∈ Item.keys items) (hchild : .node child ∈ final)
    (hchildKey : .object child.id ∈ Item.keys items) (hattachable : parent.attachable child) :
    ∃ after, Session.edit .backend (Backend.attach
        (Item.number start.objects.length final (.object parent.id))
        (Item.number start.objects.length final (.object child.id))) session = (.ok (), after) ∧
      Draws final start items (done ++ [.attach parent child]) after := by
  let number := Item.number start.objects.length final
  rw [Node.attachable, Bool.and_eq_true, decide_eq_true_eq] at hattachable
  rcases hattachable with ⟨hids, hholds⟩
  -- The backend compares numbers, and says of kinds whether they go together.
  have hdiffer : number (.object parent.id) ≠ number (.object child.id) := by
    intro hsame
    have hkeys := Item.number_injective (Item.key_mem_of_isPrefix h.isPrefix hparentKey) hsame
    exact hids (Key.object.inj hkeys)
  obtain ⟨object, hobject⟩ : ∃ object, Backend.attached?
      (Item.drawn number done (.node parent)) (number (.object child.id)) child.nativeKind =
        some object := by
    rw [← Option.isSome_iff_exists, Backend.isSome_attached?, h.kind_of_known hparent hparentKey,
      hholds]
  have happly : Backend.attach (number (.object parent.id)) (number (.object child.id))
      session.backend =
        (.ok (), session.backend.replaced (number (.object parent.id)) object) := by
    rw [Backend.attach_apply (h.object? hparent hparentKey) (h.object? hchild hchildKey),
      if_neg hdiffer, h.kind_of_known hchild hchildKey, hobject]
  have halter : (Instruction.attach parent child).alter number
      (Item.drawn number done (.node parent)) = object := by
    rw [Instruction.alter, hobject]
    rfl
  refine ⟨_, Session.edit_of_ok happly, ?_⟩
  have hreplaced := h.replaced (.attach parent child) rfl hparent hparentKey rfl rfl
    rfl (by simp)
  rwa [halter] at hreplaced

theorem edit_attach_of_not_attachable (h : Draws final start items done session)
    (hparent : .node parent ∈ final) (hparentKey : .object parent.id ∈ Item.keys items)
    (hchild : .node child ∈ final) (hchildKey : .object child.id ∈ Item.keys items)
    (hattachable : parent.attachable child = false) :
    Session.edit .backend (Backend.attach
        (Item.number start.objects.length final (.object parent.id))
        (Item.number start.objects.length final (.object child.id))) session =
      (.error (.backend (.invalidAttachment parent.nativeKind child.nativeKind)), session) := by
  refine Session.edit_of_error ?_
  rw [Backend.attach_apply (h.object? hparent hparentKey) (h.object? hchild hchildKey),
    h.kind_of_known hparent hparentKey, h.kind_of_known hchild hchildKey]
  -- An object is refused by itself, and by one of a kind that does not hold it.
  by_cases hids : parent.id = child.id
  · simp [hids]
  · have hholds : parent.nativeKind.holds child.nativeKind = false := by
      simpa [Node.attachable, hids] using hattachable
    have hnone : Backend.attached?
        (Item.drawn (Item.number start.objects.length final) done (.node parent))
        (Item.number start.objects.length final (.object child.id)) child.nativeKind = none := by
      rw [← Option.not_isSome_iff_eq_none, Backend.isSome_attached?,
        h.kind_of_known hparent hparentKey, hholds]
      simp
    simp [hnone]

theorem edit_createGroup (h : Draws final start items done session) {project : Project}
    {name : String} (hfinal : .node (.project project) ∈ final)
    (hkey : .object project.id ∈ Item.keys items)
    (hwithin : items ++ [.group name] <+: final) :
    ∃ id after, Session.edit .backend (Backend.createGroup
        (Item.number start.objects.length final (.object project.id)) name) session =
          (.ok id, after) ∧
      Draws final start (items ++ [.group name]) (done ++ [.group project name]) after := by
  rcases NativeObject.exists_project (h.kind_of_known hfinal hkey) with ⟨p, hp⟩
  have hobject := h.object? hfinal hkey
  rw [hp] at hobject
  have hgroup : Item.number start.objects.length final (.group name) =
      ⟨session.backend.objects.length⟩ := h.number_of_next hwithin
  refine ⟨_, _, Session.edit_of_ok (Backend.createGroup_apply hobject name), ?_⟩
  refine h.after rfl hwithin ?_ rfl ?_ rfl ?_ ⟨rfl, rfl, rfl, rfl⟩ (by simp)
  · simpa [Instruction.owner?, Node.id] using hkey
  · have hitem : .node (.project project) ∈ items ++ [.group name] :=
      List.mem_append_left _ (Item.mem_of_key_mem h.nodup h.isPrefix hfinal hkey)
    have hset := set_drawn start.objects done (.group project name) h.nodup hwithin rfl hitem
    rw [hp, Instruction.alter, hgroup] at hset
    have hblank : Item.drawn (Item.number start.objects.length final) done (.group name) =
        .group { name } := rfl
    simpa [h.objects, hblank, Node.id] using hset
  · simp [Instruction.listed, Backend.replaced, Backend.extended]

theorem edit_setBuildSettings (h : Draws final start items done session)
    {configuration : BuildConfiguration} (hfinal : .node (.configuration configuration) ∈ final)
    (hkey : .object configuration.id ∈ Item.keys items) :
    ∃ after, Session.edit .backend (Backend.setBuildSettings
        (Item.number start.objects.length final (.object configuration.id))
        configuration.settings) session = (.ok (), after) ∧
      Draws final start items (done ++ [.settle configuration]) after := by
  rcases NativeObject.exists_configuration (h.kind_of_known hfinal hkey) with ⟨c, hc⟩
  have hobject := h.object? hfinal hkey
  rw [hc] at hobject
  refine ⟨_, Session.edit_of_ok (Backend.setBuildSettings_apply hobject _), ?_⟩
  have hreplaced := h.replaced (.settle configuration) rfl hfinal hkey rfl rfl rfl (by simp)
  rwa [hc] at hreplaced

theorem edit_suppress (h : Draws final start items done session) (target : Target) :
    ∃ after, Session.edit .backend (Backend.suppress
        (Item.number start.objects.length final (.object target.id))) session = (.ok (), after) ∧
      Draws final start items (done ++ [.suppress target]) after := by
  refine ⟨_, Session.edit_of_ok rfl, ?_⟩
  refine h.after (by simp [Instruction.groups]) h.isPrefix (by simp [Instruction.owner?]) rfl ?_ rfl
    ?_ ⟨rfl, rfl, rfl, rfl⟩ (by simp)
  · rw [map_drawn_of_owner_none rfl]
    exact h.objects
  · exact (List.append_nil _).symm

theorem edit_fillScheme (h : Draws final start items done session) {target : Target}
    {test : Option Target} {scheme : Scheme} (hfinal : .node (.scheme scheme) ∈ final)
    (hkey : .object scheme.id ∈ Item.keys items)
    (htargets : ∀ other ∈ target :: test.toList,
      .node (.target other) ∈ final ∧ .object other.id ∈ Item.keys items) :
    ∃ after, Session.edit .backend (Backend.fillScheme
        (Item.number start.objects.length final (.object target.id))
        (test.map fun bundle => Item.number start.objects.length final (.object bundle.id)) scheme
        (Item.number start.objects.length final (.object scheme.id))) session = (.ok (), after) ∧
      Draws final start items (done ++ [.list target test scheme]) after := by
  -- The backend looks up the target and the test bundle, each under a number of its own.
  have hfound : ∀ other ∈ target :: test.toList, ∃ t, session.backend.object?
      (Item.number start.objects.length final (.object other.id)) = some (.target t) := by
    intro other hother
    rcases htargets other hother with ⟨hotherFinal, hotherKey⟩
    rcases NativeObject.exists_target (h.kind_of_known hotherFinal hotherKey) with ⟨t, ht⟩
    exact ⟨t, ht ▸ h.object? hotherFinal hotherKey⟩
  rcases NativeObject.exists_scheme (h.kind_of_known hfinal hkey) with ⟨s, hs⟩
  have hobject := h.object? hfinal hkey
  rw [hs] at hobject
  rcases hfound target List.mem_cons_self with ⟨t, ht⟩
  have htest : ∀ bundle ∈ test.map fun bundle =>
      Item.number start.objects.length final (.object bundle.id),
      ∃ b, session.backend.object? bundle = some (.target b) := by
    intro number hnumber
    rcases Option.map_eq_some_iff.1 hnumber with ⟨bundle, hbundle, rfl⟩
    exact hfound bundle (List.mem_cons_of_mem _ (Option.mem_toList.2 hbundle))
  refine ⟨_, Session.edit_of_ok (Backend.fillScheme_apply scheme hobject ht htest), ?_⟩
  have hitem := Item.mem_of_key_mem h.nodup h.isPrefix hfinal hkey
  refine h.after (by simp [Instruction.groups]) h.isPrefix ?_ rfl ?_ rfl rfl ⟨rfl, rfl, rfl, rfl⟩
    (by simp)
  · simpa [Instruction.owner?, Node.id] using hkey
  · have hset := set_drawn start.objects done (.list target test scheme) h.nodup h.isPrefix rfl hitem
    rw [hs, Instruction.alter, ← h.objects] at hset
    exact hset

end Edits

end Draws

end ProjectCompiler
