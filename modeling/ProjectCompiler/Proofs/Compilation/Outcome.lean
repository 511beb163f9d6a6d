import ProjectCompiler.Proofs.Compilation.Draws

/-!
# Outcome — where instructions lead

Instructions are carried out one after another, and the session holds their drawing all the time, up
to the first one that fails by itself.

- `Draws.perform_of_fits`, `Draws.perform_of_fault`: one instruction;
- `Instruction.Legible`: instructions that tell different nodes apart;
- `Instruction.names_of_mem_items`, `Instruction.Legible.node_mem_items`: what comes into the graph is
  what they name;
- `Draws.performAll_of_fits`, `Draws.performAll_of_fault`: all of them;
- `Draws.performAll_result`: what they come to can be told from the instructions alone.
-/

namespace ProjectCompiler

open Stateful

variable {ν : Type}

namespace Draws

variable {final items : List Item} {start : Backend} {done : List Instruction}
  {session : Session ν} {node : Node}

/-! ## One instruction -/

theorem perform_translate (h : Draws final start items done session)
    (hwithin : Item.meet items (.node node) <+: final) (hfits : node.fault? = none) :
    ∃ after, (Instruction.translate node).perform session = (.ok (), after) ∧
      Draws final start (Item.meet items (.node node)) (done ++ [.translate node]) after := by
  rcases h.native_of_fits hwithin hfits with ⟨after, hnative, hafter⟩
  exact ⟨after, bind_of_ok hnative _, hafter.noted rfl rfl rfl rfl rfl rfl (by simp)⟩

/-- A group is made beside the objects that are there, so its name must be new. -/
theorem perform_group (h : Draws final start items done session) {project : Project} {name : String}
    (hfinal : .node (.project project) ∈ final)
    (hwithin : Item.meet (Item.meet items (.node (.project project))) (.group name) <+: final)
    (hname : .group name ∉ Item.keys items) :
    ∃ after, (Instruction.group project name).perform session = (.ok (), after) ∧
      Draws final start (Item.meet (Item.meet items (.node (.project project))) (.group name))
        (done ++ [.group project name]) after := by
  have hmiddle := (Item.isPrefix_meet _ (.group name)).trans hwithin
  rcases h.native_of_fits hmiddle rfl with ⟨first, hfirst, h⟩
  have hkey := Item.key_mem_meet items (.node (.project project))
  -- Looking up the project does not bring in a group.
  have hnew : .group name ∉ Item.keys (Item.meet items (.node (.project project))) := by
    unfold Item.meet
    split
    · exact hname
    · simpa [Item.key] using hname
  have hmeet : Item.meet (Item.meet items (.node (.project project))) (.group name) =
      Item.meet items (.node (.project project)) ++ [.group name] := if_neg hnew
  rw [hmeet] at hwithin ⊢
  rcases h.edit_createGroup hfinal hkey hwithin with ⟨id, after, hgroup, hafter⟩
  refine ⟨after, ?_, hafter⟩
  rw [Instruction.perform, bind_of_ok hfirst]
  exact bind_of_ok hgroup _

theorem perform_attach (h : Draws final start items done session) {parent child : Node}
    (hparent : .node parent ∈ final) (hchild : .node child ∈ final)
    (hwithin : Item.meet (Item.meet items (.node parent)) (.node child) <+: final)
    (hparentFits : parent.fault? = none) (hchildFits : child.fault? = none)
    (hattachable : parent.attachable child = true) :
    ∃ after, (Instruction.attach parent child).perform session = (.ok (), after) ∧
      Draws final start (Item.meet (Item.meet items (.node parent)) (.node child))
        (done ++ [.attach parent child]) after := by
  have hmiddle := (Item.isPrefix_meet _ (.node child)).trans hwithin
  rcases h.native_of_fits hmiddle hparentFits with ⟨first, hfirst, h⟩
  rcases h.native_of_fits hwithin hchildFits with ⟨second, hsecond, h⟩
  -- The parent is still known after its child was looked up.
  have hparentKey := Item.key_mem_of_isPrefix (Item.isPrefix_meet _ (.node child))
    (Item.key_mem_meet items (.node parent))
  rcases h.edit_attach hparent hparentKey hchild (Item.key_mem_meet _ _) hattachable with
    ⟨after, hattach, hafter⟩
  refine ⟨after, ?_, hafter⟩
  rw [Instruction.perform, bind_of_ok hfirst, bind_of_ok hsecond, hattach]

/-- What stands in the graph once the targets of a scheme and the scheme were looked up. -/
theorem introduced_list (items : List Item) (target : Target) (test : Option Target)
    (scheme : Scheme) :
    (Instruction.list target test scheme).introduced.foldl Item.meet items =
      Item.meet ((test.toList.map fun bundle => .node (.target bundle)).foldl Item.meet
        (Item.meet items (.node (.target target)))) (.node (.scheme scheme)) := by
  cases test with
  | none => rfl
  | some bundle => rfl

theorem perform_list (h : Draws final start items done session) {target : Target}
    {test : Option Target} {scheme : Scheme}
    (hfinal : ∀ other ∈ target :: test.toList, .node (.target other) ∈ final)
    (hscheme : .node (.scheme scheme) ∈ final)
    (hwithin : (Instruction.list target test scheme).introduced.foldl Item.meet items <+: final)
    (hfits : ∀ other ∈ target :: test.toList, (Node.target other).fault? = none) :
    ∃ after, (Instruction.list target test scheme).perform session = (.ok (), after) ∧
      Draws final start ((Instruction.list target test scheme).introduced.foldl Item.meet items)
        (done ++ [.list target test scheme]) after := by
  rw [introduced_list] at hwithin ⊢
  have hsecondPrefix := (Item.isPrefix_meet _ (.node (.scheme scheme))).trans hwithin
  have hfirstPrefix := (Item.isPrefix_foldl_meet _ _).trans hsecondPrefix
  have htestFits : ∀ bundle ∈ test, (Node.target bundle).fault? = none := by
    intro bundle hbundle
    apply hfits
    exact List.mem_cons_of_mem _ (Option.mem_toList.2 hbundle)
  rcases h.native_of_fits hfirstPrefix (hfits target List.mem_cons_self) with ⟨first, hfirst, h⟩
  rcases h.nativeTarget?_of_fits test hsecondPrefix htestFits with ⟨second, hsecond, h⟩
  rcases h.native_of_fits hwithin rfl with ⟨third, hthird, h⟩
  -- All targets are known by now, whichever look-up came first.
  have htargets : ∀ other ∈ target :: test.toList, .node (.target other) ∈ final ∧
      .object other.id ∈ Item.keys (Item.meet ((test.toList.map fun bundle =>
        .node (.target bundle)).foldl Item.meet (Item.meet items (.node (.target target))))
          (.node (.scheme scheme))) := by
    intro other hother
    refine ⟨hfinal other hother, ?_⟩
    apply Item.key_mem_of_isPrefix (Item.isPrefix_meet _ _)
    rcases List.mem_cons.1 hother with rfl | hbundle
    · exact Item.key_mem_of_isPrefix (Item.isPrefix_foldl_meet _ _) (Item.key_mem_meet items _)
    · exact Item.key_mem_foldl_meet (List.mem_map_of_mem hbundle)
  rcases h.edit_fillScheme hscheme (Item.key_mem_meet _ _) htargets with ⟨after, hfill, hafter⟩
  refine ⟨after, ?_, hafter⟩
  rw [Instruction.perform, bind_of_ok hfirst, bind_of_ok hsecond, bind_of_ok hthird]
  exact hfill

/-- An instruction whose nodes have native objects and that does not refuse is carried out. -/
theorem perform_of_fits (h : Draws final start items done session) (instruction : Instruction)
    (hfinal : ∀ node ∈ instruction.mentions, .node node ∈ final)
    (hwithin : instruction.introduced.foldl Item.meet items <+: final)
    (hgroups : ∀ name ∈ instruction.groups, .group name ∉ Item.keys items)
    (hfits : instruction.fault? = none) :
    ∃ after, instruction.perform session = (.ok (), after) ∧
      Draws final start (instruction.introduced.foldl Item.meet items) (done ++ [instruction])
        after := by
  rcases Instruction.fault?_eq_none.1 hfits with ⟨hnodes, hrefusal⟩
  -- Each instruction looks up its nodes in order and then edits known objects, if it edits any.
  cases instruction with
  | enter event => exact ⟨_, rfl, h.noted rfl rfl rfl rfl rfl rfl (by simp)⟩
  | stage => exact ⟨_, rfl, h.noted rfl rfl rfl rfl rfl rfl (by simp)⟩
  | fail error => cases hrefusal
  | translate node =>
    exact h.perform_translate hwithin (hnodes node List.mem_cons_self)
  | group project name =>
    exact h.perform_group (hfinal _ List.mem_cons_self) hwithin (hgroups name List.mem_cons_self)
  | attach parent child =>
    have hattachable : parent.attachable child = true := by
      by_contra hnot
      simp [Instruction.refusal?, hnot] at hrefusal
    have hchild : child ∈ (Instruction.attach parent child).mentions := by
      simp [Instruction.mentions]
    exact h.perform_attach (hfinal parent List.mem_cons_self) (hfinal child hchild) hwithin
      (hnodes parent List.mem_cons_self) (hnodes child hchild) hattachable
  | settle configuration =>
    have hconfiguration := hfinal _ List.mem_cons_self
    rcases h.native_of_fits hwithin rfl with ⟨first, hfirst, h⟩
    rcases h.edit_setBuildSettings hconfiguration (Item.key_mem_meet _ _) with
      ⟨after, hsettle, hafter⟩
    exact ⟨after, (bind_of_ok hfirst _).trans hsettle, hafter⟩
  | suppress target =>
    rcases h.native_of_fits hwithin (hnodes _ List.mem_cons_self) with ⟨first, hfirst, h⟩
    rcases h.edit_suppress target with ⟨after, hsuppress, hafter⟩
    exact ⟨after, (bind_of_ok hfirst _).trans hsuppress, hafter⟩
  | list target test scheme =>
    have hmentions : ∀ other ∈ target :: test.toList,
        .target other ∈ (Instruction.list target test scheme).mentions := by
      simp [Instruction.mentions]
    exact h.perform_list (fun other hother => hfinal _ (hmentions other hother))
      (hfinal _ (by simp [Instruction.mentions])) hwithin
      fun other hother => hnodes _ (hmentions other hother)

/-- Of two nodes the first without a native object decides; after both, the backend does. -/
theorem perform_attach_of_fault (h : Draws final start items done session) {parent child : Node}
    (hparent : .node parent ∈ final) (hchild : .node child ∈ final)
    (hwithin : Item.meet (Item.meet items (.node parent)) (.node child) <+: final)
    {error : PipelineError} (hfault : (Instruction.attach parent child).fault? = some error) :
    ∃ after, (Instruction.attach parent child).perform session = (.error error, after) ∧
      Draws final start (((Instruction.attach parent child).reached.map Item.node).foldl Item.meet items)
        done after := by
  rcases hparentFault : parent.fault? with _ | reason
  · have hmiddle := (Item.isPrefix_meet _ (.node child)).trans hwithin
    rcases h.native_of_fits hmiddle hparentFault with ⟨first, hfirst, h⟩
    rcases hchildFault : child.fault? with _ | reason
    · -- Both have native objects, so it is the attachment that is refused.
      rcases h.native_of_fits hwithin hchildFault with ⟨second, hsecond, h⟩
      have hrefusal : parent.attachable child = false ∧
          .backend (.invalidAttachment parent.nativeKind child.nativeKind) = error := by
        simpa [Instruction.fault?, Instruction.mentions, Instruction.refusal?, hparentFault,
          hchildFault] using hfault
      rcases hrefusal with ⟨hattachable, rfl⟩
      have hparentKey := Item.key_mem_of_isPrefix (Item.isPrefix_meet _ (.node child))
        (Item.key_mem_meet items (.node parent))
      refine ⟨second, ?_, ?_⟩
      · rw [Instruction.perform, bind_of_ok hfirst, bind_of_ok hsecond]
        exact h.edit_attach_of_not_attachable hparent hparentKey hchild (Item.key_mem_meet _ _)
          hattachable
      · simpa [Instruction.reached, Instruction.mentions, hparentFault, hchildFault] using h
    · obtain rfl : reason = error := by
        simpa [Instruction.fault?, Instruction.mentions, hparentFault, hchildFault] using hfault
      refine ⟨first, ?_, ?_⟩
      · rw [Instruction.perform, bind_of_ok hfirst]
        exact bind_of_error (h.native_of_fault hchild hchildFault) _
      · simpa [Instruction.reached, Instruction.mentions, hparentFault, hchildFault] using h
  · obtain rfl : reason = error := by
      simpa [Instruction.fault?, Instruction.mentions, hparentFault] using hfault
    refine ⟨session, bind_of_error (h.native_of_fault hparent hparentFault) _, ?_⟩
    simpa [Instruction.reached, Instruction.mentions, hparentFault] using h

/-- A scheme always has a native object, so one of its targets has none. -/
theorem perform_list_of_fault (h : Draws final start items done session) {target : Target}
    {test : Option Target} {scheme : Scheme}
    (hfinal : ∀ other ∈ target :: test.toList, .node (.target other) ∈ final)
    (hwithin : (Instruction.list target test scheme).introduced.foldl Item.meet items <+: final)
    {error : PipelineError} (hfault : (Instruction.list target test scheme).fault? = some error) :
    ∃ after, (Instruction.list target test scheme).perform session = (.error error, after) ∧
      Draws final start
        (((Instruction.list target test scheme).reached.map Item.node).foldl Item.meet items) done
        after := by
  have htarget := hfinal target List.mem_cons_self
  have hscheme : (Node.scheme scheme).fault? = none := rfl
  rcases htargetFault : (Node.target target).fault? with _ | reason
  · cases test with
    | none =>
      simp [Instruction.fault?, Instruction.mentions, Instruction.refusal?, htargetFault,
        hscheme] at hfault
    | some bundle =>
      have hbundle : .node (.target bundle) ∈ final := hfinal bundle (by simp)
      have hmiddle := (Item.isPrefix_foldl_meet (Item.meet items (.node (.target target)))
        [.node (.target bundle), .node (.scheme scheme)]).trans hwithin
      rcases h.native_of_fits hmiddle htargetFault with ⟨first, hfirst, h⟩
      rcases hbundleFault : (Node.target bundle).fault? with _ | reason
      · simp [Instruction.fault?, Instruction.mentions, Instruction.refusal?, htargetFault,
          hbundleFault, hscheme] at hfault
      · obtain rfl : reason = error := by
          simpa [Instruction.fault?, Instruction.mentions, htargetFault, hbundleFault] using hfault
        refine ⟨first, ?_, ?_⟩
        · rw [Instruction.perform, bind_of_ok hfirst, Session.nativeTarget?]
          exact bind_of_error (bind_of_error (h.native_of_fault hbundle hbundleFault) _) _
        · simpa [Instruction.reached, Instruction.mentions, htargetFault, hbundleFault] using h
  · obtain rfl : reason = error := by
      simpa [Instruction.fault?, Instruction.mentions, htargetFault] using hfault
    refine ⟨session, bind_of_error (h.native_of_fault htarget htargetFault) _, ?_⟩
    simpa [Instruction.reached, Instruction.mentions, htargetFault] using h

/-- An instruction that fails by itself fails where it is carried out. -/
theorem perform_of_fault (h : Draws final start items done session) (instruction : Instruction)
    (hfinal : ∀ node ∈ instruction.mentions, .node node ∈ final)
    (hwithin : instruction.introduced.foldl Item.meet items <+: final) {error : PipelineError}
    (hfault : instruction.fault? = some error) :
    ∃ after, instruction.perform session = (.error error, after) ∧
      Draws final start ((instruction.reached.map Item.node).foldl Item.meet items) done after := by
  cases instruction with
  -- Projects and configurations always have native objects, and nothing else is asked here.
  | enter | stage | group | settle => cases hfault
  | translate node =>
    have hnode : node.fault? = some error := by
      simpa [Instruction.fault?, Instruction.mentions, Instruction.refusal?] using hfault
    have hnative := h.native_of_fault (hfinal node List.mem_cons_self) hnode
    refine ⟨session, bind_of_error hnative _, ?_⟩
    simpa [Instruction.reached, Instruction.mentions, hnode] using h
  | suppress target =>
    have hnode : (Node.target target).fault? = some error := by
      simpa [Instruction.fault?, Instruction.mentions, Instruction.refusal?] using hfault
    have hnative := h.native_of_fault (hfinal _ List.mem_cons_self) hnode
    refine ⟨session, bind_of_error hnative _, ?_⟩
    simpa [Instruction.reached, Instruction.mentions, hnode] using h
  | attach parent child =>
    exact h.perform_attach_of_fault (hfinal parent List.mem_cons_self)
      (hfinal child (by simp [Instruction.mentions])) hwithin hfault
  | list target test scheme =>
    have htargets : ∀ other ∈ target :: test.toList, .node (.target other) ∈ final := by
      intro other hother
      apply hfinal
      simpa [Instruction.mentions] using hother
    exact h.perform_list_of_fault htargets hwithin hfault
  | fail reason =>
    obtain rfl : reason = error := by
      simpa [Instruction.fault?, Instruction.mentions, Instruction.refusal?] using hfault
    exact ⟨session, rfl, h⟩

end Draws

/-! ## All instructions -/

/-- Instructions that can be told from their drawing: a node is known by its identity, and a group by
its name. -/
structure Instruction.Legible (plan : List Instruction) : Prop where
  nodes : ∀ first ∈ plan.flatMap mentions, ∀ second ∈ plan.flatMap mentions,
    first.id = second.id → first = second
  groups : (plan.flatMap groups).Nodup

namespace Instruction

variable {plan : List Instruction}

theorem nodup_keys_items (plan : List Instruction) : (Item.keys (items plan)).Nodup :=
  Item.nodup_keys_foldl_meet (by simp [Item.keys])

theorem items_append (first second : List Instruction) :
    items (first ++ second) = (second.flatMap introduced).foldl Item.meet (items first) := by
  simp [items, List.flatMap_append, List.foldl_append]

theorem items_isPrefix {first plan : List Instruction} (h : first <+: plan) :
    items first <+: items plan := by
  rcases h with ⟨rest, rfl⟩
  rw [items_append]
  exact Item.isPrefix_foldl_meet _ _

theorem mem_foldl_meet {items more : List Item} {item : Item}
    (h : item ∈ more.foldl Item.meet items) : item ∈ items ∨ item ∈ more := by
  -- The items vary, since each step goes on with those met so far.
  induction more generalizing items with
  | nil => exact Or.inl h
  | cons other rest ih =>
    rcases ih h with hmeet | hrest
    · unfold Item.meet at hmeet
      split at hmeet
      · exact Or.inl hmeet
      · rcases List.mem_append.1 hmeet with hold | hnew
        · exact Or.inl hold
        · exact Or.inr (by simp_all)
    · exact Or.inr (List.mem_cons_of_mem _ hrest)

/-- The plan names an item: it looks up the node, or makes the group. -/
def Names (plan : List Instruction) : Item → Prop
  | .node node => node ∈ plan.flatMap mentions
  | .group name => name ∈ plan.flatMap groups

theorem mem_introduced_iff {item : Item} : item ∈ plan.flatMap introduced ↔ Names plan item := by
  cases item with
  | node node => simp [Names, introduced]
  | group name => simp [Names, introduced]

theorem names_of_mem_items {item : Item} (h : item ∈ items plan) : Names plan item :=
  mem_introduced_iff.1 ((mem_foldl_meet h).resolve_left nofun)

/-- What is named has an object, which may have been made for another item of the same key. -/
theorem exists_mem_items {item : Item} (h : Names plan item) :
    ∃ other ∈ items plan, other.key = item.key :=
  List.mem_map.1 (Item.key_mem_foldl_meet (mem_introduced_iff.2 h))

theorem group_mem_items {name : String} (h : name ∈ plan.flatMap groups) :
    .group name ∈ items plan := by
  have hnamed : Names plan (.group name) := h
  obtain ⟨item, hitem, hsame⟩ := exists_mem_items hnamed
  cases item with
  | node other => cases hsame
  | group other =>
    obtain rfl := Key.group.inj hsame
    exact hitem

/-- Every node that is named stands in the graph, not only one of its identity. -/
theorem Legible.node_mem_items (h : Legible plan) {node : Node}
    (hnode : node ∈ plan.flatMap mentions) : .node node ∈ items plan := by
  have hnamed : Names plan (.node node) := hnode
  obtain ⟨item, hitem, hsame⟩ := exists_mem_items hnamed
  cases item with
  | group name => cases hsame
  | node other =>
    -- The node found under the identity is named as well, so it is the same node.
    have hother : other ∈ plan.flatMap mentions := names_of_mem_items hitem
    obtain rfl := h.nodes other hother node hnode (Key.object.inj hsame)
    exact hitem

end Instruction

/-- The session stands where a whole plan has led. -/
abbrev Drawn (plan : List Instruction) (start : Backend) (session : Session ν) : Prop :=
  Draws (Instruction.items plan) start (Instruction.items plan) plan session

/-- The numbers that a whole plan gives out. -/
abbrev Instruction.number (plan : List Instruction) (start : Backend) : Key → NativeId :=
  Item.number start.objects.length (items plan)

namespace Draws

variable {start : Backend} {plan done todo : List Instruction} {session : Session ν}
  {instruction : Instruction}

/-- Each instruction of a plan finds what it needs: its nodes are told from others, and its groups are
new. -/
theorem ready (hlegible : Instruction.Legible plan) (hplan : done ++ [instruction] <+: plan)
    (h : Draws (Instruction.items plan) start (Instruction.items done) done session) :
    (∀ node ∈ instruction.mentions, .node node ∈ Instruction.items plan) ∧
      instruction.introduced.foldl Item.meet (Instruction.items done) <+: Instruction.items plan ∧
      ∀ name ∈ instruction.groups, .group name ∉ Item.keys (Instruction.items done) := by
  have hmem : instruction ∈ plan := hplan.subset (by simp)
  refine ⟨?_, ?_, ?_⟩
  · intro node hnode
    exact hlegible.node_mem_items (List.mem_flatMap.2 ⟨instruction, hmem, hnode⟩)
  · have hwithin := Instruction.items_isPrefix hplan
    simpa [Instruction.items_append] using hwithin
  · intro name hname hold
    rcases hplan with ⟨rest, rfl⟩
    have hnodup := hlegible.groups
    rw [List.append_assoc, List.flatMap_append, List.nodup_append] at hnodup
    exact hnodup.2.2 name (h.groups name hold) name (by simp [hname]) rfl

/-- The induction is on what is left to do. -/
theorem performAll_of_fits (hlegible : Instruction.Legible plan) (hplan : done ++ todo <+: plan)
    (h : Draws (Instruction.items plan) start (Instruction.items done) done session)
    (hfits : ∀ instruction ∈ todo, instruction.fault? = none) :
    ∃ after, Instruction.performAll todo session = (.ok (), after) ∧
      Draws (Instruction.items plan) start (Instruction.items (done ++ todo)) (done ++ todo)
        after := by
  induction todo generalizing done session with
  | nil =>
    rw [List.append_nil]
    exact ⟨session, rfl, h⟩
  | cons instruction rest ih =>
    -- The instruction goes over to those that are done, and the drawing with it.
    have hassoc : done ++ instruction :: rest = done ++ [instruction] ++ rest := by simp
    rw [hassoc] at hplan ⊢
    have hnext : done ++ [instruction] <+: plan := (List.prefix_append _ _).trans hplan
    rcases ready hlegible hnext h with ⟨hfinal, hwithin, hgroups⟩
    rcases h.perform_of_fits instruction hfinal hwithin hgroups (hfits _ List.mem_cons_self) with
      ⟨middle, hperform, hmiddle⟩
    have hitems : Instruction.items (done ++ [instruction]) =
        instruction.introduced.foldl Item.meet (Instruction.items done) := by
      simp [Instruction.items_append]
    rw [← hitems] at hmiddle
    rcases ih hplan hmiddle fun other hother => hfits other (List.mem_cons_of_mem _ hother) with
      ⟨after, hrest, hafter⟩
    exact ⟨after, (bind_of_ok hperform _).trans hrest, hafter⟩

/-- The first instruction that fails ends it all. -/
theorem performAll_of_fault (hlegible : Instruction.Legible plan)
    (hplan : todo ++ [instruction] <+: plan) (project : Project) (supply : Supply)
    (hfits : ∀ other ∈ todo, other.fault? = none) {error : PipelineError}
    (hfault : instruction.fault? = some error) (rest : List Instruction) :
    ∃ after, Instruction.performAll (ν := ν) (todo ++ instruction :: rest)
        (Session.start project supply start) = (.error error, after) ∧
      Draws (Instruction.items plan) start
        ((instruction.reached.map Item.node).foldl Item.meet (Instruction.items todo)) todo
        after := by
  have hstart : Draws (ν := ν) (Instruction.items plan) start (Instruction.items []) []
      (Session.start project supply start) :=
    start_nil (Instruction.nodup_keys_items plan) project supply
  have htodo : [] ++ todo <+: plan := (List.prefix_append _ _).trans hplan
  rcases performAll_of_fits hlegible htodo hstart hfits with ⟨middle, hbefore, hmiddle⟩
  rcases ready hlegible hplan hmiddle with ⟨hfinal, hwithin, -⟩
  rcases hmiddle.perform_of_fault instruction hfinal hwithin hfault with ⟨after, hperform, hafter⟩
  refine ⟨after, ?_, hafter⟩
  rw [Instruction.performAll_append, bind_of_ok hbefore]
  exact bind_of_error hperform _

/-- What instructions come to is decided by the first of them that fails by itself. -/
theorem performAll_result (hlegible : Instruction.Legible plan) (project : Project)
    (supply : Supply) (start : Backend) :
    (Instruction.performAll (ν := ν) plan (Session.start project supply start)).1 =
      match plan.findSome? Instruction.fault? with
      | none => .ok ()
      | some error => .error error := by
  rcases hfault : plan.findSome? Instruction.fault? with _ | error
  · have hstart : Draws (ν := ν) (Instruction.items plan) start (Instruction.items []) []
        (Session.start project supply start) :=
      start_nil (Instruction.nodup_keys_items plan) project supply
    rcases performAll_of_fits hlegible List.prefix_rfl hstart
      (List.findSome?_eq_none_iff.1 hfault) with ⟨after, hrun, -⟩
    rw [hrun]
  · rcases List.findSome?_eq_some_iff.1 hfault with ⟨todo, instruction, rest, hplan, herror, hbefore⟩
    have hwithin : todo ++ [instruction] <+: plan := ⟨rest, by simp [hplan]⟩
    obtain ⟨after, hrun, -⟩ := performAll_of_fault hlegible hwithin project supply hbefore herror rest
    rw [hplan, hrun]

end Draws

end ProjectCompiler
