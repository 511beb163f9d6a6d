import Mathlib.Data.List.Forall2
import ProjectCompiler.Proofs.Toml.Ordered

/-!
# Elements — what an array of tables has from its headers

An array of tables at the top of a document grows by one item with each header for it. Headers that come
later can lead into the last item, but what they add there are tables, and nothing that an item holds is
taken away. So the values that stand right in an item are those that the block of its header writes there.

- `Toml.elements`: the blocks with a header for one more item;
- `Toml.Holds`: the values that are no tables, right in a table;
- `Toml.Heads`: the invariant of reading; `Heads.place` says what one block does;
- `Toml.parse?_elements`: the finished array.
-/

namespace ProjectCompiler

namespace Toml

open Entries

/-- The header for one more item of an array at the top. -/
def Header.ofElement (table : String) : Header :=
  .element { parents := [], last := table }

/-- The blocks of the items of an array at the top. -/
def elements (table : String) (blocks : List Block) : List Block :=
  blocks.filter fun block => block.header = .ofElement table

/-! ## Values right in a table -/

/-- There is nothing, or something that can grow. -/
def NoValue (found : Option Node) : Prop :=
  ∀ value, found ≠ some (.leaf value)

/-- The values in the table, as long as it can grow, are those of the entries without a path. -/
def Holds (written : List (KeyPath × Toml)) (entries : List (String × Node)) : Prop :=
  ∀ key value, find? entries key = some (.leaf value) ↔ ({ parents := [], last := key }, value) ∈ written

/-- The change adds no values to a table that has a header, and takes none away. -/
def KeepsValues (change : Node → Option Node) : Prop :=
  ∀ entries node, change (.table .header entries) = some node →
    ∃ after, node = .table .header after ∧
      ∀ key value, find? after key = some (.leaf value) ↔ find? entries key = some (.leaf value)

variable {written : List (KeyPath × Toml)} {entries : List (String × Node)} {own : Origin}
  {name : String} {node : Node}

/-- Something that is no value may take the place of something that is none either. -/
theorem find?_insert_eq_leaf_iff {child : Node} (hbefore : NoValue (find? entries name))
    (hchild : NoValue (some child)) (key : String) (value : Toml) :
    find? (insert entries name child) key = some (.leaf value) ↔
      find? entries key = some (.leaf value) := by
  by_cases hkey : key = name
  · subst hkey
    rw [find?_insert_self]
    exact iff_of_false (hchild value) (hbefore value)
  · rw [find?_insert_ne _ _ hkey]

/-- What happens below a table is none of its values. -/
theorem descend_keeps {origin : Origin} {change : Node → Option Node} {parents : List String}
    {last : String} (hsets : Sets change last) (hparents : parents ≠ []) :
    KeepsValues (Node.descend origin change parents) := by
  obtain ⟨name, rest, rfl⟩ := List.exists_cons_of_ne_nil hparents
  intro entries node hnode
  rcases descend_cons hnode with
    ⟨below, children, child, rfl, hchild, hfind⟩ | ⟨items, item, child, hfind, -, -, rfl⟩
  · obtain ⟨grandchild, rfl⟩ := @Sets.descend origin change ⟨rest, last⟩ hsets _ _ _ hchild
    refine ⟨_, rfl, find?_insert_eq_leaf_iff ?_ (by simp [NoValue])⟩
    rcases hfind with ⟨hnone, -⟩ | htable
    · simp [NoValue, hnone]
    · simp [NoValue, htable]
  · exact ⟨_, rfl, find?_insert_eq_leaf_iff (by simp [NoValue, hfind]) (by simp [NoValue])⟩

/-- A name with dots does not lead to a table that has a header. -/
theorem add_keeps {path : KeyPath} (hparents : path.parents ≠ []) (value : Toml) :
    KeepsValues (Node.insertEntry.add path value) := by
  intro entries node hnode
  obtain ⟨hallowed, -, -⟩ := add_eq_some hnode
  cases hallowed.2 hparents

theorem exists_of_begun {added : List (KeyPath × Toml)} {start : List (String × Node)}
    (h : Node.begun added start = some node) : ∃ children, node = .table .header children := by
  rw [Node.begun] at h
  induction added generalizing start with
  | nil => exact ⟨start, (Option.some.inj h).symm⟩
  | cons entry rest ih =>
    obtain ⟨middle, hmiddle, hrest⟩ := Option.bind_eq_some_iff.1 h
    obtain ⟨child, rfl⟩ := insertEntry_sets entry.1 entry.2 _ _ _ hmiddle
    exact ih hrest

theorem placeTable_keeps (name : String) (added : List (KeyPath × Toml)) :
    KeepsValues (placeTable name added) := by
  intro entries node hnode
  obtain ⟨start, child, hchild, rfl, hfind⟩ := placeTable_eq_some hnode
  obtain ⟨children, rfl⟩ := exists_of_begun hchild
  refine ⟨_, rfl, find?_insert_eq_leaf_iff ?_ (by simp [NoValue])⟩
  rcases hfind with ⟨hnone, -⟩ | himplied
  · simp [NoValue, hnone]
  · simp [NoValue, himplied]

theorem placeElement_keeps (name : String) (added : List (KeyPath × Toml)) :
    KeepsValues (placeElement name added) := by
  intro entries node hnode
  obtain ⟨items, element, -, rfl, hfind⟩ := placeElement_eq_some hnode
  refine ⟨_, rfl, find?_insert_eq_leaf_iff ?_ (by simp [NoValue])⟩
  rcases hfind with ⟨hnone, -⟩ | htables
  · simp [NoValue, hnone]
  · simp [NoValue, htables]

namespace Holds

theorem nil : Holds [] [] := by
  intro key value
  simp [find?]

/-- Entries under a header. -/
theorem insertEntry (h : Holds written entries) {entry : KeyPath × Toml}
    (hnode : Node.insertEntry entry.1 entry.2 (.table .header entries) = some node) :
    ∃ after, node = .table .header after ∧ Holds (written ++ [entry]) after := by
  obtain ⟨⟨parents, last⟩, added⟩ := entry
  by_cases hparents : parents = []
  · obtain rfl := hparents
    rw [Node.insertEntry, Node.descend] at hnode
    obtain ⟨-, hnone, rfl⟩ := add_eq_some hnode
    refine ⟨_, rfl, fun key value => ?_⟩
    by_cases hkey : key = last
    · -- Nothing was written under this name before.
      subst hkey
      have hnew : ({ parents := [], last := key }, value) ∉ written := by
        simp [← h key value, hnone]
      rw [find?_insert_self]
      simp [hnew, eq_comm]
    · rw [find?_insert_ne _ _ hkey, h key value]
      simp [hkey]
  · have hkeeps : KeepsValues (Node.insertEntry ⟨parents, last⟩ added) :=
      descend_keeps (add_sets ⟨parents, last⟩ added) hparents
    obtain ⟨after, rfl, hsame⟩ := hkeeps _ _ hnode
    refine ⟨after, rfl, fun key value => ?_⟩
    rw [hsame, h key value]
    simp [Ne.symm hparents]

/-- Of entries that are added one after another, all are written then. -/
theorem insertEntries (h : Holds written entries) {added : List (KeyPath × Toml)}
    (hnode : Node.begun added entries = some node) :
    ∃ after, node = .table .header after ∧ Holds (written ++ added) after := by
  rw [Node.begun] at hnode
  induction added generalizing written entries with
  | nil =>
    rw [List.append_nil]
    exact ⟨entries, (Option.some.inj hnode).symm, h⟩
  | cons entry rest ih =>
    obtain ⟨middle, hmiddle, hrest⟩ := Option.bind_eq_some_iff.1 hnode
    obtain ⟨between, rfl, hbetween⟩ := h.insertEntry hmiddle
    obtain ⟨after, rfl, hafter⟩ := ih hbetween hrest
    exact ⟨after, rfl, by rwa [List.append_assoc] at hafter⟩

end Holds

/-! ## Items of an array -/

/-- The item was begun by the block, and has the values that are written there. -/
def BegunBy (item : Node) (block : Block) : Prop :=
  ∃ children, item = .table .header children ∧ Holds block.entries children

/-- The items of an array of tables; whatever else there is has none. -/
def itemsOf : Option Node → List Node
  | some (.tables items) => items
  | _ => []

/-- The items of the array under the name go by the blocks. -/
def Heads (table : String) (blocks : List Block) (entries : List (String × Node)) : Prop :=
  List.Forall₂ BegunBy (itemsOf (find? entries table)) blocks

/-- Another item in the place of the last one. -/
theorem forall₂_replace_last {α β : Type} {R : α → β → Prop} {items : List α} {others : List β}
    (h : List.Forall₂ R items others) {last child : α} (hlast : items.getLast? = some last)
    (hchild : ∀ other, R last other → R child other) :
    List.Forall₂ R (items.dropLast ++ [child]) others := by
  induction h with
  | nil => cases hlast
  | cons hfirst hrest ih =>
    cases hrest with
    | nil =>
      obtain rfl := Option.some.inj hlast
      exact List.Forall₂.cons (hchild _ hfirst) List.Forall₂.nil
    | cons hsecond hmore =>
      rw [List.getLast?_cons_cons] at hlast
      exact List.Forall₂.cons hfirst (ih hlast)

theorem BegunBy.change {item after : Node} {block : Block} (h : BegunBy item block)
    {change : Node → Option Node} (hkeeps : KeepsValues change) (hafter : change item = some after) :
    BegunBy after block := by
  obtain ⟨children, rfl, hholds⟩ := h
  obtain ⟨later, rfl, hsame⟩ := hkeeps children after hafter
  exact ⟨later, rfl, fun key value => (hsame key value).trans (hholds key value)⟩

namespace Heads

variable {table : String} {blocks : List Block} {child : Node}

theorem nil (table : String) : Heads table [] [] :=
  List.Forall₂.nil

theorem insert_ne (h : Heads table blocks entries) (hne : table ≠ name) (child : Node) :
    Heads table blocks (insert entries name child) := by
  rwa [Heads, find?_insert_ne _ _ hne]

/-- Where there are no items, a table may be put. -/
theorem insert_table (h : Heads table blocks entries) {below : Origin} {children : List (String × Node)}
    (hnone : itemsOf (find? entries table) = []) :
    Heads table blocks (insert entries table (.table below children)) := by
  rw [Heads, find?_insert_self]
  rwa [Heads, hnone] at h

/-- Where there is nothing, a value may be put. -/
theorem insert_leaf (h : Heads table blocks entries) (hnone : find? entries table = none)
    (value : Toml) : Heads table blocks (insert entries table (.leaf value)) := by
  rw [Heads, find?_insert_self]
  rwa [Heads, hnone] at h

/-- One more item begins with one more block. -/
theorem insert_item (h : Heads table blocks entries) {items : List Node}
    (hfind : (find? entries table = none ∧ items = []) ∨ find? entries table = some (.tables items))
    {element : Node} {block : Block} (helement : BegunBy element block) :
    Heads table (blocks ++ [block]) (insert entries table (.tables (items ++ [element]))) := by
  have hitems : List.Forall₂ BegunBy items blocks := by
    rcases hfind with ⟨hnone, rfl⟩ | htables
    · rwa [Heads, hnone] at h
    · rwa [Heads, htables] at h
  rw [Heads, find?_insert_self]
  exact List.rel_append hitems (List.Forall₂.cons helement List.Forall₂.nil)

/-! ### Steps -/

/-- A change at the end of a path that leads below some table. -/
theorem descend (h : Heads table blocks entries) {origin : Origin} {change : Node → Option Node}
    {path : KeyPath} (hsets : Sets change path.last) (hkeeps : KeepsValues change)
    (hparents : path.parents ≠ [])
    (hnode : Node.descend origin change path.parents (.table own entries) = some node) :
    ∃ after, node = .table own after ∧ Heads table blocks after := by
  obtain ⟨name, rest, hpath⟩ := List.exists_cons_of_ne_nil hparents
  rw [hpath] at hnode
  rcases descend_cons hnode with
    ⟨below, children, child, rfl, hchild, hfind⟩ | ⟨items, item, child, hfind, hitem, hchild, rfl⟩
  · obtain ⟨grandchild, rfl⟩ := @Sets.descend origin change ⟨rest, path.last⟩ hsets _ _ _ hchild
    refine ⟨_, rfl, ?_⟩
    by_cases hname : table = name
    · subst hname
      refine h.insert_table ?_
      rcases hfind with ⟨hnone, -⟩ | htable
      · simp [itemsOf, hnone]
      · simp [itemsOf, htable]
    · exact h.insert_ne hname _
  · refine ⟨_, rfl, ?_⟩
    by_cases hname : table = name
    · -- The last item stays the one that its block began.
      subst hname
      have hkept : KeepsValues (Node.descend origin change rest) := by
        cases rest with
        | nil => exact hkeeps
        | cons second more => exact descend_keeps hsets (List.cons_ne_nil second more)
      rw [Heads, hfind] at h
      rw [Heads, find?_insert_self]
      exact forall₂_replace_last h hitem fun block hblock => hblock.change hkept hchild
    · exact h.insert_ne hname _

theorem insertEntry (h : Heads table blocks entries) {path : KeyPath} {value : Toml}
    (hnode : Node.insertEntry path value (.table own entries) = some node) :
    ∃ after, node = .table own after ∧ Heads table blocks after := by
  by_cases hparents : path.parents = []
  · obtain ⟨_, last⟩ := path
    obtain rfl := hparents
    rw [Node.insertEntry, Node.descend] at hnode
    obtain ⟨-, hnone, rfl⟩ := add_eq_some hnode
    refine ⟨_, rfl, ?_⟩
    by_cases hlast : table = last
    · subst hlast
      exact h.insert_leaf hnone value
    · exact h.insert_ne hlast _
  · exact h.descend (add_sets path value) (add_keeps hparents value) hparents hnode

theorem insertEntries (h : Heads table blocks entries) {added : List (KeyPath × Toml)}
    (hnode : added.foldlM (fun node entry => node.insertEntry entry.1 entry.2)
      (.table own entries) = some node) :
    ∃ after, node = .table own after ∧ Heads table blocks after := by
  induction added generalizing entries with
  | nil => exact ⟨entries, (Option.some.inj hnode).symm, h⟩
  | cons entry rest ih =>
    obtain ⟨middle, hmiddle, hrest⟩ := Option.bind_eq_some_iff.1 hnode
    obtain ⟨between, rfl, hbetween⟩ := h.insertEntry hmiddle
    exact ih hbetween hrest

theorem placeTable (h : Heads table blocks entries) {added : List (KeyPath × Toml)}
    (hnode : Toml.placeTable name added (.table own entries) = some node) :
    ∃ after, node = .table own after ∧ Heads table blocks after := by
  obtain ⟨start, child, hchild, rfl, hfind⟩ := placeTable_eq_some hnode
  obtain ⟨children, rfl⟩ := exists_of_begun hchild
  refine ⟨_, rfl, ?_⟩
  by_cases hname : table = name
  · subst hname
    refine h.insert_table ?_
    rcases hfind with ⟨hnone, -⟩ | himplied
    · simp [itemsOf, hnone]
    · simp [itemsOf, himplied]
  · exact h.insert_ne hname _

/-- Only here an item is added. -/
theorem placeElement (h : Heads table blocks entries) {block : Block}
    (hnode : Toml.placeElement name block.entries (.table own entries) = some node) :
    ∃ after, node = .table own after ∧
      Heads table (blocks ++ if name = table then [block] else []) after := by
  obtain ⟨items, element, helement, rfl, hfind⟩ := placeElement_eq_some hnode
  refine ⟨_, rfl, ?_⟩
  by_cases hname : name = table
  · subst hname
    rw [if_pos rfl]
    exact h.insert_item hfind (Holds.nil.insertEntries helement)
  · rw [if_neg hname, List.append_nil]
    exact h.insert_ne (Ne.symm hname) _

/-- One more block. -/
theorem place (h : Heads table blocks entries) {block : Block}
    (hnode : Toml.place (.table own entries) block = some node) :
    ∃ after, node = .table own after ∧ Heads table (blocks ++ elements table [block]) after := by
  have hother : block.header ≠ .ofElement table → blocks ++ elements table [block] = blocks := by
    intro hne
    simp [elements, hne]
  rw [Toml.place] at hnode
  rcases hheader : block.header with _ | path | path
  · simp only [hheader] at hnode
    rw [hother (by simp [hheader, Header.ofElement])]
    exact h.insertEntries hnode
  · simp only [hheader] at hnode
    rw [hother (by simp [hheader, Header.ofElement])]
    by_cases hparents : path.parents = []
    · rw [hparents, Node.descend] at hnode
      exact h.placeTable hnode
    · exact h.descend (placeTable_sets _ _) (placeTable_keeps _ _) hparents hnode
  · simp only [hheader] at hnode
    by_cases hparents : path.parents = []
    · obtain ⟨_, last⟩ := path
      obtain rfl := hparents
      rw [Node.descend] at hnode
      have hadded : elements table [block] = if last = table then [block] else [] := by
        simp [elements, hheader, Header.ofElement, List.filter_cons]
      rw [hadded]
      exact h.placeElement hnode
    · rw [hother fun hsame => hparents ?_]
      · exact h.descend (placeElement_sets _ _) (placeElement_keeps _ _) hparents hnode
      · rw [hheader] at hsame
        rw [Header.element.inj hsame]

theorem placeAll (h : Heads table blocks entries) {added : List Block}
    (hnode : added.foldlM Toml.place (.table own entries) = some node) :
    ∃ after, node = .table own after ∧ Heads table (blocks ++ elements table added) after := by
  induction added generalizing blocks entries with
  | nil =>
    refine ⟨entries, (Option.some.inj hnode).symm, ?_⟩
    rwa [elements, List.filter_nil, List.append_nil]
  | cons block rest ih =>
    obtain ⟨middle, hmiddle, hrest⟩ := Option.bind_eq_some_iff.1 hnode
    obtain ⟨between, rfl, hbetween⟩ := h.place hmiddle
    obtain ⟨after, rfl, hafter⟩ := ih hbetween hrest
    refine ⟨after, rfl, ?_⟩
    rw [List.append_assoc, elements, elements, ← List.filter_append] at hafter
    exact hafter

end Heads

/-! ## Documents -/

/-- The item is a table, and the texts right in it are those that the block writes without a path. -/
def Shows (item : Toml) (block : Block) : Prop :=
  ∃ members, item = .table members ∧ ∀ key text,
    find? members key = some (.str text) ↔ ({ parents := [], last := key }, .str text) ∈ block.entries

theorem Node.Distinct.nodup_keys {origin : Origin} (h : Node.Distinct (.table origin entries)) :
    (keys entries).Nodup := by
  cases h with
  | table hkeys _ => exact hkeys

theorem BegunBy.shows {item : Node} {block : Block} (h : BegunBy item block)
    (hdistinct : item.Distinct) : Shows item.toToml block := by
  obtain ⟨children, rfl, hholds⟩ := h
  refine ⟨Node.sortedEntries children, by rw [Node.toToml], fun key text => ?_⟩
  rw [← hholds key (.str text), Node.find?_sortedEntries hdistinct.nodup_keys]
  rcases find? children key with _ | value | ⟨origin, below⟩ | items
  · simp
  · simp [Node.toToml]
  · simp [Node.toToml]
  · simp [Node.toToml]

/-- The array of a document with headers for its items: one item for each header, with the texts of the
block below it. -/
theorem parse?_elements {text table : String} {blocks : List Block} {entries : List (String × Toml)}
    (hread : readDocument text = some blocks) (hparse : parse? text = some entries)
    (hsome : elements table blocks ≠ []) :
    ∃ items, find? entries table = some (.array items) ∧
      List.Forall₂ Shows items (elements table blocks) := by
  rw [parse?, hread, Option.bind_eq_bind, Option.bind_some] at hparse
  obtain ⟨node, hnode, hfinished⟩ := Option.bind_eq_some_iff.1 hparse
  have hdistinct := (Node.Distinct.empty .header).placeAll (readDocument_ordered hread) hnode
  obtain ⟨nodes, rfl, hheads⟩ := (Heads.nil table).placeAll hnode
  rw [List.nil_append] at hheads
  obtain rfl : Node.sortedEntries nodes = entries := Option.some.inj hfinished
  obtain ⟨items, hfind⟩ : ∃ items, find? nodes table = some (.tables items) := by
    rw [Heads] at hheads
    unfold itemsOf at hheads
    split at hheads
    · rename_i items hfind
      exact ⟨items, hfind⟩
    · exact absurd (List.forall₂_nil_left_iff.1 hheads) hsome
  have hitems := hdistinct.of_find? hfind
  refine ⟨items.map Node.toToml, ?_, ?_⟩
  · rw [Node.find?_sortedEntries hdistinct.nodup_keys, hfind, Option.map_some, Node.toToml, Node.toTomlItems_eq_map]
  · rw [Heads, hfind] at hheads
    rw [List.forall₂_map_left_iff]
    have hboth := (List.forall₂_and_left _ _).2 ⟨fun _ hitem => hitems.of_mem_tables hitem, hheads⟩
    exact hboth.imp fun item block h => h.2.shows h.1

end Toml

end ProjectCompiler
