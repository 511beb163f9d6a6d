import Mathlib.Data.String.Basic
import ProjectCompiler.Proofs.Occurrences
import ProjectCompiler.Toml.Document

/-!
# Tree — what a document puts into a table

Headers, dotted names and entries all write paths. What a table at the top holds in the end are the
names that the document writes right below it, and the finished table has them in the order of the
names, whatever their order in the document was.

- `Toml.declared`: the names that a document writes right below a table at the top;
- `Toml.descend_cons`, `Toml.placeTable_eq_some`, `Toml.placeElement_eq_some`: what a step can do, for all
  invariants of reading;
- `Toml.Lists`: the invariant of reading; `Lists.place` says what one block adds;
- `Toml.parse?_declared`: the finished table.
-/

namespace ProjectCompiler

namespace Toml

open Entries

/-! ## Paths of a document -/

def KeyPath.names (path : KeyPath) : List String :=
  path.parents ++ [path.last]

/-- The name that a path begins with. -/
def KeyPath.first (path : KeyPath) : String :=
  path.parents.headD path.last

def Header.names : Header → List String
  | .root => []
  | .table path => path.names
  | .element path => path.names

/-- The path of a block's header and those of its entries, from the top. -/
def Block.paths (block : Block) : List (List String) :=
  block.header.names :: block.entries.map fun entry => block.header.names ++ entry.1.names

/-- The name that a path has right below a table at the top. -/
def below? (table : String) : List String → Option String
  | first :: second :: _ => if first = table then some second else none
  | _ => none

/-- The names that a block writes right below a table at the top. -/
def Block.below (table : String) (block : Block) : List String :=
  block.paths.filterMap (below? table)

/-- The names that a document writes right below a table at the top, in the order of their first
occurrences. -/
def declared (table : String) (blocks : List Block) : List String :=
  (blocks.flatMap (Block.below table)).eraseDups

theorem below?_cons_names (table name : String) (path : KeyPath) :
    below? table (name :: path.names) = if name = table then some path.first else none := by
  obtain ⟨parents, last⟩ := path
  cases parents <;> rfl

/-- What follows the second name does not matter. -/
theorem below?_append {table : String} {path : KeyPath} (h : path.parents ≠ []) (rest : List String) :
    below? table (path.names ++ rest) = below? table path.names := by
  obtain ⟨_ | ⟨first, _ | ⟨second, parents⟩⟩, last⟩ := path
  · exact absurd rfl h
  · rfl
  · rfl

/-! ## Finished tables -/

namespace Node

theorem insertSorted_perm (name : String) (value : Toml) (entries : List (String × Toml)) :
    (insertSorted name value entries).Perm ((name, value) :: entries) := by
  induction entries with
  | nil => exact List.Perm.refl _
  | cons entry rest ih =>
    rw [insertSorted]
    split
    · exact List.Perm.refl _
    · exact (ih.cons entry).trans (List.Perm.swap _ _ _)

theorem keys_insertSorted_perm (name : String) (value : Toml) (entries : List (String × Toml)) :
    (keys (insertSorted name value entries)).Perm (name :: keys entries) :=
  (insertSorted_perm name value entries).map Prod.fst

theorem pairwise_insertSorted {name : String} (value : Toml) {entries : List (String × Toml)}
    (hnew : name ∉ keys entries) (h : (keys entries).Pairwise (· < ·)) :
    (keys (insertSorted name value entries)).Pairwise (· < ·) := by
  induction entries with
  | nil => exact List.pairwise_singleton _ _
  | cons entry rest ih =>
    obtain ⟨first, old⟩ := entry
    obtain ⟨hbelow, hrest⟩ := List.pairwise_cons.1 h
    obtain ⟨hne, hnewRest⟩ := not_or.1 (List.mem_cons.not.1 hnew)
    rw [insertSorted]
    split
    · rename_i hsmaller
      refine List.pairwise_cons.2 ⟨fun other hother => ?_, h⟩
      rcases List.mem_cons.1 hother with rfl | hmem
      · exact hsmaller
      · exact lt_trans hsmaller (hbelow other hmem)
    · rename_i hnot
      have hfirst : first < name := lt_of_le_of_ne (not_lt.1 hnot) (Ne.symm hne)
      refine List.pairwise_cons.2 ⟨fun other hother => ?_, ih hnewRest hrest⟩
      rcases List.mem_cons.1 ((keys_insertSorted_perm name value rest).mem_iff.1 hother) with
        rfl | hmem
      · exact hfirst
      · exact hbelow other hmem

theorem keys_sortedEntries_perm (entries : List (String × Node)) :
    (keys (sortedEntries entries)).Perm (keys entries) := by
  induction entries with
  | nil => exact List.Perm.refl _
  | cons entry rest ih =>
    rw [sortedEntries]
    exact (keys_insertSorted_perm _ _ _).trans (ih.cons _)

/-- A finished table has its names in order. -/
theorem pairwise_sortedEntries {entries : List (String × Node)} (h : (keys entries).Nodup) :
    (keys (sortedEntries entries)).Pairwise (· < ·) := by
  induction entries with
  | nil => exact List.Pairwise.nil
  | cons entry rest ih =>
    obtain ⟨hnew, hrest⟩ := List.nodup_cons.1 h
    rw [sortedEntries]
    refine pairwise_insertSorted _ ?_ (ih hrest)
    rwa [(keys_sortedEntries_perm rest).mem_iff]

theorem find?_insertSorted {name : String} (value : Toml) {entries : List (String × Toml)}
    (hnew : name ∉ keys entries) (wanted : String) :
    find? (insertSorted name value entries) wanted =
      if name = wanted then some value else find? entries wanted := by
  induction entries with
  | nil => rfl
  | cons entry rest ih =>
    obtain ⟨first, old⟩ := entry
    obtain ⟨hne, hnewRest⟩ := not_or.1 (List.mem_cons.not.1 hnew)
    rw [insertSorted]
    split
    · rfl
    · rw [find?, find?, ih hnewRest]
      by_cases hfirst : first = wanted
      · have hother : name ≠ wanted := hfirst ▸ hne
        rw [if_pos hfirst, if_pos hfirst, if_neg hother]
      · rw [if_neg hfirst, if_neg hfirst]

theorem find?_sortedEntries {entries : List (String × Node)} (h : (keys entries).Nodup)
    (wanted : String) :
    find? (sortedEntries entries) wanted = (find? entries wanted).map toToml := by
  induction entries with
  | nil => rfl
  | cons entry rest ih =>
    obtain ⟨name, node⟩ := entry
    obtain ⟨hnew, hrest⟩ := List.nodup_cons.1 h
    have hsorted : name ∉ keys (sortedEntries rest) := by
      rwa [(keys_sortedEntries_perm rest).mem_iff]
    rw [sortedEntries, find?_insertSorted _ hsorted, ih hrest, find?]
    split <;> rfl

end Node

/-! ## What a step can do -/

section Steps

variable {own : Origin} {entries : List (String × Node)} {name : String} {node : Node}

/-- An entry is new where a path ends, and goes to a table that such a path may lead to. -/
theorem add_eq_some {path : KeyPath} {value : Toml}
    (h : Node.insertEntry.add path value (.table own entries) = some node) :
    (own = .dotted ↔ path.parents ≠ []) ∧ find? entries path.last = none ∧
      node = .table own (insert entries path.last (.leaf value)) := by
  rw [Node.insertEntry.add] at h
  split at h
  · rename_i hallowed
    exact ⟨hallowed.1, Option.isNone_iff_eq_none.1 hallowed.2, (Option.some.inj h).symm⟩
  · cases h

/-- Along a path, the rest of it changes the table of its first name, which may be new, or the last item of
an array of tables. -/
theorem descend_cons {origin : Origin} {change : Node → Option Node} {rest : List String}
    (h : Node.descend origin change (name :: rest) (.table own entries) = some node) :
    (∃ below children child, node = .table own (insert entries name child) ∧
      Node.descend origin change rest (.table below children) = some child ∧
      ((find? entries name = none ∧ children = []) ∨
        find? entries name = some (.table below children))) ∨
    ∃ items item child, find? entries name = some (.tables items) ∧ items.getLast? = some item ∧
      Node.descend origin change rest item = some child ∧
      node = .table own (insert entries name (.tables (items.dropLast ++ [child]))) := by
  rw [Node.descend] at h
  rcases hfind : find? entries name with _ | _ | ⟨below, children⟩ | items
  · simp only [hfind] at h
    obtain ⟨child, hchild, hnode⟩ := Option.bind_eq_some_iff.1 h
    exact .inl ⟨origin, [], child, (Option.some.inj hnode).symm, hchild, .inl ⟨rfl, rfl⟩⟩
  · simp only [hfind] at h
    cases h
  · have hdescend : ∃ child, Node.descend origin change rest (.table below children) = some child ∧
        node = .table own (insert entries name child) := by
      cases below <;> simp only [hfind] at h
      · split at h
        · cases h
        · obtain ⟨child, hchild, hnode⟩ := Option.bind_eq_some_iff.1 h
          exact ⟨child, hchild, (Option.some.inj hnode).symm⟩
      all_goals
        obtain ⟨child, hchild, hnode⟩ := Option.bind_eq_some_iff.1 h
        exact ⟨child, hchild, (Option.some.inj hnode).symm⟩
    obtain ⟨child, hchild, hnode⟩ := hdescend
    exact .inl ⟨below, children, child, hnode, hchild, .inr rfl⟩
  · simp only [hfind] at h
    obtain ⟨item, hitem, hrest⟩ := Option.bind_eq_some_iff.1 h
    obtain ⟨child, hchild, hnode⟩ := Option.bind_eq_some_iff.1 hrest
    exact .inr ⟨items, item, child, rfl, hitem, hchild, (Option.some.inj hnode).symm⟩

/-- A table with a header is new, or goes on from what was implied so far. -/
theorem placeTable_eq_some {added : List (KeyPath × Toml)}
    (h : placeTable name added (.table own entries) = some node) :
    ∃ start child, Node.begun added start = some child ∧
      node = .table own (insert entries name child) ∧
      ((find? entries name = none ∧ start = []) ∨
        find? entries name = some (.table .implied start)) := by
  rw [placeTable] at h
  split at h
  · rename_i hfind
    obtain ⟨child, hchild, hplaced⟩ := Option.bind_eq_some_iff.1 h
    exact ⟨[], child, hchild, (Option.some.inj hplaced).symm, .inl ⟨hfind, rfl⟩⟩
  · rename_i start hfind
    obtain ⟨child, hchild, hplaced⟩ := Option.bind_eq_some_iff.1 h
    exact ⟨start, child, hchild, (Option.some.inj hplaced).symm, .inr hfind⟩
  · cases h

/-- One more item goes to the end of an array, which may be new. -/
theorem placeElement_eq_some {added : List (KeyPath × Toml)}
    (h : placeElement name added (.table own entries) = some node) :
    ∃ items element, Node.begun added [] = some element ∧
      node = .table own (insert entries name (.tables (items ++ [element]))) ∧
      ((find? entries name = none ∧ items = []) ∨ find? entries name = some (.tables items)) := by
  obtain ⟨element, helement, hplaced⟩ := Option.bind_eq_some_iff.1 h
  split at hplaced
  · rename_i hfind
    exact ⟨[], element, helement, (Option.some.inj hplaced).symm, .inl ⟨hfind, rfl⟩⟩
  · rename_i items hfind
    exact ⟨items, element, helement, (Option.some.inj hplaced).symm, .inr hfind⟩
  · cases hplaced

end Steps

/-! ## Changes of a table -/

/-- The change puts something under a name of the table, and leaves the rest of it as it is. -/
def Sets (change : Node → Option Node) (name : String) : Prop :=
  ∀ own entries node, change (.table own entries) = some node →
    ∃ child, node = .table own (insert entries name child)

theorem Sets.descend {origin : Origin} {change : Node → Option Node} {path : KeyPath}
    (h : Sets change path.last) : Sets (Node.descend origin change path.parents) path.first := by
  obtain ⟨_ | ⟨name, rest⟩, last⟩ := path
  · intro own entries node hnode
    rw [Node.descend] at hnode
    exact h own entries node hnode
  · intro own entries node hnode
    rcases descend_cons hnode with ⟨_, _, child, rfl, -⟩ | ⟨_, _, _, -, -, -, rfl⟩
    · exact ⟨child, rfl⟩
    · exact ⟨_, rfl⟩

theorem add_sets (path : KeyPath) (value : Toml) :
    Sets (Node.insertEntry.add path value) path.last := by
  intro own entries node h
  obtain ⟨-, -, rfl⟩ := add_eq_some h
  exact ⟨.leaf value, rfl⟩

theorem insertEntry_sets (path : KeyPath) (value : Toml) :
    Sets (Node.insertEntry path value) path.first :=
  (add_sets path value).descend

theorem placeTable_sets (name : String) (entries : List (KeyPath × Toml)) :
    Sets (placeTable name entries) name := by
  intro own siblings node h
  obtain ⟨_, child, -, rfl, -⟩ := placeTable_eq_some h
  exact ⟨child, rfl⟩

theorem placeElement_sets (name : String) (entries : List (KeyPath × Toml)) :
    Sets (placeElement name entries) name := by
  intro own siblings node h
  obtain ⟨_, _, -, rfl, -⟩ := placeElement_eq_some h
  exact ⟨_, rfl⟩

/-! ## Names of a table -/

theorem keys_insert_eraseDups {entries : List (String × Node)} {written : List String}
    (h : keys entries = written.eraseDups) (name : String) (child : Node) :
    keys (insert entries name child) = (written ++ [name]).eraseDups := by
  rw [keys_insert, eraseDups_append_singleton, h]
  simp only [List.mem_eraseDups]

/-- The entries under a header add the names that they begin with. -/
theorem keys_begun {added : List (KeyPath × Toml)} {start : List (String × Node)}
    {written : List String} {node : Node} (hstart : keys start = written.eraseDups)
    (h : Node.begun added start = some node) :
    ∃ children, node = .table .header children ∧
      keys children = (written ++ added.map fun entry => entry.1.first).eraseDups := by
  rw [Node.begun] at h
  induction added generalizing start written with
  | nil => exact ⟨start, (Option.some.inj h).symm, by simpa using hstart⟩
  | cons entry rest ih =>
    obtain ⟨middle, hmiddle, hrest⟩ := Option.bind_eq_some_iff.1 h
    obtain ⟨child, rfl⟩ := insertEntry_sets entry.1 entry.2 _ _ _ hmiddle
    have hnext := ih (keys_insert_eraseDups hstart entry.1.first child) hrest
    simpa using hnext

/-- The names of the table at hand are distinct. If there is a table of the given name, then it has the
names that were written below it; something that is no table has none. -/
structure Lists (table : String) (written : List String) (entries : List (String × Node)) : Prop where
  nodup : (keys entries).Nodup
  names : ∀ origin children, find? entries table = some (.table origin children) →
    keys children = written.eraseDups
  absent : find? entries table = none → written = []
  leaf : ∀ value, find? entries table = some (.leaf value) → written = []

namespace Lists

variable {table name : String} {written : List String} {entries : List (String × Node)}

theorem nil (table : String) : Lists table [] [] :=
  ⟨List.nodup_nil, nofun, fun _ => rfl, nofun⟩

/-- Changes of other tables do not matter. -/
theorem insert_ne (h : Lists table written entries) (hne : table ≠ name) (child : Node) :
    Lists table written (insert entries name child) := by
  have hfind := find?_insert_ne entries child hne
  exact ⟨nodup_keys_insert h.nodup name child, by rw [hfind]; exact h.names,
    by rw [hfind]; exact h.absent, by rw [hfind]; exact h.leaf⟩

theorem insert_table (h : Lists table written entries) {origin : Origin}
    {children : List (String × Node)} {names : List String}
    (hchildren : keys children = names.eraseDups) :
    Lists table names (insert entries table (.table origin children)) := by
  have hfind := find?_insert_self entries table (Node.table origin children)
  refine ⟨nodup_keys_insert h.nodup _ _, ?_, by rw [hfind]; nofun, by rw [hfind]; nofun⟩
  intro _ _ hsame
  cases hfind.symm.trans hsame
  exact hchildren

theorem insert_tables (h : Lists table written entries) (items : List Node) (names : List String) :
    Lists table names (insert entries table (.tables items)) := by
  have hfind := find?_insert_self entries table (Node.tables items)
  exact ⟨nodup_keys_insert h.nodup _ _, by rw [hfind]; nofun, by rw [hfind]; nofun,
    by rw [hfind]; nofun⟩

theorem insert_leaf (h : Lists table [] entries) (value : Toml) :
    Lists table [] (insert entries table (.leaf value)) := by
  have hfind := find?_insert_self entries table (Node.leaf value)
  exact ⟨nodup_keys_insert h.nodup _ _, by rw [hfind]; nofun, fun _ => rfl, fun _ _ => rfl⟩

/-- Names that were written before add nothing. -/
theorem again (h : Lists table written entries) {more : List String}
    (hmore : ∀ name ∈ more, name ∈ written) : Lists table (written ++ more) entries := by
  have hnames : (written ++ more).eraseDups = written.eraseDups := by
    rw [List.eraseDups_append]
    have hnone : more.removeAll written = [] := by
      rw [List.removeAll, List.filter_eq_nil_iff]
      intro name hname
      simp [hmore name hname]
    rw [hnone, List.eraseDups_nil, List.append_nil]
  have hnil : written = [] → written ++ more = [] := by
    rintro rfl
    exact List.eq_nil_iff_forall_not_mem.2 fun name hname => List.not_mem_nil (hmore name hname)
  exact ⟨h.nodup, by rw [hnames]; exact h.names, fun hfind => hnil (h.absent hfind),
    fun value hfind => hnil (h.leaf value hfind)⟩

/-! ### Steps -/

/-- A change at the end of a path that leads below some table. -/
theorem descend (h : Lists table written entries) {origin own : Origin}
    {change : Node → Option Node} {path : KeyPath} {node : Node} (hchange : Sets change path.last)
    (hbelow : path.parents ≠ [])
    (hnode : Node.descend origin change path.parents (.table own entries) = some node) :
    ∃ after, node = .table own after ∧
      Lists table (written ++ (below? table path.names).toList) after := by
  obtain ⟨_ | ⟨name, parents⟩, last⟩ := path
  · exact absurd rfl hbelow
  -- The rest of the path sets its first name in the table of the name.
  let rest : KeyPath := ⟨parents, last⟩
  have hnames : below? table (KeyPath.names ⟨name :: parents, last⟩) =
      if name = table then some rest.first else none := below?_cons_names table name rest
  rw [hnames]
  by_cases hname : name = table
  · subst hname
    rw [if_pos rfl, Option.toList_some]
    rcases descend_cons hnode with
      ⟨below, children, child, rfl, hchild, hfound⟩ | ⟨_, _, _, -, -, -, rfl⟩
    · have hchildren : keys children = written.eraseDups := by
        rcases hfound with ⟨hnone, rfl⟩ | hsome
        · rw [h.absent hnone]
          rfl
        · exact h.names below children hsome
      have hrest : Sets (Node.descend origin change rest.parents) rest.first := Sets.descend hchange
      obtain ⟨grandchild, rfl⟩ := hrest _ _ _ hchild
      exact ⟨_, rfl, h.insert_table (keys_insert_eraseDups hchildren rest.first grandchild)⟩
    · exact ⟨_, rfl, h.insert_tables _ _⟩
  · let path : KeyPath := ⟨name :: parents, last⟩
    have hsets : Sets (Node.descend origin change path.parents) path.first := Sets.descend hchange
    obtain ⟨child, rfl⟩ := hsets _ _ _ hnode
    rw [if_neg hname, Option.toList_none, List.append_nil]
    exact ⟨_, rfl, h.insert_ne (Ne.symm hname) child⟩

theorem insertEntry (h : Lists table written entries) {own : Origin} {path : KeyPath} {value : Toml}
    {node : Node} (hnode : Node.insertEntry path value (.table own entries) = some node) :
    ∃ after, node = .table own after ∧
      Lists table (written ++ (below? table path.names).toList) after := by
  by_cases hparents : path.parents = []
  · -- A new entry at the top is no table, so nothing was written below it.
    obtain ⟨_, last⟩ := path
    obtain rfl := hparents
    rw [Node.insertEntry, Node.descend] at hnode
    obtain ⟨-, hfree, rfl⟩ := add_eq_some hnode
    refine ⟨_, rfl, ?_⟩
    have hnone : below? table (KeyPath.names ⟨[], last⟩) = none := rfl
    rw [hnone, Option.toList_none, List.append_nil]
    by_cases hlast : last = table
    · subst hlast
      obtain rfl := h.absent hfree
      exact h.insert_leaf value
    · exact h.insert_ne (Ne.symm hlast) _
  · exact h.descend (add_sets path value) hparents hnode

theorem insertEntries (h : Lists table written entries) {own : Origin}
    {added : List (KeyPath × Toml)} {node : Node}
    (hnode : added.foldlM (fun node entry => node.insertEntry entry.1 entry.2)
      (.table own entries) = some node) :
    ∃ after, node = .table own after ∧
      Lists table (written ++ added.filterMap fun entry => below? table entry.1.names) after := by
  induction added generalizing written entries with
  | nil => exact ⟨entries, (Option.some.inj hnode).symm, by simpa using h⟩
  | cons entry rest ih =>
    obtain ⟨middle, hmiddle, hrest⟩ := Option.bind_eq_some_iff.1 hnode
    obtain ⟨between, rfl, hbetween⟩ := h.insertEntry hmiddle
    obtain ⟨after, rfl, hafter⟩ := ih hbetween hrest
    refine ⟨after, rfl, ?_⟩
    rw [List.append_assoc] at hafter
    have hsplit : (entry :: rest).filterMap (fun entry => below? table entry.1.names) =
        (below? table entry.1.names).toList ++
          rest.filterMap fun entry => below? table entry.1.names := by
      rw [List.filterMap_cons]
      rcases below? table entry.1.names with _ | name <;> rfl
    rwa [hsplit]

end Lists

/-! ## Blocks -/

/-- What a block writes below a table if its header leads below some table. -/
theorem Block.below_of_parents {block : Block} {path : KeyPath}
    (hheader : block.header.names = path.names) (hparents : path.parents ≠ []) (table : String) :
    ∃ more, block.below table = (below? table path.names).toList ++ more ∧
      ∀ name ∈ more, name ∈ (below? table path.names).toList := by
  refine ⟨block.entries.filterMap fun entry => below? table (path.names ++ entry.1.names), ?_, ?_⟩
  · rw [below, paths, List.filterMap_cons, List.filterMap_map, hheader]
    rcases below? table path.names with _ | name <;> rfl
  · intro name hname
    obtain ⟨entry, -, hentry⟩ := List.mem_filterMap.1 hname
    rw [below?_append hparents] at hentry
    exact Option.mem_toList.2 hentry

/-- What a block writes below a table if its header stands for a table at the top. -/
theorem Block.below_of_top {block : Block} {last : String} (hheader : block.header.names = [last])
    (table : String) : block.below table =
      if last = table then block.entries.map fun entry => entry.1.first else [] := by
  have hnone : below? table [last] = none := rfl
  rw [below, paths, List.filterMap_cons, List.filterMap_map, hheader, hnone]
  simp only [Function.comp_def, List.singleton_append, below?_cons_names]
  split
  · exact congrFun List.filterMap_eq_map' block.entries
  · exact List.filterMap_none _

namespace Lists

variable {table : String} {written : List String} {entries : List (String × Node)} {own : Origin}
  {block : Block} {path : KeyPath} {node : Node}

theorem placeBelow (h : Lists table written entries) {change : Node → Option Node}
    (hheader : block.header.names = path.names) (hparents : path.parents ≠ [])
    (hchange : Sets change path.last)
    (hnode : Node.descend .implied change path.parents (.table own entries) = some node) :
    ∃ after, node = .table own after ∧ Lists table (written ++ block.below table) after := by
  obtain ⟨after, rfl, hafter⟩ := h.descend hchange hparents hnode
  obtain ⟨more, hbelow, hmore⟩ := Block.below_of_parents hheader hparents table
  refine ⟨after, rfl, ?_⟩
  rw [hbelow, ← List.append_assoc]
  exact hafter.again fun name hname => List.mem_append_right _ (hmore name hname)

theorem placeTable (h : Lists table written entries) {last : String}
    (hheader : block.header.names = [last])
    (hnode : Toml.placeTable last block.entries (.table own entries) = some node) :
    ∃ after, node = .table own after ∧ Lists table (written ++ block.below table) after := by
  rw [Block.below_of_top hheader]
  obtain ⟨start, child, hchild, rfl, hfound⟩ := placeTable_eq_some hnode
  by_cases hlast : last = table
  · subst hlast
    rw [if_pos rfl]
    have hstart : keys start = written.eraseDups := by
      rcases hfound with ⟨hnone, rfl⟩ | himplied
      · rw [h.absent hnone]
        rfl
      · exact h.names .implied start himplied
    obtain ⟨children, rfl, hchildren⟩ := keys_begun hstart hchild
    exact ⟨_, rfl, h.insert_table hchildren⟩
  · rw [if_neg hlast, List.append_nil]
    exact ⟨_, rfl, h.insert_ne (Ne.symm hlast) child⟩

theorem placeElement (h : Lists table written entries) {last : String}
    (hheader : block.header.names = [last])
    (hnode : Toml.placeElement last block.entries (.table own entries) = some node) :
    ∃ after, node = .table own after ∧ Lists table (written ++ block.below table) after := by
  rw [Block.below_of_top hheader]
  obtain ⟨items, element, -, rfl, -⟩ := placeElement_eq_some hnode
  by_cases hlast : last = table
  · subst hlast
    rw [if_pos rfl]
    exact ⟨_, rfl, h.insert_tables _ _⟩
  · rw [if_neg hlast, List.append_nil]
    exact ⟨_, rfl, h.insert_ne (Ne.symm hlast) _⟩

/-- One more block. -/
theorem place (h : Lists table written entries)
    (hnode : Toml.place (.table own entries) block = some node) :
    ∃ after, node = .table own after ∧ Lists table (written ++ block.below table) after := by
  rw [Toml.place] at hnode
  rcases hheader : block.header with _ | path | path
  · simp only [hheader] at hnode
    have hbelow : block.below table =
        block.entries.filterMap fun entry => below? table entry.1.names := by
      rw [Block.below, Block.paths, hheader, List.filterMap_cons, List.filterMap_map]
      rfl
    rw [hbelow]
    exact h.insertEntries hnode
  · simp only [hheader] at hnode
    have hnames : block.header.names = path.names := by rw [hheader, Header.names]
    rcases hparents : path.parents with _ | ⟨name, parents⟩
    · rw [KeyPath.names, hparents] at hnames
      rw [hparents, Node.descend] at hnode
      exact h.placeTable hnames hnode
    · exact h.placeBelow hnames (by simp [hparents]) (placeTable_sets _ _) hnode
  · simp only [hheader] at hnode
    have hnames : block.header.names = path.names := by rw [hheader, Header.names]
    rcases hparents : path.parents with _ | ⟨name, parents⟩
    · rw [KeyPath.names, hparents] at hnames
      rw [hparents, Node.descend] at hnode
      exact h.placeElement hnames hnode
    · exact h.placeBelow hnames (by simp [hparents]) (placeElement_sets _ _) hnode

theorem placeAll {blocks : List Block} (h : Lists table written entries)
    (hnode : blocks.foldlM Toml.place (.table own entries) = some node) :
    ∃ after, node = .table own after ∧
      Lists table (written ++ blocks.flatMap (Block.below table)) after := by
  induction blocks generalizing written entries with
  | nil => exact ⟨entries, (Option.some.inj hnode).symm, by simpa using h⟩
  | cons block rest ih =>
    obtain ⟨middle, hmiddle, hrest⟩ := Option.bind_eq_some_iff.1 hnode
    obtain ⟨between, rfl, hbetween⟩ := h.place hmiddle
    obtain ⟨after, rfl, hafter⟩ := ih hbetween hrest
    rw [List.append_assoc, ← List.flatMap_cons] at hafter
    exact ⟨after, rfl, hafter⟩

end Lists

/-! ## Documents -/

/-- A table at the top that a document writes something below: unless it is an array of tables, it
holds what the document declares, in the order of the names. -/
theorem parse?_declared {text table : String} {blocks : List Block} {entries : List (String × Toml)}
    (hread : readDocument text = some blocks) (hparse : parse? text = some entries)
    (hdeclared : declared table blocks ≠ []) :
    (keys entries).Nodup ∧
      ((∃ items, find? entries table = some (.array items)) ∨
        ∃ members, find? entries table = some (.table members) ∧
          (keys members).Perm (declared table blocks) ∧ (keys members).Pairwise (· < ·)) := by
  rw [parse?, hread, Option.bind_eq_bind, Option.bind_some] at hparse
  obtain ⟨node, hnode, hfinished⟩ := Option.bind_eq_some_iff.1 hparse
  obtain ⟨nodes, rfl, hlists⟩ := (Lists.nil table).placeAll hnode
  rw [List.nil_append] at hlists
  obtain rfl : Node.sortedEntries nodes = entries := Option.some.inj hfinished
  have hwritten : blocks.flatMap (Block.below table) ≠ [] := by
    intro hnil
    exact hdeclared (by rw [declared, hnil, List.eraseDups_nil])
  refine ⟨(Node.keys_sortedEntries_perm nodes).nodup_iff.2 hlists.nodup, ?_⟩
  rw [Node.find?_sortedEntries hlists.nodup]
  rcases hfind : find? nodes table with _ | value | ⟨origin, children⟩ | items
  · exact absurd (hlists.absent hfind) hwritten
  · exact absurd (hlists.leaf value hfind) hwritten
  · have hchildren : keys children = declared table blocks := hlists.names origin children hfind
    have hnodup : (keys children).Nodup := by
      rw [hchildren]
      exact nodup_eraseDups _
    refine .inr ⟨Node.sortedEntries children, rfl, ?_, Node.pairwise_sortedEntries hnodup⟩
    rw [← hchildren]
    exact Node.keys_sortedEntries_perm children
  · exact .inl ⟨Node.toTomlItems items, rfl⟩

end Toml

end ProjectCompiler
