import ProjectCompiler.Proofs.Toml.Rest
import ProjectCompiler.Proofs.Toml.Tree

/-!
# Ordered — finished values have their names in order

A table may stand anywhere in a document: below a header, in an array, on the way of a dotted name or
inside another value. Wherever it stands, no name is taken twice while it is read, and it is finished with
its entries in the order of their names.

- `Toml.Ordered`: all tables of a value, on every level, have their names in order;
- `Node.Distinct`: the invariant of reading, before tables are finished;
- `Toml.parse?_ordered`: the table of a whole document.
-/

namespace ProjectCompiler

namespace Toml

open Entries

/-- The value has no parts. -/
def Plain : Toml → Prop
  | .array _ | .table _ => False
  | _ => True

/-- Every table in the value has its names in order, none twice. -/
inductive Ordered : Toml → Prop
  | plain {value : Toml} (h : value.Plain) : Ordered value
  | array {items : List Toml} (hitems : ∀ item ∈ items, Ordered item) : Ordered (.array items)
  | table {entries : List (String × Toml)} (hkeys : (keys entries).Pairwise (· < ·))
      (hentries : ∀ entry ∈ entries, Ordered entry.2) : Ordered (.table entries)

theorem Ordered.of_mem_items {items : List Toml} (h : Ordered (.array items)) {item : Toml}
    (hitem : item ∈ items) : Ordered item := by
  cases h with
  | plain h => exact h.elim
  | array hitems => exact hitems item hitem

theorem Ordered.pairwise_keys {entries : List (String × Toml)} (h : Ordered (.table entries)) :
    (keys entries).Pairwise (· < ·) := by
  cases h with
  | plain h => exact h.elim
  | table hkeys _ => exact hkeys

theorem Ordered.nodup_keys {entries : List (String × Toml)} (h : Ordered (.table entries)) :
    (keys entries).Nodup :=
  h.pairwise_keys.imp ne_of_lt

theorem Ordered.of_find? {entries : List (String × Toml)} (h : Ordered (.table entries))
    {name : String} {value : Toml} (hfind : find? entries name = some value) : Ordered value := by
  cases h with
  | plain h => exact h.elim
  | table _ hentries => exact hentries _ (mem_of_find? hfind)

/-! ## Words -/

section Words

variable {word : List Char} {sign : Sign} {value : Toml}

theorem plain_ofFloatWord? (h : ofFloatWord? sign word = some value) : value.Plain := by
  obtain ⟨_, -, h⟩ := Option.bind_eq_some_iff.1 h
  obtain ⟨_, -, h⟩ := Option.bind_eq_some_iff.1 h
  obtain ⟨_, -, h⟩ := Option.bind_eq_some_iff.1 h
  cases h
  trivial

theorem plain_ofGroupedWord? (h : ofGroupedWord? sign word = some value) : value.Plain := by
  unfold ofGroupedWord? at h
  repeat' split at h
  all_goals cases h
  all_goals trivial

theorem plain_ofPlainWord? (h : ofPlainWord? sign word = some value) : value.Plain := by
  unfold ofPlainWord? at h
  split at h
  all_goals cases h
  trivial

theorem plain_ofBaseWord? {base : Nat} (h : ofBaseWord? base word = some value) : value.Plain := by
  unfold ofBaseWord? at h
  split at h
  · cases h
    trivial
  · obtain ⟨_, -, h⟩ := Option.bind_eq_some_iff.1 h
    cases h
    trivial

theorem plain_ofNumberWord? (h : ofNumberWord? sign word = some value) : value.Plain := by
  unfold ofNumberWord? at h
  split at h
  · exact plain_ofPlainWord? h
  · repeat' split at h
    · obtain ⟨_, -, h⟩ := Option.map_eq_some_iff.1 h
      cases h
      trivial
    · cases h
    · cases h
    · exact plain_ofFloatWord? h
    · exact plain_ofGroupedWord? h
    · cases h

theorem plain_ofSignedWord? (h : ofSignedWord? sign word = some value) : value.Plain := by
  unfold ofSignedWord? at h
  repeat' split at h
  · cases h
    trivial
  · cases h
    trivial
  · exact plain_ofNumberWord? h

theorem plain_ofWord? (h : ofWord? word = some value) : value.Plain := by
  unfold ofWord? at h
  split at h
  · exact plain_ofBaseWord? h
  · exact plain_ofBaseWord? h
  · exact plain_ofBaseWord? h
  · exact plain_ofSignedWord? h
  · exact plain_ofSignedWord? h
  · repeat' split at h
    · cases h
      trivial
    · cases h
      trivial
    · exact plain_ofSignedWord? h

end Words

/-! ## Tables while they are read -/

namespace Node

/-- No table has a name twice, and all values in it are ordered. -/
inductive Distinct : Node → Prop
  | leaf {value : Toml} (hvalue : value.Ordered) : Distinct (.leaf value)
  | table {origin : Origin} {entries : List (String × Node)} (hkeys : (keys entries).Nodup)
      (hentries : ∀ entry ∈ entries, Distinct entry.2) : Distinct (.table origin entries)
  | tables {items : List Node} (hitems : ∀ item ∈ items, Distinct item) : Distinct (.tables items)

theorem sortedEntries_perm (entries : List (String × Node)) :
    (sortedEntries entries).Perm (entries.map fun entry => (entry.1, entry.2.toToml)) := by
  induction entries with
  | nil => exact List.Perm.refl _
  | cons entry rest ih =>
    rw [sortedEntries]
    exact (insertSorted_perm _ _ _).trans (ih.cons _)

theorem toTomlItems_eq_map (items : List Node) : toTomlItems items = items.map toToml := by
  induction items with
  | nil => rfl
  | cons item rest ih => rw [toTomlItems, ih, List.map_cons]

namespace Distinct

variable {node : Node} {origin : Origin} {entries : List (String × Node)}

theorem empty (origin : Origin) : Distinct (.table origin []) :=
  .table List.nodup_nil nofun

/-- What is finished is ordered. -/
theorem toToml (h : Distinct node) : node.toToml.Ordered := by
  induction h with
  | leaf hvalue =>
    rw [Node.toToml]
    exact hvalue
  | table hkeys _ ih =>
    rw [Node.toToml]
    refine .table (pairwise_sortedEntries hkeys) fun entry hentry => ?_
    obtain ⟨original, horiginal, rfl⟩ := List.mem_map.1 ((sortedEntries_perm _).mem_iff.1 hentry)
    exact ih original horiginal
  | tables _ ih =>
    rw [Node.toToml, toTomlItems_eq_map]
    refine .array fun item hitem => ?_
    obtain ⟨original, horiginal, rfl⟩ := List.mem_map.1 hitem
    exact ih original horiginal

theorem header (h : Distinct (.table origin entries)) (own : Origin) :
    Distinct (.table own entries) := by
  cases h with
  | table hkeys hentries => exact .table hkeys hentries

theorem of_mem_tables {items : List Node} (h : Distinct (.tables items)) {item : Node}
    (hitem : item ∈ items) : Distinct item := by
  cases h with
  | tables hitems => exact hitems item hitem

theorem of_find? (h : Distinct (.table origin entries)) {name : String}
    (hfind : find? entries name = some node) : Distinct node := by
  cases h with
  | table _ hentries => exact hentries _ (mem_of_find? hfind)

/-- An entry is added or takes the place of another. -/
theorem insert (h : Distinct (.table origin entries)) (name : String) (hnode : Distinct node)
    (own : Origin) : Distinct (.table own (Entries.insert entries name node)) := by
  cases h with
  | table hkeys hentries =>
    refine .table (nodup_keys_insert hkeys name node) fun entry hentry => ?_
    rcases mem_of_mem_insert hentry with hold | rfl
    · exact hentries entry hold
    · exact hnode

/-- A change at the end of a path. -/
theorem descend {origin : Origin} {change : Node → Option Node}
    (hchange : ∀ node after, Distinct node → change node = some after → Distinct after)
    {path : List String} {after : Node} (h : Distinct node)
    (hafter : Node.descend origin change path node = some after) : Distinct after := by
  induction path generalizing node after with
  | nil =>
    rw [Node.descend] at hafter
    exact hchange node after h hafter
  | cons name rest ih =>
    cases node with
    | leaf value => cases hafter
    | tables items => cases hafter
    | table own entries =>
      rcases descend_cons hafter with
        ⟨below, children, child, rfl, hchild, hfind⟩ | ⟨items, last, child, hfind, hlast, hchild, rfl⟩
      · refine h.insert name (ih ?_ hchild) own
        rcases hfind with ⟨-, rfl⟩ | hfind
        · exact empty below
        · exact h.of_find? hfind
      · -- Of an array of tables only the last one is changed.
        have hitems := h.of_find? hfind
        refine h.insert name (.tables fun item hitem => ?_) own
        rcases List.mem_append.1 hitem with hold | hnew
        · exact hitems.of_mem_tables (List.dropLast_subset items hold)
        · obtain rfl := List.mem_singleton.1 hnew
          exact ih (hitems.of_mem_tables (List.mem_of_getLast? hlast)) hchild

theorem insertEntry (h : Distinct node) {path : KeyPath} {value : Toml} (hvalue : value.Ordered)
    {after : Node} (hafter : Node.insertEntry path value node = some after) : Distinct after := by
  refine h.descend (fun node after hnode hadded => ?_) hafter
  cases node with
  | leaf value => cases hadded
  | tables items => cases hadded
  | table origin entries =>
    obtain ⟨-, -, rfl⟩ := add_eq_some hadded
    exact hnode.insert path.last (.leaf hvalue) origin

theorem insertEntries (h : Distinct node) {added : List (KeyPath × Toml)}
    (hadded : ∀ entry ∈ added, entry.2.Ordered) {after : Node}
    (hafter : added.foldlM (fun node entry => node.insertEntry entry.1 entry.2) node = some after) :
    Distinct after := by
  induction added generalizing node with
  | nil =>
    cases hafter
    exact h
  | cons entry rest ih =>
    obtain ⟨middle, hmiddle, hrest⟩ := Option.bind_eq_some_iff.1 hafter
    have hentry := h.insertEntry (hadded entry List.mem_cons_self) hmiddle
    exact ih hentry (fun other hother => hadded other (List.mem_cons_of_mem _ hother)) hrest

theorem begun {added : List (KeyPath × Toml)} {start : List (String × Node)}
    (hstart : Distinct (.table .header start)) (hadded : ∀ entry ∈ added, entry.2.Ordered)
    {after : Node} (hafter : Node.begun added start = some after) : Distinct after :=
  hstart.insertEntries hadded hafter

theorem placeTable (h : Distinct node) {name : String} {added : List (KeyPath × Toml)}
    (hadded : ∀ entry ∈ added, entry.2.Ordered) {after : Node}
    (hafter : Toml.placeTable name added node = some after) : Distinct after := by
  cases node with
  | leaf value => cases hafter
  | tables items => cases hafter
  | table origin siblings =>
    obtain ⟨start, child, hchild, rfl, hfind⟩ := placeTable_eq_some hafter
    have hstart : Distinct (.table .header start) := by
      rcases hfind with ⟨-, rfl⟩ | himplied
      · exact empty .header
      · exact (h.of_find? himplied).header .header
    exact h.insert name (hstart.begun hadded hchild) origin

theorem placeElement (h : Distinct node) {name : String} {added : List (KeyPath × Toml)}
    (hadded : ∀ entry ∈ added, entry.2.Ordered) {after : Node}
    (hafter : Toml.placeElement name added node = some after) : Distinct after := by
  cases node with
  | leaf value => cases hafter
  | tables items => cases hafter
  | table origin siblings =>
    obtain ⟨items, element, helement, rfl, hfind⟩ := placeElement_eq_some hafter
    refine h.insert name (.tables fun item hitem => ?_) origin
    rcases List.mem_append.1 hitem with hold | hlast
    · rcases hfind with ⟨-, rfl⟩ | htables
      · cases hold
      · exact (h.of_find? htables).of_mem_tables hold
    · obtain rfl := List.mem_singleton.1 hlast
      exact (empty .header).begun hadded helement

theorem place (h : Distinct node) {block : Block}
    (hblock : ∀ entry ∈ block.entries, entry.2.Ordered) {after : Node}
    (hafter : Toml.place node block = some after) : Distinct after := by
  rw [Toml.place] at hafter
  split at hafter
  · exact h.insertEntries hblock hafter
  · exact h.descend (fun _ _ hnode hplaced => hnode.placeTable hblock hplaced) hafter
  · exact h.descend (fun _ _ hnode hplaced => hnode.placeElement hblock hplaced) hafter

theorem placeAll (h : Distinct node) {blocks : List Block}
    (hblocks : ∀ block ∈ blocks, ∀ entry ∈ block.entries, entry.2.Ordered) {after : Node}
    (hafter : blocks.foldlM Toml.place node = some after) : Distinct after := by
  induction blocks generalizing node with
  | nil =>
    cases hafter
    exact h
  | cons block rest ih =>
    obtain ⟨middle, hmiddle, hrest⟩ := Option.bind_eq_some_iff.1 hafter
    have hblock := h.place (hblocks block List.mem_cons_self) hmiddle
    exact ih hblock (fun other hother => hblocks other (List.mem_cons_of_mem _ hother)) hrest

end Distinct

end Node

/-! ## Reading -/

/-- What the three readers of nested values have in common, by how much of the input they may look at. -/
theorem read_ordered (fuel : Nat) :
    (∀ {depth input value rest}, readValue fuel depth input = some (value, rest) → value.Ordered) ∧
    (∀ {depth input items rest}, readItems fuel depth input = some (items, rest) →
      ∀ item ∈ items, item.Ordered) ∧
    ∀ {depth begun input node rest}, begun.Distinct →
      readEntries fuel depth begun input = some (node, rest) → node.Distinct := by
  -- Each reader calls the others with less fuel, so that one induction must do for all three.
  induction fuel with
  | zero => exact ⟨nofun, nofun, fun _ => nofun⟩
  | succ fuel ih =>
    obtain ⟨hvalue, hitems, hentries⟩ := ih
    refine ⟨?_, ?_, ?_⟩
    · intro depth input value rest h
      rcases readValue_eq_some h with ⟨_, -, rfl⟩ | ⟨_, _, _, -, hread, rfl⟩ |
        ⟨_, _, _, -, hread, rfl⟩ | h
      · exact .plain trivial
      · exact .array (hitems hread)
      · exact (hentries (.empty .header) hread).toToml
      · obtain ⟨word, hword, hdone⟩ := Option.bind_eq_some_iff.1 h
        cases hdone
        exact .plain (plain_ofWord? hword)
    · intro depth input items rest h
      obtain ⟨start, -, hends⟩ := readItems_eq_some h
      rcases hends with ⟨-, rfl⟩ | ⟨first, behind, next, hfirst, -, hends⟩
      · exact nofun
      · rcases hends with ⟨_, others, -, hothers, rfl⟩ | ⟨-, rfl⟩
        · exact List.forall_mem_cons.2 ⟨hvalue hfirst, hitems hothers⟩
        · exact List.forall_mem_singleton.2 (hvalue hfirst)
    · intro depth begun input node rest hbegun h
      obtain ⟨start, -, hends⟩ := readEntries_eq_some h
      rcases hends with ⟨-, rfl⟩ | ⟨path, value, grown, next, hgrown, hentry, hends⟩
      · exact hbegun
      · obtain ⟨_, _, _, _, _, -, -, -, -, hread, -⟩ := hentry
        have hadded := hbegun.insertEntry (hvalue hread) hgrown
        rcases hends with ⟨_, -, hmore⟩ | ⟨-, rfl⟩
        · exact hentries hadded hmore
        · exact hadded

theorem readLines_ordered {fuel : Nat} {input rest : List Char} {entries : List (KeyPath × Toml)}
    (h : readLines fuel input = some (entries, rest)) : ∀ entry ∈ entries, entry.2.Ordered := by
  induction fuel generalizing input entries rest with
  | zero => cases h
  | succ fuel ih =>
    unfold readLines at h
    split at h
    · cases h
      exact nofun
    · cases h
      exact nofun
    · obtain ⟨⟨entry, _⟩, hentry, h⟩ := Option.bind_eq_some_iff.1 h
      obtain ⟨_, -, h⟩ := Option.bind_eq_some_iff.1 h
      obtain ⟨⟨others, _⟩, hothers, h⟩ := Option.bind_eq_some_iff.1 h
      cases h
      obtain ⟨_, -, hentry⟩ := Option.bind_eq_some_iff.1 hentry
      obtain ⟨_, -, hentry⟩ := Option.bind_eq_some_iff.1 hentry
      obtain ⟨⟨value, _⟩, hvalue, hentry⟩ := Option.bind_eq_some_iff.1 hentry
      cases hentry
      exact List.forall_mem_cons.2 ⟨(read_ordered _).1 hvalue, ih hothers⟩

theorem readBlocks_ordered {fuel : Nat} {input : List Char} {blocks : List Block}
    (h : readBlocks fuel input = some blocks) :
    ∀ block ∈ blocks, ∀ entry ∈ block.entries, entry.2.Ordered := by
  induction fuel generalizing input blocks with
  | zero => cases h
  | succ fuel ih =>
    cases input with
    | nil =>
      cases h
      exact nofun
    | cons c rest =>
      obtain ⟨_, -, h⟩ := Option.bind_eq_some_iff.1 h
      obtain ⟨_, -, h⟩ := Option.bind_eq_some_iff.1 h
      obtain ⟨⟨entries, _⟩, hentries, h⟩ := Option.bind_eq_some_iff.1 h
      obtain ⟨others, hothers, h⟩ := Option.bind_eq_some_iff.1 h
      cases h
      exact List.forall_mem_cons.2 ⟨readLines_ordered hentries, ih hothers⟩

theorem readDocument_ordered {text : String} {blocks : List Block}
    (h : readDocument text = some blocks) :
    ∀ block ∈ blocks, ∀ entry ∈ block.entries, entry.2.Ordered := by
  obtain ⟨_, -, h⟩ := Option.bind_eq_some_iff.1 h
  obtain ⟨⟨entries, _⟩, hentries, h⟩ := Option.bind_eq_some_iff.1 h
  obtain ⟨others, hothers, h⟩ := Option.bind_eq_some_iff.1 h
  cases h
  exact List.forall_mem_cons.2 ⟨readLines_ordered hentries, readBlocks_ordered hothers⟩

/-- In the table of a document, all tables have their names in order. -/
theorem parse?_ordered {text : String} {entries : List (String × Toml)}
    (h : parse? text = some entries) : Ordered (.table entries) := by
  obtain ⟨blocks, hread, h⟩ := Option.bind_eq_some_iff.1 h
  obtain ⟨node, hnode, h⟩ := Option.bind_eq_some_iff.1 h
  have hdistinct := (Node.Distinct.empty .header).placeAll (readDocument_ordered hread) hnode
  have hordered := hdistinct.toToml
  split at h
  · rename_i found hfound
    cases h
    rwa [hfound] at hordered
  · cases h

end Toml

end ProjectCompiler
