import ProjectCompiler.Project.BuildConfiguration
import ProjectCompiler.Proofs.Settings.Merge

/-!
# Algebra — layers over layers

Settings are laid over one another in layers. A layer that is laid twice counts once, and of three
layers it does not matter which two are merged first, unless the middle one has a value that is no table
where both others have tables: laid on the base first, it hides the base's table from the top.

Merged settings are told by the order of their names and by what each name holds, so each law is shown
for both, at one level, and then for all levels by induction.

- `Value.inductionOnTables`: what holds of a table if it holds of what it contains;
- `Value.Severs`: a path at which the middle layer keeps the others apart;
- `Value.merge_self`, `Value.merge_assoc`: the laws for values;
- `Settings.merged_laws`: the laws for settings, and flattening twice.
-/

namespace ProjectCompiler

namespace Value

variable {a b c : Value}

/-! ## Tables within tables -/

theorem sizeOf_lt_of_find? {entries : List (String × Value)} {name : String} {inner : Value}
    (h : Entries.find? entries name = some inner) :
    sizeOf inner < sizeOf (Value.table entries) := by
  have hentry : sizeOf (name, inner) < sizeOf entries :=
    List.sizeOf_lt_of_mem (Entries.mem_of_find? h)
  simp only [Prod.mk.sizeOf_spec, Value.table.sizeOf_spec] at hentry ⊢
  omega

/-- What holds of every value that is no table, and of a table if it holds of all that its names hold,
holds of every value. -/
@[elab_as_elim]
theorem inductionOnTables {motive : Value → Prop} (leaf : ∀ value, ¬ value.IsTable → motive value)
    (table : ∀ entries, (∀ name inner, Entries.find? entries name = some inner → motive inner) →
      motive (.table entries)) (value : Value) : motive value := by
  by_cases htable : value.IsTable
  · obtain ⟨entries, rfl⟩ := htable
    exact table entries fun name inner h => inductionOnTables leaf table inner
  · exact leaf value htable
termination_by sizeOf value
decreasing_by
  subst_vars
  exact sizeOf_lt_of_find? h

/-! ## One level -/

theorem nodup_keys_mergeEntries {base : List (String × Value)} (h : (Entries.keys base).Nodup)
    (layer : List (String × Value)) : (Entries.keys (mergeEntries base layer)).Nodup := by
  induction layer generalizing base with
  | nil =>
    rw [mergeEntries]
    exact h
  | cons entry rest ih =>
    obtain ⟨merged, -, hstep⟩ := mergeEntries_cons base rest entry.1 entry.2
    rw [hstep]
    exact ih (Entries.nodup_keys_insert h entry.1 merged)

/-- A layer without new names leaves the names as they are. -/
theorem keys_mergeEntries_self {entries : List (String × Value)}
    (h : (Entries.keys entries).Nodup) :
    Entries.keys (mergeEntries entries entries) = Entries.keys entries := by
  rw [keys_mergeEntries entries h]
  simp

/-- New names come in the order of the layers, whichever are merged first. -/
theorem keys_mergeEntries_assoc (base : List (String × Value)) {middle top : List (String × Value)}
    (hmiddle : (Entries.keys middle).Nodup) (htop : (Entries.keys top).Nodup) :
    Entries.keys (mergeEntries (mergeEntries base middle) top) =
      Entries.keys (mergeEntries base (mergeEntries middle top)) := by
  rw [keys_mergeEntries _ htop, keys_mergeEntries base hmiddle,
    keys_mergeEntries base (nodup_keys_mergeEntries hmiddle top), keys_mergeEntries middle htop,
    List.filter_append, List.append_assoc, List.filter_filter]
  congr 2
  refine List.filter_congr fun name _ => ?_
  -- What is new to the merged base is new to the base and to the middle.
  by_cases hbase : name ∈ Entries.keys base <;> simp [hbase]

theorem overlay_assoc {base middle top : Option Value}
    (h : ∀ a ∈ base, ∀ b ∈ middle, ∀ c ∈ top, merge (merge a b) c = merge a (merge b c)) :
    overlay (overlay base middle) top = overlay base (overlay middle top) := by
  cases base with
  | none => cases middle <;> cases top <;> rfl
  | some a =>
    cases middle with
    | none => cases top <;> rfl
    | some b =>
      cases top with
      | none => rfl
      | some c => exact congrArg some (h a rfl b rfl c rfl)

/-! ## Every level -/

/-- Laying a value on itself changes nothing. -/
theorem merge_self (h : a.DistinctNames) : merge a a = a := by
  induction a using inductionOnTables with
  | leaf value hleaf => exact merge_of_not_isTable fun htables => hleaf htables.1
  | table entries ih =>
    rw [merge_table]
    refine congrArg Value.table (Entries.eq_of_find?_eq (nodup_keys_mergeEntries h.1 entries)
      (keys_mergeEntries_self h.1) fun name => ?_)
    rw [find?_mergeEntries entries h.1]
    cases hfound : Entries.find? entries name with
    | none => rfl
    | some inner => exact congrArg some (ih name inner hfound (h.find? hfound))

/-- Base and top hold tables at the path, and the middle layer holds something else there. -/
def Severs (base middle top : Value) (path : List String) : Prop :=
  base.HoldsTable path ∧ top.HoldsTable path ∧
    ∃ held, middle.follow path = some held ∧ ¬ held.IsTable

theorem severs_nil_iff : Severs a b c [] ↔ a.IsTable ∧ c.IsTable ∧ ¬ b.IsTable := by
  simp only [Severs, holdsTable_nil_iff]
  exact ⟨fun ⟨ha, hc, _, hheld, hnot⟩ => ⟨ha, hc, Option.some.inj hheld ▸ hnot⟩,
    fun ⟨ha, hc, hnot⟩ => ⟨ha, hc, b, rfl, hnot⟩⟩

theorem severs_cons_iff {base middle top : Value} {name : String} {path : List String}
    (ha : Entries.find? a.entries name = some base)
    (hb : Entries.find? b.entries name = some middle)
    (hc : Entries.find? c.entries name = some top) :
    Severs a b c (name :: path) ↔ Severs base middle top path := by
  simp only [Severs, HoldsTable, follow_cons, ha, hb, hc, Option.bind_some]

/-- No layer keeps itself from another one. -/
theorem not_severs_left (path : List String) : ¬ Severs a a b path := by
  rintro ⟨⟨table, htable, hisTable⟩, -, held, hheld, hnot⟩
  obtain rfl := Option.some.inj (htable.symm.trans hheld)
  exact hnot hisTable

theorem not_severs_right (path : List String) : ¬ Severs a b b path := by
  rintro ⟨-, ⟨table, htable, hisTable⟩, held, hheld, hnot⟩
  obtain rfl := Option.some.inj (htable.symm.trans hheld)
  exact hnot hisTable

theorem merge_assoc (ha : a.DistinctNames) (hb : b.DistinctNames) (hc : c.DistinctNames)
    (h : ∀ path, ¬ Severs a b c path) : merge (merge a b) c = merge a (merge b c) := by
  -- On the top, which everything is laid under; base and middle vary with it.
  induction c using inductionOnTables generalizing a b with
  | leaf top hleaf =>
    have htop : ∀ base, merge base top = top := fun base =>
      merge_of_not_isTable fun htables => hleaf htables.1
    rw [htop, htop, htop]
  | table top ih =>
    by_cases hmiddle : b.IsTable
    · by_cases hbase : a.IsTable
      · obtain ⟨middle, rfl⟩ := hmiddle
        obtain ⟨base, rfl⟩ := hbase
        rw [merge_table, merge_table, merge_table, merge_table]
        refine congrArg Value.table (Entries.eq_of_find?_eq
          (nodup_keys_mergeEntries (nodup_keys_mergeEntries ha.1 middle) top)
          (keys_mergeEntries_assoc base hb.1 hc.1) fun name => ?_)
        rw [find?_mergeEntries _ hc.1, find?_mergeEntries base hb.1,
          find?_mergeEntries base (nodup_keys_mergeEntries hb.1 top), find?_mergeEntries middle hc.1]
        refine overlay_assoc fun lower hlower inner hinner upper hupper => ?_
        refine ih name upper hupper (ha.find? hlower) (hb.find? hinner) (hc.find? hupper) ?_
        intro path hsevers
        apply h (name :: path)
        exact (severs_cons_iff (a := .table base) (b := .table middle) (c := .table top)
          hlower hinner hupper).2 hsevers
      · -- Two tables merge into a table, and neither meets one in the base.
        obtain ⟨middle, rfl⟩ := hmiddle
        rw [merge_table, merge_of_not_isTable fun htables => hbase htables.2,
          merge_of_not_isTable fun htables => hbase htables.2, merge_table]
    · have hbase : ¬ a.IsTable := fun hbase =>
        h [] (severs_nil_iff.2 ⟨hbase, ⟨top, rfl⟩, hmiddle⟩)
      rw [merge_of_not_isTable fun htables => hmiddle htables.1,
        merge_of_not_isTable fun htables => hmiddle htables.2,
        merge_of_not_isTable fun htables => hbase htables.2]

/-- A layer laid twice on top. -/
theorem merge_merge_self (ha : a.DistinctNames) (hb : b.DistinctNames) :
    merge (merge a b) b = merge a b := by
  rw [merge_assoc ha hb hb not_severs_right, merge_self hb]

/-- A base laid twice below. -/
theorem merge_self_merge (ha : a.DistinctNames) (hb : b.DistinctNames) :
    merge a (merge a b) = merge a b := by
  rw [← merge_assoc ha ha hb not_severs_left, merge_self ha]

end Value

namespace Settings

theorem eq_of_asValue_eq {settings others : Settings} (h : settings.asValue = others.asValue) :
    settings = others :=
  congrArg Settings.mk (Value.table.inj h)

/-- A layer laid on itself, twice on a base, or on a base twice below counts once, so a configuration
is flattened once for all. Three layers may be merged in either order unless the middle one severs the
others. -/
theorem merged_laws {a b c : Settings} (ha : a.DistinctNames) (hb : b.DistinctNames)
    (hc : c.DistinctNames) :
    merged a a = a ∧ merged (merged a b) b = merged a b ∧ merged a (merged a b) = merged a b ∧
      (∀ configuration : BuildConfiguration, configuration.settings = b →
        (configuration.flattenedOver a).flattenedOver a = configuration.flattenedOver a) ∧
      ((∀ path, ¬ Value.Severs a.asValue b.asValue c.asValue path) →
        merged (merged a b) c = merged a (merged b c)) := by
  have hbelow : merged a (merged a b) = merged a b := eq_of_asValue_eq <| by
    simp only [asValue_merged]
    exact Value.merge_self_merge ha hb
  refine ⟨eq_of_asValue_eq ?_, eq_of_asValue_eq ?_, hbelow, ?_, fun h => eq_of_asValue_eq ?_⟩
  · rw [asValue_merged]
    exact Value.merge_self ha
  · simp only [asValue_merged]
    exact Value.merge_merge_self ha hb
  · rintro configuration rfl
    simp only [BuildConfiguration.flattenedOver, hbelow]
  · simp only [asValue_merged]
    exact Value.merge_assoc ha hb hc h

/-- Flags in a base and in a top layer, with a middle layer that only has an empty table for them. -/
theorem three_layers_merged :
    let a : Settings := ⟨[("FLAGS", .table [("opt", .str "-O")]), ("NAME", .str "App")]⟩
    let b : Settings := ⟨[("FLAGS", .table [])]⟩
    let c : Settings := ⟨[("NAME", .table []), ("FLAGS", .table [("lto", .bool true)])]⟩
    a.DistinctNames ∧ b.DistinctNames ∧ c.DistinctNames ∧
      (∀ path, ¬ Value.Severs a.asValue b.asValue c.asValue path) ∧
      merged (merged a b) c = merged a (merged b c) ∧ merged a (merged a c) = merged a c := by
  intro a b c
  have ha : a.DistinctNames := by
    simp [a, DistinctNames, Value.DistinctNames, Value.DistinctNamesEntries, Entries.keys]
  have hb : b.DistinctNames := by
    simp [b, DistinctNames, Value.DistinctNames, Value.DistinctNamesEntries, Entries.keys]
  have hc : c.DistinctNames := by
    simp [c, DistinctNames, Value.DistinctNames, Value.DistinctNamesEntries, Entries.keys]
  have hsevers : ∀ path, ¬ Value.Severs a.asValue b.asValue c.asValue path := by
    -- Whatever the middle layer holds is a table.
    rintro path ⟨-, -, held, hheld, hnot⟩
    apply hnot
    rcases path with _ | ⟨name, path⟩
    · exact ⟨_, (Option.some.inj hheld).symm⟩
    · by_cases hname : "FLAGS" = name
      · subst hname
        rcases path with _ | ⟨inner, path⟩
        · exact ⟨_, (Option.some.inj hheld).symm⟩
        · cases hheld
      · simp [b, asValue, Value.follow, Value.entries, Entries.find?, hname] at hheld
  obtain ⟨-, -, -, -, hassoc⟩ := merged_laws ha hb hc
  obtain ⟨-, -, hbelow, -⟩ := merged_laws ha hc hb
  exact ⟨ha, hb, hc, hsevers, hassoc hsevers, hbelow⟩

/-- A text between two tables keeps the first from the last. -/
example :
    let a : Settings := ⟨[("FLAGS", .table [("opt", .str "-O")])]⟩
    let b : Settings := ⟨[("FLAGS", .str "none")]⟩
    let c : Settings := ⟨[("FLAGS", .table [("lto", .bool true)])]⟩
    merged (merged a b) c ≠ merged a (merged b c) := by
  decide

end Settings

end ProjectCompiler
