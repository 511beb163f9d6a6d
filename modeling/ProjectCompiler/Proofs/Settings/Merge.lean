import ProjectCompiler.Settings.Basic

/-!
# Deep merge — what a path holds in merged settings

A path is a list of names, followed from the settings through nested tables. A layer replaces what
the base has at a path where it holds a value, unless both hold a table there.

- `Value.follow_merge`: below a path that the layer replaces, everything is the layer's; elsewhere
  a path holds the merge of what the two sides hold there.
- `Value.keys_mergeEntries`: names of the base keep their places and new ones of the layer follow.
- `Settings.merged_at_path`: both, for settings and every path.
-/

namespace ProjectCompiler

namespace Value

/-! ## Following a path -/

/-- The entries of a table. Other values have none. -/
def entries : Value → List (String × Value)
  | .table entries => entries
  | _ => []

/-- The value that a path leads to. -/
def follow : List String → Value → Option Value
  | [], value => some value
  | name :: path, value => (Entries.find? value.entries name).bind (follow path)

def IsTable (value : Value) : Prop :=
  ∃ entries, value = .table entries

def HoldsTable (value : Value) (path : List String) : Prop :=
  ∃ held, value.follow path = some held ∧ held.IsTable

/-- The names in the table at a path, if there is one. -/
def namesAt (value : Value) (path : List String) : List String :=
  ((value.follow path).map (Entries.keys ∘ entries)).getD []

theorem follow_cons (value : Value) (name : String) (path : List String) :
    value.follow (name :: path) = (Entries.find? value.entries name).bind (follow path) := rfl

theorem entries_of_not_isTable {value : Value} (h : ¬ value.IsTable) : value.entries = [] := by
  cases value with
  | table entries => exact absurd ⟨entries, rfl⟩ h
  | _ => rfl

/-- A path goes through tables only. -/
theorem isTable_of_follow_cons {value held : Value} {name : String} {path : List String}
    (h : value.follow (name :: path) = some held) : value.IsTable := by
  cases value with
  | table entries => exact ⟨entries, rfl⟩
  | _ => cases h

theorem follow_append (value : Value) (path more : List String) :
    value.follow (path ++ more) = (value.follow path).bind (follow more) := by
  induction path generalizing value with
  | nil => rfl
  | cons name path ih =>
    rw [List.cons_append, follow_cons, follow_cons, Option.bind_assoc]
    congr 1
    exact funext ih

/-- Whatever leads to a value holds a table at each proper prefix. -/
theorem holdsTable_of_follow {value held : Value} {path outer : List String}
    (h : value.follow path = some held) (houter : outer <+: path) (hne : outer ≠ path) :
    value.HoldsTable outer := by
  obtain ⟨more, rfl⟩ := houter
  obtain _ | ⟨name, more⟩ := more
  · exact absurd (List.append_nil outer).symm hne
  · rw [follow_append] at h
    obtain ⟨middle, hmiddle, hmore⟩ := Option.bind_eq_some_iff.1 h
    exact ⟨middle, hmiddle, isTable_of_follow_cons hmore⟩

/-! ## Distinct names along a path -/

theorem distinctNames_of_mem {entries : List (String × Value)} (h : DistinctNamesEntries entries)
    {name : String} {value : Value} (hmem : (name, value) ∈ entries) : value.DistinctNames := by
  induction entries with
  | nil => cases hmem
  | cons entry rest ih =>
    obtain ⟨hfirst, hrest⟩ := h
    rcases List.mem_cons.1 hmem with rfl | hmem
    · exact hfirst
    · exact ih hrest hmem

theorem DistinctNames.find? {value held : Value} {name : String} (h : value.DistinctNames)
    (hfound : Entries.find? value.entries name = some held) : held.DistinctNames := by
  cases value with
  | table entries => exact distinctNames_of_mem h.2 (Entries.mem_of_find? hfound)
  | _ => cases hfound

theorem DistinctNames.follow {value held : Value} {path : List String} (h : value.DistinctNames)
    (hheld : value.follow path = some held) : held.DistinctNames := by
  induction path generalizing value with
  | nil => cases hheld; exact h
  | cons name path ih =>
    obtain ⟨inner, hfound, hinner⟩ := Option.bind_eq_some_iff.1 hheld
    exact ih (h.find? hfound) hinner

theorem DistinctNames.nodup {value : Value} (h : value.DistinctNames) :
    (Entries.keys value.entries).Nodup := by
  cases value with
  | table entries => exact h.1
  | _ => exact List.nodup_nil

theorem DistinctNames.nodup_namesAt {value : Value} (h : value.DistinctNames)
    (path : List String) : (value.namesAt path).Nodup := by
  cases hheld : value.follow path with
  | none => simp [namesAt, hheld]
  | some held => simpa [namesAt, hheld] using (h.follow hheld).nodup

/-! ## One level of a merge -/

/-- What the base holds with what the layer holds on top, where either may hold nothing. -/
def overlay : Option Value → Option Value → Option Value
  | some base, some layer => some (merge base layer)
  | none, some layer => some layer
  | base, none => base

theorem merge_table (base layer : List (String × Value)) :
    merge (.table base) (.table layer) = .table (mergeEntries base layer) := by
  rw [merge]

/-- Anything but a table on a table replaces the base. -/
theorem merge_of_not_isTable {base layer : Value} (h : ¬ (layer.IsTable ∧ base.IsTable)) :
    merge base layer = layer := by
  cases layer with
  | table entries =>
    cases base with
    | table old => exact absurd ⟨⟨entries, rfl⟩, ⟨old, rfl⟩⟩ h
    | _ => rw [merge]; simp
  | _ => rw [merge]; simp

theorem mergeEntries_cons (base rest : List (String × Value)) (name : String) (value : Value) :
    ∃ merged, overlay (Entries.find? base name) (some value) = some merged ∧
      mergeEntries base ((name, value) :: rest) =
        mergeEntries (Entries.insert base name merged) rest := by
  rw [mergeEntries]
  cases Entries.find? base name with
  | none => exact ⟨value, rfl, rfl⟩
  | some old => exact ⟨merge old value, rfl, rfl⟩

theorem find?_mergeEntries (base : List (String × Value)) {layer : List (String × Value)}
    (h : (Entries.keys layer).Nodup) (name : String) :
    Entries.find? (mergeEntries base layer) name =
      overlay (Entries.find? base name) (Entries.find? layer name) := by
  -- The base varies, since the entries of the layer go in one after another.
  induction layer generalizing base with
  | nil =>
    rw [mergeEntries]
    cases Entries.find? base name <;> rfl
  | cons entry rest ih =>
    obtain ⟨first, value⟩ := entry
    obtain ⟨hfirst, hrest⟩ := List.nodup_cons.1 h
    obtain ⟨merged, hmerged, hstep⟩ := mergeEntries_cons base rest first value
    rw [hstep, ih _ hrest]
    by_cases hname : first = name
    · subst hname
      have hgone : Entries.find? rest first = none := (Entries.find?_eq_none_iff _ _).2 hfirst
      rw [Entries.find?_insert_self, hgone, Entries.find?, if_pos rfl, hmerged]
      rfl
    · rw [Entries.find?_insert_ne _ _ (Ne.symm hname), Entries.find?, if_neg hname]

theorem keys_mergeEntries (base : List (String × Value)) {layer : List (String × Value)}
    (h : (Entries.keys layer).Nodup) :
    Entries.keys (mergeEntries base layer) =
      Entries.keys base ++ (Entries.keys layer).filter (· ∉ Entries.keys base) := by
  induction layer generalizing base with
  | nil => rw [mergeEntries]; simp [Entries.keys]
  | cons entry rest ih =>
    obtain ⟨first, value⟩ := entry
    obtain ⟨hfirst, hrest⟩ := List.nodup_cons.1 h
    obtain ⟨merged, -, hstep⟩ := mergeEntries_cons base rest first value
    have hkeys : Entries.keys ((first, value) :: rest) = first :: Entries.keys rest := rfl
    rw [hstep, ih _ hrest, hkeys, Entries.keys_insert]
    by_cases hknown : first ∈ Entries.keys base
    · rw [if_pos hknown, List.filter_cons_of_neg (by simpa using hknown)]
    · rw [if_neg hknown, List.filter_cons_of_pos (by simpa using hknown), List.append_assoc,
        List.singleton_append]
      -- The first name is new, so it stands before the other new ones; it does not come again.
      have hrestNew : ∀ name ∈ Entries.keys rest,
          (name ∉ Entries.keys base ++ [first]) = (name ∉ Entries.keys base) := by
        intro name hname
        have hne : name ≠ first := fun heq => hfirst (heq ▸ hname)
        simp [hne]
      congr 2
      exact List.filter_congr fun name hname => by simp only [hrestNew name hname]

/-! ## Every level of a merge -/

/-- The layer holds a value at the path, and not a table on a table of the base. -/
def Replaces (base layer : Value) (path : List String) : Prop :=
  ∃ value, layer.follow path = some value ∧ ¬ (value.IsTable ∧ base.HoldsTable path)

/-- The layer replaces what the base has at a proper prefix of the path. -/
def Hides (base layer : Value) (path : List String) : Prop :=
  ∃ outer, outer <+: path ∧ outer ≠ path ∧ Replaces base layer outer

theorem hides_cons_iff {base layer : Value} {name : String} {path : List String} :
    Hides base layer (name :: path) ↔ Replaces base layer [] ∨
      ∃ outer, outer <+: path ∧ outer ≠ path ∧ Replaces base layer (name :: outer) := by
  constructor
  · rintro ⟨outer, houter, hne, hreplaces⟩
    rcases List.prefix_cons_iff.1 houter with rfl | ⟨rest, rfl, hrest⟩
    · exact .inl hreplaces
    · exact .inr ⟨rest, hrest, fun heq => hne (heq ▸ rfl), hreplaces⟩
  · rintro (hreplaces | ⟨outer, houter, hne, hreplaces⟩)
    · exact ⟨[], List.nil_prefix, (List.cons_ne_nil _ _).symm, hreplaces⟩
    · refine ⟨name :: outer, ?_, fun heq => hne (List.cons.inj heq).2, hreplaces⟩
      exact (List.cons_prefix_cons).2 ⟨rfl, houter⟩

theorem holdsTable_nil_iff {value : Value} : value.HoldsTable [] ↔ value.IsTable :=
  ⟨fun ⟨_, hheld, htable⟩ => Option.some.inj hheld ▸ htable, fun htable => ⟨value, rfl, htable⟩⟩

theorem replaces_nil_iff {base layer : Value} :
    Replaces base layer [] ↔ ¬ (layer.IsTable ∧ base.IsTable) := by
  rw [← @holdsTable_nil_iff base]
  exact ⟨fun ⟨_, hheld, hnot⟩ => Option.some.inj hheld ▸ hnot, fun hnot => ⟨layer, rfl, hnot⟩⟩

theorem not_hides_nil {base layer : Value} : ¬ Hides base layer [] :=
  fun ⟨_, houter, hne, _⟩ => hne (List.prefix_nil.1 houter)

/-- Below a name that both sides have, the layer replaces what its value there replaces. -/
theorem replaces_cons_iff {base layer inner upper : Value} {name : String} {path : List String}
    (hbase : Entries.find? base.entries name = some inner)
    (hlayer : Entries.find? layer.entries name = some upper) :
    Replaces base layer (name :: path) ↔ Replaces inner upper path := by
  simp only [Replaces, HoldsTable, follow_cons, hbase, hlayer, Option.bind_some]

theorem not_replaces_cons {base layer : Value} {name : String} {path : List String}
    (hlayer : Entries.find? layer.entries name = none) :
    ¬ Replaces base layer (name :: path) := by
  rintro ⟨value, hvalue, -⟩
  rw [follow_cons, hlayer] at hvalue
  cases hvalue

/-- Two tables merge name by name. -/
theorem find?_merge {base layer : Value} (h : layer.DistinctNames)
    (htables : layer.IsTable ∧ base.IsTable) (name : String) :
    Entries.find? (merge base layer).entries name =
      overlay (Entries.find? base.entries name) (Entries.find? layer.entries name) := by
  obtain ⟨⟨entries, rfl⟩, ⟨old, rfl⟩⟩ := htables
  rw [merge_table]
  exact find?_mergeEntries old h.1 name

open Classical in
/-- Below a path that the layer replaces, all is the layer's. Elsewhere what the two sides hold at
a path is merged there. -/
theorem follow_merge {base layer : Value} (h : layer.DistinctNames) (path : List String) :
    (merge base layer).follow path =
      if Hides base layer path then layer.follow path
      else overlay (base.follow path) (layer.follow path) := by
  induction path generalizing base layer with
  | nil =>
    rw [if_neg not_hides_nil]
    rfl
  | cons name path ih =>
    by_cases htables : layer.IsTable ∧ base.IsTable
    · have hhides : Hides base layer (name :: path) ↔
          ∃ outer, outer <+: path ∧ outer ≠ path ∧ Replaces base layer (name :: outer) :=
        hides_cons_iff.trans (or_iff_right fun hreplaces => replaces_nil_iff.1 hreplaces htables)
      rw [follow_cons, follow_cons, follow_cons, find?_merge h htables]
      cases hupper : Entries.find? layer.entries name with
      | none =>
        -- The layer has nothing of this name, so it replaces nothing below it.
        have hnot : ¬ Hides base layer (name :: path) := fun hidden =>
          have ⟨_, _, _, hreplaces⟩ := hhides.1 hidden
          not_replaces_cons hupper hreplaces
        rw [if_neg hnot]
        cases Entries.find? base.entries name with
        | none => rfl
        | some inner => simp only [overlay, Option.bind_some, Option.bind_none]
      | some upper =>
        cases hinner : Entries.find? base.entries name with
        | none =>
          -- The base has nothing of this name, so both readings are the layer's.
          simp only [overlay, Option.bind_some, Option.bind_none]
          cases upper.follow path <;> simp
        | some inner =>
          have hbelow : Hides base layer (name :: path) ↔ Hides inner upper path := by
            simp only [replaces_cons_iff hinner hupper] at hhides
            exact hhides
          simp only [overlay, Option.bind_some, hbelow]
          exact ih (h.find? hupper)
    · have hhides : Hides base layer (name :: path) :=
        hides_cons_iff.2 (.inl (replaces_nil_iff.2 htables))
      rw [merge_of_not_isTable htables, if_pos hhides]

/-! ## The documented reading -/

section Reading

variable {base layer : Value} {path : List String}

/-- Where both sides hold a value, both hold tables all the way. -/
theorem not_hides_of_follow {old upper : Value} (hbase : base.follow path = some old)
    (hlayer : layer.follow path = some upper) : ¬ Hides base layer path := by
  rintro ⟨outer, houter, hne, value, hvalue, hnot⟩
  obtain ⟨held, hheld, htable⟩ := holdsTable_of_follow hlayer houter hne
  have hsame : held = value := Option.some.inj (hheld.symm.trans hvalue)
  exact hnot ⟨hsame ▸ htable, holdsTable_of_follow hbase houter hne⟩

theorem follow_merge_of_replaces (h : layer.DistinctNames) (hreplaces : Replaces base layer path) :
    (merge base layer).follow path = layer.follow path := by
  obtain ⟨value, hvalue, hnot⟩ := hreplaces
  rw [follow_merge h, hvalue]
  split
  · rfl
  · cases hbase : base.follow path with
    | none => rfl
    | some old =>
      have hnotTables : ¬ (value.IsTable ∧ old.IsTable) :=
        fun ⟨htable, hold⟩ => hnot ⟨htable, old, hbase, hold⟩
      rw [overlay, merge_of_not_isTable hnotTables]

theorem holdsTable_merge (h : layer.DistinctNames) (hlayer : layer.HoldsTable path)
    (hbase : base.HoldsTable path) : (merge base layer).HoldsTable path := by
  obtain ⟨_, hupper, ⟨entries, rfl⟩⟩ := hlayer
  obtain ⟨_, hold, ⟨old, rfl⟩⟩ := hbase
  refine ⟨.table (mergeEntries old entries), ?_, _, rfl⟩
  rw [follow_merge h, if_neg (not_hides_of_follow hold hupper), hold, hupper, overlay, merge_table]

theorem follow_merge_of_none (h : layer.DistinctNames) (hlayer : layer.follow path = none)
    (hnot : ¬ Hides base layer path) : (merge base layer).follow path = base.follow path := by
  rw [follow_merge h, if_neg hnot, hlayer]
  cases base.follow path <;> rfl

/-- Whatever a path holds after a merge is the merge of what it held. -/
theorem overlay_of_follow_merge {held : Value} (h : layer.DistinctNames)
    (hheld : (merge base layer).follow path = some held) :
    overlay (base.follow path) (layer.follow path) = some held := by
  rw [follow_merge h] at hheld
  split at hheld
  next hidden =>
    cases hbase : base.follow path with
    | none => rw [hheld, overlay]
    | some old => exact absurd hidden (not_hides_of_follow hbase hheld)
  next => exact hheld

theorem keys_merge (h : layer.DistinctNames) (htable : (merge base layer).IsTable) :
    Entries.keys (merge base layer).entries = Entries.keys base.entries ++
      (Entries.keys layer.entries).filter (· ∉ Entries.keys base.entries) := by
  by_cases htables : layer.IsTable ∧ base.IsTable
  · obtain ⟨⟨entries, rfl⟩, ⟨old, rfl⟩⟩ := htables
    rw [merge_table]
    exact keys_mergeEntries old h.1
  · rw [merge_of_not_isTable htables] at htable ⊢
    have hbase : base.entries = [] :=
      entries_of_not_isTable fun hbase => htables ⟨htable, hbase⟩
    rw [hbase]
    exact (List.filter_eq_self.2 (by simp [Entries.keys])).symm

theorem namesAt_merge (h : layer.DistinctNames) (htable : (merge base layer).HoldsTable path) :
    (merge base layer).namesAt path =
      base.namesAt path ++ (layer.namesAt path).filter (· ∉ base.namesAt path) := by
  obtain ⟨held, hheld, hheldTable⟩ := htable
  have hoverlay := overlay_of_follow_merge h hheld
  unfold namesAt
  rw [hheld]
  cases hbase : base.follow path with
  | none =>
    rw [hbase] at hoverlay
    cases hlayer : layer.follow path with
    | none => rw [hlayer] at hoverlay; cases hoverlay
    | some upper =>
      rw [hlayer] at hoverlay
      cases hoverlay
      exact (List.filter_eq_self.2 (by simp)).symm
  | some old =>
    rw [hbase] at hoverlay
    cases hlayer : layer.follow path with
    | none => rw [hlayer] at hoverlay; cases hoverlay; simp
    | some upper =>
      rw [hlayer] at hoverlay
      cases hoverlay
      exact keys_merge (h.follow hlayer) hheldTable

theorem nodup_namesAt_merge (hbase : base.DistinctNames) (hlayer : layer.DistinctNames)
    (htable : (merge base layer).HoldsTable path) : ((merge base layer).namesAt path).Nodup := by
  rw [namesAt_merge hlayer htable]
  have hnew : ((layer.namesAt path).filter (· ∉ base.namesAt path)).Nodup :=
    (hlayer.nodup_namesAt path).filter _
  refine List.nodup_append.2 ⟨hbase.nodup_namesAt path, hnew, ?_⟩
  rintro name hold _ hmem rfl
  exact of_decide_eq_true (List.mem_filter.1 hmem).2 hold

end Reading

end Value

namespace Settings

/-- Settings as a value: a table. -/
def asValue (settings : Settings) : Value :=
  .table settings.entries

theorem asValue_merged (base layer : Settings) :
    (merged base layer).asValue = Value.merge base.asValue layer.asValue :=
  (Value.merge_table _ _).symm

/-- The deep merge at every path: what replaces what, what merges, what stays and what goes, and
the order of names in every table. -/
theorem merged_at_path {base layer : Settings} (hbase : base.DistinctNames)
    (hlayer : layer.DistinctNames) (path : List String) :
    (Value.Replaces base.asValue layer.asValue path →
      (merged base layer).asValue.follow path = layer.asValue.follow path) ∧
    (layer.asValue.HoldsTable path → base.asValue.HoldsTable path →
      (merged base layer).asValue.HoldsTable path) ∧
    (layer.asValue.follow path = none →
      (Value.Hides base.asValue layer.asValue path →
        (merged base layer).asValue.follow path = none) ∧
      (¬ Value.Hides base.asValue layer.asValue path →
        (merged base layer).asValue.follow path = base.asValue.follow path)) ∧
    ((merged base layer).asValue.HoldsTable path →
      (merged base layer).asValue.namesAt path = base.asValue.namesAt path ++
        (layer.asValue.namesAt path).filter (· ∉ base.asValue.namesAt path) ∧
      ((merged base layer).asValue.namesAt path).Nodup) := by
  have h : layer.asValue.DistinctNames := hlayer
  rw [asValue_merged]
  refine ⟨Value.follow_merge_of_replaces h, Value.holdsTable_merge h, ?_, ?_⟩
  · intro hnone
    refine ⟨fun hidden => ?_, Value.follow_merge_of_none h hnone⟩
    rw [Value.follow_merge h, if_pos hidden, hnone]
  · intro htable
    exact ⟨Value.namesAt_merge h htable, Value.nodup_namesAt_merge hbase h htable⟩

/-- Flags of a base and a layer meet in a table, and both keep their places. -/
theorem merged_flags_at_path :
    let base : Settings := ⟨[("FLAGS", .table [("opt", .str "-O"), ("warn", .bool true)])]⟩
    let layer : Settings := ⟨[("FLAGS", .table [("lto", .bool true), ("opt", .list [])])]⟩
    base.DistinctNames ∧ layer.DistinctNames ∧
      Value.Replaces base.asValue layer.asValue ["FLAGS", "opt"] ∧
      (merged base layer).asValue.follow ["FLAGS", "opt"] = some (.list []) ∧
      (merged base layer).asValue.namesAt ["FLAGS"] = ["opt", "warn", "lto"] := by
  intro base layer
  have hbase : base.DistinctNames := by
    simp [base, DistinctNames, Value.DistinctNames, Value.DistinctNamesEntries, Entries.keys]
  have hlayer : layer.DistinctNames := by
    simp [layer, DistinctNames, Value.DistinctNames, Value.DistinctNamesEntries,
      Value.DistinctNamesItems, Entries.keys]
  have hreplaces : Value.Replaces base.asValue layer.asValue ["FLAGS", "opt"] := by
    refine ⟨.list [], rfl, ?_⟩
    rintro ⟨⟨entries, htable⟩, -⟩
    cases htable
  have hnames := (merged_at_path hbase hlayer ["FLAGS"]).2.2.2
    ((merged_at_path hbase hlayer ["FLAGS"]).2.1 ⟨_, rfl, _, rfl⟩ ⟨_, rfl, _, rfl⟩)
  exact ⟨hbase, hlayer, hreplaces, (merged_at_path hbase hlayer _).1 hreplaces, hnames.1⟩

end Settings

end ProjectCompiler
