import ProjectCompiler.Proofs.Project.Growth

/-!
# Layers — names and settings of configurations, identities apart

Configurations are declared, found again by name and given settings, one step at a time. As a list of
names with their settings this is what inserting pairs does: a name keeps its first place and has the
settings that came last. So the configurations that a sequence of such steps leaves are read off the pairs
that went in.

- `Entries.keys_ofPairs`, `Entries.find?_ofPairs_append`: pairs inserted one after another;
- `BuildConfiguration.layer`: a configuration without its identity;
- `Target.foldlM_ensureConfiguration`, `Target.foldlM_editConfiguration`: overrides of a target;
- `Project.layers_withConfigurations`, `Project.layers_foldl_editConfiguration`: configurations of a
  project.
-/

namespace ProjectCompiler

/-! ## Pairs inserted one after another -/

namespace Entries

variable {κ α : Type} [DecidableEq κ]

theorem ofPairs_append (pairs more : List (κ × α)) : ofPairs (pairs ++ more) =
    more.foldl (fun entries pair => insert entries pair.1 pair.2) (ofPairs pairs) :=
  List.foldl_append

theorem ofPairs_append_singleton (pairs : List (κ × α)) (key : κ) (value : α) :
    ofPairs (pairs ++ [(key, value)]) = insert (ofPairs pairs) key value :=
  ofPairs_append pairs [(key, value)]

theorem keys_ofPairs (pairs : List (κ × α)) : keys (ofPairs pairs) = (keys pairs).eraseDups := by
  induction pairs using List.reverseRecOn with
  | nil => rfl
  | append_singleton pairs pair ih =>
    have hkeys : keys (pairs ++ [pair]) = keys pairs ++ [pair.1] := List.map_append
    rw [ofPairs_append_singleton, keys_insert, ih, hkeys, eraseDups_append_singleton]
    simp only [List.mem_eraseDups]

/-- The pairs that come last decide. -/
theorem find?_ofPairs_append (pairs more : List (κ × α)) (key : κ) :
    find? (ofPairs (pairs ++ more)) key =
      (find? (ofPairs more) key).or (find? (ofPairs pairs) key) := by
  induction more using List.reverseRecOn with
  | nil => simp [ofPairs, find?]
  | append_singleton more pair ih =>
    rw [← List.append_assoc, ofPairs_append_singleton, ofPairs_append_singleton]
    by_cases hkey : key = pair.1
    · rw [hkey, find?_insert_self, find?_insert_self, Option.some_or]
    · rw [find?_insert_ne _ _ hkey, find?_insert_ne _ _ hkey, ih]

/-- A value that is there already changes nothing. -/
theorem insert_of_find? {entries : List (κ × α)} {key : κ} {value : α}
    (h : find? entries key = some value) : insert entries key value = entries := by
  induction entries with
  | nil => cases h
  | cons entry rest ih =>
    obtain ⟨first, old⟩ := entry
    by_cases hfirst : first = key
    · rw [find?, if_pos hfirst] at h
      rw [insert, if_pos hfirst, Option.some.inj h]
    · rw [find?, if_neg hfirst] at h
      rw [insert, if_neg hfirst, ih h]

/-- Of two values for a key the second one counts. -/
theorem insert_insert (entries : List (κ × α)) (key : κ) (value other : α) :
    insert (insert entries key value) key other = insert entries key other := by
  induction entries with
  | nil => simp [insert]
  | cons entry rest ih =>
    obtain ⟨first, old⟩ := entry
    by_cases hfirst : first = key <;> simp [insert, hfirst, ih]

/-- Keys with one and the same value. -/
theorem find?_ofPairs_constant {names : List κ} {key : κ} (value : α) (h : key ∈ names) :
    find? (ofPairs (names.map fun name => (name, value))) key = some value := by
  induction names using List.reverseRecOn with
  | nil => cases h
  | append_singleton names name ih =>
    rw [List.map_append, List.map_singleton, ofPairs_append_singleton]
    by_cases hkey : key = name
    · rw [hkey, find?_insert_self]
    · rw [find?_insert_ne _ _ hkey]
      exact ih (by simpa [hkey] using h)

/-- Keys that wait for their values keep their places. -/
theorem ofPairs_keys_append (pairs : List (κ × α)) (value : α) :
    ofPairs ((keys pairs).map (fun key => (key, value)) ++ pairs) = ofPairs pairs := by
  have hkeys : keys ((keys pairs).map (fun key => (key, value)) ++ pairs) =
      keys pairs ++ keys pairs := by
    simp [keys, Function.comp_def]
  have hsame : (keys pairs ++ keys pairs).eraseDups = (keys pairs).eraseDups := by
    rw [List.eraseDups_append]
    have hnone : (keys pairs).removeAll (keys pairs) = [] := by
      simp [List.removeAll]
    rw [hnone, List.eraseDups_nil, List.append_nil]
  refine eq_of_find?_eq ?_ ?_ fun key => ?_
  · rw [keys_ofPairs]
    exact nodup_eraseDups _
  · rw [keys_ofPairs, keys_ofPairs, hkeys, hsame]
  · rw [find?_ofPairs_append]
    rcases hfound : find? (ofPairs pairs) key with _ | found
    · -- A key that is not among the pairs does not wait for a value either.
      rw [Option.none_or, find?_eq_none_iff, keys_ofPairs, List.mem_eraseDups]
      rw [find?_eq_none_iff, keys_ofPairs, List.mem_eraseDups] at hfound
      simpa [keys] using hfound
    · rw [Option.some_or]

end Entries

/-! ## Single configurations -/

namespace BuildConfiguration

/-- A configuration without its identity. -/
def layer (configuration : BuildConfiguration) : String × Settings :=
  (configuration.name, configuration.settings)

theorem keys_layers (configurations : List BuildConfiguration) :
    Entries.keys (configurations.map layer) = configurations.map name := by
  simp [Entries.keys, layer, Function.comp_def]

/-- Names that are declared without settings. -/
theorem layers_ensure (declared : String) {configurations : List BuildConfiguration}
    {names : List String} (h : configurations.map layer =
      Entries.ofPairs (names.map fun name => (name, Settings.empty))) (supply : Supply) :
    (ensure declared configurations supply).1.map layer =
      Entries.ofPairs ((names ++ [declared]).map fun name => (name, Settings.empty)) := by
  have hnames : declared ∈ configurations.map name ↔ declared ∈ names := by
    rw [← keys_layers, h, Entries.keys_ofPairs, List.mem_eraseDups]
    simp [Entries.keys]
  rw [ensure_fst, List.map_append, List.map_singleton, Entries.ofPairs_append_singleton, ← h]
  split
  · rename_i hmem
    refine (Entries.insert_of_find? ?_).symm
    rw [h]
    exact Entries.find?_ofPairs_constant _ (hnames.1 hmem)
  · rename_i hnew
    rw [Entries.insert_of_not_mem _ (by rwa [keys_layers]), List.map_append]
    rfl

/-- New settings for a name that is there. -/
theorem layers_modifyFirst {changed : String} (settings : Settings)
    {configurations : List BuildConfiguration} (h : changed ∈ configurations.map name) :
    (modifyFirst changed (fun configuration => { configuration with settings }) configurations).map
      layer = Entries.insert (configurations.map layer) changed settings := by
  induction configurations with
  | nil => cases h
  | cons configuration rest ih =>
    rw [modifyFirst, List.map_cons, layer, Entries.insert]
    by_cases hname : configuration.name = changed
    · rw [if_pos hname, if_pos hname]
      rfl
    · rw [if_neg hname, if_neg hname, List.map_cons, ih]
      · rfl
      · simpa [Ne.symm hname] using h

/-- New settings for a name, which is declared first if it is not there. -/
theorem layers_modifyFirst_ensure (changed : String) (settings : Settings)
    (configurations : List BuildConfiguration) (supply : Supply) :
    (modifyFirst changed (fun configuration => { configuration with settings })
      (ensure changed configurations supply).1).map layer =
        Entries.insert (configurations.map layer) changed settings := by
  rw [ensure_fst]
  split
  · rename_i hmem
    exact layers_modifyFirst settings hmem
  · rename_i hnew
    have hkeys : changed ∉ Entries.keys (configurations.map layer) := by rwa [keys_layers]
    rw [layers_modifyFirst settings (by simp), List.map_append, List.map_singleton]
    show Entries.insert (configurations.map layer ++ [(changed, Settings.empty)]) changed settings = _
    rw [← Entries.insert_of_not_mem Settings.empty hkeys, Entries.insert_insert]

end BuildConfiguration

/-! ## Loops -/

/-- A loop that takes identities keeps an invariant, which may speak of the items that are done. -/
theorem Fresh.foldlM_holds {α β : Type} {f : α → β → Fresh α} {I : List β → α → Prop} {a : α}
    (hf : ∀ done item a supply, I done a → I (done ++ [item]) (f a item supply).1) (ha : I [] a)
    (items : List β) (supply : Supply) : I items (items.foldlM f a supply).1 := by
  induction items using List.reverseRecOn with
  | nil => exact ha
  | append_singleton items item ih =>
    rw [List.foldlM_append]
    exact hf items item _ _ ih

namespace Target

variable {target : Target}

/-- A target without overrides gets an empty one for each name. -/
theorem foldlM_ensureConfiguration (h : target.configurations = []) (names : List String)
    (supply : Supply) : ∃ configurations,
      (names.foldlM ensureConfiguration target supply).1 = { target with configurations } ∧
        configurations.map BuildConfiguration.layer =
          Entries.ofPairs (names.map fun name => (name, Settings.empty)) := by
  refine Fresh.foldlM_holds (I := fun (done : List String) (after : Target) => ∃ configurations,
    after = { target with configurations } ∧ configurations.map BuildConfiguration.layer =
      Entries.ofPairs (done.map fun name => (name, Settings.empty))) ?_ ⟨[], ?_, rfl⟩ names supply
  · rintro done name _ supply ⟨configurations, rfl, hlayers⟩
    exact ⟨_, rfl, BuildConfiguration.layers_ensure name hlayers supply⟩
  · rw [← h]

/-- Settings that are given to overrides one after another. -/
theorem foldlM_editConfiguration (target : Target) (layers : List (String × Settings))
    (supply : Supply) : ∃ configurations,
      (layers.foldlM (fun (target : Target) layer => target.editConfiguration layer.1
        fun configuration => { configuration with settings := layer.2 }) target supply).1 =
          { target with configurations } ∧
        configurations.map BuildConfiguration.layer =
          layers.foldl (fun entries layer => Entries.insert entries layer.1 layer.2)
            (target.configurations.map BuildConfiguration.layer) := by
  refine Fresh.foldlM_holds (I := fun (done : List (String × Settings)) (after : Target) =>
    ∃ configurations, after = { target with configurations } ∧
      configurations.map BuildConfiguration.layer =
        done.foldl (fun entries layer => Entries.insert entries layer.1 layer.2)
          (target.configurations.map BuildConfiguration.layer)) ?_ ⟨_, rfl, rfl⟩ layers supply
  rintro done layer _ supply ⟨configurations, rfl, hlayers⟩
  refine ⟨_, rfl, ?_⟩
  rw [List.foldl_append, ← hlayers]
  exact BuildConfiguration.layers_modifyFirst_ensure layer.1 layer.2 configurations supply

end Target

namespace Project

/-- A new project declares its configurations without settings. -/
theorem layers_withConfigurations (name : String) (names : List String) (supply : Supply) :
    (withConfigurations name names supply).1.configurations.map BuildConfiguration.layer =
      Entries.ofPairs (names.map fun name => (name, Settings.empty)) := by
  have hfold : ∀ bare : Project, bare.configurations = [] → ∀ supply,
      (names.foldlM addConfiguration bare supply).1.configurations.map BuildConfiguration.layer =
        Entries.ofPairs (names.map fun name => (name, Settings.empty)) := by
    intro bare hbare supply
    refine Fresh.foldlM_holds (I := fun (done : List String) (project : Project) =>
      project.configurations.map BuildConfiguration.layer =
        Entries.ofPairs (done.map fun name => (name, Settings.empty))) ?_ ?_ names supply
    · intro done declared project supply hlayers
      exact BuildConfiguration.layers_ensure declared hlayers _
    · rw [hbare]
      rfl
  exact hfold _ rfl _

/-- Settings that are given to configurations one after another, where all of them are declared. -/
theorem layers_foldl_editConfiguration {project : Project} {layers : List (String × Settings)}
    (h : ∀ layer ∈ layers, layer.1 ∈ project.declared) :
    (layers.foldl (fun (project : Project) layer => project.editConfiguration layer.1
      fun configuration => { configuration with settings := layer.2 })
        project).configurations.map BuildConfiguration.layer =
      layers.foldl (fun entries layer => Entries.insert entries layer.1 layer.2)
        (project.configurations.map BuildConfiguration.layer) := by
  induction layers generalizing project with
  | nil => rfl
  | cons layer rest ih =>
    have hdeclared : (project.editConfiguration layer.1
        fun configuration => { configuration with settings := layer.2 }).declared =
          project.declared :=
      BuildConfiguration.map_modifyFirst (by simp) layer.1 _
    rw [List.foldl_cons, List.foldl_cons, ih fun other hother => ?_]
    · congr 1
      exact BuildConfiguration.layers_modifyFirst layer.2 (h layer List.mem_cons_self)
    · rw [hdeclared]
      exact h other (List.mem_cons_of_mem _ hother)

end Project

end ProjectCompiler
