import Mathlib.Data.List.Forall2
import ProjectCompiler.Manifest.OfToml

/-!
# Decoding — what stands in a record once it is read

A record is read by setting one field after another. Names in a table are distinct, so that each field is
set once at most, and no field touches another: what stands in a field in the end was decoded from what is
written under its name, or was there from the start.

- `Decoded.Yields`: what is decoded if anything is;
- `Toml.Supplies`: what a field of a table comes to, or what stands in for it;
- `RecordShape.read_supplies`: each field of a record is what the table supplies;
- `TargetEntry.ofToml_written`, `Manifest.ofToml_written`: the fields of entries and manifests.
-/

namespace ProjectCompiler

open Entries

variable {α β : Type}

/-- Whatever is decoded has the property. -/
def Decoded.Yields (x : Decoded α) (P : α → Prop) : Prop :=
  ∀ a, x = .ok a → P a

namespace Decoded.Yields

variable {x : Decoded α} {f : α → Decoded β} {P : α → Prop} {Q : β → Prop}

theorem pure {a : α} (h : P a) : Yields (Pure.pure a) P := by
  intro _ heq
  cases heq
  exact h

theorem throw (fault : SchemaFault) : Yields (MonadExcept.throw fault : Decoded α) P :=
  nofun

theorem weaken {Q : α → Prop} (hx : Yields x P) (h : ∀ a, P a → Q a) : Yields x Q :=
  fun a ha => h a (hx a ha)

theorem bind (hf : ∀ a, x = .ok a → Yields (f a) Q) : Yields (x >>= f) Q := by
  intro b hb
  rcases hx : x with fault | a
  · rw [hx] at hb
    cases hb
  · rw [hx] at hb
    exact hf a hx b hb

theorem foldlM {g : α → β → Decoded α} {items : List β} {start : α}
    (hg : ∀ a item, P a → Yields (g a item) P) (hstart : P start) :
    Yields (items.foldlM g start) P := by
  induction items generalizing start with
  | nil => exact pure hstart
  | cons item rest ih => exact bind fun a ha => ih (hg start item hstart a ha)

theorem mapM {g : β → Decoded α} (items : List β) :
    Yields (items.mapM g) (List.Forall₂ (fun item a => g item = .ok a) items) := by
  induction items with
  | nil => exact pure List.Forall₂.nil
  | cons item rest ih =>
    rw [List.mapM_cons]
    exact bind fun a ha => bind fun others hothers => pure (List.Forall₂.cons ha (ih others hothers))

end Decoded.Yields

/-- A property that no field takes away holds of a whole record. -/
theorem RecordShape.read_yields {shape : RecordShape} {set : String → Toml → α → Decoded α} {start : α}
    {found : Toml} {P : α → Prop}
    (hset : ∀ field found record, P record → (set field found record).Yields P) (hstart : P start) :
    (shape.read set start found).Yields P := by
  rcases hentries : found.entries? with _ | entries
  · cases found with
    | array items =>
      refine .bind fun record hrecord => ?_
      have hkept : P record := Decoded.Yields.foldlM (fun _ _ => hset _ _ _) hstart record hrecord
      split
      · exact .throw _
      · exact .pure hkept
    | table entries => cases hentries
    | moment m => cases hentries
    | _ => exact nofun
  · simp only [read, hentries]
    refine .bind fun record hrecord => ?_
    have hkept : P record := Decoded.Yields.foldlM (fun _ _ => hset _ _ _) hstart record hrecord
    split
    · exact .throw _
    · exact .pure hkept

/-- Only an array is a list. -/
theorem Toml.toList_yields (decode : Toml → Decoded α) (found : Toml) :
    (found.toList decode).Yields fun list => ∃ items, found = .array items ∧
      List.Forall₂ (fun item a => decode item = .ok a) items list := by
  intro list h
  cases found with
  | array items => exact ⟨items, rfl, Decoded.Yields.mapM items list h⟩
  | _ => cases h

/-- A map has the names of the table that it was written as. -/
theorem Toml.keys_toMap (decode : Toml → Decoded α) (members : List (String × Toml)) :
    (Toml.toMap decode (.table members)).Yields fun pairs => keys pairs = keys members := by
  refine (Decoded.Yields.mapM members).weaken fun pairs hpairs => ?_
  induction hpairs with
  | nil => rfl
  | @cons member pair _ _ hpair _ ih =>
    have hname : pair.1 = member.1 := by
      have hone : Decoded.Yields (do return (member.1, ← decode member.2)) fun pair : String × α =>
          pair.1 = member.1 := .bind fun _ _ => .pure rfl
      exact hone pair hpair
    rw [keys, List.map_cons, hname]
    exact congrArg (member.1 :: ·) ih

/-! ## Single fields -/

/-- The value is what is written under a name, or the fallback if nothing is. -/
def Toml.Supplies (members : List (String × Toml)) (field : String) (decode : Toml → Decoded β)
    (fallback value : β) : Prop :=
  match find? members field with
  | none => value = fallback
  | some found => decode found = .ok value

/-- What setting a field does to a part of the record: the field of this name puts a value there, and
other fields leave it alone. -/
def RecordShape.Assigns (name field : String) (decode : Toml → Decoded β) (found : Toml)
    (before after : β) : Prop :=
  if field = name then decode found = .ok after else after = before

namespace RecordShape

variable {shape : RecordShape} {set : String → Toml → α → Decoded α}
  {Change : String → Toml → α → α → Prop} {name : String} {decode : Toml → Decoded β} {view : α → β}
  {members : List (String × Toml)}

theorem foldlM_supplies
    (hset : ∀ field found record, (set field found record).Yields (Change field found record))
    (hview : ∀ {field found before after}, Change field found before after →
      Assigns name field decode found (view before) (view after))
    (hkeys : (keys members).Nodup) (start : α) :
    Decoded.Yields (members.foldlM (fun record entry => set entry.1 entry.2 record) start)
      fun record => Toml.Supplies members name decode (view start) (view record) := by
  induction members generalizing start with
  | nil => exact .pure rfl
  | cons member rest ih =>
    obtain ⟨field, found⟩ := member
    obtain ⟨hnew, hrest⟩ := List.nodup_cons.1 hkeys
    refine .bind fun middle hmiddle => (ih hrest middle).weaken fun record hrecord => ?_
    have hassigns := hview (hset field found start middle hmiddle)
    unfold Toml.Supplies at hrecord ⊢
    rw [find?]
    by_cases hfield : field = name
    · -- No later field has this name, so that the value stays.
      rw [if_pos hfield]
      rw [Assigns, if_pos hfield] at hassigns
      rw [(find?_eq_none_iff rest name).2 (hfield ▸ hnew)] at hrecord
      rw [hrecord]
      exact hassigns
    · rw [if_neg hfield]
      rw [Assigns, if_neg hfield] at hassigns
      rwa [hassigns] at hrecord

/-- A part that one field sets and no other touches is what the table supplies. -/
theorem read_supplies
    (hset : ∀ field found record, (set field found record).Yields (Change field found record))
    (hview : ∀ {field found before after}, Change field found before after →
      Assigns name field decode found (view before) (view after))
    (hkeys : (keys members).Nodup) (start : α) :
    (shape.read set start (.table members)).Yields fun record =>
      Toml.Supplies members name decode (view start) (view record) := by
  refine .bind fun record hrecord => ?_
  have hsupplies := foldlM_supplies hset hview hkeys start record hrecord
  split
  · exact .throw _
  · exact .pure hsupplies

end RecordShape

/-! ## Targets -/

namespace TargetEntry

/-- What setting one field does to the fields of an entry that it may have from its host. -/
structure Assigned (field : String) (found : Toml) (before after : TargetEntry) : Prop where
  platform : RecordShape.Assigns "platform" field (fun found => some <$> found.toTag) found
    before.platform after.platform
  deploymentTarget : RecordShape.Assigns "deployment_target" field
    (fun found => some <$> found.toText) found before.deploymentTarget after.deploymentTarget
  language : RecordShape.Assigns "language" field (fun found => some <$> found.toTag) found
    before.language after.language
  includeFiles : RecordShape.Assigns "include_files" field Toml.toTexts found
    before.includeFiles after.includeFiles
  excludeFiles : RecordShape.Assigns "exclude_files" field Toml.toTexts found
    before.excludeFiles after.excludeFiles
  host : RecordShape.Assigns "host" field (fun found => some <$> found.toText) found
    before.host after.host

theorem set_assigned (field : String) (found : Toml) (entry : TargetEntry) :
    (set field found entry).Yields (Assigned field found entry) := by
  unfold set
  split
  -- Each name is compared with those of the six fields, most of which it is not.
  all_goals
    refine .bind fun value hvalue => .pure ?_
    constructor <;> simp_all [RecordShape.Assigns]

/-- What an entry has from the table that it was read from. -/
structure Written (members : List (String × Toml)) (entry : TargetEntry) : Prop where
  platform : Toml.Supplies members "platform" (fun found => some <$> found.toTag) none entry.platform
  deploymentTarget : Toml.Supplies members "deployment_target" (fun found => some <$> found.toText)
    none entry.deploymentTarget
  language : Toml.Supplies members "language" (fun found => some <$> found.toTag) none entry.language
  includeFiles : Toml.Supplies members "include_files" Toml.toTexts [] entry.includeFiles
  excludeFiles : Toml.Supplies members "exclude_files" Toml.toTexts [] entry.excludeFiles
  host : Toml.Supplies members "host" (fun found => some <$> found.toText) none entry.host

theorem ofToml_written {members : List (String × Toml)} (hkeys : (keys members).Nodup) :
    (ofToml (.table members)).Yields (Written members) := by
  intro entry hentry
  exact {
    platform := RecordShape.read_supplies set_assigned Assigned.platform hkeys empty entry hentry
    deploymentTarget :=
      RecordShape.read_supplies set_assigned Assigned.deploymentTarget hkeys empty entry hentry
    language := RecordShape.read_supplies set_assigned Assigned.language hkeys empty entry hentry
    includeFiles :=
      RecordShape.read_supplies set_assigned Assigned.includeFiles hkeys empty entry hentry
    excludeFiles :=
      RecordShape.read_supplies set_assigned Assigned.excludeFiles hkeys empty entry hentry
    host := RecordShape.read_supplies set_assigned Assigned.host hkeys empty entry hentry }

end TargetEntry

/-! ## Manifests -/

namespace Manifest

/-- What setting one field does to the lists of a manifest. -/
structure Assigned (field : String) (found : Toml) (before after : Manifest) : Prop where
  configurations : RecordShape.Assigns "configurations" field
    (fun found => found.toMap Settings.ofConfiguration) found before.configurations
    after.configurations
  targets : RecordShape.Assigns "targets" field (fun found => found.toList TargetEntry.ofToml) found
    before.targets after.targets

theorem setProject_keeps (field : String) (found : Toml) (manifest : Manifest) :
    (setProject field found manifest).Yields fun after =>
      after.configurations = manifest.configurations ∧ after.targets = manifest.targets := by
  unfold setProject
  split
  all_goals exact .bind fun _ _ => .pure ⟨rfl, rfl⟩

theorem setOption_keeps (field : String) (found : Toml) (manifest : Manifest) :
    (setOption field found manifest).Yields fun after =>
      after.configurations = manifest.configurations ∧ after.targets = manifest.targets := by
  unfold setOption
  split
  all_goals exact .bind fun _ _ => .pure ⟨rfl, rfl⟩

theorem set_assigned (field : String) (found : Toml) (manifest : Manifest) :
    (set field found manifest).Yields (Assigned field found manifest) := by
  let Kept (before after : Manifest) : Prop :=
    after.configurations = before.configurations ∧ after.targets = before.targets
  have hother : field ≠ "configurations" → field ≠ "targets" → ∀ after, Kept manifest after →
      Assigned field found manifest after := by
    intro hconfigurations htargets after hafter
    refine ⟨?_, ?_⟩
    · rw [RecordShape.Assigns, if_neg hconfigurations]
      exact hafter.1
    · rw [RecordShape.Assigns, if_neg htargets]
      exact hafter.2
  -- Some tables of a manifest are records that are read into the manifest itself.
  have hread : ∀ {shape : RecordShape} {set : String → Toml → Manifest → Decoded Manifest},
      (∀ field found before, (set field found before).Yields (Kept before)) →
        (shape.read set manifest found).Yields (Kept manifest) := by
    intro shape set hset
    refine RecordShape.read_yields (fun field found before hbefore => ?_) ⟨rfl, rfl⟩
    exact (hset field found before).weaken fun after hafter =>
      ⟨hafter.1.trans hbefore.1, hafter.2.trans hbefore.2⟩
  unfold set
  split
  · exact (hread setProject_keeps).weaken (hother (by decide) (by decide))
  · exact .bind fun _ hconfigurations => .pure ⟨hconfigurations, rfl⟩
  · exact .bind fun _ htargets => .pure ⟨rfl, htargets⟩
  · exact (hread setOption_keeps).weaken (hother (by decide) (by decide))
  · rename_i hconfigurations htargets _
    exact .bind fun _ _ => .pure (hother hconfigurations htargets _ ⟨rfl, rfl⟩)

/-- What a manifest has from the table of its document. -/
structure Written (members : List (String × Toml)) (manifest : Manifest) : Prop where
  configurations : Toml.Supplies members "configurations"
    (fun found => found.toMap Settings.ofConfiguration) [] manifest.configurations
  targets : Toml.Supplies members "targets" (fun found => found.toList TargetEntry.ofToml) []
    manifest.targets

theorem ofToml_written {members : List (String × Toml)} (hkeys : (keys members).Nodup) :
    (ofToml (.table members)).Yields (Written members) := by
  intro manifest hmanifest
  exact {
    configurations :=
      RecordShape.read_supplies set_assigned Assigned.configurations hkeys empty manifest hmanifest
    targets := RecordShape.read_supplies set_assigned Assigned.targets hkeys empty manifest hmanifest }

/-- Each target is decoded from an item of the array that stands under their name. -/
theorem forall₂_ofToml {members : List (String × Toml)} (hkeys : (keys members).Nodup)
    {manifest : Manifest} (hmanifest : ofToml (.table members) = .ok manifest) {items : List Toml}
    (hitems : find? members "targets" = some (.array items)) :
    List.Forall₂ (fun item entry => TargetEntry.ofToml item = .ok entry) items manifest.targets := by
  have hsupplied := (ofToml_written hkeys manifest hmanifest).targets
  rw [Toml.Supplies, hitems] at hsupplied
  exact Decoded.Yields.mapM items _ hsupplied

theorem ofText_eq_ok {text : String} {manifest : Manifest} : ofText text = .ok manifest ↔
    ∃ entries, Toml.parse? text = some entries ∧ ofToml (.table entries) = .ok manifest := by
  rw [ofText]
  rcases Toml.parse? text with _ | entries
  · simp
  · rcases hmanifest : ofToml (.table entries) with fault | decoded
    · simp [hmanifest, Except.mapError]
    · simp [hmanifest, Except.mapError]

end Manifest

end ProjectCompiler
