import ProjectCompiler.Native.SchemeList
import ProjectCompiler.Proofs.Json.Reading
import ProjectCompiler.Proofs.Native.Steps

/-!
# SchemeList — saved lists are read back

The file that a scheme list is saved in holds everything that is in the list, in its order. Reading
undoes writing at every level: texts and lists of texts, the actions of a scheme, its record, and the
record of the whole list. So no two lists are saved as the same text.

- `SchemeList.WellFormed`: no scheme has two configurations for an action;
- `Backend.ActionsDistinct`: neither does a scheme of a backend, `Backend.Step.actionsDistinct`;
- `SchemeList.ofJson?_toJson`: the record of a list gives back the list;
- `SchemeList.saved_list_read_back`: so do its text and the file that a backend saves it in.
-/

namespace ProjectCompiler

open Json

/-- Items that are read back one by one are read back as a list. -/
theorem mapM_map_eq_some {α β : Type} {write : α → β} {read : β → Option α} {items : List α}
    (h : ∀ item ∈ items, read (write item) = some item) :
    (items.map write).mapM read = some items := by
  induction items with
  | nil => rfl
  | cons item rest ih =>
    have hrest := ih fun other hother => h other (List.mem_cons_of_mem _ hother)
    rw [List.map_cons, List.mapM_cons, h item List.mem_cons_self, hrest]
    rfl

/-! ## Texts -/

theorem readsBack_textJson (text : String) : (textJson text).ReadsBack :=
  ReadsBack.str text

theorem readsBack_textsJson (texts : List String) : (textsJson texts).ReadsBack := by
  refine ReadsBack.array fun item hitem => ?_
  obtain ⟨text, -, rfl⟩ := List.mem_map.1 hitem
  exact readsBack_textJson text

theorem text?_textJson (text : String) : (textJson text).text? = some text :=
  rfl

theorem texts?_textsJson (texts : List String) : (textsJson texts).texts? = some texts := by
  have htexts : (texts.map textJson).mapM text? = some texts :=
    mapM_map_eq_some fun text _ => text?_textJson text
  exact htexts

/-- Members that all have names are there under these names. -/
theorem Json.named?_map (members : List (String × Json)) :
    Json.named? (members.map fun member => (some member.1, member.2)) = some members :=
  mapM_map_eq_some fun _ _ => rfl

/-! ## Schemes -/

theorem SchemeAction.ofTag?_tag (action : SchemeAction) :
    (Tagged.ofTag? action.tag : Option SchemeAction) = some action := by
  cases action <;> decide

namespace SavedScheme

/-- Every action at most once. -/
def WellFormed (scheme : SavedScheme) : Prop :=
  (Entries.keys scheme.actions).Nodup

def launchJson : Option String → Json
  | some name => textJson name
  | none => .null

def actionsJson (actions : List (SchemeAction × String)) : Json :=
  .object ((actions.map fun action => (action.1.tag, textJson action.2)).map
    fun member => (some member.1, member.2))

/-- The members of a scheme's record. -/
def members (scheme : SavedScheme) : List (String × Json) :=
  [("name", textJson scheme.name),
    ("build_targets", textsJson scheme.buildTargets),
    ("launch_target", launchJson scheme.launchTarget),
    ("test_targets", textsJson scheme.testTargets),
    ("actions", actionsJson scheme.actions)]

theorem toJson_eq (scheme : SavedScheme) :
    scheme.toJson = .object (scheme.members.map fun member => (some member.1, member.2)) := by
  rcases hlaunch : scheme.launchTarget with _ | name <;>
    simp [toJson, members, launchJson, actionsJson, hlaunch]

theorem readsBack_toJson (scheme : SavedScheme) : scheme.toJson.ReadsBack := by
  have hlaunch : (launchJson scheme.launchTarget).ReadsBack := by
    rcases scheme.launchTarget with _ | name
    · exact ReadsBack.null
    · exact readsBack_textJson name
  have hactions : (actionsJson scheme.actions).ReadsBack := by
    refine ReadsBack.object fun member hmember => ?_
    obtain ⟨action, -, rfl⟩ := List.mem_map.1 hmember
    exact readsBack_textJson action.2
  rw [toJson_eq]
  refine ReadsBack.object ?_
  simp only [members, List.forall_mem_cons]
  exact ⟨readsBack_textJson _, readsBack_textsJson _, hlaunch, readsBack_textsJson _, hactions,
    nofun⟩

theorem launchOfJson?_launchJson (launch : Option String) :
    launchOfJson? (some (launchJson launch)) = some launch := by
  cases launch <;> rfl

theorem actionsOfJson?_actionsJson {actions : List (SchemeAction × String)}
    (h : (Entries.keys actions).Nodup) : actionsOfJson? (actionsJson actions) = some actions := by
  have hpairs : (actions.map fun action => (action.1.tag, textJson action.2)).mapM (fun member => do
      let action ← (Tagged.ofTag? member.1 : Option SchemeAction)
      let configuration ← member.2.text?
      return (action, configuration)) = some actions := by
    refine mapM_map_eq_some fun action _ => ?_
    simp only [SchemeAction.ofTag?_tag, text?_textJson]
    rfl
  rw [actionsJson, actionsOfJson?, named?_map, Option.bind_eq_bind, Option.bind_some, hpairs]
  exact congrArg some (Entries.ofPairs_of_nodup h)

theorem ofJson?_toJson {scheme : SavedScheme} (h : scheme.WellFormed) :
    ofJson? scheme.toJson = some scheme := by
  have hfields : scheme.toJson.fields?
      ["name", "build_targets", "launch_target", "test_targets", "actions"] =
        some (scheme.members.map fun member => some member.2) := by
    rw [toJson_eq, fields?, named?_map]
    simp [members, member?]
  rw [ofJson?, hfields]
  simp only [members, List.map_cons, List.map_nil, Option.bind_eq_bind, Option.bind_some,
    text?_textJson, texts?_textsJson, launchOfJson?_launchJson,
    actionsOfJson?_actionsJson h]
  rfl

end SavedScheme

/-! ## Lists -/

namespace SchemeList

/-- No scheme of the list has two configurations for an action. -/
def WellFormed (list : SchemeList) : Prop :=
  ∀ scheme ∈ list.schemes, scheme.WellFormed

/-- The members of a list's record. -/
def members (list : SchemeList) : List (String × Json) :=
  [("suppressed", textsJson list.suppressed),
    ("schemes", .array (list.schemes.map SavedScheme.toJson))]

theorem toJson_eq (list : SchemeList) :
    list.toJson = .object (list.members.map fun member => (some member.1, member.2)) := by
  simp [toJson, members]

theorem readsBack_toJson (list : SchemeList) : list.toJson.ReadsBack := by
  have hschemes : ReadsBack (.array (list.schemes.map SavedScheme.toJson)) := by
    refine ReadsBack.array fun item hitem => ?_
    obtain ⟨scheme, -, rfl⟩ := List.mem_map.1 hitem
    exact scheme.readsBack_toJson
  rw [toJson_eq]
  refine ReadsBack.object ?_
  simp only [members, List.forall_mem_cons]
  exact ⟨readsBack_textsJson _, hschemes, nofun⟩

theorem ofJson?_toJson {list : SchemeList} (h : list.WellFormed) :
    ofJson? list.toJson = some list := by
  have hfields : list.toJson.fields? ["suppressed", "schemes"] =
      some (list.members.map fun member => some member.2) := by
    rw [toJson_eq, fields?, named?_map]
    simp [members, member?]
  have hschemes : (list.schemes.map SavedScheme.toJson).mapM SavedScheme.ofJson? =
      some list.schemes :=
    mapM_map_eq_some fun scheme hscheme => SavedScheme.ofJson?_toJson (h scheme hscheme)
  rw [ofJson?, hfields]
  simp only [members, List.map_cons, List.map_nil, Option.bind_eq_bind, Option.bind_some,
    texts?_textsJson, items?, hschemes]
  rfl

theorem ofText?_text {list : SchemeList} (h : list.WellFormed) : ofText? list.text = some list := by
  rw [ofText?, text, parse?_pretty list.readsBack_toJson, Option.bind_eq_bind, Option.bind_some]
  exact ofJson?_toJson h

theorem load_of_read {disk : Disk} {path : String} {list : SchemeList} (h : list.WellFormed)
    (hread : disk.read path = some list.text) : load disk path = .ok list := by
  simp [load, hread, ofText?_text h]

end SchemeList

/-! ## Backends whose lists are well-formed -/

namespace Backend

variable {before after backend : Backend}

/-- No scheme has two configurations for an action. -/
def ActionsDistinct (backend : Backend) : Prop :=
  ∀ id scheme, backend.object? id = some (.scheme scheme) → (Entries.keys scheme.actions).Nodup

theorem ActionsDistinct.extended (h : backend.ActionsDistinct) {object : NativeObject}
    (hobject : ∀ scheme, object = .scheme scheme → (Entries.keys scheme.actions).Nodup) :
    (backend.extended object).ActionsDistinct := by
  intro id scheme hscheme
  rcases object?_of_extended hscheme with hold | ⟨-, hnew⟩
  · exact h id scheme hold
  · exact hobject scheme hnew.symm

theorem ActionsDistinct.replaced (h : backend.ActionsDistinct) {id : NativeId}
    {old object : NativeObject} (hold : backend.object? id = some old)
    (hobject : ∀ scheme, object = .scheme scheme → (Entries.keys scheme.actions).Nodup) :
    (backend.replaced id object).ActionsDistinct := by
  intro other scheme hscheme
  by_cases hsame : other = id
  · subst hsame
    rw [object?_replaced_self hold] at hscheme
    exact hobject scheme (Option.some.inj hscheme)
  · rw [object?_replaced_ne hsame] at hscheme
    exact h other scheme hscheme

theorem actions_of_ofNode {node : Node} {scheme : NativeScheme}
    (h : NativeObject.ofNode node = .ok (.scheme scheme)) : scheme.actions = [] := by
  cases node with
  | target t =>
    rw [NativeObject.ofNode] at h
    split at h <;> cases h
  | project | configuration => cases h
  | scheme =>
    cases h
    rfl

/-- A configuration takes the place of the one that its action had. -/
theorem Step.actionsDistinct (hstep : before.Step after) (h : before.ActionsDistinct) :
    after.ActionsDistinct := by
  cases hstep with
  | create made =>
    refine h.extended fun scheme hscheme => ?_
    rw [actions_of_ofNode (hscheme ▸ made)]
    exact List.nodup_nil
  | group name found =>
    refine (h.extended fun scheme hscheme => ?_).replaced (object?_extended found _)
      fun scheme hscheme => ?_
    · cases hscheme
    · cases hscheme
  | @attach _ _ parentObject _ _ parentFound childFound other attached =>
    refine h.replaced parentFound fun scheme hscheme => ?_
    have hkind := kind_attached? attached
    subst hscheme
    -- No scheme has a list for others.
    cases parentObject with
    | scheme s => cases attached
    | project | group | target | configuration => cases hkind
  | settle settings found =>
    refine h.replaced found fun scheme hscheme => ?_
    cases hscheme
  | @rename id s name found =>
    refine h.replaced found fun scheme hscheme => ?_
    cases hscheme
    exact h id s found
  | @configure id _ _ s _ found targetFound testFound =>
    refine h.replaced found fun scheme hscheme => ?_
    cases hscheme
    exact h id s found
  | @act id s action configuration found =>
    refine h.replaced found fun scheme hscheme => ?_
    cases hscheme
    exact Entries.nodup_keys_insert (h id s found) action configuration
  | suppress id | push id => exact h

/-- Saving leaves all objects as they are, and every other operation takes a step. -/
theorem actionsDistinct_perform (operation : Operation) (h : backend.ActionsDistinct) :
    (operation.perform backend).2.ActionsDistinct := by
  by_cases hsave : operation = .save
  · subst hsave
    have hobjects : (save backend).2.objects = backend.objects := (save_sameGraph backend).objects
    intro id scheme hscheme
    have hfound : (save backend).2.objects[id.index]? = some (.scheme scheme) := hscheme
    rw [hobjects] at hfound
    exact h id scheme hfound
  · rcases operation.sameOrStep hsave backend with hsame | hstep
    · rwa [hsame]
    · exact hstep.actionsDistinct h

theorem wellFormed_snapshot (h : backend.ActionsDistinct) : backend.snapshot.WellFormed := by
  intro saved hsaved
  obtain ⟨scheme, hscheme, rfl⟩ := List.mem_map.1 hsaved
  obtain ⟨id, -, hfound⟩ := List.mem_filterMap.1 hscheme
  rw [scheme?] at hfound
  split at hfound
  · rename_i hobject
    cases hfound
    exact h id scheme hobject
  · cases hfound

end Backend

/-! ## Files -/

/-- A backend with an output file saves its list in that file. -/
theorem Backend.read_of_save {backend after : Backend} {path : String}
    (houtput : backend.output = some path) (hname : Path.namesDirectory path = false)
    (h : save backend = (.ok (), after)) : after.disk.read path = some backend.snapshot.text := by
  rw [save_apply, houtput] at h
  rcases hwrite : writeFile path backend.snapshot.text backend with ⟨error | answer, written⟩
  · simp only [hwrite] at h
    cases h
  · simp only [hwrite] at h
    cases h
    have hread : written.disk.read path = some backend.snapshot.text :=
      read_of_writeFile hname hwrite
    exact hread

namespace SchemeList

/-- Reading the text of a list gives the list, no other list has this text, and the file that a backend
saves the list in holds the list. -/
theorem saved_list_read_back (list : SchemeList) (h : list.WellFormed) :
    ofText? list.text = some list ∧
      (∀ other : SchemeList, other.WellFormed → other.text = list.text → other = list) ∧
      ∀ (backend after : Backend) (path : String), backend.snapshot = list →
        backend.output = some path → Path.namesDirectory path = false →
        Backend.save backend = (.ok (), after) → load after.disk path = .ok list := by
  refine ⟨ofText?_text h, ?_, ?_⟩
  · intro other hother htext
    have hread : ofText? other.text = some other := ofText?_text hother
    rw [htext, ofText?_text h] at hread
    exact (Option.some.inj hread).symm
  · rintro backend after path rfl houtput hname hsave
    exact load_of_read h (Backend.read_of_save houtput hname hsave)

/-- Quotes, backslashes, control characters and empty texts, in a file of a new directory. -/
theorem unusual_list_read_back :
    let target (name : String) : NativeObject := .target
      { name, productType := "", sdkRoot := "", deploymentTarget := "", language := "",
        configurations := [], dependencies := [] }
    let scheme : NativeObject := .scheme
      { name := "", buildTargets := [⟨0⟩, ⟨1⟩], launchTarget := none, testTargets := []
        actions := [(.archive, "\u001f\\u"), (.test, "\"")] }
    let backend := { Backend.withOutput "out/schemes.json" Disk.empty with
      objects := [target "say \"\\\u0001\n", target "", scheme]
      suppressed := [⟨1⟩, ⟨0⟩], listed := [⟨2⟩] }
    let list := backend.snapshot
    let after := (Backend.save backend).2
    list.WellFormed ∧
      (backend.output = some "out/schemes.json" ∧ Path.namesDirectory "out/schemes.json" = false ∧
        Backend.save backend = (.ok (), after)) ∧
      ofText? list.text = some list ∧ load after.disk "out/schemes.json" = .ok list := by
  intro target scheme backend list after
  have hlist : list.WellFormed := by
    intro saved hsaved
    obtain rfl := List.mem_singleton.1 hsaved
    exact (by decide : [SchemeAction.archive, .test].Nodup)
  have hname : Path.namesDirectory "out/schemes.json" = false := by decide
  have hsave : Backend.save backend = (.ok (), after) := rfl
  obtain ⟨hread, -, hload⟩ := saved_list_read_back list hlist
  exact ⟨hlist, ⟨rfl, hname, hsave⟩, hread, hload backend after _ rfl rfl hname hsave⟩

end SchemeList

end ProjectCompiler
