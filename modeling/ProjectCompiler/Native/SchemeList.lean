import ProjectCompiler.Disk.Basic
import ProjectCompiler.Json.Reader
import ProjectCompiler.Json.Writer
import ProjectCompiler.Native.Object
import ProjectCompiler.Project.KindJson

/-!
# SchemeList — the saved list of user schemes

The list names the targets for which no scheme is made automatically, and the user schemes with the
names of their targets. It is saved as a JSON file.

- `SchemeList.text`: the file's text; `SchemeList.ofText?` reads it back;
- `SchemeList.display`: the list for people.
-/

namespace ProjectCompiler

structure SavedScheme where
  name : String
  buildTargets : List String
  launchTarget : Option String
  testTargets : List String
  /-- The configuration of each action, every action at most once. -/
  actions : List (SchemeAction × String)
  deriving DecidableEq, Repr

structure SchemeList where
  /-- Names of targets without an automatic scheme. -/
  suppressed : List String
  schemes : List SavedScheme
  deriving DecidableEq, Repr

/-! ## Writing -/

def textJson (text : String) : Json :=
  .str (some text)

def textsJson (texts : List String) : Json :=
  .array (texts.map textJson)

def SavedScheme.toJson (scheme : SavedScheme) : Json :=
  .object [
    ("name", textJson scheme.name),
    ("build_targets", textsJson scheme.buildTargets),
    ("launch_target", match scheme.launchTarget with
      | some name => textJson name
      | none => .null),
    ("test_targets", textsJson scheme.testTargets),
    ("actions", .object (scheme.actions.map fun action => (some action.1.tag, textJson action.2)))]

def SchemeList.toJson (list : SchemeList) : Json :=
  .object [
    ("suppressed", textsJson list.suppressed),
    ("schemes", .array (list.schemes.map SavedScheme.toJson))]

/-- The text of the file that holds the list. -/
def SchemeList.text (list : SchemeList) : String :=
  list.toJson.pretty

/-! ## Reading -/

/-- Actions from an object; a repeated action keeps its first place and its last configuration. -/
def SavedScheme.actionsOfJson? : Json → Option (List (SchemeAction × String))
  | .object members => do
      let pairs ← (← Json.named? members).mapM fun member => do
        let action ← (Tagged.ofTag? member.1 : Option SchemeAction)
        let configuration ← member.2.text?
        return (action, configuration)
      return Entries.ofPairs pairs
  | _ => none

def SavedScheme.launchOfJson? : Option Json → Option (Option String)
  | none => some none
  | some .null => some none
  | some json => json.text?.map some

/-- A scheme from its record; only the launch target may be left out. -/
def SavedScheme.ofJson? (json : Json) : Option SavedScheme := do
  match ← json.fields? ["name", "build_targets", "launch_target", "test_targets", "actions"] with
  | [some name, some buildTargets, launchTarget, some testTargets, some actions] =>
      return {
        name := ← name.text?
        buildTargets := ← buildTargets.texts?
        launchTarget := ← launchOfJson? launchTarget
        testTargets := ← testTargets.texts?
        actions := ← actionsOfJson? actions }
  | _ => none

def SchemeList.ofJson? (json : Json) : Option SchemeList := do
  match ← json.fields? ["suppressed", "schemes"] with
  | [some suppressed, some schemes] =>
      return {
        suppressed := ← suppressed.texts?
        schemes := ← (← schemes.items?).mapM SavedScheme.ofJson? }
  | _ => none

def SchemeList.ofText? (text : String) : Option SchemeList := do
  ofJson? (← Json.parse? text)

/-- The list that a file holds. -/
def SchemeList.load (disk : Disk) (path : String) : Except BackendError SchemeList :=
  match disk.read path with
  | none => .error (.inaccessible path)
  | some text =>
      match ofText? text with
      | some list => .ok list
      | none => .error .malformedList

/-! ## Showing -/

def SavedScheme.displayLines (scheme : SavedScheme) : List String :=
  [s!"scheme {scheme.name}", "  build: " ++ ", ".intercalate scheme.buildTargets] ++
    (match scheme.launchTarget with
      | some name => [s!"  launch: {name}"]
      | none => []) ++
    (if scheme.testTargets.isEmpty then [] else ["  test: " ++ ", ".intercalate scheme.testTargets]) ++
    ["  actions: " ++
      " ".intercalate (scheme.actions.map fun action => s!"{action.1.tag}={action.2}")]

/-- The list for people, one line per fact. -/
def SchemeList.display (list : SchemeList) : String :=
  let suppressed :=
    if list.suppressed.isEmpty then "(none)" else ", ".intercalate list.suppressed
  let lines := s!"suppressed: {suppressed}" :: list.schemes.flatMap SavedScheme.displayLines
  String.join (lines.map (· ++ "\n"))

end ProjectCompiler
