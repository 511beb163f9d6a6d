import ProjectCompiler.Native.SchemeList

/-!
# Backend — the graph under construction

A backend holds the native objects made so far, the scheme list that a run works on, and the list it
saved last. Operations name objects by number and check that the object is there and of the right
kind before they change anything.

- `Backend.attach`: only some kinds of objects may hold others, and none holds itself;
- `Backend.snapshot`: the scheme list with numbers resolved to names, as it is saved;
- `Backend.save`: writes the snapshot to the output file, if there is one, and then counts it as
  saved.

An operation runs in `Edit`: it changes the backend it is given, also when it fails.
-/

namespace ProjectCompiler

structure Backend where
  /-- Objects in order of creation; an object's number is its place. -/
  objects : List NativeObject
  /-- Targets without an automatic scheme, in order, none twice. -/
  suppressed : List NativeId
  /-- User schemes in order. -/
  listed : List NativeId
  saved : Option SchemeList
  saveCount : Nat
  /-- Where the scheme list is written to. -/
  output : Option String
  disk : Disk
  deriving DecidableEq, Repr

/-- A change of the backend that gives an answer or fails. -/
abbrev Edit := ExceptT BackendError (StateM Backend)

namespace Backend

def empty : Backend :=
  { objects := [], suppressed := [], listed := [], saved := none, saveCount := 0, output := none,
    disk := Disk.empty }

/-- An empty backend that writes its scheme list to a file. -/
def withOutput (path : String) (disk : Disk) : Backend :=
  { empty with output := some path, disk }

/-! ## Look-up -/

def object? (backend : Backend) (id : NativeId) : Option NativeObject :=
  backend.objects[id.index]?

def firstProject? (backend : Backend) : Option NativeProject :=
  backend.objects.findSome? fun object =>
    match object with
    | .project p => some p
    | _ => none

def group? (backend : Backend) (id : NativeId) : Option NativeGroup :=
  match backend.object? id with
  | some (.group g) => some g
  | _ => none

def target? (backend : Backend) (id : NativeId) : Option NativeTarget :=
  match backend.object? id with
  | some (.target t) => some t
  | _ => none

def configuration? (backend : Backend) (id : NativeId) : Option NativeConfiguration :=
  match backend.object? id with
  | some (.configuration c) => some c
  | _ => none

def scheme? (backend : Backend) (id : NativeId) : Option NativeScheme :=
  match backend.object? id with
  | some (.scheme s) => some s
  | _ => none

/-- The first object of a kind and name. -/
def find? (backend : Backend) (kind : NativeKind) (name : String) : Option NativeId :=
  (backend.objects.findIdx? fun object => object.kind = kind ∧ object.name = name).map NativeId.mk

/-! ## The scheme list as it would be saved -/

/-- The name of an object; a number without an object stands for itself. -/
def nameOf (backend : Backend) (id : NativeId) : String :=
  match backend.object? id with
  | some object => object.name
  | none => id.text

def savedScheme (backend : Backend) (scheme : NativeScheme) : SavedScheme :=
  { name := scheme.name
    buildTargets := scheme.buildTargets.map backend.nameOf
    launchTarget := scheme.launchTarget.map backend.nameOf
    testTargets := scheme.testTargets.map backend.nameOf
    actions := scheme.actions }

def snapshot (backend : Backend) : SchemeList :=
  { suppressed := backend.suppressed.map backend.nameOf
    schemes := (backend.listed.filterMap backend.scheme?).map backend.savedScheme }

/-! ## Objects named by an operation -/

def requireObject (id : NativeId) : Edit NativeObject := do
  match (← get).object? id with
  | some object => return object
  | none => throw (.unknownObject id)

def requireProject (id : NativeId) : Edit NativeProject := do
  match ← requireObject id with
  | .project p => return p
  | other => throw (.wrongKind id other.kind .project)

def requireTarget (id : NativeId) : Edit NativeTarget := do
  match ← requireObject id with
  | .target t => return t
  | other => throw (.wrongKind id other.kind .target)

def requireConfiguration (id : NativeId) : Edit NativeConfiguration := do
  match ← requireObject id with
  | .configuration c => return c
  | other => throw (.wrongKind id other.kind .configuration)

def requireScheme (id : NativeId) : Edit NativeScheme := do
  match ← requireObject id with
  | .scheme s => return s
  | other => throw (.wrongKind id other.kind .scheme)

/-- Put an object in the place of another. -/
def store (id : NativeId) (object : NativeObject) : Edit Unit :=
  modify fun backend => { backend with objects := backend.objects.set id.index object }

/-- Append an object; its number is the next one. -/
def insert (object : NativeObject) : Edit NativeId := do
  let backend ← get
  set { backend with objects := backend.objects ++ [object] }
  return ⟨backend.objects.length⟩

/-! ## Operations on objects -/

def create (node : Node) : Edit NativeId := do
  match NativeObject.ofNode node with
  | .ok object => insert object
  | .error error => throw error

def createGroup (project : NativeId) (name : String) : Edit NativeId := do
  let _ ← requireProject project
  let group ← insert (.group { name })
  -- The project is looked up once more, so that the group joins it as it stands now.
  let p ← requireProject project
  store project (.project { p with groups := p.groups ++ [group] })
  return group

/-- Append a number unless it is there. -/
def appendNew (ids : List NativeId) (id : NativeId) : List NativeId :=
  if id ∈ ids then ids else ids ++ [id]

/-- The parent with the child in the list for its kind, none if the parent has no such list. -/
def attached? (parent : NativeObject) (child : NativeId) (kind : NativeKind) :
    Option NativeObject :=
  match parent, kind with
  | .project p, .group => some (.project { p with groups := appendNew p.groups child })
  | .project p, .target => some (.project { p with targets := appendNew p.targets child })
  | .project p, .configuration =>
      some (.project { p with configurations := appendNew p.configurations child })
  | .target t, .configuration =>
      some (.target { t with configurations := appendNew t.configurations child })
  | .target t, .target => some (.target { t with dependencies := appendNew t.dependencies child })
  | _, _ => none

def attach (parent child : NativeId) : Edit Unit := do
  let childObject ← requireObject child
  let parentObject ← requireObject parent
  let invalid := BackendError.invalidAttachment parentObject.kind childObject.kind
  if parent = child then throw invalid
  match attached? parentObject child childObject.kind with
  | some object => store parent object
  | none => throw invalid

def setBuildSettings (configuration : NativeId) (settings : Settings) : Edit Unit := do
  let c ← requireConfiguration configuration
  store configuration (.configuration { c with settings })

def setSchemeName (scheme : NativeId) (name : String) : Edit Unit := do
  let s ← requireScheme scheme
  store scheme (.scheme { s with name })

/-- Build and launch a target, and test it with a test bundle if one is given. -/
def configureScheme (scheme target : NativeId) (test : Option NativeId) : Edit Unit := do
  let _ ← requireTarget target
  if let some test := test then
    let _ ← requireTarget test
  let s ← requireScheme scheme
  store scheme (.scheme { s with
    buildTargets := target :: test.toList
    launchTarget := some target
    testTargets := test.toList })

def setAction (scheme : NativeId) (action : SchemeAction) (configuration : String) : Edit Unit := do
  let s ← requireScheme scheme
  store scheme (.scheme { s with actions := Entries.insert s.actions action configuration })

/-! ## Operations on the scheme list -/

def suppress (target : NativeId) : Edit Unit :=
  modify fun backend => { backend with suppressed := appendNew backend.suppressed target }

def push (scheme : NativeId) : Edit Unit :=
  modify fun backend => { backend with listed := backend.listed ++ [scheme] }

/-- The directory that a file is written into. -/
def outputDirectory (path : String) : String :=
  match Path.parent? path with
  | some directory => if directory = "" then "." else directory
  | none => "."

/-- Replace the file at a path as a whole, its directory made first. -/
def writeFile (path content : String) : Edit Unit := do
  let directory := outputDirectory path
  match (← get).disk.createDirectories directory with
  | none => throw (.inaccessible directory)
  | some disk =>
      modify fun backend => { backend with disk }
      match disk.replace path content with
      | none => throw (.inaccessible path)
      | some disk => modify fun backend => { backend with disk }

def save : Edit Unit := do
  let list := (← get).snapshot
  if let some path := (← get).output then
    writeFile path list.text
  -- Reached only if the file, if there is one, was written.
  modify fun backend => { backend with saved := some list, saveCount := backend.saveCount + 1 }

end Backend

/-! ## Operations as data -/

/-- Everything that can be asked of a backend. -/
inductive Operation
  | create (node : Node)
  | createGroup (project : NativeId) (name : String)
  | attach (parent child : NativeId)
  | setBuildSettings (configuration : NativeId) (settings : Settings)
  | setSchemeName (scheme : NativeId) (name : String)
  | configureScheme (scheme target : NativeId) (test : Option NativeId)
  | setAction (scheme : NativeId) (action : SchemeAction) (configuration : String)
  | suppress (target : NativeId)
  | push (scheme : NativeId)
  | save
  deriving DecidableEq, Repr

namespace Operation

/-- Creation answers with the new object's number. -/
abbrev Answer : Operation → Type
  | .create _ => NativeId
  | .createGroup .. => NativeId
  | _ => Unit

def perform : (operation : Operation) → Edit operation.Answer
  | .create node => Backend.create node
  | .createGroup project name => Backend.createGroup project name
  | .attach parent child => Backend.attach parent child
  | .setBuildSettings configuration settings => Backend.setBuildSettings configuration settings
  | .setSchemeName scheme name => Backend.setSchemeName scheme name
  | .configureScheme scheme target test => Backend.configureScheme scheme target test
  | .setAction scheme action configuration => Backend.setAction scheme action configuration
  | .suppress target => Backend.suppress target
  | .push scheme => Backend.push scheme
  | .save => Backend.save

/-- The number of the object that an operation made, if it makes one. -/
def made? : (operation : Operation) → operation.Answer → Option NativeId
  | .create _, id => some id
  | .createGroup .., id => some id
  | .attach .., _ | .setBuildSettings .., _ | .setSchemeName .., _ | .configureScheme .., _
  | .setAction .., _ | .suppress _, _ | .push _, _ | .save, _ => none

end Operation

end ProjectCompiler
