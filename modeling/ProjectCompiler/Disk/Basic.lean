import ProjectCompiler.Disk.Path
import ProjectCompiler.Entries

/-!
# Disk — a tree of files and directories

The program reads one manifest and replaces one file. Both happen on a value that holds the part of
a file system they can see; the outermost layer loads it and carries changes out.

- `Disk.read`: the text of a file;
- `Disk.createDirectories`: all missing directories of a path, or nothing at all;
- `Disk.replace`: a file's whole text at once, so that a reader sees the old or the new one.
-/

namespace ProjectCompiler

inductive DiskEntry
  | directory
  | text (content : String)
  /-- A file whose bytes are no text. -/
  | binary
  deriving DecidableEq, Repr, Inhabited

/-- Parts of a path from the working directory, or from the root if the first part is `/`. -/
abbrev Location := List String

structure Disk where
  entries : List (Location × DiskEntry)
  deriving DecidableEq, Repr, Inhabited

namespace Disk

def empty : Disk :=
  ⟨[]⟩

/-- The working directory, the root and everything above the working directory are there in every
disk. -/
def alwaysThere (location : Location) : Bool :=
  location = ["/"] ∨ location.all (· = "..")

def entry? (disk : Disk) (location : Location) : Option DiskEntry :=
  if alwaysThere location then some .directory else Entries.find? disk.entries location

def isDirectory (disk : Disk) (location : Location) : Bool :=
  disk.entry? location = some .directory

def put (disk : Disk) (location : Location) (entry : DiskEntry) : Disk :=
  ⟨Entries.insert disk.entries location entry⟩

/-- A path to a location. -/
def pathTo : Location → String
  | [] => "."
  | "/" :: parts => "/" ++ "/".intercalate parts
  | parts => "/".intercalate parts

/-- One step up. -/
def above (location : Location) : Location :=
  if location = ["/"] then location
  -- Above the working directory one can go up without end.
  else if location.all (· = "..") then location ++ [".."]
  else location.dropLast

/-- A location below the working directory. -/
def isInside (location : Location) : Bool :=
  location.head? ≠ some "/" ∧ location.head? ≠ some ".."

def start (path : String) : Location :=
  if Path.isAbsolute path then ["/"] else []

/-- Walk along the parts of a path; one step up leaves only a directory that is there. -/
def walk (disk : Disk) : Location → List String → Option Location
  | location, [] => some location
  | location, part :: rest =>
      if part = ".." then
        if disk.isDirectory location then disk.walk (above location) rest else none
      else disk.walk (location ++ [part]) rest

/-- Where a path leads, whether or not there is anything. -/
def locate? (disk : Disk) (path : String) : Option Location :=
  if Path.fits path then disk.walk (start path) (Path.parts path) else none

/-- What a path names. -/
def lookup? (disk : Disk) (path : String) : Option DiskEntry := do
  let entry ← disk.entry? (← disk.locate? path)
  if Path.namesDirectory path ∧ entry ≠ .directory then none else some entry

/-- The text of a file, none if there is no such file or its bytes are no text. -/
def read (disk : Disk) (path : String) : Option String :=
  match disk.lookup? path with
  | some (.text content) => some content
  | _ => none

/-- Create what is missing on the way along the parts, none if a file stands in the way. -/
def createAlong (disk : Disk) : Location → List String → Option Disk
  | _, [] => some disk
  | location, part :: rest =>
      if part = ".." then disk.createAlong (above location) rest
      else
        let next := location ++ [part]
        match disk.entry? next with
        | some .directory => disk.createAlong next rest
        -- A file cannot hold anything.
        | some _ => none
        | none => (disk.put next .directory).createAlong next rest

/-- Create a directory and those above it, none if a file stands in the way or the path is too
long. -/
def createDirectories (disk : Disk) (path : String) : Option Disk :=
  if Path.fits path then disk.createAlong (start path) (Path.parts path) else none

/-- Give a file a new text, none if its directory is missing, a directory stands at its place or the
path can only name one. -/
def replace (disk : Disk) (path content : String) : Option Disk := do
  let location ← disk.locate? path
  if disk.isDirectory (above location) ∧ ¬disk.isDirectory location ∧ ¬Path.namesDirectory path then
    return disk.put location (.text content)
  else
    none

/-- Add a file with the directories above it. -/
def putFile (disk : Disk) (path : String) (entry : DiskEntry) : Disk :=
  let disk := (disk.createDirectories ((Path.parent? path).getD "")).getD disk
  match disk.locate? path with
  | some location => disk.put location entry
  | none => disk

/-- The number of entries of a directory, none if there is no such directory. -/
def count? (disk : Disk) (path : String) : Option Nat :=
  match disk.locate? path with
  | some location =>
      if disk.isDirectory location then
        some (disk.entries.countP fun entry => entry.1 ≠ location ∧ above entry.1 = location)
      else none
  | none => none

end Disk

end ProjectCompiler
