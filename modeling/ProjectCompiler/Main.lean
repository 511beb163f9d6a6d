import ProjectCompiler.CommandLine.Run

/-!
# Main — the program on a real file system

The manifest is read into a disk that holds nothing else; what the command changes on that disk is
carried out afterwards. A file is written beside its place and then moved there.
-/

namespace ProjectCompiler

namespace CommandLine

def entryOfBytes (bytes : ByteArray) : DiskEntry :=
  match String.fromUTF8? bytes with
  | some content => .text content
  | none => .binary

/-- The disk that a command line works on. -/
def loadDisk (arguments : List String) : IO Disk := do
  match manifestPath? arguments with
  | none => return Disk.empty
  | some path =>
      try
        return Disk.empty.putFile path (entryOfBytes (← IO.FS.readBinFile path))
      catch _ =>
        return Disk.empty

def carryOut (location : Location) (entry : DiskEntry) : IO Unit := do
  let path := Disk.pathTo location
  match entry with
  | .directory => IO.FS.createDirAll path
  | .text content =>
      IO.FS.writeFile (path ++ ".new") content
      IO.FS.rename (path ++ ".new") path
  | .binary => return

end CommandLine

end ProjectCompiler

open ProjectCompiler in
def main (arguments : List String) : IO UInt32 := do
  let disk ← CommandLine.loadDisk arguments
  let outcome := CommandLine.run arguments disk
  try
    for (location, entry) in CommandLine.changes disk outcome.disk do
      CommandLine.carryOut location entry
    IO.print outcome.output
    if let some complaint := outcome.complaint then
      IO.eprintln complaint
    return outcome.status.toUInt32
  catch error =>
    IO.eprintln (toString error)
    return 1
