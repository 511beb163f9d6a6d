/-!
# Path — names of places on a disk

A path is a text with `/` between its segments. Empty segments and `.` say nothing, the others are
the parts of the path. Messages show a path as it was given, so joining and cutting work on the text.
-/

namespace ProjectCompiler

namespace Path

/-- What stands between slashes. -/
def segments (path : String) : List String :=
  (path.toList.splitOn '/').map String.ofList

/-- A segment that says nothing. -/
def isSilent (segment : String) : Bool :=
  segment = "" ∨ segment = "."

/-- The segments that say something. -/
def parts (path : String) : List String :=
  (segments path).filter fun segment => !isSilent segment

def isAbsolute (path : String) : Bool :=
  path.toList.head? = some '/'

/-- How many bytes a part may have. -/
def maximalPartSize : Nat :=
  255

/-- How many bytes a path may have. -/
def maximalSize : Nat :=
  4095

/-- A path that a disk can take; the others lead nowhere. -/
def fits (path : String) : Bool :=
  path.utf8ByteSize ≤ maximalSize ∧
    (parts path).all fun part => part.utf8ByteSize ≤ maximalPartSize

/-- A path that can only name a directory: it ends in a slash or in the part `.`. -/
def namesDirectory (path : String) : Bool :=
  match (segments path).getLast? with
  | some last => isSilent last
  | none => true

/-- The path of a name seen from a directory; an absolute name is seen alike from everywhere. -/
def join (directory name : String) : String :=
  if isAbsolute name then name
  else if directory = "" ∨ directory.endsWith "/" then directory ++ name
  else directory ++ "/" ++ name

/-- The segments above the last part, without silent ones at their end; none if no segment is a
part. -/
def above? (segments : List String) : Option (List String) :=
  match segments.reverse.dropWhile isSilent with
  | [] => none
  | _ :: before => some (before.dropWhile isSilent).reverse

/-- The path without its last part, none for a path that has no part. At its start the segment `.`
does count: it stays in front of other parts, and alone it leaves nothing. -/
def parent? (path : String) : Option String :=
  match segments path with
  | "" :: body => (above? body).map fun kept => "/" ++ "/".intercalate kept
  | "." :: body =>
      match above? body with
      | none => some ""
      | some kept => some ("/".intercalate ("." :: kept))
  | segments => (above? segments).map fun kept => "/".intercalate kept

end Path

end ProjectCompiler
