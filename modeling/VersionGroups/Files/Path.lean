/-!
# Paths

A path is a text whose components stand between slashes. Joining puts one slash between two paths; a
second path that begins with a slash replaces the first.
-/

namespace VersionGroups

namespace Path

/-- Whether a path begins at the root. -/
def isAbsolute (path : String) : Bool := path.toList.head? == some '/'

/-- Whether a path ends with a slash. -/
def endsWithSlash (path : String) : Bool := path.toList.getLast? == some '/'

/-- A path continued by another. -/
def join (base next : String) : String :=
  if isAbsolute next then next
  else if base = "" || endsWithSlash base then base ++ next
  else base ++ "/" ++ next

/-- The pieces between slashes that are not empty, as they are written. -/
def pieces (path : String) : List String :=
  ((path.toList.splitOnP (· == '/')).map String.ofList).filter (· != "")

/-- The components of a path: its pieces without those that stay in place, save a first one. -/
def components (path : String) : List String :=
  match pieces path with
  | [] => []
  | first :: rest =>
      if first = "." ∧ isAbsolute path then rest.filter (· != ".")
      else first :: rest.filter (· != ".")

/-- The last component, unless it stays in place or goes up. -/
def fileName? (path : String) : Option String :=
  match (components path).getLast? with
  | some name => if name = "." ∨ name = ".." then none else some name
  | none => none

def ofComponents (absolute : Bool) (components : List String) : String :=
  (if absolute then "/" else "") ++ String.intercalate "/" components

/-- The path without its last component; the root and the empty path have none. -/
def parent? (path : String) : Option String :=
  match components path with
  | [] => none
  | cs => some (ofComponents (isAbsolute path) cs.dropLast)

/-- The path with another last component, or with one more if the last one names no file. -/
def withFileName (path name : String) : String :=
  match fileName? path with
  | some _ => join ((parent? path).getD "") name
  | none => join path name

/-- What follows the last point of the file name, unless that point is its first character. -/
def extension? (path : String) : Option String := do
  let name ← fileName? path
  let cs := name.toList.reverse
  let ext := cs.takeWhile (· != '.')
  match cs.drop ext.length with
  | [] => none
  | [_] => none
  | _ => some (String.ofList ext.reverse)

end Path

end VersionGroups
