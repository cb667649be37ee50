import VersionGroups.Files.Path
import VersionGroups.Table

/-!
# File trees

A file tree says what its locations hold: a directory, or a file with its bytes. A location is the
list of names that lead to it from the working directory. Paths are resolved name by name, and each
name is looked up in a directory; a path that ends with a slash or with a name that stays in place
leads to a directory. What lies above the working directory is a single directory, the root, which
paths that begin with a slash start from.

A change gives back the tree it leaves behind even if it fails, because its first steps may have
been taken by then.
-/

namespace VersionGroups

/-- The names that lead to a place. -/
abbrev Location := List String

/-- What a location holds. -/
inductive FileEntry where
  | directory
  | file (bytes : ByteArray)

/-- What the locations below the working directory and the root hold. -/
structure FileTree where
  entries : Table Location FileEntry

/-- Why a file or directory cannot be used. -/
inductive AccessError where
  | missing
  | notDirectory
  | isDirectory
  | badName
  | notText
  | present
  | notEmpty
  | denied
  deriving DecidableEq, Repr

/-- Why, in words. -/
def AccessError.message : AccessError → String
  | .missing => "No such file or directory"
  | .notDirectory => "Not a directory"
  | .isDirectory => "Is a directory"
  | .badName => "File name too long"
  | .notText => "stream did not contain valid UTF-8"
  | .present => "File exists"
  | .notEmpty => "Directory not empty"
  | .denied => "Permission denied"

/-- A change of a tree, and whether it succeeded. -/
abbrev FileChange (α : Type) := FileTree → Except AccessError α × FileTree

namespace FileTree

/-- The tree without files. -/
def empty : FileTree := ⟨Table.empty⟩

instance : Inhabited FileTree := ⟨empty⟩

/-- Where paths that begin with a slash start. -/
def root : Location := ["/"]

/-- The location above another one. -/
def above (location : Location) : Location :=
  if location = [] ∨ location = root then root else location.dropLast

/-- What a location holds. The working directory and the root are always there. -/
def entry? (tree : FileTree) (location : Location) : Option FileEntry :=
  if location = [] ∨ location = root then some .directory else tree.entries.get? location

/-- The path that leads to a location. -/
def pathOf (location : Location) : String := location.foldl Path.join ""

/-- Whether a location is a file of the given bytes. -/
def holds (tree : FileTree) (location : Location) (bytes : ByteArray) : Bool :=
  match tree.entries.get? location with
  | some (.file found) => found.toList == bytes.toList
  | _ => false

/-- The greatest length of a name in bytes. -/
def longestName : Nat := 255

/-- The greatest length of a path in bytes. -/
def longestPath : Nat := 4095

/-- The location that a name leads to from another location. -/
def step (tree : FileTree) (location : Location) (name : String) : Except AccessError Location :=
  match tree.entry? location with
  | none => .error .missing
  | some (.file _) => .error .notDirectory
  | some .directory =>
      if name = "." then .ok location
      else if name = ".." then .ok (above location)
      else if longestName < name.utf8ByteSize then .error .badName
      else .ok (location ++ [name])

/-- Whether a path can be looked up at all. -/
def isUsable (path : String) : Bool :=
  path.utf8ByteSize ≤ longestPath && !path.toList.contains '\x00'

/-- Where a path starts. -/
def origin (path : String) : Location := if Path.isAbsolute path then root else []

/-- The location that a path leads to, which may hold nothing. -/
def locate (tree : FileTree) (path : String) : Except AccessError Location := do
  if path = "" then throw .missing
  if !isUsable path then throw .badName
  let location ← (Path.pieces path).foldlM tree.step (origin path)
  if Path.endsWithSlash path then tree.step location "." else return location

/-- What a path leads to. -/
def find (tree : FileTree) (path : String) : Except AccessError FileEntry := do
  match tree.entry? (← tree.locate path) with
  | some entry => return entry
  | none => throw .missing

def isFile (tree : FileTree) (path : String) : Bool :=
  match tree.find path with
  | .ok (.file _) => true
  | _ => false

def isDirectory (tree : FileTree) (path : String) : Bool :=
  match tree.find path with
  | .ok .directory => true
  | _ => false

/-- The bytes of the file that a path leads to. -/
def readBytes (tree : FileTree) (path : String) : Except AccessError ByteArray := do
  match ← tree.find path with
  | .file bytes => return bytes
  | .directory => throw .isDirectory

/-- The text of the file that a path leads to. -/
def readText (tree : FileTree) (path : String) : Except AccessError String := do
  match String.fromUTF8? (← tree.readBytes path) with
  | some text => return text
  | none => throw .notText

/-- The name of a location in a directory, if it is there. -/
def nameWithin? (directory location : Location) : Option String :=
  match location.getLast? with
  | some name => if location.dropLast = directory ∧ location ≠ root then some name else none
  | none => none

/-- The names in a directory, in ascending order. -/
def names (tree : FileTree) (path : String) : Except AccessError (List String) := do
  let location ← tree.locate path
  match tree.entry? location with
  | some .directory => return tree.entries.keys.filterMap (nameWithin? location)
  | some (.file _) => throw .notDirectory
  | none => throw .missing

/-- Whether a location is another one or lies inside it. -/
def isWithin (directory location : Location) : Bool :=
  directory.isPrefixOf location && (location.head? == some "/") == (directory.head? == some "/")

/-- The tree with an entry at a location. -/
def put (tree : FileTree) (location : Location) (entry : FileEntry) : FileTree :=
  ⟨tree.entries.insert location entry⟩

/-- The tree without the locations that a test accepts. -/
def drop (tree : FileTree) (test : Location → Bool) : FileTree :=
  ⟨tree.entries.filter fun location _ => !test location⟩

/-- Makes the directories of some names, one inside the other, where they are not there yet. -/
def makeDirectoriesAt (location : Location) : List String → FileChange Unit
  | [], tree => (.ok (), tree)
  | name :: rest, tree =>
      match tree.step location name with
      | .error e => (.error e, tree)
      | .ok next =>
          match tree.entry? next with
          | some .directory => makeDirectoriesAt next rest tree
          | some (.file _) => (.error .notDirectory, tree)
          | none => makeDirectoriesAt next rest (tree.put next .directory)

/-- Makes the directory of a path and those on the way to it. -/
def makeDirectories (path : String) : FileChange Unit := fun tree =>
  if isUsable path then makeDirectoriesAt (origin path) (Path.pieces path) tree
  else (.error .badName, tree)

/-- Writes a file, over the one that was there; its directory must be there. -/
def write (path : String) (bytes : ByteArray) : FileChange Unit := fun tree =>
  match tree.locate path with
  | .error e => (.error e, tree)
  | .ok location =>
      match tree.entry? location with
      | some .directory => (.error .isDirectory, tree)
      | _ => (.ok (), tree.put location (.file bytes))

/-- Moves a file to another path, over the file that was there. -/
def move (source target : String) : FileChange Unit := fun tree =>
  match tree.locate source, tree.locate target with
  | .ok old, .ok new =>
      match tree.entry? old, tree.entry? new with
      | some (.file _), some .directory => (.error .isDirectory, tree)
      | some (.file bytes), _ => (.ok (), (tree.drop (· == old)).put new (.file bytes))
      | some .directory, _ => (.error .isDirectory, tree)
      | none, _ => (.error .missing, tree)
  | .error e, _ => (.error e, tree)
  | .ok _, .error e => (.error e, tree)

/-- Removes a file, or a directory with all that is in it. -/
def remove (path : String) : FileChange Unit := fun tree =>
  match tree.locate path with
  | .error e => (.error e, tree)
  | .ok location =>
      match tree.entry? location with
      | some _ => (.ok (), tree.drop (isWithin location))
      | none => (.error .missing, tree)

/-- The files at or below a path, each with its path and bytes. -/
def filesUnder (tree : FileTree) (path : String) : List (String × ByteArray) :=
  match tree.locate path with
  | .error _ => []
  | .ok location =>
      tree.entries.entries.filterMap fun e =>
        match e.2 with
        | .directory => none
        | .file bytes =>
            if isWithin location e.1 then
              some ((e.1.drop location.length).foldl Path.join path, bytes)
            else none

theorem readText_of_find {tree : FileTree} {path text : String}
    (h : tree.find path = .ok (.file text.toUTF8)) : tree.readText path = .ok text := by
  have valid : String.fromUTF8? text.toByteArray = some text := dif_pos text.isValidUTF8
  simp [readText, readBytes, h, valid, bind, Except.bind, pure, Except.pure]

end FileTree

end VersionGroups
