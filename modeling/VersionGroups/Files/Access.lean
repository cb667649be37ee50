import VersionGroups.Files.Tree

/-!
# Looking at files

What can be asked of a file system: what a directory lists, what a path leads to, and which text a
file holds. Each question can fail on its own, and so can each entry of a directory. A file can be
there and not be readable, and what a path leads to may be unknown although something is there.
-/

namespace VersionGroups

/-- What a path leads to. -/
inductive FileKind where
  | directory
  | file
  | other
  deriving DecidableEq, Repr

/-- The answers of a file system. -/
structure FileAccess where
  list : String → Except AccessError (List (Except AccessError String))
  kind : String → Except AccessError FileKind
  readText : String → Except AccessError String

namespace FileAccess

/-- The names that a directory lists. An entry that fails has none. -/
def names (files : FileAccess) (path : String) : Except AccessError (List String) :=
  (files.list path).map fun entries => entries.filterMap Except.toOption

/-- Whether a path leads to a file, as far as that can be known. -/
def isFile (files : FileAccess) (path : String) : Bool :=
  match files.kind path with
  | .ok .file => true
  | _ => false

/-- Whether a path leads to a directory, as far as that can be known. -/
def isDirectory (files : FileAccess) (path : String) : Bool :=
  match files.kind path with
  | .ok .directory => true
  | _ => false

end FileAccess

def FileEntry.kind : FileEntry → FileKind
  | .directory => .directory
  | .file _ => .file

namespace FileTree

/-- A tree answers for all that it holds. -/
def access (tree : FileTree) : FileAccess where
  list path := (tree.names path).map fun names => names.map .ok
  kind path := (tree.find path).map FileEntry.kind
  readText := tree.readText

instance : Coe FileTree FileAccess := ⟨access⟩

@[simp] theorem readText_access (tree : FileTree) (path : String) :
    tree.access.readText path = tree.readText path := rfl

@[simp] theorem isFile_access (tree : FileTree) (path : String) :
    tree.access.isFile path = tree.isFile path := by
  simp only [FileAccess.isFile, access, isFile]
  rcases tree.find path with e | ⟨_ | bytes⟩ <;> rfl

@[simp] theorem isDirectory_access (tree : FileTree) (path : String) :
    tree.access.isDirectory path = tree.isDirectory path := by
  simp only [FileAccess.isDirectory, access, isDirectory]
  rcases tree.find path with e | ⟨_ | bytes⟩ <;> rfl

@[simp] theorem names_access (tree : FileTree) (path : String) :
    tree.access.names path = tree.names path := by
  have hlisted (names : List String) :
      (names.map (Except.ok (ε := AccessError))).filterMap Except.toOption = names := by
    induction names with
    | nil => rfl
    | cons name rest ih => simp [Except.toOption, ih]
  simp only [FileAccess.names, access]
  cases tree.names path with
  | error e => rfl
  | ok names => exact congrArg Except.ok (hlisted names)

end FileTree

end VersionGroups
