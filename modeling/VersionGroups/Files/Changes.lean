import VersionGroups.Files.Tree

/-!
# Changes of single files and directories

Each change looks at one location, or at two, and leaves the tree as it was if it cannot be made. A
directory is removed only if it is empty, and moved with all that is in it.
-/

namespace VersionGroups

namespace FileTree

/-- Makes a directory where nothing is; the directory around it must be there. -/
def makeDirectory (path : String) : FileChange Unit := fun tree =>
  match tree.locate path with
  | .error e => (.error e, tree)
  | .ok location =>
      match tree.entry? location with
      | some _ => (.error .present, tree)
      | none => (.ok (), tree.put location .directory)

/-- Adds bytes to the end of a file; a location that is no file stays as it is. -/
def append (tree : FileTree) (location : Location) (bytes : ByteArray) : FileTree :=
  match tree.entry? location with
  | some (.file found) => tree.put location (.file (found ++ bytes))
  | _ => tree

def removeFile (path : String) : FileChange Unit := fun tree =>
  match tree.locate path with
  | .error e => (.error e, tree)
  | .ok location =>
      match tree.entry? location with
      | some (.file _) => (.ok (), tree.drop (· == location))
      | some .directory => (.error .isDirectory, tree)
      | none => (.error .missing, tree)

/-- Whether nothing lies in a directory. -/
def isEmptyAt (tree : FileTree) (location : Location) : Bool :=
  !tree.entries.keys.any fun other => other != location && isWithin location other

/-- Removes a directory in which nothing lies. -/
def removeDirectory (path : String) : FileChange Unit := fun tree =>
  match tree.locate path with
  | .error e => (.error e, tree)
  | .ok location =>
      match tree.entry? location with
      | some .directory =>
          if location = [] ∨ location = root ∨ !tree.isEmptyAt location then
            (.error .notEmpty, tree)
          else (.ok (), tree.drop (· == location))
      | some (.file _) => (.error .notDirectory, tree)
      | none => (.error .missing, tree)

/-- The tree with all that lies at or inside a location moved to another one. -/
def transfer (tree : FileTree) (old new : Location) : FileTree :=
  let moved := tree.entries.entries.filter fun e => isWithin old e.1
  moved.foldl (fun tree e => tree.put (new ++ e.1.drop old.length) e.2) (tree.drop (isWithin old))

/-- Moves a file or a directory to another path. A file may take the place of a file, and a
directory that of an empty directory. -/
def rename (source target : String) : FileChange Unit := fun tree =>
  match tree.locate source, tree.locate target with
  | .ok old, .ok new =>
      match tree.entry? old, tree.entry? new with
      | none, _ => (.error .missing, tree)
      | some (.file _), some .directory => (.error .isDirectory, tree)
      | some .directory, some (.file _) => (.error .notDirectory, tree)
      | some .directory, some .directory =>
          if old = new then (.ok (), tree)
          else if tree.isEmptyAt new then (.ok (), (tree.drop (· == new)).transfer old new)
          else (.error .notEmpty, tree)
      | some _, _ => (.ok (), if old = new then tree else tree.transfer old new)
  | .error e, _ => (.error e, tree)
  | .ok _, .error e => (.error e, tree)

end FileTree

end VersionGroups
