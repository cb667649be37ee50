import VersionGroups.CommandLine.Execute

/-!
# The program

Reads the files that the arguments name into a tree, lets the command line respond to the arguments,
and then brings the changes of the tree back to disk. A changed file is written beside its place and
moved there.
-/

namespace VersionGroups

namespace Disk

/-- The entry of a directory with a name. -/
def entry (directory name : String) : IO.FS.DirEntry := ⟨directory, name⟩

/-- Puts what lies at a path, and all below it, into a tree. -/
partial def gather (tree : FileTree) (path : String) : IO FileTree := do
  let place := (entry "." path).path
  if ← place.isDir then
    let tree := (tree.makeDirectories path).2
    (← place.readDir).foldlM (fun tree e => gather tree (Path.join path e.fileName)) tree
  else if ← place.pathExists then
    let tree := (FileTree.makeParent path tree).2
    return (tree.write path (← IO.FS.readBinFile place)).2
  else return tree

/-- Puts the directories on the way to a path into a tree, as far as there are any. -/
partial def gatherAbove (tree : FileTree) (path : String) : IO FileTree := do
  match Path.parent? path with
  | none => return tree
  | some parent =>
      let tree ← gatherAbove tree parent
      let place := (entry "." parent).path
      if ← place.isDir then return (tree.makeDirectories parent).2
      else if ← place.pathExists then
        return (tree.write parent (← IO.FS.readBinFile place)).2
      else return tree

/-- The paths that a command looks at. -/
def paths : CommandLine.Request → List String
  | .run inputs manifest artifacts _ _ =>
      [inputs.dataDirectory, inputs.slots, manifest, artifacts]
  | .check inputs manifest => [inputs.dataDirectory, inputs.slots, manifest]
  | .untracked inputs _ => [inputs.dataDirectory, inputs.slots]

/-- The tree of what a command looks at. -/
def read (request : CommandLine.Request) : IO FileTree :=
  (paths request).foldlM
    (fun tree path => do gather (← gatherAbove tree path) path) FileTree.empty

/-- Writes the entries of a tree that differ from those of an earlier one. -/
def write (before after : FileTree) : IO Unit :=
  for (location, content) in after.entries.entries do
    let path := FileTree.pathOf location
    match content with
    | .directory => IO.FS.createDirAll path
    | .file bytes =>
        unless before.holds location bytes do
          IO.FS.writeBinFile (FileTree.neighbour path) bytes
          IO.FS.rename (FileTree.neighbour path) path

end Disk

/-- The environment that matters to a command. -/
def environment : IO (List (String × String)) := do
  match ← IO.getEnv GeneratorCommand.credentialVariable with
  | some value => return [(GeneratorCommand.credentialVariable, value)]
  | none => return []

end VersionGroups

open VersionGroups in
/-- Responds to the arguments of the program. -/
def main (arguments : List String) : IO UInt32 := do
  let before ←
    match CommandLine.parse arguments with
    | .ok (_, request) => Disk.read request
    | .error _ => pure FileTree.empty
  let result := CommandLine.respond (← environment) arguments before
  Disk.write before result.tree
  (← IO.getStdout).putStr result.output
  (← IO.getStderr).putStr result.errors
  return UInt32.ofNat result.exitCode
