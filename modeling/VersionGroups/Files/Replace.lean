import VersionGroups.ErrorReport
import VersionGroups.Files.Tree

/-!
# Replacing files

A file is replaced as a whole: the new text goes into a neighbouring file, which is then moved over
the target. A failure before the move leaves the target as it was.
-/

namespace VersionGroups

namespace FileTree

/-- The path of the neighbour that holds the new text. -/
def neighbour (path : String) : String :=
  Path.withFileName path ((Path.fileName? path).getD "" ++ ".tmp")

/-- One step of an operation, with its failure reported under the operation's name. -/
def reported {α : Type} (operation : String) (change : FileChange α) (tree : FileTree) :
    Except ErrorReport α × FileTree :=
  match change tree with
  | (.ok a, tree) => (.ok a, tree)
  | (.error _, tree) => (.error (.ofAccess operation), tree)

/-- Makes the directories that lead to a file. -/
def makeParent (path : String) : FileChange Unit :=
  match Path.parent? path with
  | some parent => makeDirectories parent
  | none => fun tree => (.ok (), tree)

/-- Replaces the text of a file, making its directories where they are missing. -/
def replaceFile (tree : FileTree) (path text : String) : Except ErrorReport Unit × FileTree :=
  match reported "create_parent_dir" (makeParent path) tree with
  | (.error e, tree) => (.error e, tree)
  | (.ok _, tree) =>
      match reported "write_temp" (write (neighbour path) text.toUTF8) tree with
      | (.error e, tree) => (.error e, tree)
      | (.ok _, tree) => reported "rename_temp" (move (neighbour path) path) tree

end FileTree

end VersionGroups
