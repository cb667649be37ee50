import VersionGroups.Artifact.Key
import VersionGroups.Files.Replace

/-!
# Memos of artifacts

A memo knows which artifacts there are. One kind of memo is a table of sources; the other keeps each
source in a file of its own below a directory, and the file's presence is all it goes by. Recording
under a key that the table has replaces the source, while a file that is there stays as it is.
-/

namespace VersionGroups

/-- The operations of a memo whose content is of type `σ`. -/
structure Memo (σ : Type) where
  lookup : σ → ArtifactKey → Option ArtifactHandle
  record : σ → ArtifactKey → String → Except ErrorReport ArtifactHandle × σ

namespace Memo

/-- The memo in the first part of a state. -/
def onFirst {σ τ : Type} (memo : Memo σ) : Memo (σ × τ) where
  lookup state key := memo.lookup state.1 key
  record state key source :=
    let (result, content) := memo.record state.1 key source
    (result, (content, state.2))

/-- The memo in the second part of a state. -/
def onSecond {σ τ : Type} (memo : Memo τ) : Memo (σ × τ) where
  lookup state key := memo.lookup state.2 key
  record state key source :=
    let (result, content) := memo.record state.2 key source
    (result, (state.1, content))

end Memo

abbrev ArtifactTable := Table ArtifactKey String

namespace ArtifactTable

/-- The handle of an artifact in the table. -/
def handle (key : ArtifactKey) : ArtifactHandle := ⟨key, "memory:" ++ key.relativePath⟩

/-- The memo whose content is a table of sources. -/
def memo : Memo ArtifactTable where
  lookup table key := (table.get? key).map fun _ => handle key
  record table key source := (.ok (handle key), table.insert key source)

end ArtifactTable

/-- The artifacts below a directory. -/
structure ArtifactDirectory where
  path : String

namespace ArtifactDirectory

/-- The path of an artifact's file. -/
def pathOf (directory : ArtifactDirectory) (key : ArtifactKey) : String :=
  Path.join directory.path key.relativePath

/-- The handle of an artifact in the directory. -/
def handle (directory : ArtifactDirectory) (key : ArtifactKey) : ArtifactHandle :=
  ⟨key, directory.pathOf key⟩

/-- Writes an artifact's file if it is not there. -/
def store (directory : ArtifactDirectory) (tree : FileTree) (key : ArtifactKey) (source : String) :
    Except ErrorReport ArtifactHandle × FileTree :=
  if tree.isFile (directory.pathOf key) then (.ok (directory.handle key), tree)
  else
    match tree.replaceFile (directory.pathOf key) source with
    | (.ok _, tree) => (.ok (directory.handle key), tree)
    | (.error e, tree) => (.error e, tree)

/-- The memo whose content is the file tree. -/
def memo (directory : ArtifactDirectory) : Memo FileTree where
  lookup tree key :=
    if tree.isFile (directory.pathOf key) then some (directory.handle key) else none
  record := directory.store

end ArtifactDirectory

end VersionGroups
