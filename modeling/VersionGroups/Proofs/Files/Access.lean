import VersionGroups.Files.Access
import VersionGroups.Proofs.Files.Soundness

/-!
# What listing a directory says

A directory lists pieces of paths, each of them once. The order in which it lists them, and the
entries that fail between them, are all that may differ when it is listed again.
-/
namespace VersionGroups

namespace FileAccess
variable {files files' : FileAccess} {path name : String} {names : List String}

structure IsProper (files : FileAccess) : Prop where
  piece : ∀ {path names name}, files.names path = .ok names → name ∈ names → Path.IsPiece name
  nodup : ∀ {path names}, files.names path = .ok names → names.Nodup

theorem IsProper.of_names (h : files.IsProper) (hnames : files'.names = files.names) :
    files'.IsProper where
  piece hlisted := h.piece (hnames ▸ hlisted)
  nodup hlisted := h.nodup (hnames ▸ hlisted)

/-- A file system with the same files that lists a directory in another way. -/
structure Relists (files files' : FileAccess) (path : String) : Prop where
  kind : files'.kind = files.kind
  readText : files'.readText = files.readText
  names : ∃ names names', files.names path = .ok names ∧ files'.names path = .ok names' ∧
    names'.Perm names

theorem Relists.isFile (h : files.Relists files' path) : files'.isFile = files.isFile := by
  funext other
  rw [FileAccess.isFile, FileAccess.isFile, h.kind]

theorem Relists.isDirectory (h : files.Relists files' path) :
    files'.isDirectory = files.isDirectory := by
  funext other
  rw [FileAccess.isDirectory, FileAccess.isDirectory, h.kind]

end FileAccess

theorem FileTree.IsSound.isProper {tree : FileTree} (h : tree.IsSound) : tree.access.IsProper where
  piece hnames hname := by
    rw [names_access] at hnames
    obtain ⟨hroot, hthere⟩ := (mem_names hnames).mp hname
    exact (h _ _ hroot hthere).1.toIsPiece
  nodup hnames := by
    rw [names_access] at hnames
    exact names_nodup hnames

end VersionGroups
