import VersionGroups.Proofs.Artifact.Layout
import VersionGroups.Proofs.Files.Replacement

/-!
# A directory of artifacts as a table

A directory of artifacts reflects a table if the files in it are those of the table's artifacts,
with the sources as their text. Looking an artifact up comes to the same in both then, and storing a
missing artifact in both keeps them alike: the file gets a place of its own, and nothing is left of
the neighbour through which it was written.
-/
namespace VersionGroups

namespace ArtifactDirectory
variable {directory : ArtifactDirectory} {key key' : ArtifactKey} {tree tree' : FileTree}
  {table : ArtifactTable} {source : String}

theorem pieces_pathOf (directory : ArtifactDirectory) (h : key.slot.IsNamed) :
    Path.pieces (directory.pathOf key) =
      (Path.pieces directory.path ++ key.folders) ++ [ArtifactKey.versionFile key.version] := by
  rw [pathOf, Path.pieces_join (ArtifactKey.isAbsolute_relativePath h),
    ArtifactKey.pieces_relativePath h, key.segments_eq, List.append_assoc]

theorem relativePath_eq (key : ArtifactKey) : key.relativePath =
    Path.join (key.folders.foldl Path.join "") (ArtifactKey.versionFile key.version) := by
  rw [ArtifactKey.relativePath, key.segments_eq, List.foldl_append]
  rfl

/-- Whatever the segments of an artifact are, its path ends with the file of its version. -/
theorem exists_pieces_pathOf (directory : ArtifactDirectory) (key : ArtifactKey) :
    ∃ front, Path.pieces (directory.pathOf key) =
      front ++ [ArtifactKey.versionFile key.version] := by
  have hname := ArtifactKey.isName_versionFile key.version
  have hrelative : Path.pieces key.relativePath =
      Path.pieces (key.folders.foldl Path.join "") ++ [ArtifactKey.versionFile key.version] := by
    rw [relativePath_eq, Path.pieces_join hname.isAbsolute_eq, hname.pieces_eq]
  rw [pathOf]
  by_cases habsolute : Path.isAbsolute key.relativePath = true
  · rw [Path.join, if_pos habsolute]
    exact ⟨_, hrelative⟩
  · rw [Path.pieces_join (eq_false_of_ne_true habsolute), hrelative, ← List.append_assoc]
    exact ⟨_, rfl⟩

theorem endsWithSlash_pathOf (directory : ArtifactDirectory) (key : ArtifactKey) :
    Path.endsWithSlash (directory.pathOf key) = false := by
  have hversion := ArtifactKey.isName_versionFile key.version
  have hend : Path.endsWithSlash key.relativePath = false := by
    rw [relativePath_eq, Path.endsWithSlash_join hversion.filled]
    exact hversion.endsWithSlash_eq
  have hfilled : key.relativePath ≠ "" := by
    rw [relativePath_eq, Path.join, hversion.isAbsolute_eq, if_neg Bool.false_ne_true]
    split <;> simp [hversion.filled]
  rw [pathOf, Path.endsWithSlash_join hfilled, hend]

theorem fileName?_pathOf (directory : ArtifactDirectory) (key : ArtifactKey) :
    Path.fileName? (directory.pathOf key) = some (ArtifactKey.versionFile key.version) := by
  obtain ⟨front, hpieces⟩ := directory.exists_pieces_pathOf key
  exact Path.fileName?_of_pieces hpieces (ArtifactKey.isName_versionFile _)

theorem exists_parent_pathOf (directory : ArtifactDirectory) (h : key.slot.IsNamed) :
    ∃ parent, Path.parent? (directory.pathOf key) = some parent ∧
      Path.location parent = Path.location directory.path ++ key.folders ∧
      ∀ piece ∈ Path.pieces parent, piece ∈ Path.pieces (directory.pathOf key) := by
  obtain ⟨-, parent, hparent, -, hlocation, hpieces⟩ :=
    Path.parent?_of_fileName (directory.fileName?_pathOf key)
  rw [directory.location_pathOf h, key.segments_eq, ← List.append_assoc] at hlocation
  exact ⟨parent, hparent, (List.append_inj' hlocation rfl).1.symm, hpieces⟩

theorem location_neighbour_pathOf (h : key.slot.IsNamed) :
    Path.location (FileTree.neighbour (directory.pathOf key)) =
      Path.location directory.path ++
        (key.folders ++ [ArtifactKey.versionFile key.version ++ ".tmp"]) := by
  obtain ⟨parent, hparent, hlocation, -⟩ := directory.exists_parent_pathOf h
  rw [FileTree.location_neighbour (directory.fileName?_pathOf key) hparent, hlocation,
    List.append_assoc]

/-- The file of an artifact and its neighbour lie in one place, whatever leads to it. -/
theorem exists_location_pathOf (directory : ArtifactDirectory) (key : ArtifactKey) :
    ∃ folder, Path.location (directory.pathOf key) =
        folder ++ [ArtifactKey.versionFile key.version] ∧
      Path.location (FileTree.neighbour (directory.pathOf key)) =
        folder ++ [ArtifactKey.versionFile key.version ++ ".tmp"] := by
  have hfile := directory.fileName?_pathOf key
  obtain ⟨-, parent, hparent, -, hlocation, -⟩ := Path.parent?_of_fileName hfile
  exact ⟨_, hlocation, FileTree.location_neighbour hfile hparent⟩

/-- No artifact is kept where the neighbour of a file is written. -/
theorem location_neighbour_ne (directory : ArtifactDirectory) (key key' : ArtifactKey) :
    Path.location (FileTree.neighbour (directory.pathOf key)) ≠
      Path.location (directory.pathOf key') := by
  obtain ⟨folder, -, hneighbour⟩ := directory.exists_location_pathOf key
  obtain ⟨folder', hplace, -⟩ := directory.exists_location_pathOf key'
  rw [hneighbour, hplace]
  intro heq
  have hlast := (List.append_inj' heq rfl).2
  have hend := congrArg (fun name : String => name.toList.getLast?) (List.cons.inj hlast).1
  cases (ArtifactKey.getLast?_neighbourFile _).symm.trans
    (hend.trans (ArtifactKey.getLast?_versionFile _))

theorem location_pathOf_injective (h : key.slot.IsNamed) (h' : key'.slot.IsNamed)
    (heq : Path.location (directory.pathOf key) = Path.location (directory.pathOf key')) :
    key = key' := by
  rw [directory.location_pathOf h, directory.location_pathOf h'] at heq
  exact ArtifactKey.segments_injective (List.append_cancel_left heq)

theorem isWithin_append {location : Location} {names : List String}
    (h : ∀ name ∈ names, Path.IsName name) :
    FileTree.isWithin location (location ++ names) = true := by
  have hhead : (names.head? == some "/") = false := by
    cases hfirst : names.head? with
    | none => rfl
    | some first =>
        have hname := h first (List.mem_of_mem_head? hfirst)
        refine beq_eq_false_iff_ne.mpr fun heq => hname.single ?_
        rw [Option.some.inj heq]
        decide
  rw [FileTree.isWithin]
  cases location with
  | nil => simp [hhead]
  | cons first rest => simp

theorem isWithin_pathOf (h : key.slot.IsNamed) :
    FileTree.isWithin (Path.location directory.path) (Path.location (directory.pathOf key)) =
      true := by
  rw [directory.location_pathOf h]
  exact isWithin_append (ArtifactKey.isName_segments h)

/-- A directory of artifacts has the files of a table's artifacts, and no others. -/
structure Reflects (directory : ArtifactDirectory) (tree : FileTree) (table : ArtifactTable) :
    Prop where
  named : ∀ key source, table.get? key = some source → key.slot.IsNamed
  stored : ∀ key, key.slot.IsNamed → ∀ source, table.get? key = some source ↔
    tree.find (directory.pathOf key) = .ok (.file source.toUTF8)
  nothingElse : ∀ location bytes, tree.entry? location = some (.file bytes) →
    FileTree.isWithin (Path.location directory.path) location = true →
      ∃ key source, table.get? key = some source ∧
        tree.locate (directory.pathOf key) = .ok location

namespace Reflects

theorem empty (h : ∀ location bytes, tree.entry? location = some (.file bytes) →
    FileTree.isWithin (Path.location directory.path) location = false) :
    directory.Reflects tree Table.empty := by
  refine ⟨fun _ _ hkey => ?_, fun key hnamed source => ⟨fun hkey => ?_, fun hfind => ?_⟩,
    fun location bytes hentry hwithin => ?_⟩
  · cases hkey
  · cases hkey
  · obtain ⟨-, hentry⟩ := FileTree.find_eq_ok.mp hfind
    cases (isWithin_pathOf hnamed).symm.trans (h _ _ hentry)
  · cases hwithin.symm.trans (h location bytes hentry)

theorem of_entry (h : directory.Reflects tree table) (hnamed : key.slot.IsNamed)
    {bytes : ByteArray}
    (hentry : tree.entry? (Path.location (directory.pathOf key)) = some (.file bytes)) :
    ∃ source, table.get? key = some source ∧ bytes = source.toUTF8 := by
  obtain ⟨key', source, hkey', hlocate⟩ := h.nothingElse _ bytes hentry (isWithin_pathOf hnamed)
  have hnamed' := h.named key' source hkey'
  obtain rfl := location_pathOf_injective hnamed hnamed' (FileTree.locate_ok hlocate)
  have hfind := FileTree.find_eq_ok.mpr ⟨hlocate, hentry⟩
  have hstored := (h.stored key hnamed source).mp hkey'
  exact ⟨source, hkey', FileEntry.file.inj (Except.ok.inj (hfind.symm.trans hstored))⟩

theorem isFile_iff (h : directory.Reflects tree table) (hnamed : key.slot.IsNamed) :
    tree.isFile (directory.pathOf key) = true ↔ ∃ source, table.get? key = some source := by
  rw [FileTree.isFile_iff]
  constructor
  · rintro ⟨bytes, hfind⟩
    obtain ⟨-, hentry⟩ := FileTree.find_eq_ok.mp hfind
    obtain ⟨source, hkey, -⟩ := h.of_entry hnamed hentry
    exact ⟨source, hkey⟩
  · rintro ⟨source, hkey⟩
    exact ⟨_, (h.stored key hnamed source).mp hkey⟩

/-- Replacing the file of a missing artifact adds the artifact. -/
theorem replaced (h : directory.Reflects tree table) (hnamed : key.slot.IsNamed)
    (hmissing : table.get? key = none)
    (hreplaced : FileTree.Replaced tree tree' (directory.pathOf key) source) :
    directory.Reflects tree' (table.insert key source) := by
  have hother {key' : ArtifactKey} (hne : key' ≠ key) :
      (table.insert key source).get? key' = table.get? key' :=
    Table.get?_insert_of_ne hne source
  refine ⟨fun key' source' hkey' => ?_, fun key' hnamed' source' => ?_,
    fun location bytes hentry hwithin => ?_⟩
  · by_cases hne : key' = key
    · exact hne ▸ hnamed
    · exact h.named key' source' ((hother hne).symm.trans hkey')
  · by_cases hne : key' = key
    · subst hne
      rw [Table.get?_insert_self, hreplaced.written]
      simp [String.toByteArray_inj]
    · have hplace : Path.location (directory.pathOf key') ≠ Path.location (directory.pathOf key) :=
        fun heq => hne (location_pathOf_injective hnamed' hnamed heq)
      rw [hother hne]
      constructor
      · intro hkey'
        exact hreplaced.find_of_ne hplace (directory.location_neighbour_ne key key').symm
          ((h.stored key' hnamed' source').mp hkey')
      · intro hfind
        obtain ⟨-, hentry⟩ := FileTree.find_eq_ok.mp hfind
        obtain ⟨source'', hkey', htext⟩ :=
          h.of_entry hnamed' (hreplaced.entry_of_ne hplace hentry)
        rw [hkey', String.toByteArray_inj.mp htext]
  · by_cases hplace : location = Path.location (directory.pathOf key)
    · subst hplace
      obtain ⟨hlocate, -⟩ := FileTree.find_eq_ok.mp hreplaced.written
      exact ⟨key, source, Table.get?_insert_self .., hlocate⟩
    · obtain ⟨key', source', hkey', hlocate⟩ :=
        h.nothingElse location bytes (hreplaced.entry_of_ne hplace hentry) hwithin
      have hne : key' ≠ key := by
        rintro rfl
        cases hkey'.symm.trans hmissing
      exact ⟨key', source', (hother hne).trans hkey', hreplaced.directories.locate hlocate⟩

/-- Storing a missing artifact adds it, unless an access is refused. -/
theorem store (h : directory.Reflects tree table) (hnamed : key.slot.IsNamed)
    (hmissing : table.get? key = none) (source : String) :
    (∃ report tree', directory.store tree key source = (.error report, tree') ∧
        report.kind = .io) ∨
      ∃ tree', directory.store tree key source = (.ok (directory.handle key), tree') ∧
        directory.Reflects tree' (table.insert key source) := by
  have hfree : tree.isFile (directory.pathOf key) = false := by
    refine eq_false_of_ne_true fun hfile => ?_
    obtain ⟨source', hkey⟩ := (h.isFile_iff hnamed).mp hfile
    cases hkey.symm.trans hmissing
  rw [ArtifactDirectory.store, hfree, if_neg Bool.false_ne_true]
  rcases hreplace : tree.replaceFile (directory.pathOf key) source with ⟨_ | _, tree'⟩
  · exact .inl ⟨_, _, rfl, FileTree.replaceFile_error hreplace⟩
  · have hreplaced := FileTree.replaced_of_ok (directory.location_neighbour_ne key key) hreplace
    exact .inr ⟨tree', rfl, h.replaced hnamed hmissing hreplaced⟩

end Reflects

end ArtifactDirectory

end VersionGroups
