import VersionGroups.Proofs.Artifact.Directory
import VersionGroups.Proofs.Files.Room

/-!
# Room for artifacts

The file of one artifact never stands where another one has a folder or writes a neighbour, since a
common type that is named like a direction, under which the types of the direction are kept, is not
accepted. So a directory that was clear has room for every artifact, and is as tidy after one has
been stored, as long as the names are short enough.
-/
namespace VersionGroups

/-- The artifacts of a slot have folders of their own: its states and names are names of files, and
a common type is not named like a direction. -/
structure Slot.IsFiled (slot : Slot) : Prop where
  named : slot.IsNamed
  apart : ∀ name, slot = .type ⟨.common, name⟩ → ∀ d : Direction, name ≠ d.name

theorem SlotConfig.isFiled_of_accepted {text : String} {format : ConfigFormat}
    {config : SlotConfig} (haccepted : SlotConfig.ofText text format = .ok config)
    {slot : Slot} (hslot : slot ∈ config.registry.slots) (hnamed : slot.IsNamed) :
    slot.IsFiled := by
  refine ⟨hnamed, ?_⟩
  rintro name rfl d
  exact SlotConfig.common_ne_direction haccepted hslot d

theorem ArtifactKey.not_prefix_folders {key key' : ArtifactKey} (h : key.slot.IsFiled)
    (last : String) : ¬key.folders ++ [last] <+: key'.folders := by
  obtain ⟨slot, v⟩ := key
  obtain ⟨slot', v'⟩ := key'
  have htypes : ∀ d : Direction, d.name ≠ "types" := by
    intro d
    cases d <;> decide
  rcases slot with ⟨d, state, name⟩ | ⟨_ | ⟨d, state⟩, name⟩ <;>
    rcases slot' with ⟨d', state', name'⟩ | ⟨_ | ⟨d', state'⟩, name'⟩ <;>
    simp [folders, segments, htypes, (htypes _).symm]
  intro heq
  exact absurd heq (h.apart name rfl d')

namespace ArtifactDirectory
variable {directory : ArtifactDirectory} {key : ArtifactKey} {tree tree' : FileTree}
  {source : String}

/-- The path of an artifact does not go up where that of the directory does not. -/
theorem not_up_pathOf (h : key.slot.IsNamed) (hroot : ".." ∉ Path.pieces directory.path) :
    ".." ∉ Path.pieces (directory.pathOf key) := by
  rw [directory.pieces_pathOf h, List.append_assoc, ← key.segments_eq]
  intro hup
  rcases List.mem_append.mp hup with hup | hup
  · exact hroot hup
  · exact (ArtifactKey.isName_segments h _ hup).down rfl

/-- The folders of an artifact are on the way to its file, after the way to the directory. -/
theorem mem_parentWay_pathOf (h : key.slot.IsNamed) (hroot : ".." ∉ Path.pieces directory.path)
    {location : Location} (hway : location ∈ FileTree.parentWay (directory.pathOf key)) :
    location <+: Path.location directory.path ++ key.folders := by
  obtain ⟨parent, hparent, hlocation, hpieces⟩ := directory.exists_parent_pathOf h
  have hdown : ".." ∉ Path.pieces parent := fun hup =>
    not_up_pathOf h hroot (hpieces _ hup)
  rw [← hlocation]
  exact ((FileTree.mem_parentWay_iff hparent hdown).mp hway).2

/-- No file is on the way to the directory, and nothing is in it. -/
structure IsClear (directory : ArtifactDirectory) (tree : FileTree) : Prop where
  way : ∀ location bytes, location <+: Path.location directory.path →
    tree.entry? location ≠ some (.file bytes)
  inside : ∀ location, FileTree.isWithin (Path.location directory.path) location = true →
    location ≠ Path.location directory.path → tree.entry? location = none

theorem IsClear.no_files (h : directory.IsClear tree) {location : Location} {bytes : ByteArray}
    (hentry : tree.entry? location = some (.file bytes)) :
    FileTree.isWithin (Path.location directory.path) location = false := by
  refine eq_false_of_ne_true fun hwithin => ?_
  by_cases hroot : location = Path.location directory.path
  · exact h.way location bytes (hroot ▸ List.prefix_rfl) hentry
  · cases hentry.symm.trans (h.inside location hwithin hroot)

/-- Every directory is clear where there are no files at all. -/
theorem isClear_empty (directory : ArtifactDirectory) : directory.IsClear FileTree.empty := by
  have hempty (location : Location) : FileTree.empty.entry? location =
      if location = [] ∨ location = FileTree.root then some .directory else none := rfl
  refine ⟨fun location bytes _ hentry => ?_, fun location hwithin hne => ?_⟩
  · rw [hempty] at hentry
    split at hentry
    · cases hentry
    · cases hentry
  · rw [hempty, if_neg]
    generalize Path.location directory.path = place at hwithin hne
    rintro (rfl | rfl)
    · cases place with
      | nil => exact hne rfl
      | cons first rest => cases hwithin
    · rcases place with _ | ⟨first, _ | ⟨second, rest⟩⟩
      · cases hwithin
      · have hfirst : first = "/" := by simp_all [FileTree.isWithin, FileTree.root]
        exact hne (by rw [hfirst, FileTree.root])
      · simp [FileTree.isWithin, FileTree.root] at hwithin

/-- No file is on the way to the directory, and in it are only folders and files of artifacts. -/
structure IsTidy (directory : ArtifactDirectory) (tree : FileTree) : Prop where
  way : ∀ location bytes, location <+: Path.location directory.path →
    tree.entry? location ≠ some (.file bytes)
  folders : ∀ names, names ≠ [] → (∀ name ∈ names, Path.IsName name) →
    tree.entry? (Path.location directory.path ++ names) = some .directory →
      ∃ key : ArtifactKey, names <+: key.folders
  files : ∀ names bytes, names ≠ [] → (∀ name ∈ names, Path.IsName name) →
    tree.entry? (Path.location directory.path ++ names) = some (.file bytes) →
      ∃ key : ArtifactKey, key.slot.IsFiled ∧ names = key.segments

theorem IsClear.isTidy (h : directory.IsClear tree) : directory.IsTidy tree := by
  have hnone {names : List String} (hne : names ≠ []) (hnames : ∀ name ∈ names, Path.IsName name) :
      tree.entry? (Path.location directory.path ++ names) = none :=
    h.inside _ (isWithin_append hnames) (by simpa using hne)
  refine ⟨h.way, fun names hne hnames hentry => ?_, fun names bytes hne hnames hentry => ?_⟩
  · cases hentry.symm.trans (hnone hne hnames)
  · cases hentry.symm.trans (hnone hne hnames)

namespace IsTidy

/-- A directory in which an artifact was stored is tidy. -/
theorem replaced (h : directory.IsTidy tree) (hkey : key.slot.IsFiled)
    (hroot : ".." ∉ Path.pieces directory.path)
    (hreplaced : FileTree.Replaced tree tree' (directory.pathOf key) source) :
    directory.IsTidy tree' := by
  have hlonger {names : List String} (hne : names ≠ []) :
      ¬Path.location directory.path ++ names <+: Path.location directory.path := by
    intro hprefix
    have hlength := hprefix.length_le
    have hpos := List.length_pos_iff.mpr hne
    rw [List.length_append] at hlength
    omega
  have hplace := directory.location_pathOf hkey.named
  have hfile {location : Location} {bytes : ByteArray}
      (hne : location ≠ Path.location (directory.pathOf key))
      (hentry : tree'.entry? location = some (.file bytes)) :=
    hreplaced.entry_of_ne hne hentry
  refine ⟨fun location bytes hprefix hentry => ?_, fun names hne hnames hentry => ?_,
    fun names bytes hne hnames hentry => ?_⟩
  · refine h.way location bytes hprefix (hfile ?_ hentry)
    rintro rfl
    rw [hplace] at hprefix
    exact hlonger key.segments_ne_nil hprefix
  · by_cases hnew : Path.location directory.path ++ names = Path.location (directory.pathOf key)
    · obtain ⟨-, hwritten⟩ := FileTree.find_eq_ok.mp hreplaced.written
      rw [hnew] at hentry
      cases hentry.symm.trans hwritten
    · by_cases hold : Path.location directory.path ++ names =
          Path.location (FileTree.neighbour (directory.pathOf key))
      · rw [hold, hreplaced.cleared] at hentry
        cases hentry
      · rcases hreplaced.others _ hnew hold with heq | ⟨hway, -⟩
        · exact h.folders names hne hnames (heq.symm.trans hentry)
        · have hprefix := mem_parentWay_pathOf hkey.named hroot hway
          exact ⟨key, (List.prefix_append_right_inj _).mp hprefix⟩
  · by_cases hnew : Path.location directory.path ++ names = Path.location (directory.pathOf key)
    · rw [hplace] at hnew
      exact ⟨key, hkey, List.append_cancel_left hnew⟩
    · exact h.files names bytes hne hnames (hfile hnew hentry)

theorem not_directory (h : directory.IsTidy tree) (hkey : key.slot.IsFiled) {last : String}
    (hlast : Path.IsName last) :
    tree.entry? (Path.location directory.path ++ (key.folders ++ [last])) ≠ some .directory := by
  intro hentry
  have hnames : ∀ name ∈ key.folders ++ [last], Path.IsName name := by
    intro name hname
    rcases List.mem_append.mp hname with hname | hname
    · exact ArtifactKey.isName_folders hkey.named name hname
    · obtain rfl := List.mem_singleton.mp hname
      exact hlast
  have hne : key.folders ++ [last] ≠ [] := List.append_ne_nil_of_right_ne_nil _ (by simp)
  obtain ⟨key', hprefix⟩ := h.folders _ hne hnames hentry
  exact ArtifactKey.not_prefix_folders hkey _ hprefix

/-- The ways to a tidy directory and to the folders of an artifact in it are free of files. -/
theorem not_file (h : directory.IsTidy tree) (hkey : key.slot.IsFiled)
    (hroot : ".." ∉ Path.pieces directory.path) {location : Location}
    (hway : location ∈ FileTree.parentWay (directory.pathOf key)) (bytes : ByteArray) :
    tree.entry? location ≠ some (.file bytes) := by
  intro hentry
  have hprefix := mem_parentWay_pathOf hkey.named hroot hway
  rcases List.prefix_or_prefix_of_prefix hprefix (List.prefix_append _ _) with hout | hin
  · exact h.way location bytes hout hentry
  · obtain ⟨names, rfl⟩ := hin
    have hfront := (List.prefix_append_right_inj _).mp hprefix
    by_cases hne : names = []
    · subst hne
      rw [List.append_nil] at hentry
      exact h.way _ bytes List.prefix_rfl hentry
    · have hnames : ∀ name ∈ names, Path.IsName name := fun name hname =>
        ArtifactKey.isName_folders hkey.named name (hfront.subset hname)
      obtain ⟨key', hkey', rfl⟩ := h.files names bytes hne hnames hentry
      rw [key'.segments_eq] at hfront
      exact ArtifactKey.not_prefix_folders hkey' _ hfront

/-- There is room for an artifact in a tidy directory. -/
theorem store (h : directory.IsTidy tree) (hkey : key.slot.IsFiled)
    (hroot : ".." ∉ Path.pieces directory.path)
    (hfits : ∀ p ∈ FileTree.accessed (directory.pathOf key), Path.Fits p) (source : String) :
    ∃ tree', directory.store tree key source = (.ok (directory.handle key), tree') ∧
      directory.IsTidy tree' := by
  have hversion := ArtifactKey.isName_versionFile key.version
  have hroom : tree.entry? (Path.location (directory.pathOf key)) ≠ some .directory := by
    rw [directory.location_pathOf hkey.named, key.segments_eq]
    exact h.not_directory hkey hversion
  have hbeside : tree.entry? (Path.location (FileTree.neighbour (directory.pathOf key))) ≠
      some .directory := by
    rw [location_neighbour_pathOf hkey.named]
    exact h.not_directory hkey (FileTree.isName_tmp hversion)
  rw [ArtifactDirectory.store]
  by_cases hthere : tree.isFile (directory.pathOf key) = true
  · rw [if_pos hthere]
    exact ⟨tree, rfl, h⟩
  · rw [if_neg hthere]
    obtain ⟨tree', hreplace⟩ := FileTree.replaceFile_of_room hversion
      (directory.pieces_pathOf hkey.named) (directory.endsWithSlash_pathOf key)
      (not_up_pathOf hkey.named hroot) hfits (fun _ => h.not_file hkey hroot) hroom hbeside source
    have hreplaced :=
      FileTree.replaced_of_ok (directory.location_neighbour_ne key key) hreplace
    rw [hreplace]
    exact ⟨tree', rfl, h.replaced hkey hroot hreplaced⟩

end IsTidy

end ArtifactDirectory

end VersionGroups
