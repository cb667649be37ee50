import VersionGroups.Artifact.Memo
import VersionGroups.Proofs.Config.Tracked
import VersionGroups.Proofs.Files.Location
import VersionGroups.Proofs.Toml.Section

/-!
# The layout of artifacts

The segments of an artifact tell the artifact. Where the states and names of slots are names of
files, the path of an artifact is read back as these segments, so every artifact has a path of its
own, below the directory of artifacts. A configuration may have other states and names: with slashes
in them two artifacts can have one path, and a path can lead away from the directory.
-/
namespace VersionGroups

/-- The states and names of a slot are names of files. -/
def Slot.IsNamed : Slot → Prop
  | .packet p => Path.IsName p.state ∧ Path.IsName p.name
  | .type ⟨.common, name⟩ => Path.IsName name
  | .type ⟨.scoped _ state, name⟩ => Path.IsName state ∧ Path.IsName name

instance : DecidablePred Slot.IsNamed
  | .packet p => inferInstanceAs (Decidable (Path.IsName p.state ∧ Path.IsName p.name))
  | .type ⟨.common, name⟩ => inferInstanceAs (Decidable (Path.IsName name))
  | .type ⟨.scoped _ state, name⟩ =>
      inferInstanceAs (Decidable (Path.IsName state ∧ Path.IsName name))

theorem Direction.isName_name (d : Direction) : Path.IsName d.name := by
  cases d <;> decide

namespace ArtifactKey
variable {key key' : ArtifactKey}

def versionFile (v : Version) : String := s!"v{v}.rs"

theorem toList_versionFile (v : Version) :
    (versionFile v).toList = 'v' :: ((toString v).toList ++ ['.', 'r', 's']) := by
  show ("v" ++ toString v ++ ".rs").toList = _
  rw [String.toList_append, String.toList_append]
  rfl

theorem getLast?_versionFile (v : Version) : (versionFile v).toList.getLast? = some 's' := by
  rw [toList_versionFile, ← List.cons_append, List.getLast?_append]
  rfl

theorem getLast?_neighbourFile (v : Version) :
    (versionFile v ++ ".tmp").toList.getLast? = some 'p' := by
  rw [String.toList_append]
  simp

theorem isName_versionFile (v : Version) : Path.IsName (versionFile v) := by
  have hhead : (versionFile v).toList.head? = some 'v' := by
    rw [toList_versionFile]
    rfl
  have hslash : '/' ∉ (versionFile v).toList := by
    rw [toList_versionFile, List.mem_cons, List.mem_append]
    rintro (hv | hdigit | hrs)
    · cases hv
    · exact absurd (Toml.isDigit_of_mem_toString hdigit) (by decide)
    · exact absurd hrs (by decide)
  refine ⟨⟨?_, hslash⟩, ?_, ?_⟩
  all_goals
    intro heq
    rw [heq] at hhead
    exact absurd hhead (by decide)

theorem isName_segments (h : key.slot.IsNamed) : ∀ name ∈ key.segments, Path.IsName name := by
  obtain ⟨slot, v⟩ := key
  have htypes : Path.IsName "types" := by decide
  have hversion : Path.IsName s!"v{v}.rs" := isName_versionFile v
  rcases slot with ⟨d, state, name⟩ | ⟨_ | ⟨d, state⟩, name⟩
  · simpa [segments] using ⟨d.isName_name, h.1, h.2, hversion⟩
  · simpa [segments] using ⟨htypes, h, hversion⟩
  · simpa [segments] using ⟨htypes, d.isName_name, h.1, h.2, hversion⟩

/-- The folders that lead to the file of an artifact. -/
def folders (key : ArtifactKey) : List String := key.segments.dropLast

theorem segments_eq (key : ArtifactKey) :
    key.segments = key.folders ++ [versionFile key.version] := by
  rw [folders, segments, List.dropLast_concat, versionFile]

theorem isName_folders (h : key.slot.IsNamed) : ∀ name ∈ key.folders, Path.IsName name := by
  intro name hname
  refine isName_segments h name ?_
  rw [segments_eq]
  exact List.mem_append_left _ hname

theorem slot_eq_of_folders (h : key.folders = key'.folders) : key.slot = key'.slot := by
  obtain ⟨slot, v⟩ := key
  obtain ⟨slot', w⟩ := key'
  rcases slot with ⟨d, state, name⟩ | ⟨_ | ⟨d, state⟩, name⟩ <;>
    rcases slot' with ⟨d', state', name'⟩ | ⟨_ | ⟨d', state'⟩, name'⟩ <;>
    simp [folders, segments] at h
  · obtain ⟨hd, rfl, rfl⟩ := h
    rw [Direction.name_injective hd]
  · rw [h]
  · obtain ⟨hd, rfl, rfl⟩ := h
    rw [Direction.name_injective hd]

theorem versionFile_injective {v w : Version} (h : versionFile v = versionFile w) : v = w := by
  have hchars := congrArg String.toList h
  rw [toList_versionFile, toList_versionFile] at hchars
  exact Toml.toString_injective (List.append_cancel_right (List.cons.inj hchars).2)

theorem segments_injective (h : key.segments = key'.segments) : key = key' := by
  rw [segments_eq, segments_eq] at h
  obtain ⟨hfolders, hfile⟩ := List.append_inj' h rfl
  have hslot := slot_eq_of_folders hfolders
  have hversion := versionFile_injective (List.cons.inj hfile).1
  obtain ⟨slot, v⟩ := key
  obtain ⟨slot', w⟩ := key'
  obtain rfl : slot = slot' := hslot
  obtain rfl : v = w := hversion
  rfl

theorem segments_ne_nil : key.segments ≠ [] := by
  rw [segments_eq]
  exact List.append_ne_nil_of_right_ne_nil _ (List.cons_ne_nil _ _)

theorem pieces_relativePath (h : key.slot.IsNamed) :
    Path.pieces key.relativePath = key.segments := by
  rw [relativePath,
    Path.pieces_foldl_join fun name hname => (isName_segments h name hname).toIsPiece,
    Path.pieces_empty, List.nil_append]

theorem isAbsolute_relativePath (h : key.slot.IsNamed) :
    Path.isAbsolute key.relativePath = false := by
  rw [relativePath,
    Path.isAbsolute_foldl_join fun name hname => (isName_segments h name hname).toIsPiece]
  rfl

theorem components_relativePath (h : key.slot.IsNamed) :
    Path.components key.relativePath = key.segments := by
  have hmoves : ∀ name ∈ key.segments, name ≠ "." :=
    fun name hname => (isName_segments h name hname).moves
  rw [Path.components, pieces_relativePath h]
  cases hkey : key.segments with
  | nil => rfl
  | cons first rest =>
      rw [hkey] at hmoves
      obtain ⟨hfirst, hrest⟩ := List.forall_mem_cons.mp hmoves
      dsimp only
      rw [if_neg fun hdot => hfirst hdot.1, List.filter_eq_self.mpr (by simpa using hrest)]

end ArtifactKey

/-- The file of an artifact lies below the directory, under the segments of the artifact. -/
theorem ArtifactDirectory.location_pathOf (directory : ArtifactDirectory) {key : ArtifactKey}
    (h : key.slot.IsNamed) : Path.location (directory.pathOf key) =
      Path.location directory.path ++ key.segments := by
  rw [pathOf, Path.location_join (ArtifactKey.isAbsolute_relativePath h),
    ArtifactKey.pieces_relativePath h, FileTree.foldl_advance (ArtifactKey.isName_segments h)]

/-- In a configuration whose states and names are names of files, the artifacts have distinct
relative paths that never go up. Their files lie below the directory of artifacts, each in a place
of its own. -/
theorem artifact_paths {config : SlotConfig} {key : ArtifactKey}
    (hnamed : ∀ slot ∈ config.registry.slots, slot.IsNamed)
    (hkey : key.slot ∈ config.registry.slots) (directory : ArtifactDirectory) :
    Path.isAbsolute key.relativePath = false ∧
      ".." ∉ Path.components key.relativePath ∧
      (∃ below, below ≠ [] ∧ Path.location (directory.pathOf key) =
        Path.location directory.path ++ below) ∧
      ∀ key' : ArtifactKey, key'.slot ∈ config.registry.slots → key' ≠ key →
        Path.components key'.relativePath ≠ Path.components key.relativePath ∧
        ∀ (tree : FileTree) (location : Location),
          tree.locate (directory.pathOf key) = .ok location →
            tree.locate (directory.pathOf key') ≠ .ok location := by
  have h := hnamed key.slot hkey
  refine ⟨key.isAbsolute_relativePath h, ?_, ?_, ?_⟩
  · rw [ArtifactKey.components_relativePath h]
    exact fun hup => (ArtifactKey.isName_segments h ".." hup).down rfl
  · exact ⟨key.segments, key.segments_ne_nil, directory.location_pathOf h⟩
  · intro key' hkey' hne
    have h' := hnamed key'.slot hkey'
    have hsegments : key'.segments ≠ key.segments :=
      fun heq => hne (ArtifactKey.segments_injective heq)
    refine ⟨?_, ?_⟩
    · rw [ArtifactKey.components_relativePath h, ArtifactKey.components_relativePath h']
      exact hsegments
    · intro tree location hlocate hlocate'
      have heq := (FileTree.locate_ok hlocate').symm.trans (FileTree.locate_ok hlocate)
      rw [directory.location_pathOf h, directory.location_pathOf h'] at heq
      exact hsegments (List.append_cancel_left heq)

/-- A packet and two types whose states and names are the same texts. -/
def pingsConfig : SlotConfig where
  range := ⟨1, none⟩
  registry :=
    { slots := [.packet ⟨.toServer, "ping", "ping"⟩, .type ⟨.common, "ping"⟩,
        .type ⟨.scoped .toServer "ping", "ping"⟩]
      ascending := by decide
      distinct := by decide
      filled := by decide }

theorem artifact_paths_pings : (∀ slot ∈ pingsConfig.registry.slots, slot.IsNamed) ∧
    ∀ (directory : ArtifactDirectory) (tree : FileTree) (location : Location),
      tree.locate (directory.pathOf ⟨.packet ⟨.toServer, "ping", "ping"⟩, 1⟩) = .ok location →
        tree.locate (directory.pathOf ⟨.type ⟨.common, "ping"⟩, 1⟩) ≠ .ok location := by
  have hnamed : ∀ slot ∈ pingsConfig.registry.slots, slot.IsNamed := by decide
  refine ⟨hnamed, fun directory tree location => ?_⟩
  have hping : (ArtifactKey.mk (.packet ⟨.toServer, "ping", "ping"⟩) 1).slot ∈
      pingsConfig.registry.slots := by decide
  obtain ⟨-, -, -, hapart⟩ := artifact_paths hnamed hping directory
  obtain ⟨-, hlocations⟩ := hapart ⟨.type ⟨.common, "ping"⟩, 1⟩ (by decide) (by decide)
  exact hlocations tree location

/-- A configuration with slashes and a step up in the names of packets. -/
def slashConfig : SlotConfig where
  range := ⟨1, none⟩
  registry :=
    { slots := [.packet ⟨.toServer, "play", ".."⟩, .packet ⟨.toServer, "play", "/tmp"⟩,
        .packet ⟨.toServer, "play", "chat/extra"⟩, .packet ⟨.toServer, "play/chat", "extra"⟩]
      ascending := by decide
      distinct := by decide
      filled := by decide }

/-- The configuration is accepted. Two of its artifacts have one path, the path of another one does
not begin in the directory, and that of the last one goes up. -/
theorem slashConfig_paths :
    SlotConfig.ofText ("min_version = 1\n[packets.c2s]\n" ++
        "play = [\"..\", \"/tmp\", \"chat/extra\"]\n\"play/chat\" = [\"extra\"]\n") .toml =
      .ok slashConfig ∧
    ∃ up absolute extra chat : Slot,
      (∀ slot ∈ [up, absolute, extra, chat], slot ∈ slashConfig.registry.slots) ∧
      ".." ∈ Path.components (ArtifactKey.mk up 1).relativePath ∧
      Path.isAbsolute (ArtifactKey.mk absolute 1).relativePath = true ∧
      ArtifactKey.mk extra 1 ≠ ArtifactKey.mk chat 1 ∧
      (ArtifactKey.mk extra 1).relativePath = (ArtifactKey.mk chat 1).relativePath := by
  refine ⟨SlotConfig.ofText_declared (by decide +kernel),
    .packet ⟨.toServer, "play", ".."⟩, .packet ⟨.toServer, "play", "/tmp"⟩,
    .packet ⟨.toServer, "play", "chat/extra"⟩, .packet ⟨.toServer, "play/chat", "extra"⟩,
    fun _ h => h, ?_, ?_, ?_, ?_⟩
  all_goals decide +kernel

end VersionGroups
