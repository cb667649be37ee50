import VersionGroups.Proofs.Files.Soundness
import VersionGroups.Release.Loading

/-!
# What a loaded corpus depends on

The content of a corpus comes from the files of its releases and the list of common names. A tree in
which these are the same gives the same content, whatever else has changed: a directory that was
added has no release in it and is skipped.
-/
namespace VersionGroups.LoadedCorpus
variable {files : FileAccess} {tree tree' : FileTree} {filter : ReleaseFilter}
  {common : Option (List String)} {base path directory name : String}
  {names names' folder : List String} {loaded : LoadedCorpus}

def fileNames : List String := ["version.json", "protocol.json", "protocolVersions.json"]

abbrev descriptionPath (directory : String) : String := Path.join directory "version.json"

abbrev protocolPath (directory : String) : String := Path.join directory "protocol.json"

abbrev commonPath (base : String) : String := Path.join base "common/protocolVersions.json"

/-- A directory has the files of a release. -/
def HasRelease (files : FileAccess) (directory : String) : Bool :=
  files.isFile (descriptionPath directory) && files.isFile (protocolPath directory)

/-- A visit reads the description, asks the filters, reads the document and looks for a release of
the same version, in this order. -/
theorem visit_eq (loaded : LoadedCorpus) (directory : String) :
    visit files filter common loaded directory =
      if HasRelease files directory then do
        let release ← readRelease files (descriptionPath directory)
        match rejection? filter common release with
        | some reason => .ok (loaded.skip directory reason)
        | none => do
            let document ← readDocument files (protocolPath directory)
            match loaded.versions.get? release.version with
            | some kept => .ok (loaded.skip directory (.duplicate kept))
            | none => .ok (loaded.take directory release document)
      else .ok (loaded.skip directory .missingFiles) := by
  have hmissing : (!files.isFile (descriptionPath directory) ||
      !files.isFile (protocolPath directory)) = !HasRelease files directory := by
    rw [HasRelease, Bool.not_and]
  rw [visit, hmissing]
  cases HasRelease files directory <;> rfl

/-- What was loaded: the documents, the names and the directories of the versions. -/
abbrev Content := Corpus × Table Version String × Table Version String

def content (loaded : LoadedCorpus) : Content := (loaded.corpus, loaded.names, loaded.versions)

def contentAfter (files : FileAccess) (filter : ReleaseFilter) (common : Option (List String))
    (before : Content) (directory : String) : Except ErrorReport Content :=
  (visit files filter common ⟨before.1, before.2.1, before.2.2, []⟩ directory).map content

/-- What is skipped does not matter to the content. -/
theorem map_visit (loaded : LoadedCorpus) (directory : String) :
    (visit files filter common loaded directory).map content =
      contentAfter files filter common loaded.content directory := by
  rw [contentAfter, visit, visit]
  split
  · rfl
  · cases readRelease files (Path.join directory "version.json") with
    | error e => rfl
    | ok release =>
        simp only [bind, Except.bind]
        split
        · rfl
        · cases readDocument files (Path.join directory "protocol.json") with
          | error e => rfl
          | ok document =>
              dsimp only [content]
              cases loaded.versions.get? release.version <;> rfl

theorem contentAfter_of_not_hasRelease {before : Content}
    (h : HasRelease files directory = false) :
    contentAfter files filter common before directory = .ok before := by
  rw [contentAfter, visit_eq, h]
  rfl

theorem isFile_congr (h : tree'.find path = tree.find path) :
    tree'.isFile path = tree.isFile path := by
  rw [FileTree.isFile, FileTree.isFile, h]

theorem readText_congr (h : tree'.find path = tree.find path) :
    readText tree'.access path = readText tree.access path := by
  rw [readText, readText, FileTree.readText_access, FileTree.readText_access, FileTree.readText,
    FileTree.readText, FileTree.readBytes, FileTree.readBytes, h]

/-- A visit reads the two files of a release only. -/
theorem contentAfter_congr {before : Content}
    (hdescription : tree'.find (descriptionPath directory) = tree.find (descriptionPath directory))
    (hprotocol : tree'.find (protocolPath directory) = tree.find (protocolPath directory)) :
    contentAfter tree'.access filter common before directory =
      contentAfter tree.access filter common before directory := by
  have hrelease : readRelease tree'.access (descriptionPath directory) =
      readRelease tree.access (descriptionPath directory) := by
    rw [readRelease, readRelease, readText_congr hdescription]
  have hdocument : readDocument tree'.access (protocolPath directory) =
      readDocument tree.access (protocolPath directory) := by
    rw [readDocument, readDocument, readText_congr hprotocol]
  simp only [contentAfter, visit, FileTree.isFile_access, isFile_congr hdescription,
    isFile_congr hprotocol, hrelease, hdocument]

/-- The directories of a corpus in which there is a release, in the order of the visit. -/
def releases (files : FileAccess) (base : String) (names : List String) : List String :=
  ((ordered names).map (Path.join base)).filter fun directory =>
    HasRelease files directory && files.isDirectory directory

theorem map_visitAll (files : FileAccess) (base : String) (filter : ReleaseFilter)
    (common : Option (List String)) (names : List String) :
    (visitAll files base filter common names).map content =
      (releases files base names).foldlM (contentAfter files filter common) empty.content := by
  have hpass : (fun before directory =>
      if HasRelease files directory = true then contentAfter files filter common before directory
      else pure before) = contentAfter files filter common := by
    funext before directory
    cases h : HasRelease files directory with
    | true => rfl
    | false => exact (contentAfter_of_not_hasRelease h).symm
  rw [visitAll, map_foldlM (g := contentAfter files filter common) map_visit, releases,
    ← List.filter_filter]
  generalize ((ordered names).map (Path.join base)).filter files.isDirectory = directories
  rw [List.foldlM_filter, hpass]

/-- Loading reads the list of common names if it is asked for, and visits what the directory has. -/
theorem load_eq_ok : load files base filter = .ok loaded ↔ ∃ common names,
    (if filter.commonOnly then commonNames? files base else .ok none) = .ok common ∧
      files.names base = .ok names ∧ visitAll files base filter common names = .ok loaded := by
  simp only [exists_and_left]
  rw [load]
  cases files.names base with
  | error e => split <;> exact bind_eq_ok.trans (by simp [throw, throwThe, MonadExceptOf.throw])
  | ok names => split <;> exact bind_eq_ok.trans (by simp [pure, Except.pure])

theorem entry_of_hasRelease (hpath : Path.Continues directory base folder)
    (h : HasRelease tree.access directory = true) :
    tree.entry? (Path.location directory) = some .directory := by
  have hname : Path.IsName "version.json" := by decide
  obtain ⟨hdescription, -⟩ := Bool.and_eq_true_iff.mp h
  rw [FileTree.isFile_access] at hdescription
  obtain ⟨bytes, hfind⟩ := FileTree.isFile_iff.mp hdescription
  obtain ⟨hlocate, -⟩ := FileTree.find_eq_ok.mp hfind
  have hlocation : Path.location (descriptionPath directory) =
      Path.location directory ++ ["version.json"] := by
    rw [hpath.location_eq, (hpath.join hname).location_eq, List.append_assoc]
  exact FileTree.entry_folder_of_locate hlocate hlocation

section
variable {places : Location → Prop} (hchanges : tree.ChangesOnly tree' places)
  (hsound : tree.IsSound) (hsound' : tree'.IsSound)
  (hplaces : ∀ folder name, (∀ n ∈ folder ++ [name], Path.IsName n) → name ∈ fileNames →
    ¬places (Path.location base ++ (folder ++ [name])))
include hchanges hsound hsound' hplaces

theorem find_iff_of_changes (hbase : tree.locate base = .ok (Path.location base))
    (hpath : Path.Continues path base (folder ++ [name])) (hname : name ∈ fileNames)
    {bytes : ByteArray} :
    tree'.find path = .ok (.file bytes) ↔ tree.find path = .ok (.file bytes) := by
  refine hchanges.find_file_iff hsound hsound' hbase hpath ?_
  rw [hpath.location_eq]
  exact hplaces folder name hpath.named hname

theorem isFile_of_changes (hbase : tree.locate base = .ok (Path.location base))
    (hpath : Path.Continues path base (folder ++ [name])) (hname : name ∈ fileNames) :
    tree'.isFile path = tree.isFile path := by
  rw [Bool.eq_iff_iff, FileTree.isFile_iff, FileTree.isFile_iff]
  exact exists_congr fun bytes =>
    find_iff_of_changes hchanges hsound hsound' hplaces hbase hpath hname

theorem find_of_changes (hbase : tree.locate base = .ok (Path.location base))
    (hpath : Path.Continues path base (folder ++ [name])) (hname : name ∈ fileNames)
    (hfile : tree.isFile path = true) : tree'.find path = tree.find path := by
  obtain ⟨bytes, hfind⟩ := FileTree.isFile_iff.mp hfile
  rw [hfind, (find_iff_of_changes hchanges hsound hsound' hplaces hbase hpath hname).mpr hfind]

theorem commonNames?_of_changes (hbase : tree.locate base = .ok (Path.location base)) :
    commonNames? tree'.access base = commonNames? tree.access base := by
  have hrelative : Path.isAbsolute "common/protocolVersions.json" = false := by decide
  have hpath : Path.Continues (commonPath base) base (["common"] ++ ["protocolVersions.json"]) :=
    { pieces := Path.pieces_join hrelative
      absolute := Path.isAbsolute_join hrelative
      ends := fun _ => Path.endsWithSlash_join (by decide)
      named := by decide }
  have hname : "protocolVersions.json" ∈ fileNames := by decide
  have hthere := isFile_of_changes hchanges hsound hsound' hplaces hbase hpath hname
  rw [commonNames?, commonNames?, FileTree.isFile_access, FileTree.isFile_access, hthere]
  cases hfile : tree.isFile (Path.join base "common/protocolVersions.json") with
  | false => rfl
  | true =>
      have hfind := find_of_changes hchanges hsound hsound' hplaces hbase hpath hname hfile
      rw [readText_congr hfind]

theorem hasRelease_of_changes (hbase : tree.locate base = .ok (Path.location base))
    (hpath : Path.Continues directory base folder) :
    HasRelease tree'.access directory = HasRelease tree.access directory := by
  have hdescription : Path.IsName "version.json" := by decide
  have hprotocol : Path.IsName "protocol.json" := by decide
  rw [HasRelease, HasRelease, FileTree.isFile_access, FileTree.isFile_access,
    FileTree.isFile_access, FileTree.isFile_access,
    isFile_of_changes hchanges hsound hsound' hplaces hbase (hpath.join hdescription) (by decide),
    isFile_of_changes hchanges hsound hsound' hplaces hbase (hpath.join hprotocol) (by decide)]

/-- The directories in which there is a release are the same: one that was added has none. -/
theorem releases_of_changes (hnames : tree.names base = .ok names)
    (hnames' : tree'.names base = .ok names') :
    releases tree'.access base names' = releases tree.access base names := by
  obtain ⟨hbase, -, -⟩ := FileTree.names_eq_ok.mp hnames
  have hbase' := hchanges.directories.locate hbase
  rw [releases, releases, List.filter_map, List.filter_map]
  refine congrArg (List.map (Path.join base)) ?_
  refine Table.eq_of_compare_lt (f := id)
    ((Table.ascending_mergeSort (FileTree.names_nodup hnames')).filter _)
    ((Table.ascending_mergeSort (FileTree.names_nodup hnames)).filter _) fun name => ?_
  simp only [List.mem_filter, Function.comp_apply, Bool.and_eq_true, ordered, List.mem_mergeSort,
    FileTree.mem_names hnames, FileTree.mem_names hnames', FileTree.isDirectory_access,
    FileTree.isDirectory_iff]
  constructor
  · rintro ⟨⟨hroot, hthere⟩, hrelease, hdirectory⟩
    have hpath := (Path.Continues.refl base).join (hsound' _ name hroot hthere).1
    rw [hasRelease_of_changes hchanges hsound hsound' hplaces hbase hpath] at hrelease
    have hentry := entry_of_hasRelease hpath hrelease
    obtain ⟨husable, hshort, -⟩ := (hsound'.find_iff hbase' hpath).mp hdirectory
    have hfind := (hsound.find_iff hbase hpath).mpr ⟨husable, hshort, hentry⟩
    rw [hpath.location_eq, List.nil_append] at hentry
    exact ⟨⟨hroot, by simp [hentry]⟩, hrelease, hfind⟩
  · rintro ⟨⟨hroot, hthere⟩, hrelease, hdirectory⟩
    have hpath := (Path.Continues.refl base).join (hsound _ name hroot hthere).1
    obtain ⟨hlocate, hentry⟩ := FileTree.find_eq_ok.mp hdirectory
    have hkept := hchanges.directories _ hentry
    have hfind := FileTree.find_eq_ok.mpr ⟨hchanges.directories.locate hlocate, hkept⟩
    rw [← hasRelease_of_changes hchanges hsound hsound' hplaces hbase hpath] at hrelease
    rw [hpath.location_eq, List.nil_append] at hkept
    exact ⟨⟨hroot, by simp [hkept]⟩, hrelease, hfind⟩

/-- Each visit to a release reads the same files. -/
theorem contentAfter_of_changes (hbase : tree.locate base = .ok (Path.location base))
    (hpath : Path.Continues directory base folder)
    (hrelease : HasRelease tree.access directory = true) (before : Content) :
    contentAfter tree'.access filter common before directory =
      contentAfter tree.access filter common before directory := by
  have hdescription : Path.IsName "version.json" := by decide
  have hprotocol : Path.IsName "protocol.json" := by decide
  obtain ⟨hfile, hfile'⟩ := Bool.and_eq_true_iff.mp hrelease
  rw [FileTree.isFile_access] at hfile hfile'
  refine contentAfter_congr ?_ ?_
  · exact find_of_changes hchanges hsound hsound' hplaces hbase (hpath.join hdescription)
      (by decide) hfile
  · exact find_of_changes hchanges hsound hsound' hplaces hbase (hpath.join hprotocol)
      (by decide) hfile'

theorem visitAll_of_changes (filter : ReleaseFilter) (common : Option (List String))
    (hnames : tree.names base = .ok names)
    (hnames' : tree'.names base = .ok names') :
    (visitAll tree'.access base filter common names').map content =
      (visitAll tree.access base filter common names).map content := by
  obtain ⟨hbase, -, -⟩ := FileTree.names_eq_ok.mp hnames
  rw [map_visitAll, map_visitAll,
    releases_of_changes hchanges hsound hsound' hplaces hnames hnames']
  refine foldlM_congr (fun directory hdirectory before => ?_) _
  obtain ⟨hlisted, hthere⟩ := List.mem_filter.mp hdirectory
  obtain ⟨name, hname, rfl⟩ := List.mem_map.mp hlisted
  obtain ⟨hroot, hentry⟩ := (FileTree.mem_names hnames).mp (List.mem_mergeSort.mp hname)
  have hpath := (Path.Continues.refl base).join (hsound _ name hroot hentry).1
  exact contentAfter_of_changes hchanges hsound hsound' hplaces hbase hpath
    (Bool.and_eq_true_iff.mp hthere).1 before

/-- A corpus whose files are the same loads with the same content. -/
theorem load_of_changes (hload : load tree.access base filter = .ok loaded) :
    ∃ loaded', load tree'.access base filter = .ok loaded' ∧
      loaded'.content = loaded.content := by
  obtain ⟨common, names, hcommon, hnames, hvisit⟩ := load_eq_ok.mp hload
  rw [FileTree.names_access] at hnames
  obtain ⟨hbase, hentry, -⟩ := FileTree.names_eq_ok.mp hnames
  have hnames' := FileTree.names_eq_ok.mpr
    ⟨hchanges.directories.locate hbase, hchanges.directories _ hentry, rfl⟩
  rw [← commonNames?_of_changes hchanges hsound hsound' hplaces hbase] at hcommon
  have hcontent :=
    visitAll_of_changes hchanges hsound hsound' hplaces filter common hnames hnames'
  rw [hvisit] at hcontent
  obtain ⟨loaded', hvisit', hcontent⟩ := map_eq_ok.mp hcontent
  rw [← FileTree.names_access] at hnames'
  exact ⟨loaded', load_eq_ok.mpr ⟨common, _, hcommon, hnames', hvisit'⟩, hcontent⟩

end

end VersionGroups.LoadedCorpus
