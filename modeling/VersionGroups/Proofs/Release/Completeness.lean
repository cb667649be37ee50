import VersionGroups.Json.Writer
import VersionGroups.Proofs.Files.Access
import VersionGroups.Proofs.Release.Visits

/-!
# What loading a corpus comes to

Every sub-directory of a corpus is either loaded for one version or skipped once. A version is
loaded exactly if a sub-directory offers a release of it, and then from the first one that does. A
release that cannot be read spoils the corpus, even if it would have been skipped as a duplicate.
Neither the order in which the names of a directory are listed nor an entry that fails matters.

A sub-directory is a directory that is listed by its name, and it has a file if the file is known to
be there. So an entry without a name is never missed, and a release whose files cannot be looked at
is skipped like one that has none.
-/
namespace VersionGroups.LoadedCorpus
variable {files files' : FileAccess} {filter : ReleaseFilter} {common : Option (List String)}
  {base directory : String} {names names' : List String} {loaded : LoadedCorpus}
  {version : Version}

/-- A directory that is listed in another one. -/
def IsSubdirectory (files : FileAccess) (base directory : String) : Prop :=
  ∃ names, files.names base = .ok names ∧ ∃ name ∈ names,
    directory = Path.join base name ∧ files.isDirectory directory = true

theorem mem_subdirectories (hnames : files.names base = .ok names) :
    directory ∈ subdirectories files base names ↔ IsSubdirectory files base directory := by
  rw [subdirectories, List.mem_filter, List.mem_map, IsSubdirectory]
  constructor
  · rintro ⟨⟨name, hname, rfl⟩, hdirectory⟩
    exact ⟨names, hnames, name, List.mem_mergeSort.mp hname, rfl, hdirectory⟩
  · rintro ⟨names', hnames', name, hname, rfl, hdirectory⟩
    obtain rfl := Except.ok.inj (hnames.symm.trans hnames')
    exact ⟨⟨name, List.mem_mergeSort.mpr hname, rfl⟩, hdirectory⟩

theorem subdirectories_ascending (hproper : files.IsProper)
    (hnames : files.names base = .ok names) :
    (subdirectories files base names).Pairwise (· < ·) := by
  have hpiece : ∀ name ∈ ordered names, Path.IsPiece name := fun name hname =>
    hproper.piece hnames (List.mem_mergeSort.mp hname)
  refine List.Pairwise.filter _ (List.pairwise_map.mpr ?_)
  refine (Table.ascending_mergeSort (hproper.nodup hnames)).imp_of_mem ?_
  intro first second hfirst hsecond hlt
  exact (hpiece first hfirst).join_lt (hpiece second hsecond) (compareOfLessAndEq_eq_lt.mp hlt)

theorem ordered_of_perm (hnodup : names.Nodup) (hperm : names'.Perm names) :
    ordered names' = ordered names := by
  refine Table.eq_of_compare_lt (f := id)
    (Table.ascending_mergeSort (hperm.nodup_iff.mpr hnodup))
    (Table.ascending_mergeSort hnodup) fun name => ?_
  rw [ordered, ordered, List.mem_mergeSort, List.mem_mergeSort, hperm.mem_iff]

theorem ordered_of_ascending (h : names.Pairwise (· < ·)) : ordered names = names := by
  refine List.mergeSort_of_pairwise (h.imp fun hlt => ?_)
  rw [show compare _ _ = Ordering.lt from compareOfLessAndEq_eq_lt.mpr hlt]
  rfl

/-- Loading takes the list of common names and visits the names of the directory. -/
theorem load_of_names (hnames : files.names base = .ok names) :
    load files base filter = (do
      let common ← commonList files base filter
      visitAll files base filter common names) := by
  rw [load, commonList, hnames]
  cases filter.commonOnly <;> rfl

theorem load_isError_of_names {e : AccessError} (hnames : files.names base = .error e) :
    ∃ e, load files base filter = .error e := by
  cases hload : load files base filter with
  | error e => exact ⟨e, rfl⟩
  | ok loaded =>
      obtain ⟨-, names, -, hlisted, -⟩ := load_eq_ok.mp hload
      cases hnames.symm.trans hlisted

theorem names_isError_iff :
    (∃ e, files.names base = .error e) ↔ ∃ e, files.list base = .error e := by
  rw [FileAccess.names]
  cases files.list base <;> simp [Except.map]

/-- Loading fails for the list of common names or for a directory that is spoiled. -/
theorem load_isError_iff_of_names (hnames : files.names base = .ok names) :
    (∃ e, load files base filter = .error e) ↔ CommonSpoiled files base filter ∨
      ∃ common directory, ListsCommon files base filter common ∧
        IsSubdirectory files base directory ∧ Spoiled files filter common directory := by
  simp only [load_of_names hnames, ← commonList_isError_iff, ← commonList_eq_ok,
    ← mem_subdirectories hnames]
  cases commonList files base filter with
  | error e => simp [bind, Except.bind]
  | ok common => simpa [bind, Except.bind] using visitAll_isError_iff

/-- A system that has the same files reads them alike. -/
theorem visit_of_relists (h : files.Relists files' base) :
    visit files' filter common = visit files filter common := by
  funext loaded directory
  have hrelease (path : String) : readRelease files' path = readRelease files path := by
    rw [readRelease, readRelease, readText, readText, h.readText]
  have hdocument (path : String) : readDocument files' path = readDocument files path := by
    rw [readDocument, readDocument, readText, readText, h.readText]
  simp only [visit, h.isFile, hrelease, hdocument]

theorem commonList_of_relists (h : files.Relists files' base) :
    commonList files' base filter = commonList files base filter := by
  rw [commonList, commonList, commonNames?, commonNames?, readText, readText, h.isFile, h.readText]

/-- The first directory that offers a release of a version. -/
structure IsFirst (files : FileAccess) (base : String) (filter : ReleaseFilter)
    (common : Option (List String)) (version : Version) (directory : String) : Prop where
  within : IsSubdirectory files base directory
  offered : ∃ release, Offers files filter common directory release ∧ release.version = version
  first : ∀ other release, IsSubdirectory files base other →
    Offers files filter common other release → release.version = version →
      directory = other ∨ directory < other

/-- Everything in a directory is accounted for: each sub-directory once, each version that some
sub-directory offers, and nothing else. -/
structure Complete (files : FileAccess) (base : String) (filter : ReleaseFilter)
    (common : Option (List String)) (loaded : LoadedCorpus) : Prop where
  accounted : ∀ directory, IsSubdirectory files base directory ↔
    directory ∈ loaded.origins ++ loaded.skipped.map Prod.fst
  once : (loaded.origins ++ loaded.skipped.map Prod.fst).Nodup
  ordered : loaded.skipped.Pairwise fun a b => a.1 < b.1
  justified : ∀ skip ∈ loaded.skipped,
    Justified files filter common loaded.versions skip.1 skip.2
  offered : ∀ version, version ∈ loaded.corpus.keys ↔
    ∃ directory release, IsSubdirectory files base directory ∧
      Offers files filter common directory release ∧ release.version = version
  first : ∀ version directory, loaded.versions.get? version = some directory ↔
    IsFirst files base filter common version directory
  documents : ∀ version document, loaded.corpus.get? version = some document ↔
    ∃ directory, IsFirst files base filter common version directory ∧
      Documents files directory document
  names : ∀ version name, loaded.names.get? version = some name ↔
    ∃ directory release, IsFirst files base filter common version directory ∧
      Offers files filter common directory release ∧ release.name = name
  keys : loaded.names.keys = loaded.corpus.keys

theorem Documents.unique {document document' : Document} (h : Documents files directory document)
    (h' : Documents files directory document') : document = document' :=
  Except.ok.inj ((readDocument_eq_ok.mpr h).symm.trans (readDocument_eq_ok.mpr h'))

theorem Accounts.isFirst (hproper : files.IsProper) (hnames : files.names base = .ok names)
    (h : Accounts files filter common (subdirectories files base names) loaded)
    (horigin : loaded.versions.get? version = some directory) :
    IsFirst files base filter common version directory := by
  have hfind := (h.first version).symm.trans horigin
  refine ⟨(mem_subdirectories hnames).mp (List.mem_of_find?_eq_some hfind),
    claims_iff.mp (List.find?_some hfind), fun other release hother hoffer hversion => ?_⟩
  exact rel_of_find? (subdirectories_ascending hproper hnames) hfind
    ((mem_subdirectories hnames).mpr hother) (claims_iff.mpr ⟨release, hoffer, hversion⟩)

/-- A version is loaded from the first directory that offers a release of it. -/
theorem Accounts.versions_eq_some_iff (hproper : files.IsProper)
    (hnames : files.names base = .ok names)
    (h : Accounts files filter common (subdirectories files base names) loaded) :
    loaded.versions.get? version = some directory ↔
      IsFirst files base filter common version directory := by
  refine ⟨h.isFirst hproper hnames, fun hfirst => ?_⟩
  obtain ⟨release, hoffer, hversion⟩ := hfirst.offered
  have hfound : (loaded.versions.get? version).isSome = true := by
    rw [h.first, List.find?_isSome]
    exact ⟨directory, (mem_subdirectories hnames).mpr hfirst.within,
      claims_iff.mpr ⟨release, hoffer, hversion⟩⟩
  obtain ⟨found, hfound⟩ := Option.isSome_iff_exists.mp hfound
  have hearliest := h.isFirst hproper hnames hfound
  obtain ⟨release', hoffer', hversion'⟩ := hearliest.offered
  rw [hfound]
  refine congrArg some ?_
  rcases hearliest.first directory release hfirst.within hoffer hversion with heq | hlt
  · exact heq
  · rcases hfirst.first found release' hearliest.within hoffer' hversion' with heq | hgt
    · exact heq.symm
    · exact absurd hgt (String.lt_asymm hlt)

/-- What has been loaded after all visits is complete. -/
theorem Accounts.complete (hproper : files.IsProper) (hnames : files.names base = .ok names)
    (h : Accounts files filter common (subdirectories files base names) loaded) :
    Complete files base filter common loaded := by
  have hfirst (version : Version) (directory : String) :
      loaded.versions.get? version = some directory ↔
        IsFirst files base filter common version directory :=
    h.versions_eq_some_iff hproper hnames
  have hascending := subdirectories_ascending hproper hnames
  exact {
    accounted := fun directory => by rw [h.once.mem_iff, mem_subdirectories hnames]
    once := h.once.nodup_iff.mpr (hascending.imp fun hlt => String.ne_of_lt hlt)
    ordered := List.pairwise_map.mp (hascending.sublist h.ordered)
    justified := h.justified
    offered := by
      intro version
      rw [Table.mem_keys, ← Option.isSome_iff_exists, h.documented, h.first, List.find?_isSome]
      simp only [mem_subdirectories hnames, claims_iff]
      exact ⟨fun ⟨directory, hwithin, release, hoffer⟩ => ⟨directory, release, hwithin, hoffer⟩,
        fun ⟨directory, release, hwithin, hoffer⟩ => ⟨directory, hwithin, release, hoffer⟩⟩
    first := hfirst
    documents := by
      intro version document
      constructor
      · intro hdocument
        have hthere : (loaded.versions.get? version).isSome = true := by
          rw [← h.documented, hdocument]
          rfl
        obtain ⟨origin, horigin⟩ := Option.isSome_iff_exists.mp hthere
        obtain ⟨-, found, -, hread, -, hfound⟩ := h.read version origin horigin
        obtain rfl := Option.some.inj (hfound.symm.trans hdocument)
        exact ⟨origin, (hfirst version origin).mp horigin, hread⟩
      · rintro ⟨origin, horigin, hdocument⟩
        obtain ⟨-, found, -, hread, -, hfound⟩ :=
          h.read version origin ((hfirst version origin).mpr horigin)
        rw [hfound, hread.unique hdocument]
    names := by
      intro version name
      constructor
      · intro hname
        have hthere : (loaded.versions.get? version).isSome = true := by
          rw [← h.named, hname]
          rfl
        obtain ⟨origin, horigin⟩ := Option.isSome_iff_exists.mp hthere
        obtain ⟨release, -, hoffer, -, hfound, -⟩ := h.read version origin horigin
        exact ⟨origin, release, (hfirst version origin).mp horigin, hoffer,
          Option.some.inj (hfound.symm.trans hname)⟩
      · rintro ⟨origin, release, horigin, hoffer, rfl⟩
        obtain ⟨found, -, hoffer', -, hfound, -⟩ :=
          h.read version origin ((hfirst version origin).mpr horigin)
        rw [hfound, hoffer'.unique hoffer]
    keys := Table.keys_eq_of_isSome fun version => by rw [h.named, h.documented] }

/-- A corpus with a list of common names: two directories have one version, and others are not in
common use, not final, without a document or no release. -/
def twinTree : FileTree :=
  FileTree.ofFiles [
    ("data/common/protocolVersions.json",
      "[[\"1.7-pre\"], \x7b\"minecraftVersion\": \"1.8\", \"version\": 47\x7d, [\"1.8.9\"]]"),
    ("data/0.30/version.json", "[7, \"0.30\"]"), ("data/0.30/protocol.json", "0"),
    ("data/1.7/version.json", "[47, \"1.7-pre\"]"), ("data/1.7/protocol.json", "1"),
    ("data/1.8/version.json", "[47, \"1.8\"]"), ("data/1.8/protocol.json", "2"),
    ("data/1.8.9/version.json", "[47, \"1.8.9\"]"), ("data/1.8.9/protocol.json", "3"),
    ("data/1.9/version.json", "[107, \"1.8\"]"), ("data/1.9/protocol.json", "4"),
    ("data/latest/version.json", "[47, \"1.8.9\"]")]

/-- The files of the corpus where one entry of each directory cannot be listed and one release
cannot be looked at. -/
def twinFiles : FileAccess where
  list path := (twinTree.access.list path).map (.error .denied :: ·)
  kind path := if path = "data/1.9/version.json" then .error .denied else twinTree.access.kind path
  readText := twinTree.readText

/-- The same files, listed the other way round. -/
def twinFilesReversed : FileAccess :=
  { twinFiles with list := fun path => (twinFiles.list path).map List.reverse }

def twinNames : List String := ["0.30", "1.7", "1.8", "1.8.9", "1.9", "common", "latest"]

def twinCommon : Option (List String) := some ["1.7-pre", "1.8", "1.8.9"]

/-- A loaded corpus in lists, with its documents as texts. -/
structure Contents where
  documents : List (Version × String)
  names : List (Version × String)
  origins : List String
  skipped : List (String × SkipReason)
  deriving DecidableEq

def contents (loaded : LoadedCorpus) : Contents where
  documents := loaded.corpus.entries.map fun e => (e.1, e.2.root.compact)
  names := loaded.names.entries
  origins := loaded.origins
  skipped := loaded.skipped

def twinContents : Contents where
  documents := [(47, "2")]
  names := [(47, "1.8")]
  origins := ["data/1.8"]
  skipped := [("data/0.30", .notCommon), ("data/1.7", .notFinal),
    ("data/1.8.9", .duplicate "data/1.8"), ("data/1.9", .missingFiles),
    ("data/common", .missingFiles), ("data/latest", .missingFiles)]

theorem isProper_twinFiles : twinFiles.IsProper := by
  have hsound : twinTree.IsSound := FileTree.isSound_ofFiles _
  refine hsound.isProper.of_names ?_
  funext path
  simp only [FileAccess.names, twinFiles]
  cases twinTree.access.list path <;> rfl

end VersionGroups.LoadedCorpus
