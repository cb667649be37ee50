import VersionGroups.Corpus.Basic
import VersionGroups.Event
import VersionGroups.Files.Access
import VersionGroups.Json.Reader
import VersionGroups.Release.Description

/-!
# Loading a corpus

A corpus directory has a directory for each release, with a description of the release and the
document of its protocol version. Releases are visited in the order of their directories' names. A
release that lacks a file, is not in common use or is not final is skipped, and of several releases
of one protocol version only the first is kept. One file that cannot be read spoils the corpus. An
entry that cannot be listed is passed over, and a file that cannot be known to be there is missing.
-/

namespace VersionGroups

/-- Which releases are taken. -/
structure ReleaseFilter where
  finalOnly : Bool := true
  commonOnly : Bool := true
  deriving DecidableEq, Repr

/-- Why a directory is skipped. -/
inductive SkipReason where
  | missingFiles
  | notCommon
  | notFinal
  | duplicate (kept : String)
  deriving DecidableEq, Repr

/-- What was loaded: the document of each version, the name of its release and the directory that it
was loaded from; and the directories that were skipped, in the order of the visit. -/
structure LoadedCorpus where
  corpus : Corpus
  names : Table Version String
  versions : Table Version String
  skipped : List (String × SkipReason)

namespace LoadedCorpus

/-- Nothing loaded yet. -/
def empty : LoadedCorpus := ⟨Table.empty, Table.empty, Table.empty, []⟩

/-- The same with one more skipped directory. -/
def skip (loaded : LoadedCorpus) (directory : String) (reason : SkipReason) : LoadedCorpus :=
  { loaded with skipped := loaded.skipped ++ [(directory, reason)] }

/-- The same with one more version. -/
def take (loaded : LoadedCorpus) (directory : String) (release : Release) (document : Document) :
    LoadedCorpus :=
  { loaded with
    corpus := loaded.corpus.insert release.version document
    names := loaded.names.insert release.version release.name
    versions := loaded.versions.insert release.version directory }

/-- The report on a file that is not what it should be. -/
def malformedFile (path message : String) : ErrorReport :=
  { kind := .invalidInput, operation := some "load_corpus", message := s!"{path}: {message}" }

/-- The text of a file of the corpus. -/
def readText (files : FileAccess) (path : String) : Except ErrorReport String :=
  (files.readText path).mapError fun _ => .ofAccess "read_corpus_file"

/-- The document in a file of the corpus. -/
def readDocument (files : FileAccess) (path : String) : Except ErrorReport Document := do
  match Json.read (← readText files path) with
  | .ok root => return ⟨root⟩
  | .error e => throw (malformedFile path e.message)

/-- The release described in a file of the corpus. -/
def readRelease (files : FileAccess) (path : String) : Except ErrorReport Release := do
  match Release.ofText (← readText files path) with
  | .ok release => return release
  | .error e => throw (malformedFile path e.message)

/-- The names of the releases in common use, if the corpus has a list of them. -/
def commonNames? (files : FileAccess) (directory : String) :
    Except ErrorReport (Option (List String)) := do
  let path := Path.join directory "common/protocolVersions.json"
  if !files.isFile path then return none
  match Release.namesOfText (← readText files path) with
  | .ok names => return some names
  | .error e => throw (malformedFile path e.message)

/-- Why a release is not taken, if it is not. -/
def rejection? (filter : ReleaseFilter) (common : Option (List String)) (release : Release) :
    Option SkipReason :=
  if common.any (fun names => !names.contains release.name) then some .notCommon
  else if filter.finalOnly && !release.isFinal then some .notFinal
  else none

/-- Visits the directory of a release. -/
def visit (files : FileAccess) (filter : ReleaseFilter) (common : Option (List String))
    (loaded : LoadedCorpus) (directory : String) : Except ErrorReport LoadedCorpus := do
  let description := Path.join directory "version.json"
  let protocol := Path.join directory "protocol.json"
  if !files.isFile description || !files.isFile protocol then
    return loaded.skip directory .missingFiles
  let release ← readRelease files description
  match rejection? filter common release with
  | some reason => return loaded.skip directory reason
  | none =>
      let document ← readDocument files protocol
      match loaded.versions.get? release.version with
      | some kept => return loaded.skip directory (.duplicate kept)
      | none => return loaded.take directory release document

/-- Names in ascending order. -/
def ordered (names : List String) : List String :=
  names.mergeSort fun a b => (compare a b).isLE

/-- Visits the directories among the listed names of a corpus directory. -/
def visitAll (files : FileAccess) (directory : String) (filter : ReleaseFilter)
    (common : Option (List String)) (names : List String) : Except ErrorReport LoadedCorpus :=
  (((ordered names).map (Path.join directory)).filter files.isDirectory).foldlM
    (visit files filter common) empty

/-- Loads the corpus of a directory. -/
def load (files : FileAccess) (directory : String) (filter : ReleaseFilter) :
    Except ErrorReport LoadedCorpus := do
  let common ← if filter.commonOnly then commonNames? files directory else pure none
  match files.names directory with
  | .ok names => visitAll files directory filter common names
  | .error _ => throw (.ofAccess "read_corpus_dir")

/-- Loads the corpus of a directory and logs it. -/
def loadLogged (files : FileAccess) (directory : String) (filter : ReleaseFilter) :
    Logged (Except ErrorReport LoadedCorpus) :=
  Logged.bracket (.corpusLoading directory) []
    (fun loaded => [("version_count", loaded.corpus.size), ("skipped", loaded.skipped.length)])
    ErrorReport.kind (.silent (load files directory filter))

end LoadedCorpus

end VersionGroups
