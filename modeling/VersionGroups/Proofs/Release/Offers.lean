import VersionGroups.Proofs.Release.Loading

/-!
# What the directories of a corpus offer

The files of a corpus say what there is to load. The description in a directory tells of a release
and the other file holds its document, if they can be read and are what they should be; a list of
names may say which releases are in common use. The filters ask for names on that list and for final
releases. All this is said here of the texts of the files, and the readers are shown to agree.
-/
namespace VersionGroups

/-- A release whose name is a number with points, and that is not marked as anything else. -/
structure Release.Finished (release : Release) : Prop where
  named : release.name ≠ ""
  numeric : ∀ c ∈ release.name.toList, ('0' ≤ c ∧ c ≤ '9') ∨ c = '.'
  unmarked : ∀ kind, release.kind = some kind → kind = "release"

theorem Release.isFinal_iff {release : Release} :
    release.isFinal = true ↔ release.Finished := by
  obtain ⟨version, name, kind⟩ := release
  have hfinished : Release.Finished ⟨version, name, kind⟩ ↔
      (name ≠ "" ∧ ∀ c ∈ name.toList, ('0' ≤ c ∧ c ≤ '9') ∨ c = '.') ∧
        ∀ other, kind = some other → other = "release" :=
    ⟨fun h => ⟨⟨h.named, h.numeric⟩, h.unmarked⟩, fun h => ⟨h.1.1, h.1.2, h.2⟩⟩
  rw [hfinished, Release.isFinal]
  cases kind <;> simp

namespace LoadedCorpus
variable {files : FileAccess} {filter : ReleaseFilter} {common : Option (List String)}
  {base directory : String} {release : Release} {document : Document} {version : Version}

/-- The description in a directory tells of a release. -/
def Describes (files : FileAccess) (directory : String) (release : Release) : Prop :=
  ∃ text, files.readText (descriptionPath directory) = .ok text ∧ Release.ofText text = .ok release

/-- The other file in a directory holds a document. -/
def Documents (files : FileAccess) (directory : String) (document : Document) : Prop :=
  ∃ text, files.readText (protocolPath directory) = .ok text ∧ Json.read text = .ok document.root

/-- The list of names in common use, if the filter asks for it: a corpus without the file has none,
and otherwise the names are those that the file lists. -/
def ListsCommon (files : FileAccess) (base : String) (filter : ReleaseFilter) :
    Option (List String) → Prop
  | none => filter.commonOnly = false ∨ files.isFile (commonPath base) = false
  | some names => filter.commonOnly = true ∧ files.isFile (commonPath base) = true ∧
      ∃ text, files.readText (commonPath base) = .ok text ∧ Release.namesOfText text = .ok names

/-- The filter asks for a list that is there, and its text cannot be read or lists no names. -/
def CommonSpoiled (files : FileAccess) (base : String) (filter : ReleaseFilter) : Prop :=
  filter.commonOnly = true ∧ files.isFile (commonPath base) = true ∧
    ∀ text names, files.readText (commonPath base) = .ok text →
      Release.namesOfText text ≠ .ok names

/-- A release is in common use and final, as far as the filter asks for it. -/
structure Passes (filter : ReleaseFilter) (common : Option (List String)) (release : Release) :
    Prop where
  listed : ∀ names, common = some names → release.name ∈ names
  finished : filter.finalOnly = true → release.Finished

/-- A directory has both files of a release, and the release that is described there passes. -/
structure Offers (files : FileAccess) (filter : ReleaseFilter) (common : Option (List String))
    (directory : String) (release : Release) : Prop where
  complete : HasRelease files directory = true
  described : Describes files directory release
  passes : Passes filter common release

theorem readText_eq_ok {path text : String} :
    readText files path = .ok text ↔ files.readText path = .ok text := by
  rw [readText]
  cases files.readText path <;> simp [Except.mapError]

theorem readRelease_eq_ok :
    readRelease files (descriptionPath directory) = .ok release ↔
      Describes files directory release := by
  rw [readRelease, bind_eq_ok, Describes]
  refine exists_congr fun text => and_congr readText_eq_ok ?_
  cases Release.ofText text <;> simp [pure, Except.pure, throw, throwThe, MonadExceptOf.throw]

theorem readDocument_eq_ok :
    readDocument files (protocolPath directory) = .ok document ↔
      Documents files directory document := by
  rw [readDocument, bind_eq_ok, Documents]
  refine exists_congr fun text => and_congr readText_eq_ok ?_
  obtain ⟨root⟩ := document
  cases Json.read text <;> simp [pure, Except.pure, throw, throwThe, MonadExceptOf.throw]

/-- The list of common names as it is read for a filter. -/
def commonList (files : FileAccess) (base : String) (filter : ReleaseFilter) :
    Except ErrorReport (Option (List String)) :=
  if filter.commonOnly then commonNames? files base else .ok none

theorem commonList_eq_ok :
    commonList files base filter = .ok common ↔ ListsCommon files base filter common := by
  rw [commonList]
  cases hasked : filter.commonOnly with
  | false => cases common <;> simp [ListsCommon, hasked]
  | true =>
      rw [if_pos rfl, commonNames?]
      cases hthere : files.isFile (commonPath base) with
      | false => cases common <;> simp [ListsCommon, hasked, hthere, pure, Except.pure]
      | true =>
          simp only [Bool.not_true, Bool.false_eq_true, if_false]
          refine bind_eq_ok.trans ?_
          cases common with
          | none =>
              simp only [ListsCommon, hasked, hthere, Bool.true_eq_false, or_self, iff_false]
              rintro ⟨text, -, h⟩
              split at h <;> cases h
          | some names =>
              simp only [ListsCommon, hasked, hthere, true_and]
              refine exists_congr fun text => and_congr readText_eq_ok ?_
              cases Release.namesOfText text <;>
                simp [pure, Except.pure, throw, throwThe, MonadExceptOf.throw]

theorem commonList_isError_iff :
    (∃ e, commonList files base filter = .error e) ↔ CommonSpoiled files base filter := by
  have hnone : (∃ e, commonList files base filter = .error e) ↔
      ∀ common, ¬ListsCommon files base filter common := by
    simp only [← commonList_eq_ok]
    cases commonList files base filter <;> simp
  rw [hnone, Option.forall, CommonSpoiled]
  simp only [ListsCommon]
  cases filter.commonOnly <;> cases files.isFile (commonPath base) <;> simp
  exact ⟨fun h text names hread => h names text hread, fun h names text hread => h text names hread⟩

theorem rejection?_eq_none :
    rejection? filter common release = none ↔ Passes filter common release := by
  have hlisted : common.any (fun names => !names.contains release.name) = false ↔
      ∀ names, common = some names → release.name ∈ names := by
    cases common <;> simp
  have hfinished : (filter.finalOnly && !release.isFinal) = false ↔
      (filter.finalOnly = true → release.Finished) := by
    rw [← Release.isFinal_iff]
    cases filter.finalOnly <;> simp
  have hpasses : Passes filter common release ↔
      (∀ names, common = some names → release.name ∈ names) ∧
        (filter.finalOnly = true → release.Finished) :=
    ⟨fun h => ⟨h.listed, h.finished⟩, fun h => ⟨h.1, h.2⟩⟩
  rw [hpasses, ← hlisted, ← hfinished, rejection?]
  split
  · simp_all
  · split <;> simp_all

end LoadedCorpus

end VersionGroups
