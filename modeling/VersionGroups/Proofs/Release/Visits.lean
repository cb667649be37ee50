import VersionGroups.Proofs.Release.Offers

/-!
# Visits to the directories of a corpus

A visit to a directory skips it, for a reason that holds of it, or loads the release that the
directory offers, if no release of the same version has been loaded. Whether it fails is a matter of
the directory alone. So visits to some directories account for each of them once, and each version
comes from the first directory that offers a release of it.
-/
namespace VersionGroups.LoadedCorpus
variable {files : FileAccess} {filter : ReleaseFilter} {common : Option (List String)}
  {base directory : String} {names before : List String} {loaded loaded' : LoadedCorpus}
  {release : Release} {version : Version}

/-- The release that a directory offers, if it offers one. -/
def offer? (files : FileAccess) (filter : ReleaseFilter) (common : Option (List String))
    (directory : String) : Option Release :=
  if HasRelease files directory then
    (readRelease files (descriptionPath directory)).toOption.filter fun release =>
      (rejection? filter common release).isNone
  else none

def claims (files : FileAccess) (filter : ReleaseFilter) (common : Option (List String))
    (version : Version) (directory : String) : Bool :=
  (offer? files filter common directory).any (·.version == version)

/-- A directory has both files of a release, but no release is described there, or it offers a
release and there is no document. -/
def Spoiled (files : FileAccess) (filter : ReleaseFilter) (common : Option (List String))
    (directory : String) : Prop :=
  HasRelease files directory = true ∧
    ((∀ release, ¬Describes files directory release) ∨
      (∃ release, Offers files filter common directory release) ∧
        ∀ document, ¬Documents files directory document)

/-- A reason for which a directory is skipped holds of it. -/
def Justified (files : FileAccess) (filter : ReleaseFilter) (common : Option (List String))
    (versions : Table Version String) (directory : String) : SkipReason → Prop
  | .missingFiles => HasRelease files directory = false
  | .notCommon => HasRelease files directory = true ∧
      ∃ release names, Describes files directory release ∧
        common = some names ∧ release.name ∉ names
  | .notFinal => HasRelease files directory = true ∧
      ∃ release, Describes files directory release ∧
        (∀ names, common = some names → release.name ∈ names) ∧
          filter.finalOnly = true ∧ ¬release.Finished
  | .duplicate kept => ∃ release, Offers files filter common directory release ∧
      versions.get? release.version = some kept

/-- What a visit to a directory makes of what has been loaded. -/
inductive Visited (files : FileAccess) (filter : ReleaseFilter) (common : Option (List String))
    (loaded : LoadedCorpus) (directory : String) : LoadedCorpus → Prop
  | skipped (reason : SkipReason)
      (justified : Justified files filter common loaded.versions directory reason) :
      Visited files filter common loaded directory (loaded.skip directory reason)
  | taken (release : Release) (document : Document)
      (offered : Offers files filter common directory release)
      (read : Documents files directory document)
      (fresh : loaded.versions.get? release.version = none) :
      Visited files filter common loaded directory (loaded.take directory release document)

theorem justified_of_rejection? {versions : Table Version String} {reason : SkipReason}
    (hfiles : HasRelease files directory = true) (hread : Describes files directory release)
    (h : rejection? filter common release = some reason) :
    Justified files filter common versions directory reason := by
  rw [rejection?] at h
  split at h
  · rename_i hcommon
    obtain rfl := Option.some.inj h
    cases common with
    | none => cases hcommon
    | some names => exact ⟨hfiles, release, names, hread, rfl, by simpa using hcommon⟩
  · rename_i hcommon
    split at h
    · rename_i hfinal
      obtain rfl := Option.some.inj h
      obtain ⟨hasked, hfinal⟩ := Bool.and_eq_true_iff.mp hfinal
      rw [Bool.not_eq_true', ← Bool.not_eq_true, Release.isFinal_iff] at hfinal
      refine ⟨hfiles, release, hread, ?_, hasked, hfinal⟩
      rintro names rfl
      simpa using hcommon
    · cases h

theorem offer?_eq_some :
    offer? files filter common directory = some release ↔
      Offers files filter common directory release := by
  have hoffers : Offers files filter common directory release ↔
      HasRelease files directory = true ∧
        readRelease files (descriptionPath directory) = .ok release ∧
          rejection? filter common release = none := by
    rw [readRelease_eq_ok, rejection?_eq_none]
    exact ⟨fun h => ⟨h.complete, h.described, h.passes⟩, fun h => ⟨h.1, h.2.1, h.2.2⟩⟩
  rw [hoffers, offer?]
  cases HasRelease files directory with
  | false => simp
  | true =>
      cases readRelease files (descriptionPath directory) with
      | error e => simp [Except.toOption]
      | ok found =>
          simp only [Except.toOption, if_true, Option.filter_eq_some_iff, Option.some.injEq,
            Option.isNone_iff_eq_none, Except.ok.injEq, true_and]

/-- A visit that succeeds skips the directory for a reason or takes what it offers. -/
theorem visited_of_visit (h : visit files filter common loaded directory = .ok loaded') :
    Visited files filter common loaded directory loaded' := by
  rw [visit_eq] at h
  cases hfiles : HasRelease files directory with
  | false =>
      rw [hfiles] at h
      obtain rfl := Except.ok.inj h
      exact .skipped .missingFiles hfiles
  | true =>
      rw [hfiles, if_pos rfl] at h
      obtain ⟨release, hread, h⟩ := bind_eq_ok.mp h
      have hdescribed := readRelease_eq_ok.mp hread
      split at h
      · rename_i reason hrejection
        obtain rfl := Except.ok.inj h
        exact .skipped reason (justified_of_rejection? hfiles hdescribed hrejection)
      · rename_i hpasses
        have hoffer : Offers files filter common directory release :=
          ⟨hfiles, hdescribed, rejection?_eq_none.mp hpasses⟩
        obtain ⟨document, hdocument, h⟩ := bind_eq_ok.mp h
        split at h
        · rename_i kept hkept
          obtain rfl := Except.ok.inj h
          exact .skipped (.duplicate kept) ⟨release, hoffer, hkept⟩
        · rename_i hfresh
          obtain rfl := Except.ok.inj h
          exact .taken release document hoffer (readDocument_eq_ok.mp hdocument) hfresh

/-- Whether a visit fails is a matter of the directory alone. -/
theorem visit_isError_iff (loaded : LoadedCorpus) (directory : String) :
    (∃ e, visit files filter common loaded directory = .error e) ↔
      Spoiled files filter common directory := by
  -- What has been loaded is looked at only after both files have been read.
  rw [visit_eq, Spoiled]
  simp only [← readRelease_eq_ok, ← readDocument_eq_ok, ← offer?_eq_some, offer?]
  cases HasRelease files directory with
  | false => simp
  | true =>
      cases readRelease files (descriptionPath directory) with
      | error e => simp [bind, Except.bind]
      | ok release =>
          cases hrejection : rejection? filter common release with
          | some reason => simp [bind, Except.bind, hrejection, Except.toOption]
          | none =>
              cases readDocument files (protocolPath directory) with
              | error e => simp [bind, Except.bind, hrejection, Except.toOption]
              | ok document =>
                  cases hkept : loaded.versions.get? release.version <;>
                    simp [bind, Except.bind, hrejection, hkept, Except.toOption]

def origins (loaded : LoadedCorpus) : List String := loaded.versions.values

/-- What has been loaded and skipped after visits to some directories. -/
structure Accounts (files : FileAccess) (filter : ReleaseFilter) (common : Option (List String))
    (before : List String) (loaded : LoadedCorpus) : Prop where
  once : (loaded.origins ++ loaded.skipped.map Prod.fst).Perm before
  ordered : (loaded.skipped.map Prod.fst).Sublist before
  first : ∀ version,
    loaded.versions.get? version = before.find? (claims files filter common version)
  read : ∀ version origin, loaded.versions.get? version = some origin →
    ∃ release document, Offers files filter common origin release ∧
      Documents files origin document ∧
        loaded.names.get? version = some release.name ∧
          loaded.corpus.get? version = some document
  named : ∀ version, (loaded.names.get? version).isSome = (loaded.versions.get? version).isSome
  documented : ∀ version,
    (loaded.corpus.get? version).isSome = (loaded.versions.get? version).isSome
  justified : ∀ skip ∈ loaded.skipped,
    Justified files filter common loaded.versions skip.1 skip.2

theorem claims_iff : claims files filter common version directory = true ↔
    ∃ release, Offers files filter common directory release ∧ release.version = version := by
  simp [claims, Option.any_eq_true, offer?_eq_some]

theorem accounts_empty : Accounts files filter common [] empty where
  once := .refl _
  ordered := .slnil
  first _ := rfl
  read _ _ h := by cases h
  named _ := rfl
  documented _ := rfl
  justified _ h := by cases h

theorem Offers.unique {release' : Release} (h : Offers files filter common directory release)
    (h' : Offers files filter common directory release') : release = release' :=
  Option.some.inj ((offer?_eq_some.mpr h).symm.trans (offer?_eq_some.mpr h'))

theorem Describes.unique {release' : Release} (h : Describes files directory release)
    (h' : Describes files directory release') : release = release' :=
  Except.ok.inj ((readRelease_eq_ok.mpr h).symm.trans (readRelease_eq_ok.mpr h'))

/-- A directory that is skipped claims no version, or one that is loaded. -/
theorem Justified.loaded_of_claims {versions : Table Version String} {reason : SkipReason}
    (h : Justified files filter common versions directory reason)
    (hclaims : claims files filter common version directory = true) :
    (versions.get? version).isSome = true := by
  obtain ⟨release, hoffer, rfl⟩ := claims_iff.mp hclaims
  cases reason with
  | missingFiles => cases hoffer.complete.symm.trans h
  | notCommon =>
      obtain ⟨-, release', names, hdescribed, hcommon, hname⟩ := h
      obtain rfl := hoffer.described.unique hdescribed
      exact absurd (hoffer.passes.listed names hcommon) hname
  | notFinal =>
      obtain ⟨-, release', hdescribed, -, hasked, hfinished⟩ := h
      obtain rfl := hoffer.described.unique hdescribed
      exact absurd (hoffer.passes.finished hasked) hfinished
  | duplicate kept =>
      obtain ⟨release', hoffer', hkept⟩ := h
      obtain rfl := hoffer.unique hoffer'
      rw [hkept]
      rfl

/-- A reason for which a directory was skipped stays when one more version is loaded. -/
theorem Justified.insert {versions : Table Version String} {reason : SkipReason}
    (h : Justified files filter common versions directory reason)
    (hfresh : versions.get? version = none) (origin : String) :
    Justified files filter common (versions.insert version origin) directory reason := by
  cases reason with
  | duplicate kept =>
      obtain ⟨release, hoffer, hkept⟩ := h
      have hne : release.version ≠ version := by
        rintro rfl
        cases hkept.symm.trans hfresh
      exact ⟨release, hoffer, by rw [Table.get?_insert_of_ne hne, hkept]⟩
  | _ => exact h

theorem Accounts.skip {reason : SkipReason} (h : Accounts files filter common before loaded)
    (hreason : Justified files filter common loaded.versions directory reason) :
    Accounts files filter common (before ++ [directory]) (loaded.skip directory reason) where
  once := by
    have hdirectories : (loaded.skip directory reason).skipped.map Prod.fst =
        loaded.skipped.map Prod.fst ++ [directory] := by simp [LoadedCorpus.skip]
    rw [hdirectories, ← List.append_assoc]
    exact h.once.append_right _
  ordered := by
    simpa [LoadedCorpus.skip] using h.ordered.append (List.Sublist.refl [directory])
  first version := by
    -- A directory that is skipped can only claim what a directory before it claimed.
    rw [List.find?_append, ← h.first version]
    cases hclaims : claims files filter common version directory with
    | false => simp [LoadedCorpus.skip, hclaims]
    | true =>
        obtain ⟨entry, hentry⟩ := Option.isSome_iff_exists.mp (hreason.loaded_of_claims hclaims)
        simp [LoadedCorpus.skip, hentry]
  read := h.read
  named := h.named
  documented := h.documented
  justified := by
    intro skip hskip
    rcases List.mem_append.mp hskip with hskip | hskip
    · exact h.justified skip hskip
    · obtain rfl := List.mem_singleton.mp hskip
      exact hreason

/-- A table in which one more version is known knows it and what it knew before. -/
theorem isSome_insert {α β : Type} {t : Table Version α} {u : Table Version β}
    (h : ∀ version, (t.get? version).isSome = (u.get? version).isSome) (new : Version) (a : α)
    (b : β) (version : Version) :
    ((t.insert new a).get? version).isSome = ((u.insert new b).get? version).isSome := by
  rw [Table.get?_insert, Table.get?_insert]
  split
  · rfl
  · exact h version

theorem Accounts.take {document : Document} (h : Accounts files filter common before loaded)
    (hoffer : Offers files filter common directory release)
    (hread : Documents files directory document)
    (hfresh : loaded.versions.get? release.version = none) :
    Accounts files filter common (before ++ [directory])
      (loaded.take directory release document) where
  once := by
    have horigins := Table.values_insert hfresh directory
    exact (horigins.append_right _).trans ((h.once.cons directory).trans
      (List.perm_append_singleton directory before).symm)
  ordered := h.ordered.trans (List.sublist_append_left _ _)
  first version := by
    -- No directory before it claimed the version that is new, and it claims no other one.
    rw [List.find?_append, ← h.first version, LoadedCorpus.take]
    by_cases hversion : version = release.version
    · subst hversion
      have hclaims : claims files filter common release.version directory = true :=
        claims_iff.mpr ⟨release, hoffer, rfl⟩
      simp [hfresh, hclaims]
    · have hclaims : claims files filter common version directory = false := by
        simp [claims, offer?_eq_some.mpr hoffer, Ne.symm hversion]
      simp [Table.get?_insert_of_ne hversion, hclaims]
  read := by
    intro version origin horigin
    by_cases hversion : version = release.version
    · subst hversion
      obtain rfl := Option.some.inj ((Table.get?_insert_self _ _ _).symm.trans horigin)
      exact ⟨release, document, hoffer, hread, Table.get?_insert_self .., Table.get?_insert_self ..⟩
    · simp only [LoadedCorpus.take, Table.get?_insert_of_ne hversion] at horigin ⊢
      exact h.read version origin horigin
  named := isSome_insert h.named _ _ _
  documented := isSome_insert h.documented _ _ _
  justified skip hskip := (h.justified skip hskip).insert hfresh _

theorem Accounts.visit (h : Accounts files filter common before loaded)
    (hvisit : visit files filter common loaded directory = .ok loaded') :
    Accounts files filter common (before ++ [directory]) loaded' := by
  cases visited_of_visit hvisit with
  | skipped reason hreason => exact h.skip hreason
  | taken release document hoffer hread hfresh => exact h.take hoffer hread hfresh

/-- The sub-directories among the names that a directory has, in the order of the visit. -/
def subdirectories (files : FileAccess) (base : String) (names : List String) : List String :=
  ((ordered names).map (Path.join base)).filter files.isDirectory

theorem accounts_visitAll (h : visitAll files base filter common names = .ok loaded) :
    Accounts files filter common (subdirectories files base names) loaded :=
  foldlM_keeps (fun _ _ _ _ _ _ hs hstep => hs.visit hstep) (List.nil_append _).symm
    accounts_empty h

theorem visitAll_isError_iff : (∃ e, visitAll files base filter common names = .error e) ↔
    ∃ directory ∈ subdirectories files base names, Spoiled files filter common directory :=
  foldlM_isError_iff visit_isError_iff

end VersionGroups.LoadedCorpus
