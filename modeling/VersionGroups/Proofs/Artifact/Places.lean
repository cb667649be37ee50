import VersionGroups.Config.Reader
import VersionGroups.Proofs.Artifact.Retention
import VersionGroups.Proofs.Release.Loading
import VersionGroups.Proofs.Run.Report

/-!
# Where artifacts are written

The file of an artifact and the neighbour through which it is written have names that no other file
of a run has: not the files of a corpus, and not a file that can be read as a configuration. A run
whose generator changes nothing writes under such names only, so it finds its inputs as they were.
-/
namespace VersionGroups

/-- A name that the files of artifacts have, or their neighbours. -/
def ArtifactKey.IsFileName (name : String) : Prop :=
  ∃ v, name = versionFile v ∨ name = versionFile v ++ ".tmp"

/-- A place where only files of artifacts and their neighbours are written. -/
def ArtifactKey.IsPlace (location : Location) : Prop :=
  ∃ folder name, location = folder ++ [name] ∧ IsFileName name

namespace ArtifactKey

theorem not_isPlace {location folder : Location} {name : String}
    (hlocation : location = folder ++ [name]) (h : ¬IsFileName name) : ¬IsPlace location := by
  rintro ⟨folder', name', heq, hname'⟩
  obtain rfl := (List.cons.inj (List.append_inj' (hlocation.symm.trans heq) rfl).2).1
  exact h hname'

theorem IsFileName.getLast? {name : String} (h : IsFileName name) :
    name.toList.getLast? = some 's' ∨ name.toList.getLast? = some 'p' := by
  obtain ⟨v, rfl | rfl⟩ := h
  · exact .inl (getLast?_versionFile v)
  · exact .inr (getLast?_neighbourFile v)

theorem not_isFileName_of_mem {name : String} (h : name ∈ LoadedCorpus.fileNames) :
    ¬IsFileName name := by
  have hlast : ∀ name ∈ LoadedCorpus.fileNames, name.toList.getLast? = some 'n' := by decide
  intro hname
  rcases hname.getLast? with hs | hp
  · cases hs.symm.trans (hlast name h)
  · cases hp.symm.trans (hlast name h)

end ArtifactKey

/-- What follows the last point of a file name ends like the name. -/
theorem Path.getLast?_extension {path extension : String}
    (h : Path.extension? path = some extension) (hfilled : extension ≠ "") :
    ∃ name, Path.fileName? path = some name ∧
      name.toList.getLast? = extension.toList.getLast? := by
  rw [Path.extension?] at h
  cases hname : Path.fileName? path with
  | none =>
      rw [hname] at h
      cases h
  | some name =>
      refine ⟨name, rfl, ?_⟩
      simp only [hname, bind, Option.bind] at h
      split at h
      · cases h
      · cases h
      · obtain rfl := Option.some.inj h
        cases hreverse : name.toList.reverse with
        | nil => simp [hreverse] at hfilled
        | cons c rest =>
            have hlast : name.toList.getLast? = some c := by
              rw [← List.head?_reverse, hreverse]
              rfl
            by_cases hpoint : c = '.'
            · simp [hreverse, hpoint] at hfilled
            · rw [hlast, List.takeWhile_cons_of_pos (by simpa using hpoint)]
              simp

/-- A file that can be read as a configuration has another name than the files of artifacts. -/
theorem ConfigFormat.not_isPlace {path : String} {format : ConfigFormat}
    (h : ConfigFormat.ofPath? path = some format) :
    ¬ArtifactKey.IsPlace (Path.location path) := by
  rw [ofPath?] at h
  cases hextension : Path.extension? path with
  | none =>
      rw [hextension] at h
      cases h
  | some extension =>
      rw [hextension, Option.map_some] at h
      have hlast : (extension.toList.map Char.toLower).getLast? = some 'l' := by
        rw [← String.toList_ofList (l := extension.toList.map Char.toLower)]
        split at h
        case h_4 => cases h
        all_goals
          rename_i hformat
          rw [Option.some.inj hformat]
          rfl
      rw [List.getLast?_map] at hlast
      have hfilled : extension ≠ "" := by
        rintro rfl
        cases hlast
      obtain ⟨name, hname, hend⟩ := Path.getLast?_extension hextension hfilled
      obtain ⟨-, parent, -, -, hlocation, -⟩ := Path.parent?_of_fileName hname
      refine ArtifactKey.not_isPlace hlocation fun hfile => ?_
      rw [← hend] at hlast
      rcases hfile.getLast? with hs | hp
      · rw [hs] at hlast
        exact absurd hlast (by decide)
      · rw [hp] at hlast
        exact absurd hlast (by decide)

namespace ArtifactDirectory
variable {directory : ArtifactDirectory} {key : ArtifactKey} {tree tree' : FileTree}
  {source : String} {result : Except ErrorReport ArtifactHandle}

theorem changesOnly_places (h : directory.store tree key source = (result, tree')) :
    tree.ChangesOnly tree' ArtifactKey.IsPlace := by
  obtain ⟨folder, hplace, hneighbour⟩ := directory.exists_location_pathOf key
  have hfile : ArtifactKey.IsFileName (ArtifactKey.versionFile key.version) := ⟨_, .inl rfl⟩
  have htmp : ArtifactKey.IsFileName (ArtifactKey.versionFile key.version ++ ".tmp") :=
    ⟨_, .inr rfl⟩
  refine (changesOnly_store h).mono fun l hl => ?_
  rcases hl with hl | hl
  · exact ⟨folder, _, hl.trans hneighbour, htmp⟩
  · exact ⟨folder, _, hl.trans hplace, hfile⟩

theorem isSound_store (hsound : tree.IsSound)
    (h : directory.store tree key source = (result, tree')) : tree'.IsSound := by
  rw [store] at h
  split at h
  · cases h
    exact hsound
  · rcases hreplace : tree.replaceFile (directory.pathOf key) source with ⟨_ | _, tree₁⟩ <;>
      simp only [hreplace] at h <;> cases h <;>
      exact hsound.replaceFile (directory.fileName?_pathOf key) hreplace

/-- The trees that recording artifacts and generating sources lead to. -/
inductive Leads (directory : ArtifactDirectory) (generator : Option (Generator FileTree))
    (tree : FileTree) : FileTree → Prop
  | start : Leads directory generator tree tree
  | record {after : FileTree} (key : ArtifactKey) (source : String) :
      Leads directory generator tree after →
        Leads directory generator tree (directory.store after key source).2
  | generate {after : FileTree} {g : Generator FileTree} (request : GenerationRequest) :
      g ∈ generator → Leads directory generator tree after →
        Leads directory generator tree (g request after).2

theorem leads_run {generator : Option (Generator FileTree)} (runId : String) (corpus : Corpus)
    (config : SlotConfig) :
    directory.Leads generator tree
      (run runId directory.memo generator corpus config tree).content :=
  run_keeps (directory.Leads generator tree) (fun _ key source => .record key source)
    (fun _ hg request _ => .generate request hg) .start

/-- A generator changes no file, whatever artifacts have been recorded; it may make directories. -/
def Spares (directory : ArtifactDirectory) (generator : Option (Generator FileTree))
    (tree : FileTree) : Prop :=
  ∀ g ∈ generator, ∀ request after, directory.Leads generator tree after →
    (after.ChangesOnly (g request after).2 fun _ => False) ∧
      (after.IsSound → (g request after).2.IsSound)

/-- With a generator that changes no file, only places of artifacts change. -/
theorem Leads.changes {generator : Option (Generator FileTree)} {after : FileTree}
    (h : directory.Leads generator tree after) (hspares : directory.Spares generator tree) :
    tree.ChangesOnly after ArtifactKey.IsPlace ∧ (tree.IsSound → after.IsSound) := by
  induction h with
  | start => exact ⟨.refl tree _, id⟩
  | @record after key source _ ih =>
      have hstore := (Prod.mk.eta (p := directory.store after key source)).symm
      exact ⟨ih.1.trans (changesOnly_places hstore), fun h => isSound_store (ih.2 h) hstore⟩
  | generate request hg hafter ih =>
      obtain ⟨hchanges, hsound⟩ := hspares _ hg request _ hafter
      exact ⟨ih.1.trans (hchanges.mono fun _ => False.elim), fun h => hsound (ih.2 h)⟩

end ArtifactDirectory

end VersionGroups
