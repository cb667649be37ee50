import VersionGroups.Proofs.Files.Changes

/-!
# Trees in which everything lies in a directory

In a sound tree whatever is somewhere has a name and lies in a directory. Making directories,
writing files and replacing them keep a tree sound, so a tree that was filled from a disk in this
way is sound. Below a place that a path leads to, a sound tree is read as it says: a path that goes
on with the names of what is there finds it, if the names and the path are short enough.
-/
namespace VersionGroups

/-- A path goes on from another one through some names. -/
structure Path.Continues (path base : String) (names : List String) : Prop where
  pieces : Path.pieces path = Path.pieces base ++ names
  absolute : Path.isAbsolute path = Path.isAbsolute base
  ends : names ≠ [] → Path.endsWithSlash path = false
  named : ∀ name ∈ names, Path.IsName name

namespace Path.Continues
variable {path base name : String} {names : List String}

theorem refl (base : String) : Path.Continues base base [] where
  pieces := (List.append_nil _).symm
  absolute := rfl
  ends h := absurd rfl h
  named _ h := by cases h

theorem join (h : Path.Continues path base names) (hname : Path.IsName name) :
    Path.Continues (Path.join path name) base (names ++ [name]) where
  pieces := by
    rw [Path.pieces_join hname.isAbsolute_eq, hname.pieces_eq, h.pieces, List.append_assoc]
  absolute := (Path.isAbsolute_join hname.isAbsolute_eq).trans h.absolute
  ends _ := (Path.endsWithSlash_join hname.filled).trans hname.endsWithSlash_eq
  named := by
    intro piece hpiece
    rcases List.mem_append.mp hpiece with hpiece | hpiece
    · exact h.named piece hpiece
    · exact List.mem_singleton.mp hpiece ▸ hname

theorem location_eq (h : Path.Continues path base names) :
    Path.location path = Path.location base ++ names := by
  rw [Path.location, h.pieces, List.foldl_append, FileTree.origin, h.absolute]
  exact FileTree.foldl_advance h.named

end Path.Continues

namespace FileTree
variable {tree tree' : FileTree} {location folder : Location} {path base name text : String}
  {names : List String}

/-- Whatever is in the tree has a name and lies in a directory. -/
def IsSound (tree : FileTree) : Prop :=
  ∀ location name, location ++ [name] ≠ root → tree.entry? (location ++ [name]) ≠ none →
    Path.IsName name ∧ tree.entry? location = some .directory

theorem isSound_empty : IsSound empty := by
  intro location name hroot hthere
  rw [entry_concat hroot] at hthere
  exact absurd rfl hthere

theorem entry_folder_of_locate (hlocate : tree.locate path = .ok (Path.location path))
    (hpath : Path.location path = folder ++ [name]) : tree.entry? folder = some .directory := by
  have hne : folder ≠ Path.location path := hpath ▸ ne_concat_of_isPrefix List.prefix_rfl name
  exact (isReached_of_locate hlocate).above folder (hpath ▸ List.prefix_append _ _) hne

namespace IsSound

theorem above (h : tree.IsSound) (hthere : tree.entry? location ≠ none) {l : Location}
    (hl : l <+: location) (hne : l ≠ location) : tree.entry? l = some .directory := by
  induction location using List.reverseRecOn with
  | nil => exact absurd (List.prefix_nil.mp hl) hne
  | append_singleton front name ih =>
      have hfront : tree.entry? front = some .directory := by
        by_cases hroot : front ++ [name] = root
        · have hsplit : front ++ [name] = [] ++ ["/"] := hroot
          exact entry_of_fixed (.inl (List.append_inj' hsplit rfl).1)
        · exact (h front name hroot hthere).2
      rcases List.prefix_concat_iff.mp hl with heq | hl
      · exact absurd heq hne
      · by_cases heq : l = front
        · exact heq ▸ hfront
        · exact ih (by simp [hfront]) hl heq

theorem entry_above (h : tree.IsSound) (hdirectory : tree.entry? location = some .directory) :
    tree.entry? (FileTree.above location) = some .directory := by
  rw [FileTree.above]
  split
  · exact entry_of_fixed (.inr rfl)
  · rename_i hfree
    have hne : location ≠ [] := fun hnil => hfree (.inl hnil)
    refine h.above (by simp [hdirectory]) (List.dropLast_prefix location) fun heq => ?_
    have hlength := congrArg List.length heq
    have hpos := List.length_pos_iff.mpr hne
    rw [List.length_dropLast] at hlength
    omega

theorem put {entry : FileEntry} (h : tree.IsSound) (hname : Path.IsName name)
    (hfolder : tree.entry? folder = some .directory)
    (hfree : tree.entry? (folder ++ [name]) ≠ some .directory) :
    (tree.put (folder ++ [name]) entry).IsSound := by
  have hkeeps : tree.KeepsDirectories (tree.put (folder ++ [name]) entry) :=
    keepsDirectories_put hfree
  intro l n hroot hthere
  by_cases heq : l ++ [n] = folder ++ [name]
  · obtain ⟨rfl, hn⟩ := List.append_inj' heq rfl
    obtain rfl := (List.cons.inj hn).1
    exact ⟨hname, hkeeps _ hfolder⟩
  · rw [entry_put_of_ne heq] at hthere
    exact (h l n hroot hthere).imp_right (hkeeps _)

theorem drop (h : tree.IsSound) (hfile : tree.entry? location ≠ some .directory) :
    FileTree.IsSound (tree.drop (· == location)) := by
  intro l n hroot hthere
  by_cases heq : l ++ [n] = location
  · rw [heq, entry_drop_self hfile] at hthere
    exact absurd rfl hthere
  · rw [entry_drop_of_ne heq] at hthere
    exact (h l n hroot hthere).imp_right (keepsDirectories_drop hfile _)

/-- A step from a directory to what is none has added a name. -/
theorem step_down (h : tree.IsSound) (hpiece : Path.IsPiece name)
    (hdirectory : tree.entry? location = some .directory)
    (hother : tree.entry? (advance location name) ≠ some .directory) :
    Path.IsName name ∧ advance location name = location ++ [name] := by
  have hstay : name ≠ "." := by
    rintro rfl
    exact hother hdirectory
  have hdown : name ≠ ".." := by
    rintro rfl
    exact hother (h.entry_above hdirectory)
  exact ⟨⟨hpiece, hstay, hdown⟩, by rw [advance, if_neg hstay, if_neg hdown]⟩

theorem makeDirectoriesAt {result : Except AccessError Unit} (h : tree.IsSound)
    (hnames : ∀ name ∈ names, Path.IsPiece name)
    (hmake : FileTree.makeDirectoriesAt location names tree = (result, tree')) :
    tree'.IsSound := by
  induction names generalizing tree location with
  | nil =>
      cases hmake
      exact h
  | cons name rest ih =>
      obtain ⟨hpiece, hrest⟩ := List.forall_mem_cons.mp hnames
      rw [FileTree.makeDirectoriesAt] at hmake
      split at hmake
      · cases hmake
        exact h
      · rename_i next hstep
        obtain ⟨hdirectory, rfl⟩ := step_ok hstep
        split at hmake
        · exact ih h hrest hmake
        · cases hmake
          exact h
        · rename_i hnone
          obtain ⟨hname, hnext⟩ := h.step_down hpiece hdirectory (by simp [hnone])
          rw [hnext] at hmake hnone
          exact ih (h.put hname hdirectory (by simp [hnone])) hrest hmake

theorem makeDirectories {result : Except AccessError Unit} (h : tree.IsSound)
    (hmake : FileTree.makeDirectories path tree = (result, tree')) : tree'.IsSound := by
  rw [FileTree.makeDirectories] at hmake
  split at hmake
  · exact h.makeDirectoriesAt (fun _ => Path.isPiece_of_mem_pieces) hmake
  · cases hmake
    exact h

theorem makeParent {result : Except AccessError Unit} (h : tree.IsSound)
    (hmake : FileTree.makeParent path tree = (result, tree')) : tree'.IsSound := by
  unfold FileTree.makeParent at hmake
  cases hparent : Path.parent? path with
  | none =>
      simp only [hparent] at hmake
      cases hmake
      exact h
  | some parent =>
      simp only [hparent] at hmake
      exact h.makeDirectories hmake

/-- What a path leads to has a name and lies in a directory, unless it is a directory itself. -/
theorem exists_name_of_locate (h : tree.IsSound) (hlocate : tree.locate path = .ok location)
    (hother : tree.entry? location ≠ some .directory) :
    ∃ folder name, location = folder ++ [name] ∧ Path.IsName name ∧
      tree.entry? folder = some .directory := by
  obtain ⟨-, -, last, hlast, hend⟩ := locate_eq_ok.mp hlocate
  obtain rfl : last = location := by
    split at hend
    · obtain ⟨hdirectory, rfl⟩ := step_ok hend
      exact absurd hdirectory hother
    · exact Except.ok.inj hend
  rcases List.eq_nil_or_concat (Path.pieces path) with hnil | ⟨front, name, hpieces⟩
  · rw [hnil] at hlast
    obtain rfl := Except.ok.inj hlast
    exact absurd (entry_origin path) hother
  · rw [hpieces, List.concat_eq_append, List.foldlM_append] at hlast
    obtain ⟨folder, -, hstep⟩ := bind_eq_ok.mp hlast
    rw [List.foldlM_cons] at hstep
    obtain ⟨next, hnext, hnil⟩ := bind_eq_ok.mp hstep
    obtain rfl := Except.ok.inj hnil
    obtain ⟨hdirectory, rfl⟩ := step_ok hnext
    have hpiece : name ∈ Path.pieces path := by simp [hpieces]
    obtain ⟨hname, hplace⟩ :=
      h.step_down (Path.isPiece_of_mem_pieces hpiece) hdirectory hother
    exact ⟨folder, name, hplace, hname, hdirectory⟩

/-- A sound tree in which a file was written, or could not be, is sound. -/
theorem write {bytes : ByteArray} {result : Except AccessError Unit} (h : tree.IsSound)
    (hwrite : FileTree.write path bytes tree = (result, tree')) : tree'.IsSound := by
  cases result with
  | error e => exact write_eq_error hwrite ▸ h
  | ok =>
      obtain ⟨hlocate, hother, rfl⟩ := write_eq_ok.mp hwrite
      obtain ⟨folder, name, hplace, hname, hdirectory⟩ := h.exists_name_of_locate hlocate hother
      rw [hplace] at hother ⊢
      exact h.put hname hdirectory hother

/-- A sound tree in which a file was replaced, or could not be, is sound. -/
theorem replaceFile {result : Except ErrorReport Unit} (h : tree.IsSound)
    (hfile : Path.fileName? path = some name)
    (hreplace : tree.replaceFile path text = (result, tree')) : tree'.IsSound := by
  obtain ⟨hname, parent, hparent, -, hlocation, -⟩ := Path.parent?_of_fileName hfile
  have hneighbour := location_neighbour hfile hparent
  have hne := location_neighbour_ne hfile
  obtain ⟨made, around, hmake, hcases⟩ := replaceFile_cases hreplace
  have haround := h.makeParent hmake
  rcases hcases with ⟨-, rfl⟩ | ⟨beside, hwrite, hcases⟩
  · exact haround
  · obtain ⟨hlocate, hfree, rfl⟩ := write_eq_ok.mp hwrite
    have hfolder := entry_folder_of_locate hlocate hneighbour
    rw [hneighbour] at hfree hcases hne
    have hbeside : FileTree.IsSound
        (around.put (Path.location parent ++ [name ++ ".tmp"]) (.file text.toUTF8)) :=
      haround.put (isName_tmp hname) hfolder hfree
    rcases hcases with ⟨-, rfl⟩ | ⟨-, hmove⟩
    · exact hbeside
    · obtain ⟨-, -, hnew, bytes, hbytes, rfl⟩ := move_eq_ok.mp hmove
      rw [hneighbour] at hbytes ⊢
      have hdropped := hbeside.drop fun hdirectory => by cases hbytes.symm.trans hdirectory
      rw [hlocation] at hnew hne ⊢
      refine hdropped.put hname ?_ ?_
      · rw [entry_drop_of_ne, entry_put_of_ne]
        · exact hfolder
        all_goals
          intro heq
          have hlength := congrArg List.length heq
          simp at hlength
      · rw [entry_drop_of_ne hne.symm]
        exact hnew

/-- What lies below a place that a path leads to is found under its names. -/
theorem find_iff (h : tree.IsSound) (hbase : tree.locate base = .ok (Path.location base))
    (hpath : Path.Continues path base (names ++ [name])) {entry : FileEntry} :
    tree.find path = .ok entry ↔ isUsable path = true ∧
      (∀ piece ∈ names ++ [name], piece.utf8ByteSize ≤ longestName) ∧
        tree.entry? (Path.location path) = some entry := by
  have hlocation := hpath.location_eq
  rw [find_eq_ok]
  constructor
  · rintro ⟨hlocate, hentry⟩
    refine ⟨(locate_eq_ok.mp hlocate).2.1, fun piece hpiece => ?_, hentry⟩
    refine (isReached_of_locate hlocate).short piece ?_
    rw [hlocation]
    exact List.mem_append_right _ hpiece
  · rintro ⟨husable, hshort, hentry⟩
    refine ⟨?_, hentry⟩
    obtain ⟨-, -, last, hlast, hend⟩ := locate_eq_ok.mp hbase
    obtain rfl : last = Path.location base := foldlM_step_ok hlast
    have hdown : ".." ∉ names := fun hmem =>
      (hpath.named ".." (List.mem_append_left _ hmem)).down rfl
    have hway : ∀ l ∈ way (Path.location base) names, tree.entry? l = some .directory := by
      intro l hl
      have hto := ((mem_way_iff hdown).mp hl).2
      rw [foldl_advance fun n hn => hpath.named n (List.mem_append_left _ hn)] at hto
      have hthere : tree.entry? (Path.location path) ≠ none := by simp [hentry]
      rw [hlocation, ← List.append_assoc] at hthere
      exact h.above hthere (hto.trans (List.prefix_append _ _)) (ne_concat_of_isPrefix hto name)
    have hsteps := foldlM_step_of_way hway hshort
    rw [foldl_advance hpath.named, ← hlocation] at hsteps
    refine locate_eq_ok.mpr ⟨?_, husable, Path.location path, ?_, ?_⟩
    · rintro rfl
      have hpieces := hpath.pieces
      simp at hpieces
    · rw [hpath.pieces, List.foldlM_append, origin, hpath.absolute]
      exact bind_eq_ok.mpr ⟨_, hlast, hsteps⟩
    · rw [hpath.ends (by simp), if_neg Bool.false_ne_true]

end IsSound

/-- The tree of some files, each written into a directory that was made for it. -/
def ofFiles (files : List (String × String)) : FileTree :=
  files.foldl (fun tree f => (write f.1 f.2.toUTF8 (makeParent f.1 tree).2).2) empty

theorem isSound_ofFiles (files : List (String × String)) : (ofFiles files).IsSound := by
  refine List.foldlRecOn files _ isSound_empty fun tree h f _ => ?_
  have haround := h.makeParent (Prod.mk.eta (p := makeParent f.1 tree)).symm
  exact haround.write Prod.mk.eta.symm

/-- Two sound trees that differ at other places have the same file below a directory. -/
theorem ChangesOnly.find_file_iff {places : Location → Prop} {bytes : ByteArray}
    (h : tree.ChangesOnly tree' places) (hsound : tree.IsSound) (hsound' : tree'.IsSound)
    (hbase : tree.locate base = .ok (Path.location base))
    (hpath : Path.Continues path base (names ++ [name])) (hplace : ¬places (Path.location path)) :
    tree'.find path = .ok (.file bytes) ↔ tree.find path = .ok (.file bytes) := by
  rw [hsound'.find_iff (h.directories.locate hbase) hpath, hsound.find_iff hbase hpath,
    h.file_iff hplace]

end FileTree

end VersionGroups
