import VersionGroups.Proofs.Files.Replacement

/-!
# When a file can be replaced

A path that never goes up leads down through all locations between where it begins and where it
ends. If none of those on the way to a file is a file itself, their directories can be made; if the
names are short enough and neither the file nor its neighbour is a directory, the file can then be
replaced.
-/
namespace VersionGroups

/-- A path that can be looked up wherever its directories are. -/
structure Path.Fits (path : String) : Prop where
  usable : FileTree.isUsable path = true
  short : ∀ piece ∈ Path.pieces path, piece.utf8ByteSize ≤ FileTree.longestName

instance : DecidablePred Path.Fits := fun _ =>
  decidable_of_iff (_ ∧ _) ⟨fun h => ⟨h.1, h.2⟩, fun h => ⟨h.usable, h.short⟩⟩

namespace FileTree
variable {tree : FileTree} {location other : Location} {path : String} {names : List String}

/-- Names that do not go up lead down. -/
theorem mem_way_iff (h : ".." ∉ names) :
    other ∈ way location names ↔ location <+: other ∧ other <+: names.foldl advance location := by
  induction names generalizing location other with
  | nil =>
      rw [way, List.scanl_nil, List.mem_singleton, List.foldl_nil]
      constructor
      · rintro rfl
        exact ⟨List.prefix_rfl, List.prefix_rfl⟩
      · rintro ⟨hfrom, hto⟩
        exact hto.eq_of_length_le hfrom.length_le
  | cons name rest ih =>
      obtain ⟨hname, hrest⟩ := not_or.mp fun hmem => h (List.mem_cons.mpr hmem)
      have hend : advance location name <+: rest.foldl advance (advance location name) :=
        ((ih hrest).mp mem_way_self).2
      rw [way_cons, List.mem_cons, ih hrest, List.foldl_cons]
      by_cases hstay : name = "."
      · have hsame : advance location name = location := if_pos hstay
        rw [hsame] at hend ⊢
        constructor
        · rintro (rfl | hbetween)
          · exact ⟨List.prefix_rfl, hend⟩
          · exact hbetween
        · exact .inr
      · have hdown : advance location name = location ++ [name] := by
          rw [advance, if_neg hstay, if_neg fun hup => hname hup.symm]
        rw [hdown] at hend ⊢
        have hstart : location <+: location ++ [name] := List.prefix_append _ _
        constructor
        · rintro (rfl | ⟨hfrom, hto⟩)
          · exact ⟨List.prefix_rfl, hstart.trans hend⟩
          · exact ⟨hstart.trans hfrom, hto⟩
        · rintro ⟨hfrom, hto⟩
          by_cases heq : other = location
          · exact .inl heq
          · refine .inr ⟨List.prefix_of_prefix_length_le hend hto ?_, hto⟩
            have hlt : location.length < other.length := by
              refine lt_of_le_of_ne hfrom.length_le fun hlength => heq ?_
              exact (hfrom.eq_of_length hlength).symm
            rw [List.length_append, List.length_singleton]
            omega

theorem step_of_directory {name : String} (hentry : tree.entry? location = some .directory)
    (hshort : name.utf8ByteSize ≤ longestName) :
    tree.step location name = .ok (advance location name) := by
  rw [step, hentry, advance]
  dsimp only
  split
  · rfl
  · split
    · rfl
    · rw [if_neg (Nat.not_lt.mpr hshort)]

/-- Names can be looked up one after the other where the way is one of directories. -/
theorem foldlM_step_of_way {name : String}
    (hway : ∀ l ∈ way location names, tree.entry? l = some .directory)
    (hshort : ∀ piece ∈ names ++ [name], piece.utf8ByteSize ≤ longestName) :
    (names ++ [name]).foldlM tree.step location =
      .ok ((names ++ [name]).foldl advance location) := by
  induction names generalizing location with
  | nil =>
      have hstep := step_of_directory (hway location mem_way_self) (hshort name (by simp))
      exact bind_eq_ok.mpr ⟨_, hstep, rfl⟩
  | cons first rest ih =>
      obtain ⟨hfirst, hrest⟩ := List.forall_mem_cons.mp hshort
      have hstep := step_of_directory (hway location mem_way_self) hfirst
      rw [way_cons] at hway
      rw [List.cons_append, List.foldlM_cons]
      exact bind_eq_ok.mpr
        ⟨_, hstep, ih (fun l hl => hway l (List.mem_cons_of_mem _ hl)) hrest⟩

theorem locate_of_way {name : String} (hpath : Path.pieces path = names ++ [name])
    (hend : Path.endsWithSlash path = false) (hfits : Path.Fits path)
    (hway : ∀ l ∈ way (origin path) names, tree.entry? l = some .directory) :
    tree.locate path = .ok (Path.location path) := by
  refine locate_eq_ok.mpr ⟨?_, hfits.usable, _, ?_, if_neg (by simp [hend])⟩
  · rintro rfl
    cases names <;> cases hpath
  · have hshort := hfits.short
    rw [Path.location]
    rw [hpath] at hshort ⊢
    exact foldlM_step_of_way hway hshort

/-- Directories can be made on a way that is free of files. -/
theorem makeDirectoriesAt_of_way (hstart : tree.entry? location = some .directory)
    (hfree : ∀ l ∈ way location names, ∀ bytes, tree.entry? l ≠ some (.file bytes))
    (hshort : ∀ piece ∈ names, piece.utf8ByteSize ≤ longestName) :
    ∃ tree', makeDirectoriesAt location names tree = (.ok (), tree') ∧
      ∀ l ∈ way location names, tree'.entry? l = some .directory := by
  induction names generalizing tree location with
  | nil => exact ⟨tree, rfl, by simpa [way] using hstart⟩
  | cons name rest ih =>
      obtain ⟨hname, hrest⟩ := List.forall_mem_cons.mp hshort
      rw [way_cons] at hfree ⊢
      obtain ⟨-, hfree⟩ := List.forall_mem_cons.mp hfree
      rw [makeDirectoriesAt, step_of_directory hstart hname]
      dsimp only
      have hgo {tree₁ : FileTree} (hkeeps : tree.KeepsDirectories tree₁)
          (hnext : tree₁.entry? (advance location name) = some .directory)
          (hfree₁ : ∀ l ∈ way (advance location name) rest, ∀ bytes,
            tree₁.entry? l ≠ some (.file bytes)) :
          ∃ tree', makeDirectoriesAt (advance location name) rest tree₁ = (.ok (), tree') ∧
            ∀ l ∈ location :: way (advance location name) rest,
              tree'.entry? l = some .directory := by
        obtain ⟨tree', hmake, hway⟩ := ih hnext hfree₁ hrest
        have hadds := addsDirectories_makeDirectoriesAt hmake
        refine ⟨tree', hmake, List.forall_mem_cons.mpr ⟨?_, hway⟩⟩
        exact hadds.keepsDirectories _ (hkeeps _ hstart)
      split
      · rename_i hentry
        exact hgo (fun _ h => h) hentry hfree
      · rename_i bytes hentry
        exact absurd hentry (hfree _ mem_way_self bytes)
      · rename_i hentry
        have hroom : tree.entry? (advance location name) ≠ some .directory := by simp [hentry]
        refine hgo (keepsDirectories_put hroom) (entry_put_self hroom) fun l hl bytes => ?_
        by_cases heq : l = advance location name
        · rw [heq, entry_put_self hroom]
          simp
        · rw [entry_put_of_ne heq]
          exact hfree l hl bytes

theorem entry_origin (path : String) : tree.entry? (origin path) = some .directory := by
  refine entry_of_fixed ?_
  unfold origin
  split
  · exact .inr rfl
  · exact .inl rfl

section
variable {around : FileTree} {parent name : String} (hparent : Path.parent? path = some parent)
include hparent

/-- The way to the directory of a file leads from where the path begins to the directory. -/
theorem mem_parentWay_iff (hdown : ".." ∉ Path.pieces parent) :
    location ∈ parentWay path ↔ origin parent <+: location ∧ location <+: Path.location parent := by
  rw [parentWay, hparent, mem_way_iff hdown]
  rfl

theorem makeParent_of_way (hfits : Path.Fits parent)
    (hfree : ∀ l ∈ parentWay path, ∀ bytes, tree.entry? l ≠ some (.file bytes)) :
    ∃ around, makeParent path tree = (.ok (), around) ∧
      ∀ l ∈ parentWay path, around.entry? l = some .directory := by
  simp only [makeParent, parentWay, hparent, makeDirectories, hfits.usable, if_true] at hfree ⊢
  exact makeDirectoriesAt_of_way (entry_origin parent) hfree hfits.short

theorem entry_makeParent (hdown : ".." ∉ Path.pieces parent)
    (hmake : makeParent path tree = (.ok (), around))
    (h : tree.entry? (Path.location parent ++ [name]) ≠ some .directory) :
    around.entry? (Path.location parent ++ [name]) ≠ some .directory := by
  rcases addsDirectories_makeParent hmake (Path.location parent ++ [name]) with heq | ⟨hmem, -⟩
  · rwa [heq]
  · have hlength := ((mem_parentWay_iff hparent hdown).mp hmem).2.length_le
    rw [List.length_append, List.length_singleton] at hlength
    omega

/-- A path to something in the directory of a file can be looked up where the directory is. -/
theorem locate_of_parentWay (hdown : ".." ∉ Path.pieces parent)
    (hway : ∀ l ∈ parentWay path, tree.entry? l = some .directory) {other : String}
    (habsolute : Path.isAbsolute other = Path.isAbsolute parent)
    (hother : Path.pieces other = names ++ [name]) (hnames : ".." ∉ names)
    (hfront : names.foldl advance (origin other) = Path.location parent)
    (hend : Path.endsWithSlash other = false) (hfits : Path.Fits other) :
    tree.locate other = .ok (Path.location other) := by
  refine locate_of_way hother hend hfits fun l hl => hway l ?_
  rw [mem_way_iff hnames, hfront, origin, habsolute] at hl
  exact (mem_parentWay_iff hparent hdown).mpr hl

end

/-- A file is replaced where it and its neighbour can be looked up and neither is a directory. -/
theorem replaceFile_of_locate {around : FileTree} (hmake : makeParent path tree = (.ok (), around))
    (hne : Path.location (neighbour path) ≠ Path.location path)
    (hneighbour : around.locate (neighbour path) = .ok (Path.location (neighbour path)))
    (hpath : around.locate path = .ok (Path.location path))
    (hold : around.entry? (Path.location (neighbour path)) ≠ some .directory)
    (hnew : around.entry? (Path.location path) ≠ some .directory) (text : String) :
    ∃ tree', tree.replaceFile path text = (.ok (), tree') := by
  set beside := around.put (Path.location (neighbour path)) (.file text.toUTF8) with hbeside
  have hkeeps : around.KeepsDirectories beside := keepsDirectories_put hold
  have hwrite : write (neighbour path) text.toUTF8 around = (.ok (), beside) :=
    write_eq_ok.mpr ⟨hneighbour, hold, rfl⟩
  have hnew' : beside.entry? (Path.location path) ≠ some .directory := by
    rw [hbeside, entry_put_of_ne hne.symm]
    exact hnew
  have hmove := move_eq_ok.mpr ⟨hkeeps.locate hneighbour, hkeeps.locate hpath, hnew', _,
    entry_put_self hold, rfl⟩
  exact ⟨_, replaceFile_eq_ok.mpr ⟨around, beside, hmake, hwrite, hmove⟩⟩

/-- The paths that replacing a file looks up. -/
def accessed (path : String) : List String := (Path.parent? path).toList ++ [neighbour path, path]

/-- A file can be replaced if its way is free of files and there is room for it and its
neighbour. -/
theorem replaceFile_of_room {name : String} (hname : Path.IsName name)
    (hpath : Path.pieces path = names ++ [name]) (hend : Path.endsWithSlash path = false)
    (hdown : ".." ∉ Path.pieces path) (hfits : ∀ p ∈ accessed path, Path.Fits p)
    (hfree : ∀ l ∈ parentWay path, ∀ bytes, tree.entry? l ≠ some (.file bytes))
    (hroom : tree.entry? (Path.location path) ≠ some .directory)
    (hbeside : tree.entry? (Path.location (neighbour path)) ≠ some .directory) (text : String) :
    ∃ tree', tree.replaceFile path text = (.ok (), tree') := by
  have hfile := Path.fileName?_of_pieces hpath hname
  obtain ⟨-, parent, hparent, habsolute, hlocation, hpieces⟩ := Path.parent?_of_fileName hfile
  have htmp := isName_tmp hname
  have hneighbour := neighbour_eq hfile hparent
  have hplace := location_neighbour hfile hparent
  have hup : ".." ∉ Path.pieces parent := fun hmem => hdown (hpieces _ hmem)
  rw [accessed, hparent] at hfits
  obtain ⟨hfitsParent, hfits⟩ := List.forall_mem_cons.mp hfits
  obtain ⟨hfitsNeighbour, hfits⟩ := List.forall_mem_cons.mp hfits
  obtain ⟨hfitsPath, -⟩ := List.forall_mem_cons.mp hfits
  obtain ⟨around, hmake, hdirectories⟩ := makeParent_of_way hparent hfitsParent hfree
  have hlocate : around.locate path = .ok (Path.location path) := by
    have hnames : ".." ∉ names := fun hmem => hdown (hpath ▸ List.mem_append_left _ hmem)
    have hfront : names.foldl advance (origin path) = Path.location parent := by
      rw [Path.location, hpath, List.foldl_append] at hlocation
      exact (List.append_inj' ((advance_name hname).symm.trans hlocation) rfl).1
    exact locate_of_parentWay hparent hup hdirectories habsolute.symm hpath hnames hfront hend
      hfitsPath
  have hlocate' : around.locate (neighbour path) = .ok (Path.location (neighbour path)) := by
    have habsolute' : Path.isAbsolute (neighbour path) = Path.isAbsolute parent := by
      rw [hneighbour, Path.isAbsolute_join htmp.isAbsolute_eq]
    have hbelow : Path.pieces (neighbour path) = Path.pieces parent ++ [name ++ ".tmp"] := by
      rw [hneighbour, Path.pieces_join htmp.isAbsolute_eq, htmp.pieces_eq]
    have hend' : Path.endsWithSlash (neighbour path) = false := by
      rw [hneighbour, Path.endsWithSlash_join htmp.filled]
      exact htmp.endsWithSlash_eq
    refine locate_of_parentWay hparent hup hdirectories habsolute' hbelow hup ?_ hend'
      hfitsNeighbour
    rw [origin, habsolute']
    rfl
  have hold : around.entry? (Path.location (neighbour path)) ≠ some .directory := by
    rw [hplace] at hbeside ⊢
    exact entry_makeParent hparent hup hmake hbeside
  have hnew : around.entry? (Path.location path) ≠ some .directory := by
    rw [hlocation] at hroom ⊢
    exact entry_makeParent hparent hup hmake hroom
  exact replaceFile_of_locate hmake (location_neighbour_ne hfile) hlocate' hlocate hold hnew text

end FileTree

end VersionGroups
