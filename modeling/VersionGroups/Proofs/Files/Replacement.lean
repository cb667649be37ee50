import VersionGroups.Files.Replace
import VersionGroups.Proofs.Files.Location

/-!
# What replacing a file does

Making directories adds directories on the way of a path and changes nothing else. Where a file is
replaced, its new text is there afterwards and nothing is left of the neighbour that held it; all
else is as it was, but for the directories that lead to the file. A replacement fails only where an
access is refused.
-/
namespace VersionGroups.FileTree
variable {tree tree' : FileTree} {location : Location} {path text : String}

def way (location : Location) (names : List String) : List Location := names.scanl advance location

theorem way_cons {name : String} {names : List String} :
    way location (name :: names) = location :: way (advance location name) names :=
  List.scanl_cons

theorem mem_way_self {names : List String} : location ∈ way location names := by
  cases names with
  | nil => simp [way]
  | cons name rest => simp [way_cons]

/-- A tree has more directories than another one, at some locations only, and nothing else is
different. -/
def AddsDirectories (tree tree' : FileTree) (places : List Location) : Prop :=
  ∀ location, tree'.entry? location = tree.entry? location ∨
    location ∈ places ∧ tree.entry? location = none ∧ tree'.entry? location = some .directory

theorem AddsDirectories.keepsDirectories {places : List Location}
    (h : tree.AddsDirectories tree' places) : tree.KeepsDirectories tree' := by
  intro location hentry
  rcases h location with heq | ⟨-, hnone, -⟩
  · exact heq.trans hentry
  · cases hentry.symm.trans hnone

theorem AddsDirectories.mono {places places' : List Location}
    (h : tree.AddsDirectories tree' places) (hsub : ∀ l ∈ places, l ∈ places') :
    tree.AddsDirectories tree' places' := by
  intro location
  rcases h location with heq | ⟨hmem, hadded⟩
  · exact .inl heq
  · exact .inr ⟨hsub location hmem, hadded⟩

theorem AddsDirectories.trans {tree'' : FileTree} {places : List Location}
    (h : tree.AddsDirectories tree' places) (h' : tree'.AddsDirectories tree'' places) :
    tree.AddsDirectories tree'' places := by
  intro location
  rcases h location with heq | ⟨hmem, hnone, hnew⟩
  · rcases h' location with heq' | ⟨hmem', hnone', hnew'⟩
    · exact .inl (heq'.trans heq)
    · exact .inr ⟨hmem', heq.symm.trans hnone', hnew'⟩
  · exact .inr ⟨hmem, hnone, h'.keepsDirectories location hnew⟩

theorem addsDirectories_put (h : tree.entry? location = none) :
    tree.AddsDirectories (tree.put location .directory) [location] := by
  intro other
  by_cases heq : other = location
  · subst heq
    exact .inr ⟨List.mem_cons_self, h, entry_put_self (by simp [h])⟩
  · exact .inl (entry_put_of_ne heq)

/-- Directories are made on the way only, also if not all of them can be made. -/
theorem addsDirectories_makeDirectoriesAt {names : List String} {result : Except AccessError Unit}
    (h : makeDirectoriesAt location names tree = (result, tree')) :
    tree.AddsDirectories tree' (way location names) := by
  induction names generalizing tree location with
  | nil =>
      cases h
      exact fun _ => .inl rfl
  | cons name rest ih =>
      rw [makeDirectoriesAt] at h
      rw [way_cons]
      split at h
      · cases h
        exact fun _ => .inl rfl
      · rename_i next hstep
        obtain ⟨-, rfl⟩ := step_ok hstep
        split at h
        · exact (ih h).mono fun _ => List.mem_cons_of_mem _
        · cases h
          exact fun _ => .inl rfl
        · rename_i hnone
          have hput : tree.AddsDirectories (tree.put (advance location name) .directory)
              (location :: way (advance location name) rest) := by
            refine (addsDirectories_put hnone).mono fun l hl => ?_
            obtain rfl := List.mem_singleton.mp hl
            exact List.mem_cons_of_mem _ mem_way_self
          exact hput.trans ((ih h).mono fun _ => List.mem_cons_of_mem _)

def parentWay (path : String) : List Location :=
  match Path.parent? path with
  | some parent => way (origin parent) (Path.pieces parent)
  | none => []

theorem addsDirectories_makeParent {result : Except AccessError Unit}
    (h : makeParent path tree = (result, tree')) :
    tree.AddsDirectories tree' (parentWay path) := by
  unfold makeParent at h
  unfold parentWay
  cases hparent : Path.parent? path with
  | none =>
      simp only [hparent] at h
      cases h
      exact fun _ => .inl rfl
  | some parent =>
      simp only [hparent, makeDirectories] at h
      split at h
      · exact addsDirectories_makeDirectoriesAt h
      · cases h
        exact fun _ => .inl rfl

theorem write_eq_ok {bytes : ByteArray} : write path bytes tree = (.ok (), tree') ↔
    tree.locate path = .ok (Path.location path) ∧
      tree.entry? (Path.location path) ≠ some .directory ∧
      tree' = tree.put (Path.location path) (.file bytes) := by
  rw [write]
  cases hlocate : tree.locate path with
  | error e => simp
  | ok location =>
      obtain rfl := locate_ok hlocate
      dsimp only
      split
      · simp_all
      · simp_all [eq_comm]

theorem move_eq_ok {source target : String} : move source target tree = (.ok (), tree') ↔
    tree.locate source = .ok (Path.location source) ∧
      tree.locate target = .ok (Path.location target) ∧
      tree.entry? (Path.location target) ≠ some .directory ∧
      ∃ bytes, tree.entry? (Path.location source) = some (.file bytes) ∧
        tree' =
          (tree.drop (· == Path.location source)).put (Path.location target) (.file bytes) := by
  rw [move]
  cases hsource : tree.locate source with
  | error e => simp
  | ok old =>
      cases htarget : tree.locate target with
      | error e => simp
      | ok new =>
          obtain rfl := locate_ok hsource
          obtain rfl := locate_ok htarget
          dsimp only
          rcases tree.entry? (Path.location source) with _ | (_ | bytes)
          · simp
          · simp
          · rcases tree.entry? (Path.location target) with _ | (_ | bytes') <;> simp [eq_comm]

theorem reported_eq_ok {α : Type} (operation : String) (change : FileChange α) {a : α} :
    reported operation change tree = (.ok a, tree') ↔ change tree = (.ok a, tree') := by
  rw [reported]
  split <;> simp_all

theorem reported_error {α : Type} {operation : String} {change : FileChange α} {e : ErrorReport}
    (h : reported operation change tree = (.error e, tree')) : e.kind = .io := by
  rw [reported] at h
  split at h
  · cases h
  · cases h
    rfl

theorem replaceFile_eq_ok : tree.replaceFile path text = (.ok (), tree') ↔
    ∃ around beside, makeParent path tree = (.ok (), around) ∧
      write (neighbour path) text.toUTF8 around = (.ok (), beside) ∧
      move (neighbour path) path beside = (.ok (), tree') := by
  simp only [← reported_eq_ok "create_parent_dir" (makeParent path),
    ← reported_eq_ok "write_temp" (write _ _), ← reported_eq_ok "rename_temp" (move _ _)]
  rw [replaceFile]
  generalize text.toUTF8 = bytes
  rcases reported "create_parent_dir" (makeParent path) tree with ⟨_ | _, around⟩
  · simp
  · dsimp only
    rcases hwrite : reported "write_temp" (write (neighbour path) bytes) around with
      ⟨_ | _, beside⟩ <;> simp [hwrite]

/-- What has changed where a file was replaced. -/
structure Replaced (tree tree' : FileTree) (path text : String) : Prop where
  written : tree'.find path = .ok (.file text.toUTF8)
  cleared : tree'.entry? (Path.location (neighbour path)) = none
  others : ∀ location, location ≠ Path.location path →
    location ≠ Path.location (neighbour path) →
      tree'.entry? location = tree.entry? location ∨
        location ∈ parentWay path ∧ tree.entry? location = none ∧
          tree'.entry? location = some .directory
  directories : tree.KeepsDirectories tree'

theorem replaced_of_ok (hne : Path.location (neighbour path) ≠ Path.location path)
    (h : tree.replaceFile path text = (.ok (), tree')) : Replaced tree tree' path text := by
  obtain ⟨around, beside, hparent, hwrite, hmove⟩ := replaceFile_eq_ok.mp h
  have hadds := addsDirectories_makeParent hparent
  obtain ⟨-, hfree, rfl⟩ := write_eq_ok.mp hwrite
  obtain ⟨-, hnew, hroom, bytes, hbytes, rfl⟩ := move_eq_ok.mp hmove
  obtain rfl : text.toUTF8 = bytes := by
    rw [entry_put_self hfree] at hbytes
    exact FileEntry.file.inj (Option.some.inj hbytes)
  set beside := around.put (Path.location (neighbour path)) (.file text.toUTF8) with hbeside
  have hmoved : beside.KeepsDirectories ((beside.drop (· == Path.location (neighbour path))).put
      (Path.location path) (.file text.toUTF8)) := by
    refine (keepsDirectories_drop (by simp [hbytes])).trans (keepsDirectories_put ?_)
    rwa [entry_drop_of_ne hne.symm]
  refine ⟨?_, ?_, ?_, ?_⟩
  · refine find_eq_ok.mpr ⟨hmoved.locate hnew, entry_put_self ?_⟩
    rwa [entry_drop_of_ne hne.symm]
  · rw [entry_put_of_ne hne, entry_drop_self (by simp [hbytes])]
  · intro location hpath hneighbour
    rw [entry_put_of_ne hpath, entry_drop_of_ne hneighbour, hbeside, entry_put_of_ne hneighbour]
    exact hadds location
  · exact hadds.keepsDirectories.trans ((keepsDirectories_put hfree).trans hmoved)

namespace Replaced

theorem entry_of_ne (h : Replaced tree tree' path text) (hne : location ≠ Path.location path)
    {bytes : ByteArray} (hentry : tree'.entry? location = some (.file bytes)) :
    tree.entry? location = some (.file bytes) := by
  by_cases hneighbour : location = Path.location (neighbour path)
  · rw [hneighbour, h.cleared] at hentry
    cases hentry
  · rcases h.others location hne hneighbour with heq | ⟨-, -, hnew⟩
    · exact heq ▸ hentry
    · cases hentry.symm.trans hnew

theorem find_of_ne (h : Replaced tree tree' path text) {other : String}
    (hne : Path.location other ≠ Path.location path)
    (hneighbour : Path.location other ≠ Path.location (neighbour path)) {entry : FileEntry}
    (hfind : tree.find other = .ok entry) : tree'.find other = .ok entry := by
  obtain ⟨hlocate, hentry⟩ := find_eq_ok.mp hfind
  refine find_eq_ok.mpr ⟨h.directories.locate hlocate, ?_⟩
  rcases h.others _ hne hneighbour with heq | ⟨-, hnone, -⟩
  · exact heq.trans hentry
  · cases hentry.symm.trans hnone

end Replaced

theorem replaceFile_error {e : ErrorReport} (h : tree.replaceFile path text = (.error e, tree')) :
    e.kind = .io := by
  rw [replaceFile] at h
  split at h
  · rename_i hparent
    cases h
    exact reported_error hparent
  · split at h
    · rename_i hwrite
      cases h
      exact reported_error hwrite
    · exact reported_error h

theorem neighbour_eq {name parent : String} (h : Path.fileName? path = some name)
    (hparent : Path.parent? path = some parent) :
    neighbour path = Path.join parent (name ++ ".tmp") := by
  rw [neighbour, Path.withFileName, h, hparent]
  rfl

theorem isName_tmp {name : String} (h : Path.IsName name) : Path.IsName (name ++ ".tmp") :=
  h.append (by decide) (by decide)

theorem location_neighbour {name parent : String} (h : Path.fileName? path = some name)
    (hparent : Path.parent? path = some parent) :
    Path.location (neighbour path) = Path.location parent ++ [name ++ ".tmp"] := by
  have htmp := isName_tmp (Path.parent?_of_fileName h).1
  rw [neighbour_eq h hparent, Path.location_join htmp.isAbsolute_eq, htmp.pieces_eq]
  exact advance_name htmp

theorem location_neighbour_ne {name : String} (h : Path.fileName? path = some name) :
    Path.location (neighbour path) ≠ Path.location path := by
  obtain ⟨-, parent, hparent, -, hlocation, -⟩ := Path.parent?_of_fileName h
  rw [hlocation, location_neighbour h hparent]
  intro heq
  have hlast := (List.cons.inj (List.append_inj' heq rfl).2).1
  have hlength := congrArg String.length hlast
  rw [String.length_append] at hlength
  have htmp : ".tmp".length = 4 := rfl
  omega

end VersionGroups.FileTree
