import VersionGroups.Proofs.Files.Room

/-!
# What stays where files change

An operation on files changes a tree at a few places and may add directories at others. A file at
any other place stays, and the path that led to it still does. Replacing a file changes its
neighbour and, if it succeeds, the file. A location that some path leads to has nothing but
directories above it, so every path that goes straight down to it leads there too.
-/
namespace VersionGroups.FileTree
variable {tree tree' tree'' : FileTree} {places places' : Location → Prop}
  {location next : Location} {path name text : String}

theorem ne_concat_of_isPrefix {above folder : Location} (h : above <+: folder) (name : String) :
    above ≠ folder ++ [name] := by
  rintro rfl
  have hlength := h.length_le
  rw [List.length_append, List.length_singleton] at hlength
  omega

/-- A tree has changed at some places only, but for directories that were added. -/
structure ChangesOnly (tree tree' : FileTree) (places : Location → Prop) : Prop where
  others : ∀ location, ¬places location → tree'.entry? location = tree.entry? location ∨
    tree.entry? location = none ∧ tree'.entry? location = some .directory
  directories : tree.KeepsDirectories tree'

namespace ChangesOnly

theorem refl (tree : FileTree) (places : Location → Prop) : tree.ChangesOnly tree places :=
  ⟨fun _ _ => .inl rfl, fun _ h => h⟩

theorem mono (h : tree.ChangesOnly tree' places) (hsub : ∀ l, places l → places' l) :
    tree.ChangesOnly tree' places' :=
  ⟨fun l hl => h.others l fun hplace => hl (hsub l hplace), h.directories⟩

theorem trans (h : tree.ChangesOnly tree' places) (h' : tree'.ChangesOnly tree'' places) :
    tree.ChangesOnly tree'' places := by
  refine ⟨fun l hl => ?_, h.directories.trans h'.directories⟩
  rcases h.others l hl with heq | ⟨hnone, hnew⟩
  · rcases h'.others l hl with heq' | ⟨hnone', hnew'⟩
    · exact .inl (heq'.trans heq)
    · exact .inr ⟨heq.symm.trans hnone', hnew'⟩
  · exact .inr ⟨hnone, h'.directories l hnew⟩

theorem find (h : tree.ChangesOnly tree' places) (hplace : ¬places (Path.location path))
    {entry : FileEntry} (hfind : tree.find path = .ok entry) : tree'.find path = .ok entry := by
  obtain ⟨hlocate, hentry⟩ := find_eq_ok.mp hfind
  refine find_eq_ok.mpr ⟨h.directories.locate hlocate, ?_⟩
  rcases h.others _ hplace with heq | ⟨hnone, -⟩
  · exact heq.trans hentry
  · cases hentry.symm.trans hnone

theorem file_iff (h : tree.ChangesOnly tree' places) (hplace : ¬places location)
    {bytes : ByteArray} :
    tree'.entry? location = some (.file bytes) ↔ tree.entry? location = some (.file bytes) := by
  rcases h.others location hplace with heq | ⟨hnone, hnew⟩
  · rw [heq]
  · simp [hnone, hnew]

end ChangesOnly

theorem AddsDirectories.changesOnly {added : List Location}
    (h : tree.AddsDirectories tree' added) (places : Location → Prop) :
    tree.ChangesOnly tree' places :=
  ⟨fun l _ => (h l).imp_right And.right, h.keepsDirectories⟩

theorem changesOnly_put {entry : FileEntry} (h : tree.entry? location ≠ some .directory) :
    tree.ChangesOnly (tree.put location entry) (· = location) :=
  ⟨fun _ hl => .inl (entry_put_of_ne hl), keepsDirectories_put h⟩

theorem reported_eq_error {α : Type} {operation : String} {change : FileChange α} {e : ErrorReport}
    (h : reported operation change tree = (.error e, tree')) :
    ∃ e, change tree = (.error e, tree') := by
  rw [reported] at h
  split at h
  · cases h
  · rename_i e' _ hchange
    cases h
    exact ⟨e', hchange⟩

theorem write_eq_error {bytes : ByteArray} {e : AccessError}
    (h : write path bytes tree = (.error e, tree')) : tree' = tree := by
  rw [write] at h
  split at h
  · cases h
    rfl
  · split at h <;> cases h
    rfl

theorem move_eq_error {source target : String} {e : AccessError}
    (h : move source target tree = (.error e, tree')) : tree' = tree := by
  rw [move] at h
  split at h
  · split at h <;> cases h <;> rfl
  · cases h
    rfl
  · cases h
    rfl

/-- A replacement makes the directory of the file, and it may then write the neighbour and move it.
Where it stops earlier it has failed. -/
theorem replaceFile_cases {result : Except ErrorReport Unit}
    (h : tree.replaceFile path text = (result, tree')) :
    ∃ made around, makeParent path tree = (made, around) ∧
      ((∃ e, result = .error e) ∧ tree' = around ∨
        ∃ beside, write (neighbour path) text.toUTF8 around = (.ok (), beside) ∧
          ((∃ e, result = .error e) ∧ tree' = beside ∨
            result = .ok () ∧ move (neighbour path) path beside = (.ok (), tree'))) := by
  cases result with
  | ok =>
      obtain ⟨around, beside, hmake, hwrite, hmove⟩ := replaceFile_eq_ok.mp h
      exact ⟨_, around, hmake, .inr ⟨beside, hwrite, .inr ⟨rfl, hmove⟩⟩⟩
  | error e =>
      rw [replaceFile] at h
      generalize text.toUTF8 = bytes at h ⊢
      split at h
      · rename_i hmake
        cases h
        obtain ⟨_, hmake⟩ := reported_eq_error hmake
        exact ⟨_, tree', hmake, .inl ⟨⟨_, rfl⟩, rfl⟩⟩
      · rename_i _ around hmake
        refine ⟨_, around, (reported_eq_ok _ _).mp hmake, ?_⟩
        split at h
        · rename_i hwrite
          cases h
          obtain ⟨_, hwrite⟩ := reported_eq_error hwrite
          exact .inl ⟨⟨_, rfl⟩, write_eq_error hwrite⟩
        · rename_i _ beside hwrite
          obtain ⟨_, hmove⟩ := reported_eq_error h
          exact .inr ⟨beside, (reported_eq_ok _ _).mp hwrite, .inl ⟨⟨_, rfl⟩, move_eq_error hmove⟩⟩

/-- Replacing a file changes its neighbour and, unless it fails, the file. -/
theorem changesOnly_replaceFile {result : Except ErrorReport Unit}
    (hname : Path.fileName? path = some name)
    (h : tree.replaceFile path text = (result, tree')) :
    tree.ChangesOnly tree' fun l =>
      l = Path.location (neighbour path) ∨ result = .ok () ∧ l = Path.location path := by
  obtain ⟨made, around, hmake, hcases⟩ := replaceFile_cases h
  have hadds := addsDirectories_makeParent hmake
  rcases hcases with ⟨-, rfl⟩ | ⟨beside, hwrite, ⟨-, rfl⟩ | ⟨rfl, -⟩⟩
  · exact hadds.changesOnly _
  · obtain ⟨-, hfree, rfl⟩ := write_eq_ok.mp hwrite
    exact (hadds.changesOnly _).trans ((changesOnly_put hfree).mono fun _ => .inl)
  · have hreplaced := replaced_of_ok (location_neighbour_ne hname) h
    refine ⟨fun l hl => ?_, hreplaced.directories⟩
    obtain ⟨hneighbour, hpath⟩ := not_or.mp hl
    have hpath : l ≠ Path.location path := fun heq => hpath ⟨rfl, heq⟩
    exact (hreplaced.others l hpath hneighbour).imp_right And.right

/-- All that is above a location is a directory, and its names are short. -/
structure IsReached (tree : FileTree) (location : Location) : Prop where
  above : ∀ l, l <+: location → l ≠ location → tree.entry? l = some .directory
  short : ∀ name ∈ location, name.utf8ByteSize ≤ longestName

theorem isReached_nil (tree : FileTree) : tree.IsReached [] :=
  ⟨fun _ hl hne => absurd (List.prefix_nil.mp hl) hne, fun _ h => by cases h⟩

theorem isReached_root (tree : FileTree) : tree.IsReached root := by
  refine ⟨fun l hl hne => ?_, fun name hname => ?_⟩
  · rcases List.prefix_concat_iff.mp (show l <+: [] ++ ["/"] from hl) with heq | hnil
    · exact absurd heq hne
    · exact entry_of_fixed (.inl (List.prefix_nil.mp hnil))
  · obtain rfl := List.mem_singleton.mp hname
    decide

theorem isReached_origin (tree : FileTree) (path : String) : tree.IsReached (origin path) := by
  unfold origin
  split
  · exact tree.isReached_root
  · exact tree.isReached_nil

/-- A step from a location that is reached reaches the next one. -/
theorem IsReached.step (h : tree.IsReached location) (hstep : tree.step location name = .ok next) :
    tree.IsReached next := by
  have hentry := (step_ok hstep).1
  rw [FileTree.step, hentry] at hstep
  dsimp only at hstep
  split at hstep
  · exact Except.ok.inj hstep ▸ h
  · split at hstep
    · obtain rfl := Except.ok.inj hstep
      rw [FileTree.above]
      split
      · exact tree.isReached_root
      · rename_i hfree
        have hne : location ≠ [] := fun hnil => hfree (.inl hnil)
        have hfront : location.dropLast <+: location := List.dropLast_prefix location
        refine ⟨fun l hl _ => h.above l (hl.trans hfront) ?_,
          fun piece hpiece => h.short piece (hfront.subset hpiece)⟩
        rintro rfl
        have hlength := hl.length_le
        have hpos := List.length_pos_iff.mpr hne
        rw [List.length_dropLast] at hlength
        omega
    · split at hstep
      · cases hstep
      · rename_i hshort
        obtain rfl := Except.ok.inj hstep
        refine ⟨fun l hl hne => ?_, fun piece hpiece => ?_⟩
        · rcases List.prefix_concat_iff.mp hl with heq | hl
          · exact absurd heq hne
          · by_cases heq : l = location
            · exact heq ▸ hentry
            · exact h.above l hl heq
        · rcases List.mem_append.mp hpiece with hpiece | hpiece
          · exact h.short piece hpiece
          · obtain rfl := List.mem_singleton.mp hpiece
            exact Nat.le_of_not_lt hshort

theorem IsReached.foldlM_step {names : List String} (h : tree.IsReached location)
    (hnames : names.foldlM tree.step location = .ok next) : tree.IsReached next := by
  induction names generalizing location with
  | nil => exact Except.ok.inj hnames ▸ h
  | cons name rest ih =>
      rw [List.foldlM_cons] at hnames
      obtain ⟨first, hfirst, hrest⟩ := bind_eq_ok.mp hnames
      exact ih (h.step hfirst) hrest

theorem isReached_of_locate (h : tree.locate path = .ok location) : tree.IsReached location := by
  obtain ⟨-, -, last, hlast, hend⟩ := locate_eq_ok.mp h
  have hreached := (tree.isReached_origin path).foldlM_step hlast
  split at hend
  · exact hreached.step hend
  · exact Except.ok.inj hend ▸ hreached

/-- Names that do not go up are added one after the other. -/
theorem foldl_advance_down {names : List String} (h : ".." ∉ names) :
    names.foldl advance location = location ++ names.filter (· != ".") := by
  induction names generalizing location with
  | nil => simp
  | cons name rest ih =>
      obtain ⟨hname, hrest⟩ := not_or.mp fun hmem => h (List.mem_cons.mpr hmem)
      rw [List.foldl_cons, ih hrest]
      by_cases hstay : name = "."
      · simp [advance, hstay]
      · rw [advance, if_neg hstay, if_neg (Ne.symm hname),
          List.filter_cons_of_pos (by simpa using hstay), List.append_assoc]
        rfl

/-- A path that goes down to a location that is reached can be looked up. -/
theorem IsReached.locate {names : List String} (h : tree.IsReached (Path.location path))
    (hname : Path.IsName name) (hpath : Path.pieces path = names ++ [name])
    (hdown : ".." ∉ Path.pieces path) (hend : Path.endsWithSlash path = false)
    (husable : isUsable path = true) : tree.locate path = .ok (Path.location path) := by
  have hshort : ∀ piece ∈ Path.pieces path, piece.utf8ByteSize ≤ longestName := by
    intro piece hpiece
    by_cases hstay : piece = "."
    · subst hstay
      decide
    · refine h.short piece ?_
      rw [Path.location, foldl_advance_down hdown]
      exact List.mem_append_right _ (List.mem_filter.mpr ⟨hpiece, by simpa using hstay⟩)
  have hnames : ".." ∉ names := fun hmem => hdown (hpath ▸ List.mem_append_left _ hmem)
  have hlocation : Path.location path = names.foldl advance (origin path) ++ [name] := by
    rw [Path.location, hpath, List.foldl_append]
    exact advance_name hname
  refine locate_of_way hpath hend ⟨husable, hshort⟩ fun l hl => ?_
  obtain ⟨-, hto⟩ := (mem_way_iff hnames).mp hl
  refine h.above l (hlocation ▸ hto.trans (List.prefix_append _ _)) ?_
  rw [hlocation]
  exact ne_concat_of_isPrefix hto name

end VersionGroups.FileTree
