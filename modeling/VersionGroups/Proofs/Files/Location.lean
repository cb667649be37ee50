import VersionGroups.Proofs.Files.Path
import VersionGroups.Proofs.Results
import VersionGroups.Proofs.Table

/-!
# Where paths lead

The location of a path is told by its pieces alone. A tree decides whether the path can be looked up
there, and where it can, it leads to this location. A path that can be looked up still can after any
change that leaves the directories where they are. A directory lists the names of what lies in it.
-/
namespace VersionGroups

namespace FileTree

/-- The location that a name leads to, whether or not it can be looked up. -/
def advance (location : Location) (name : String) : Location :=
  if name = "." then location else if name = ".." then above location else location ++ [name]

theorem advance_name {location : Location} {name : String} (h : Path.IsName name) :
    advance location name = location ++ [name] := by
  rw [advance, if_neg h.moves, if_neg h.down]

theorem foldl_advance {location : Location} {names : List String}
    (h : ∀ name ∈ names, Path.IsName name) : names.foldl advance location = location ++ names := by
  induction names generalizing location with
  | nil => simp
  | cons name rest ih =>
      obtain ⟨hname, hrest⟩ := List.forall_mem_cons.mp h
      rw [List.foldl_cons, advance_name hname, ih hrest, List.append_assoc]
      rfl

theorem foldl_advance_filter {location : Location} (names : List String) :
    (names.filter (· != ".")).foldl advance location = names.foldl advance location := by
  induction names generalizing location with
  | nil => rfl
  | cons name rest ih =>
      by_cases hname : name = "."
      · subst hname
        exact ih
      · rw [List.filter_cons_of_pos (by simpa using hname), List.foldl_cons, List.foldl_cons, ih]

end FileTree

namespace Path

/-- The location that a path leads to, whether or not it can be looked up. -/
def location (path : String) : Location :=
  (pieces path).foldl FileTree.advance (FileTree.origin path)

theorem location_join {base next : String} (h : isAbsolute next = false) :
    location (join base next) = (pieces next).foldl FileTree.advance (location base) := by
  rw [location, location, pieces_join h, List.foldl_append, FileTree.origin, FileTree.origin,
    isAbsolute_join h]

theorem foldl_components (path : String) :
    (components path).foldl FileTree.advance (FileTree.origin path) = location path := by
  rw [components, location]
  cases pieces path with
  | nil => rfl
  | cons first rest =>
      dsimp only
      split
      · rename_i hfirst
        rw [FileTree.foldl_advance_filter, List.foldl_cons, hfirst.1]
        rfl
      · rw [List.foldl_cons, List.foldl_cons, FileTree.foldl_advance_filter]

theorem mem_pieces_of_mem_components {path piece : String} (h : piece ∈ components path) :
    piece ∈ pieces path := by
  rw [components] at h
  cases hpath : pieces path with
  | nil => simp [hpath] at h
  | cons first rest =>
      simp only [hpath] at h
      split at h
      · exact List.mem_cons_of_mem _ (List.mem_filter.mp h).1
      · rcases List.mem_cons.mp h with rfl | h
        · exact List.mem_cons_self
        · exact List.mem_cons_of_mem _ (List.mem_filter.mp h).1

/-- A file lies in the directory that the path of its parent leads to. -/
theorem parent?_of_fileName {path name : String} (h : fileName? path = some name) :
    IsName name ∧ ∃ parent, parent? path = some parent ∧ isAbsolute parent = isAbsolute path ∧
      location path = location parent ++ [name] ∧ ∀ piece ∈ pieces parent, piece ∈ pieces path := by
  have hlast : (components path).getLast? = some name ∧ name ≠ "." ∧ name ≠ ".." := by
    rw [fileName?] at h
    split at h
    · split at h
      · cases h
      · rename_i hlast hmoves
        obtain rfl := Option.some.inj h
        exact ⟨hlast, not_or.mp hmoves⟩
    · cases h
  obtain ⟨hlast, hmoves, hdown⟩ := hlast
  obtain ⟨front, hfront⟩ := List.getLast?_eq_some_iff.mp hlast
  have hcomponents : ∀ piece ∈ front, piece ∈ pieces path := fun piece hpiece =>
    mem_pieces_of_mem_components (hfront ▸ List.mem_append_left _ hpiece)
  have hpieces : ∀ piece ∈ front, IsPiece piece := fun piece hpiece =>
    isPiece_of_mem_pieces (hcomponents piece hpiece)
  have hname : IsName name := by
    have hmem := mem_pieces_of_mem_components (List.mem_of_getLast? hlast)
    exact ⟨isPiece_of_mem_pieces hmem, hmoves, hdown⟩
  refine ⟨hname, ofComponents (isAbsolute path) front, ?_, isAbsolute_ofComponents hpieces, ?_, ?_⟩
  · rw [parent?, hfront]
    cases front with
    | nil => rfl
    | cons first rest =>
        exact congrArg (fun front => some (ofComponents _ front)) List.dropLast_concat
  · rw [← foldl_components, hfront, List.foldl_append, location, pieces_ofComponents hpieces,
      FileTree.origin, FileTree.origin, isAbsolute_ofComponents hpieces]
    exact FileTree.advance_name hname
  · rw [pieces_ofComponents hpieces]
    exact hcomponents

end Path

namespace FileTree
variable {tree tree' : FileTree} {location next : Location} {name path : String}

theorem step_ok (h : tree.step location name = .ok next) :
    tree.entry? location = some .directory ∧ next = advance location name := by
  rw [step] at h
  split at h
  · cases h
  · cases h
  · rename_i hentry
    refine ⟨hentry, ?_⟩
    rw [advance]
    split at h
    · rw [if_pos ‹_›]
      exact (Except.ok.inj h).symm
    · rw [if_neg ‹_›]
      split at h
      · rw [if_pos ‹_›]
        exact (Except.ok.inj h).symm
      · rw [if_neg ‹_›]
        split at h
        · cases h
        · exact (Except.ok.inj h).symm

theorem foldlM_step_ok {names : List String} (h : names.foldlM tree.step location = .ok next) :
    next = names.foldl advance location := by
  induction names generalizing location with
  | nil => exact (Except.ok.inj h).symm
  | cons name rest ih =>
      rw [List.foldlM_cons] at h
      obtain ⟨first, hfirst, h⟩ := bind_eq_ok.mp h
      rw [List.foldl_cons, ← (step_ok hfirst).2]
      exact ih h

theorem locate_eq_ok : tree.locate path = .ok location ↔ path ≠ "" ∧ isUsable path = true ∧
    ∃ last, (Path.pieces path).foldlM tree.step (origin path) = .ok last ∧
      (if Path.endsWithSlash path then tree.step last "." else .ok last) = .ok location := by
  rw [locate]
  by_cases hempty : path = ""
  · simp [hempty, bind, Except.bind, throw, throwThe, MonadExceptOf.throw]
  · by_cases husable : isUsable path = true
    · rw [if_neg hempty, if_neg (by simp [husable])]
      exact bind_eq_ok.trans ⟨fun h => ⟨hempty, husable, h⟩, fun h => h.2.2⟩
    · simp [hempty, husable, bind, Except.bind, throw, throwThe, MonadExceptOf.throw]

theorem locate_ok (h : tree.locate path = .ok location) : location = Path.location path := by
  obtain ⟨-, -, last, hlast, hend⟩ := locate_eq_ok.mp h
  obtain rfl := foldlM_step_ok hlast
  split at hend
  · exact (step_ok hend).2
  · exact (Except.ok.inj hend).symm

theorem find_eq_ok {entry : FileEntry} : tree.find path = .ok entry ↔
    tree.locate path = .ok (Path.location path) ∧
      tree.entry? (Path.location path) = some entry := by
  constructor
  · intro h
    obtain ⟨location, hlocate, h⟩ := bind_eq_ok.mp h
    obtain rfl := locate_ok hlocate
    refine ⟨hlocate, ?_⟩
    split at h
    · rename_i found hfound
      rw [hfound, Except.ok.inj h]
    · cases h
  · rintro ⟨hlocate, hentry⟩
    refine bind_eq_ok.mpr ⟨_, hlocate, ?_⟩
    rw [hentry]
    rfl

theorem isFile_iff : tree.isFile path = true ↔ ∃ bytes, tree.find path = .ok (.file bytes) := by
  rw [isFile]
  split
  · rename_i bytes hfind
    simp [hfind]
  · rename_i hno
    simpa using hno

theorem isDirectory_iff : tree.isDirectory path = true ↔ tree.find path = .ok .directory := by
  rw [isDirectory]
  split
  · rename_i hfind
    simp [hfind]
  · rename_i hno
    simpa using hno

/-- Every directory of a tree is one of another tree as well. -/
def KeepsDirectories (tree tree' : FileTree) : Prop :=
  ∀ location, tree.entry? location = some .directory → tree'.entry? location = some .directory

theorem KeepsDirectories.step (h : tree.KeepsDirectories tree')
    (hstep : tree.step location name = .ok next) : tree'.step location name = .ok next := by
  have hentry := (step_ok hstep).1
  rw [FileTree.step, hentry] at hstep
  rw [FileTree.step, h location hentry]
  exact hstep

theorem KeepsDirectories.foldlM_step (h : tree.KeepsDirectories tree') {names : List String}
    (hnames : names.foldlM tree.step location = .ok next) :
    names.foldlM tree'.step location = .ok next := by
  induction names generalizing location with
  | nil => exact hnames
  | cons name rest ih =>
      rw [List.foldlM_cons] at hnames ⊢
      obtain ⟨first, hfirst, hrest⟩ := bind_eq_ok.mp hnames
      exact bind_eq_ok.mpr ⟨first, h.step hfirst, ih hrest⟩

/-- A path can still be looked up where directories stay. -/
theorem KeepsDirectories.locate (h : tree.KeepsDirectories tree')
    (hpath : tree.locate path = .ok location) : tree'.locate path = .ok location := by
  obtain ⟨hempty, husable, last, hlast, hend⟩ := locate_eq_ok.mp hpath
  refine locate_eq_ok.mpr ⟨hempty, husable, last, h.foldlM_step hlast, ?_⟩
  split at hend
  · rw [if_pos ‹_›]
    exact h.step hend
  · rw [if_neg ‹_›]
    exact hend

theorem entry_of_fixed (h : location = [] ∨ location = root) :
    tree.entry? location = some .directory := if_pos h

theorem entry_of_not_fixed (h : ¬(location = [] ∨ location = root)) :
    tree.entry? location = tree.entries.get? location := if_neg h

theorem entry_concat (h : location ++ [name] ≠ root) :
    tree.entry? (location ++ [name]) = tree.entries.get? (location ++ [name]) := by
  refine entry_of_not_fixed ?_
  rintro (hnil | hroot)
  · exact List.cons_ne_nil _ _ (List.append_eq_nil_iff.mp hnil).2
  · exact h hroot

theorem entry_put {entry : FileEntry} (other : Location) :
    FileTree.entry? (tree.put location entry) other =
      if other = [] ∨ other = root then some .directory
      else if other = location then some entry else tree.entry? other := by
  by_cases hfixed : other = [] ∨ other = root
  · rw [if_pos hfixed, entry_of_fixed hfixed]
  · rw [if_neg hfixed, entry_of_not_fixed hfixed, entry_of_not_fixed hfixed, put]
    by_cases heq : other = location
    · rw [if_pos heq, heq, Table.get?_insert_self]
    · rw [if_neg heq, Table.get?_insert_of_ne heq]

theorem entry_put_of_ne {entry : FileEntry} {other : Location} (h : other ≠ location) :
    FileTree.entry? (tree.put location entry) other = tree.entry? other := by
  rw [entry_put, if_neg h]
  split
  · exact (entry_of_fixed ‹_›).symm
  · rfl

theorem entry_put_self {entry : FileEntry} (h : tree.entry? location ≠ some .directory) :
    FileTree.entry? (tree.put location entry) location = some entry := by
  have hfree : ¬(location = [] ∨ location = root) := fun hfixed => h (entry_of_fixed hfixed)
  rw [entry_put, if_neg hfree, if_pos rfl]

theorem entry_drop_of_ne {other : Location} (h : other ≠ location) :
    FileTree.entry? (tree.drop (· == location)) other = tree.entry? other := by
  have hkept : (!(other == location)) = true := by simpa using h
  unfold FileTree.entry? drop
  rw [Table.get?_filter, if_pos hkept]

theorem entry_drop_self (h : tree.entry? location ≠ some .directory) :
    FileTree.entry? (tree.drop (· == location)) location = none := by
  have hfree : ¬(location = [] ∨ location = root) := fun hfixed => h (entry_of_fixed hfixed)
  rw [entry_of_not_fixed hfree, drop, Table.get?_filter, if_neg (by simp)]

theorem KeepsDirectories.trans {tree'' : FileTree} (h : tree.KeepsDirectories tree')
    (h' : tree'.KeepsDirectories tree'') : tree.KeepsDirectories tree'' :=
  fun location hentry => h' location (h location hentry)

theorem keepsDirectories_put {entry : FileEntry} (h : tree.entry? location ≠ some .directory) :
    tree.KeepsDirectories (tree.put location entry) := by
  intro other hother
  rw [entry_put_of_ne]
  · exact hother
  · rintro rfl
    exact h hother

theorem keepsDirectories_drop (h : tree.entry? location ≠ some .directory) :
    tree.KeepsDirectories (tree.drop (· == location)) := by
  intro other hother
  rw [entry_drop_of_ne]
  · exact hother
  · rintro rfl
    exact h hother

/-- The names in a directory are those of what lies in it. -/
theorem nameWithin?_eq_some {within : Location} :
    nameWithin? within location = some name ↔
      location = within ++ [name] ∧ location ≠ root := by
  rw [nameWithin?]
  constructor
  · intro h
    split at h
    · rename_i last hlast
      split at h
      · rename_i hin
        obtain ⟨front, rfl⟩ := List.getLast?_eq_some_iff.mp hlast
        rw [List.dropLast_concat] at hin
        exact ⟨by rw [hin.1, Option.some.inj h], hin.2⟩
      · cases h
    · cases h
  · rintro ⟨rfl, hroot⟩
    rw [List.getLast?_concat]
    dsimp only
    rw [List.dropLast_concat, if_pos ⟨rfl, hroot⟩]

theorem names_eq_ok {names : List String} : tree.names path = .ok names ↔
    tree.locate path = .ok (Path.location path) ∧
      tree.entry? (Path.location path) = some .directory ∧
        names = tree.entries.keys.filterMap (nameWithin? (Path.location path)) := by
  rw [FileTree.names]
  constructor
  · intro h
    obtain ⟨location, hlocate, h⟩ := bind_eq_ok.mp h
    obtain rfl := locate_ok hlocate
    split at h
    · rename_i hentry
      exact ⟨hlocate, hentry, (Except.ok.inj h).symm⟩
    · cases h
    · cases h
  · rintro ⟨hlocate, hentry, rfl⟩
    refine bind_eq_ok.mpr ⟨_, hlocate, ?_⟩
    rw [hentry]
    rfl

theorem mem_names {names : List String} (h : tree.names path = .ok names) : name ∈ names ↔
    Path.location path ++ [name] ≠ root ∧
      tree.entry? (Path.location path ++ [name]) ≠ none := by
  obtain ⟨-, -, rfl⟩ := names_eq_ok.mp h
  simp only [List.mem_filterMap, nameWithin?_eq_some]
  constructor
  · rintro ⟨location, hkey, rfl, hroot⟩
    obtain ⟨⟨key, entry⟩, hmem, rfl⟩ := List.mem_map.mp hkey
    refine ⟨hroot, ?_⟩
    rw [entry_concat hroot, Table.get?_eq_some_iff.mpr hmem]
    simp
  · rintro ⟨hroot, hthere⟩
    rw [entry_concat hroot] at hthere
    obtain ⟨entry, hentry⟩ := Option.ne_none_iff_exists'.mp hthere
    exact ⟨_, List.mem_map_of_mem (Table.get?_eq_some_iff.mp hentry), rfl, hroot⟩

theorem names_nodup {names : List String} (h : tree.names path = .ok names) : names.Nodup := by
  obtain ⟨-, -, rfl⟩ := names_eq_ok.mp h
  refine tree.entries.keys_nodup.filterMap fun l l' name hl hl' => ?_
  rw [(nameWithin?_eq_some.mp hl).1, (nameWithin?_eq_some.mp hl').1]

end FileTree

end VersionGroups
