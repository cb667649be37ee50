import Mathlib.Data.List.Basic
import VersionGroups.Files.Tree

/-!
# Pieces of joined paths

A path is read piece by piece. Joining a relative path to another one puts the pieces of both after
one another, and pieces that are written with slashes between them are read back. A piece that is a
name adds itself to the location that a path leads to, so names that are joined lead to where they
say.
-/
namespace VersionGroups.Path

/-- What can stand between two slashes. -/
structure IsPiece (piece : String) : Prop where
  filled : piece ≠ ""
  single : '/' ∉ piece.toList

/-- A piece that neither stays in place nor goes up. -/
structure IsName (name : String) : Prop extends IsPiece name where
  moves : name ≠ "."
  down : name ≠ ".."

variable {base next piece : String}

theorem isPiece_iff : IsPiece piece ↔ piece ≠ "" ∧ '/' ∉ piece.toList :=
  ⟨fun h => ⟨h.filled, h.single⟩, fun h => ⟨h.1, h.2⟩⟩

instance : DecidablePred IsPiece := fun _ => decidable_of_iff _ isPiece_iff.symm

theorem isName_iff {name : String} : IsName name ↔ IsPiece name ∧ name ≠ "." ∧ name ≠ ".." :=
  ⟨fun h => ⟨h.toIsPiece, h.moves, h.down⟩, fun h => ⟨h.1, h.2.1, h.2.2⟩⟩

instance : DecidablePred IsName := fun _ => decidable_of_iff _ isName_iff.symm

@[simp] theorem pieces_empty : pieces "" = [] := rfl

theorem IsPiece.pieces_eq (h : IsPiece piece) : pieces piece = [piece] := by
  have hslash : ∀ c ∈ piece.toList, (c == '/') = false := by
    intro c hc
    refine beq_eq_false_iff_ne.mpr ?_
    rintro rfl
    exact h.single hc
  rw [pieces, List.splitOnP_eq_singleton hslash]
  simp [h.filled]

theorem pieces_slash (base next : String) :
    pieces (base ++ "/" ++ next) = pieces base ++ pieces next := by
  have hlist : (base ++ "/" ++ next).toList = base.toList ++ '/' :: next.toList := by simp
  rw [pieces, hlist, List.splitOnP_append_cons _ _ (by simp), List.map_append,
    List.filter_append]
  rfl

theorem mem_splitOnP {α : Type} {p : α → Bool} {l part : List α} (h : part ∈ l.splitOnP p) :
    ∀ a ∈ part, p a = false := by
  induction l generalizing part with
  | nil =>
      obtain rfl : part = [] := by simpa using h
      simp
  | cons a rest ih =>
      rw [List.splitOnP_cons_eq_if_modifyHead] at h
      by_cases ha : p a = true
      · rw [if_pos ha] at h
        rcases List.mem_cons.mp h with rfl | h
        · simp
        · exact ih h
      · rw [if_neg ha] at h
        cases hrest : rest.splitOnP p with
        | nil => exact absurd hrest (List.splitOnP_ne_nil p rest)
        | cons first others =>
            rw [hrest] at h ih
            rcases List.mem_cons.mp h with rfl | h
            · refine List.forall_mem_cons.mpr ⟨eq_false_of_ne_true ha, ?_⟩
              exact ih List.mem_cons_self
            · exact ih (List.mem_cons_of_mem _ h)

theorem isPiece_of_mem_pieces {path : String} (h : piece ∈ pieces path) : IsPiece piece := by
  rw [pieces] at h
  obtain ⟨hpart, hfilled⟩ := List.mem_filter.mp h
  obtain ⟨part, hsplit, rfl⟩ := List.mem_map.mp hpart
  refine ⟨by simpa using hfilled, fun hslash => ?_⟩
  have hno := mem_splitOnP hsplit '/' (by simpa using hslash)
  cases hno

theorem endsWithSlash_iff : endsWithSlash base = true ↔ ∃ front, base = front ++ "/" := by
  rw [endsWithSlash, beq_iff_eq, List.getLast?_eq_some_iff]
  constructor
  · rintro ⟨front, hfront⟩
    refine ⟨String.ofList front, String.toList_inj.mp ?_⟩
    rw [hfront]
    simp
  · rintro ⟨front, rfl⟩
    exact ⟨front.toList, by simp⟩

/-- A relative path is read after the path that it continues. -/
theorem pieces_join (hnext : isAbsolute next = false) :
    pieces (join base next) = pieces base ++ pieces next := by
  rw [join, hnext, if_neg Bool.false_ne_true]
  by_cases hempty : base = ""
  · simp [hempty]
  · by_cases hslash : endsWithSlash base = true
    · obtain ⟨front, rfl⟩ := endsWithSlash_iff.mp hslash
      have hfront : pieces (front ++ "/") = pieces front := by
        simpa using pieces_slash front ""
      rw [if_pos (by simp [hslash]), pieces_slash, hfront]
    · rw [if_neg (by simp [hempty, hslash]), pieces_slash]

theorem isAbsolute_append (hbase : base ≠ "") : isAbsolute (base ++ next) = isAbsolute base := by
  have hlist : base.toList ≠ [] := fun h => hbase (String.toList_eq_nil_iff.mp h)
  obtain ⟨c, rest, hcons⟩ := List.exists_cons_of_ne_nil hlist
  rw [isAbsolute, isAbsolute, String.toList_append, hcons]
  rfl

/-- A relative path does not change where the path that it continues begins. -/
theorem isAbsolute_join (hnext : isAbsolute next = false) :
    isAbsolute (join base next) = isAbsolute base := by
  rw [join, hnext, if_neg Bool.false_ne_true]
  by_cases hempty : base = ""
  · have hnone : isAbsolute "" = false := rfl
    simpa [hempty, hnone] using hnext
  · split
    · exact isAbsolute_append hempty
    · rw [String.append_assoc]
      exact isAbsolute_append hempty

theorem IsPiece.isAbsolute_eq (h : IsPiece piece) : isAbsolute piece = false := by
  refine eq_false_of_ne_true fun habsolute => h.single ?_
  rw [isAbsolute, beq_iff_eq] at habsolute
  exact List.mem_of_mem_head? habsolute

theorem pieces_foldl_join {names : List String} (h : ∀ name ∈ names, IsPiece name) :
    pieces (names.foldl join base) = pieces base ++ names := by
  induction names generalizing base with
  | nil => simp
  | cons name rest ih =>
      obtain ⟨hname, hrest⟩ := List.forall_mem_cons.mp h
      rw [List.foldl_cons, ih hrest, pieces_join hname.isAbsolute_eq, hname.pieces_eq]
      simp

theorem isAbsolute_foldl_join {names : List String} (h : ∀ name ∈ names, IsPiece name) :
    isAbsolute (names.foldl join base) = isAbsolute base := by
  induction names generalizing base with
  | nil => rfl
  | cons name rest ih =>
      obtain ⟨hname, hrest⟩ := List.forall_mem_cons.mp h
      rw [List.foldl_cons, ih hrest, isAbsolute_join hname.isAbsolute_eq]

theorem pieces_intercalate {names : List String} (h : ∀ name ∈ names, IsPiece name) :
    pieces (String.intercalate "/" names) = names := by
  induction names with
  | nil => rfl
  | cons name rest ih =>
      obtain ⟨hname, hrest⟩ := List.forall_mem_cons.mp h
      cases rest with
      | nil => simpa using hname.pieces_eq
      | cons second others =>
          rw [String.intercalate_cons_cons, pieces_slash, ih hrest, hname.pieces_eq]
          rfl

/-- Components that are pieces are read back from the path that is made of them. -/
theorem pieces_ofComponents {absolute : Bool} {names : List String}
    (h : ∀ name ∈ names, IsPiece name) : pieces (ofComponents absolute names) = names := by
  rw [ofComponents]
  cases absolute with
  | false => simpa using pieces_intercalate h
  | true =>
      have hslash := pieces_slash "" (String.intercalate "/" names)
      simpa [pieces_intercalate h] using hslash

theorem isAbsolute_ofComponents {absolute : Bool} {names : List String}
    (h : ∀ name ∈ names, IsPiece name) : isAbsolute (ofComponents absolute names) = absolute := by
  rw [ofComponents]
  cases absolute with
  | true => exact isAbsolute_append (by decide)
  | false =>
      cases names with
      | nil => rfl
      | cons name rest =>
          obtain ⟨hname, -⟩ := List.forall_mem_cons.mp h
          have hfirst : isAbsolute (String.intercalate "/" (name :: rest)) = isAbsolute name := by
            cases rest with
            | nil => simp
            | cons second others =>
                rw [String.intercalate_cons_cons, String.append_assoc]
                exact isAbsolute_append hname.filled
          simpa [hname.isAbsolute_eq] using hfirst

theorem IsName.append {name ending : String} (h : IsName name) (hslash : '/' ∉ ending.toList)
    (hlong : 2 ≤ ending.length) : IsName (name ++ ending) := by
  have hlength : 3 ≤ (name ++ ending).length := by
    have hname : name.length ≠ 0 := fun hzero => h.filled (String.length_eq_zero_iff.mp hzero)
    rw [String.length_append]
    omega
  refine ⟨⟨?_, ?_⟩, ?_, ?_⟩
  · intro heq
    rw [heq] at hlength
    exact absurd hlength (by decide)
  · rw [String.toList_append, List.mem_append]
    exact not_or.mpr ⟨h.single, hslash⟩
  all_goals
    intro heq
    rw [heq] at hlength
    exact absurd hlength (by decide)

theorem fileName?_of_pieces {path name : String} {front : List String}
    (hpath : pieces path = front ++ [name]) (hname : IsName name) : fileName? path = some name := by
  have hlast : (components path).getLast? = some name := by
    have hkept : ([name].filter (· != ".")) = [name] := by simp [hname.moves]
    rw [components, hpath]
    cases front with
    | nil => simp [hname.moves]
    | cons first rest =>
        simp only [List.cons_append, List.filter_append, hkept]
        split
        · exact List.getLast?_concat
        · exact List.getLast?_concat (l := first :: _)
  rw [fileName?, hlast]
  simp [hname.moves, hname.down]

theorem endsWithSlash_append (hnext : next ≠ "") :
    endsWithSlash (base ++ next) = endsWithSlash next := by
  have hlist : next.toList ≠ [] := fun h => hnext (String.toList_eq_nil_iff.mp h)
  rw [endsWithSlash, endsWithSlash, String.toList_append, List.getLast?_append_of_ne_nil _ hlist]

theorem endsWithSlash_join (hnext : next ≠ "") :
    endsWithSlash (join base next) = endsWithSlash next := by
  rw [join]
  split
  · rfl
  · split
    · exact endsWithSlash_append hnext
    · exact endsWithSlash_append hnext

theorem IsPiece.endsWithSlash_eq (h : IsPiece piece) : endsWithSlash piece = false := by
  refine eq_false_of_ne_true fun hslash => h.single ?_
  rw [endsWithSlash, beq_iff_eq] at hslash
  exact List.mem_of_getLast? hslash

theorem IsPiece.join_lt {first second : String} (hfirst : IsPiece first) (hsecond : IsPiece second)
    (h : first < second) : join base first < join base second := by
  have hfront (front : String) : front ++ first < front ++ second := by
    change (front ++ first).toList < (front ++ second).toList
    rw [String.toList_append, String.toList_append]
    exact List.append_left_lt h
  rw [join, join, hfirst.isAbsolute_eq, hsecond.isAbsolute_eq, if_neg Bool.false_ne_true,
    if_neg Bool.false_ne_true]
  split
  · exact hfront base
  · exact hfront (base ++ "/")

end VersionGroups.Path
