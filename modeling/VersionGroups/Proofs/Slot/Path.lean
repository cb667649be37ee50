import VersionGroups.Proofs.Files.Path
import VersionGroups.Proofs.Text.Blank
import VersionGroups.Slot.Path

/-!
# The paths of types

A path, without the blanks at its ends, is divided by points in one way only. It names a type if it
has one segment, which does not spell a direction, or three, the first of which does. The segments
of the path of a type are those that were read, except that the direction has its short name. That
name begins with no blank, and the last segment ends with none, so nothing is lost to trimming and
reading the path of a type gives the type again.
-/
namespace VersionGroups

/-- The short name of a direction, in letters of either case and with blanks around it. -/
def Direction.Spells (d : Direction) (text : String) : Prop :=
  ∃ core, IsPadded core text.toList ∧ core.map Char.toLower = d.name.toList

/-- A path, but for the blanks around it, is made of segments with points between them. -/
structure Divides (path : String) (segments : List String) : Prop where
  padded : IsPadded (['.'].intercalate (segments.map String.toList)) path.toList
  filled : ∀ s ∈ segments, s ≠ ""
  undotted : ∀ s ∈ segments, '.' ∉ s.toList

section
variable {core cs : List Char} {text path : String} {d : Direction} {segments : List String}

theorem Direction.ofName?_eq_some_iff : Direction.ofName? text = some d ↔ text = d.name := by
  constructor
  · intro h
    rw [ofName?] at h
    split at h
    · obtain rfl := Option.some.inj h
      assumption
    · split at h
      · obtain rfl := Option.some.inj h
        assumption
      · cases h
  · rintro rfl
    exact ofName?_name d

theorem Direction.parse_eq_ok_iff : Direction.parse text = .ok d ↔ d.Spells text := by
  have hread : Direction.parse text = .ok d ↔ Direction.ofName? (normalized text) = some d := by
    rw [parse]
    split <;> simp_all
  rw [hread, ofName?_eq_some_iff, normalized, ← String.toList_inj, String.toList_ofList]
  constructor
  · exact fun h => ⟨_, isPadded_trimBlanks _, h⟩
  · rintro ⟨core, hpadded, h⟩
    rw [hpadded.trimBlanks_eq, h]

theorem Direction.parse_eq_error (h : ∀ d : Direction, ¬ d.Spells text) :
    Direction.parse text = .error (.unknownDirection text) := by
  cases hname : Direction.ofName? (normalized text) with
  | none => rw [parse, hname]
  | some d =>
      have hparse : Direction.parse text = .ok d := by rw [parse, hname]
      exact absurd (parse_eq_ok_iff.mp hparse) (h d)

/-- There is one way to divide a path, and that is how it is read. -/
theorem divides_cons_iff {s : String} : Divides path (s :: segments) ↔
    pathSegments path = s :: segments ∧ ∀ t ∈ s :: segments, t ≠ "" := by
  constructor
  · rintro ⟨hpadded, hfilled, hundotted⟩
    refine ⟨?_, hfilled⟩
    have hpieces : ∀ piece ∈ (s :: segments).map String.toList, '.' ∉ piece := by
      simpa using hundotted
    rw [pathSegments, hpadded.trimBlanks_eq,
      List.splitOn_intercalate '.' hpieces (by simp), List.map_map]
    simp [Function.comp_def]
  · rintro ⟨hread, hfilled⟩
    have hpieces : (trimBlanks path.toList).splitOn '.' = (s :: segments).map String.toList := by
      rw [← hread, pathSegments, List.map_map]
      simp [Function.comp_def]
    refine ⟨?_, hfilled, fun t ht => ?_⟩
    · rw [← hpieces, List.intercalate_splitOn]
      exact isPadded_trimBlanks path.toList
    · have hpiece : t.toList ∈ (trimBlanks path.toList).splitOn '.' :=
        hpieces ▸ List.mem_map_of_mem ht
      exact fun hpoint => by simpa using Path.mem_splitOnP hpiece '.' hpoint

end

theorem Direction.isTrimmed_name (d : Direction) : IsTrimmed d.name.toList := by
  constructor <;> cases d <;> rintro _ ⟨⟩ <;> rfl

theorem Direction.spells_name (d : Direction) : d.Spells d.name :=
  ⟨d.name.toList, d.isTrimmed_name.isPadded, by cases d <;> decide⟩

/-- The short name of any direction can stand for the one that a path begins with. -/
theorem divides_scoped_path {path direction state name : String}
    (h : Divides path [direction, state, name]) (d : Direction) :
    Divides (TypeName.path ⟨.scoped d state, name⟩) [d.name, state, name] := by
  obtain ⟨-, hstate, hname⟩ : direction ≠ "" ∧ state ≠ "" ∧ name ≠ "" := by simpa using h.filled
  obtain ⟨-, hstate', hname'⟩ :
      '.' ∉ direction.toList ∧ '.' ∉ state.toList ∧ '.' ∉ name.toList := by simpa using h.undotted
  have hjoined (first : String) : ['.'].intercalate ([first, state, name].map String.toList) =
      first.toList ++ '.' :: state.toList ++ ['.'] ++ name.toList := by
    simp [List.intercalate, List.intersperse]
  have hlast (front : List Char) : (front ++ name.toList).getLast? = name.toList.getLast? :=
    List.getLast?_append_of_ne_nil front (by simpa using hname)
  have htrimmed : IsTrimmed (d.name.toList ++ '.' :: state.toList ++ ['.'] ++ name.toList) := by
    constructor
    · have hhead : d.name.toList ≠ [] := by cases d <;> decide
      rw [List.append_assoc, List.append_assoc, List.head?_append_of_ne_nil _ hhead]
      exact d.isTrimmed_name.head
    · have hpadded := h.padded.1.last
      rw [hjoined, hlast] at hpadded
      rwa [hlast]
  refine ⟨?_, ?_, ?_⟩
  · have hpath : (TypeName.path ⟨.scoped d state, name⟩).toList =
        d.name.toList ++ '.' :: state.toList ++ ['.'] ++ name.toList := by
      simp [TypeName.path]
    rw [hjoined, hpath]
    exact htrimmed.isPadded
  · have hdirection : d.name ≠ "" := by cases d <;> decide
    simp [hdirection, hstate, hname]
  · have hdirection : '.' ∉ d.name.toList := by cases d <;> decide
    simp [hdirection, hstate', hname']

namespace TypeName

/-- What reading a path comes to, by its segments. -/
inductive Reading (path : String) : Except Fault TypeName → Prop
  | named {name} (h : Divides path [name]) (hd : ∀ d : Direction, ¬ d.Spells name) :
      Reading path (.ok ⟨.common, name⟩)
  | misnamed {name} {d : Direction} (h : Divides path [name]) (hd : d.Spells name) :
      Reading path (.error (.invalidTypePath path))
  | placed {direction state name} {d : Direction} (h : Divides path [direction, state, name])
      (hd : d.Spells direction) : Reading path (.ok ⟨.scoped d state, name⟩)
  | unknown {direction state name} (h : Divides path [direction, state, name])
      (hd : ∀ d : Direction, ¬ d.Spells direction) :
      Reading path (.error (.unknownDirection direction))
  | other (hlone : ∀ name, ¬ Divides path [name])
      (hthree : ∀ direction state name, ¬ Divides path [direction, state, name]) :
      Reading path (.error (.invalidTypePath path))

variable {path : String} {result : Except Fault TypeName} {t u : TypeName}

theorem Reading.parse_eq (h : Reading path result) : parse path = result := by
  cases h with
  | named h hd =>
      obtain ⟨hread, hfilled⟩ := divides_cons_iff.mp h
      simp only [parse, hread, Direction.parse_eq_error hd]
      simpa using hfilled
  | misnamed h hd =>
      obtain ⟨hread, -⟩ := divides_cons_iff.mp h
      simp only [parse, hread, Direction.parse_eq_ok_iff.mpr hd, ite_self]
  | placed h hd =>
      obtain ⟨hread, hfilled⟩ := divides_cons_iff.mp h
      simp only [parse, hread, Direction.parse_eq_ok_iff.mpr hd]
      simpa using hfilled
  | unknown h hd =>
      obtain ⟨hread, hfilled⟩ := divides_cons_iff.mp h
      simp only [parse, hread, Direction.parse_eq_error hd]
      simpa using hfilled
  | other hlone hthree =>
      rw [parse]
      split
      · rfl
      · rename_i hfilled
        have hfilled : ∀ s ∈ pathSegments path, s ≠ "" := by
          rintro _ hs rfl
          exact hfilled (List.any_eq_true.mpr ⟨"", hs, by simp⟩)
        split
        · rename_i name hread
          exact absurd (divides_cons_iff.mpr ⟨hread, hread ▸ hfilled⟩) (hlone name)
        · rename_i direction state name hread
          exact absurd (divides_cons_iff.mpr ⟨hread, hread ▸ hfilled⟩)
            (hthree direction state name)
        · rfl

theorem reading_parse (path : String) : Reading path (parse path) := by
  have hreading : ∃ result, Reading path result := by
    by_cases hlone : ∃ name, Divides path [name]
    · obtain ⟨name, h⟩ := hlone
      by_cases hd : ∃ d : Direction, d.Spells name
      · obtain ⟨d, hd⟩ := hd
        exact ⟨_, .misnamed h hd⟩
      · exact ⟨_, .named h (not_exists.mp hd)⟩
    · by_cases hthree : ∃ direction state name, Divides path [direction, state, name]
      · obtain ⟨direction, state, name, h⟩ := hthree
        by_cases hd : ∃ d : Direction, d.Spells direction
        · obtain ⟨d, hd⟩ := hd
          exact ⟨_, .placed h hd⟩
        · exact ⟨_, .unknown h (not_exists.mp hd)⟩
      · simp only [not_exists] at hlone hthree
        exact ⟨_, .other hlone hthree⟩
  obtain ⟨result, h⟩ := hreading
  rwa [h.parse_eq]

/-- The path of a type that was read is divided into the same segments, with the direction by its
short name. -/
theorem Reading.path_reading (h : Reading path (.ok t)) : Reading t.path (.ok t) := by
  cases h with
  | @named name h hd =>
      have htrimmed : IsTrimmed name.toList := by simpa using h.padded.1
      have hcore : ['.'].intercalate ([name].map String.toList) = name.toList := by simp
      exact .named ⟨hcore ▸ htrimmed.isPadded, h.filled, h.undotted⟩ hd
  | @placed direction state name d h hd =>
      have hdivided := divides_scoped_path h d
      exact .placed hdivided d.spells_name

/-- Which paths name a type, and which; why the others do not; and the type of a path is read from
its own path again, so it is known by that. -/
theorem parse_paths (path : String) :
    (∀ t, parse path = .ok t ↔
      (∃ name, Divides path [name] ∧ (∀ d : Direction, ¬ d.Spells name) ∧ t = ⟨.common, name⟩) ∨
      ∃ direction state name, ∃ d : Direction, Divides path [direction, state, name] ∧
        d.Spells direction ∧ t = ⟨.scoped d state, name⟩) ∧
    (∀ direction, parse path = .error (.unknownDirection direction) ↔
      ∃ state name, Divides path [direction, state, name] ∧
        ∀ d : Direction, ¬ d.Spells direction) ∧
    (∀ fault, parse path = .error fault →
      fault = .invalidTypePath path ∨ ∃ direction, fault = .unknownDirection direction) ∧
    (∀ t, parse path = .ok t → parse t.path = .ok t) ∧
    ∀ other t u, parse path = .ok t → parse other = .ok u → (t = u ↔ t.path = u.path) := by
  have hread := reading_parse path
  refine ⟨fun t => ?_, fun direction => ?_, fun fault h => ?_, fun t h => ?_,
    fun other t u ht hu => ?_⟩
  · constructor
    · intro h
      rw [h] at hread
      cases hread with
      | named hdiv hd => exact .inl ⟨_, hdiv, hd, rfl⟩
      | placed hdiv hd => exact .inr ⟨_, _, _, _, hdiv, hd, rfl⟩
    · rintro (⟨name, h, hd, rfl⟩ | ⟨direction, state, name, d, h, hd, rfl⟩)
      · exact (Reading.named h hd).parse_eq
      · exact (Reading.placed h hd).parse_eq
  · constructor
    · intro h
      rw [h] at hread
      cases hread with
      | unknown hdiv hd => exact ⟨_, _, hdiv, hd⟩
    · rintro ⟨state, name, h, hd⟩
      exact (Reading.unknown h hd).parse_eq
  · rw [h] at hread
    cases hread with
    | misnamed => exact .inl rfl
    | unknown => exact .inr ⟨_, rfl⟩
    | other => exact .inl rfl
  · exact (h ▸ hread).path_reading.parse_eq
  · constructor
    · exact congrArg TypeName.path
    · intro hpath
      have hagain := (ht ▸ hread).path_reading.parse_eq
      have hother := (hu ▸ reading_parse other).path_reading.parse_eq
      rw [hpath, hother] at hagain
      exact (Except.ok.inj hagain).symm

/-- The type of a path with blanks and a capital is read again from its own path, a name with one
more blank is another type, and no type is named like a direction. -/
theorem parse_paths_spawnInfo :
    ∃ t u : TypeName, parse " S2C .play.spawn info\n" = .ok t ∧
      parse "s2c.play. spawn info" = .ok u ∧ t.path = "s2c.play.spawn info" ∧
      parse t.path = .ok t ∧ t.path ≠ u.path ∧
      ∃ fault, parse " C2s" = .error fault ∧
        (fault = .invalidTypePath " C2s" ∨ ∃ direction, fault = .unknownDirection direction) := by
  have hread : parse " S2C .play.spawn info\n" = .ok ⟨.scoped .toClient "play", "spawn info"⟩ := rfl
  have hother : parse "s2c.play. spawn info" = .ok ⟨.scoped .toClient "play", " spawn info"⟩ := rfl
  have hlone : parse " C2s" = .error (.invalidTypePath " C2s") := rfl
  obtain ⟨-, -, -, hagain, hsame⟩ := parse_paths " S2C .play.spawn info\n"
  obtain ⟨-, -, hfault, -, -⟩ := parse_paths " C2s"
  have hne := (not_congr (hsame _ _ _ hread hother)).mp (by decide)
  exact ⟨_, _, hread, hother, rfl, hagain _ hread, hne, _, hlone, hfault _ hlone⟩

end TypeName

end VersionGroups
