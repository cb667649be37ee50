import VersionGroups.Files.Path
import VersionGroups.Slot.Basic
import VersionGroups.WireId

/-!
# Artifact keys

An artifact is the implementation of a slot that starts at a version. Its file lies under the
segments of the slot.
-/

namespace VersionGroups

/-- A slot and the version that represents a group of it. -/
structure ArtifactKey where
  slot : Slot
  version : Version
  deriving DecidableEq, Repr

namespace ArtifactKey

instance : Ord ArtifactKey := ⟨compareLex (compareOn ArtifactKey.slot) (compareOn version)⟩

instance : Std.TransOrd ArtifactKey :=
  inferInstanceAs (Std.TransCmp (compareLex (compareOn ArtifactKey.slot) (compareOn version)))

theorem compare_def (a b : ArtifactKey) :
    compare a b = (compare a.slot b.slot).then (compare a.version b.version) := rfl

instance : Std.LawfulEqOrd ArtifactKey where
  compare_self {a} := Std.ReflCmp.compare_self
  eq_of_compare {a b} h := by
    rw [compare_def, Ordering.then_eq_eq] at h
    have slots := Std.LawfulEqCmp.eq_of_compare h.1
    have versions := Std.LawfulEqCmp.eq_of_compare h.2
    cases a; cases b; simp_all

/-- The segments of the path of an artifact's file. -/
def segments (key : ArtifactKey) : List String :=
  (match key.slot with
    | .packet p => [p.direction.name, p.state, p.name]
    | .type ⟨.common, name⟩ => ["types", name]
    | .type ⟨.scoped direction state, name⟩ => ["types", direction.name, state, name]) ++
  [s!"v{key.version}.rs"]

/-- The path of an artifact's file below the directory of artifacts. -/
def relativePath (key : ArtifactKey) : String := key.segments.foldl Path.join ""

end ArtifactKey

/-- An artifact and where it is kept. -/
structure ArtifactHandle where
  key : ArtifactKey
  location : String
  deriving DecidableEq, Repr

end VersionGroups
