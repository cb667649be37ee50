import VersionGroups.Slot.Direction
import VersionGroups.Text.Blank
import VersionGroups.Text.Words

/-!
# Slots

A slot is one tracked unit: a packet of a direction and a state, or a type that packets share. A
type belongs to the whole document or to one direction and state. Slots are ordered packets first,
then by direction, state and name; the order is that of a list of texts which tells slots apart.
-/

namespace VersionGroups

/-- A packet by its direction, state and name. -/
structure PacketName where
  direction : Direction
  state : String
  name : String
  deriving DecidableEq, Repr

/-- Where a type is declared. -/
inductive TypeScope where
  | common
  | scoped (direction : Direction) (state : String)
  deriving DecidableEq, Repr

/-- A type by its scope and name. -/
structure TypeName where
  scope : TypeScope
  name : String
  deriving DecidableEq, Repr

/-- A tracked packet or a tracked type. -/
inductive Slot where
  | packet (name : PacketName)
  | type (name : TypeName)
  deriving DecidableEq, Repr

/-- The direction, state and name with points between them. -/
def PacketName.label (p : PacketName) : String :=
  p.direction.name ++ "." ++ p.state ++ "." ++ p.name

namespace TypeName

/-- The dotted path of a type. -/
def path (t : TypeName) : String :=
  match t.scope with
  | .common => t.name
  | .scoped direction state => direction.name ++ "." ++ state ++ "." ++ t.name

/-- The name with its words run together. -/
def pascalName (t : TypeName) : String := pascalCase t.name

/-- The two spellings by which documents refer to the type. -/
def referenceNames (t : TypeName) : List String := [t.name, t.pascalName]

/-- The label of the type as a slot. -/
def label (t : TypeName) : String := "type." ++ t.path

end TypeName

namespace Slot

/-- The text by which a slot is shown. -/
def label : Slot → String
  | .packet p => p.label
  | .type t => t.label

/-- The label in the form under which slots are compared. -/
def key (s : Slot) : String := normalized s.label

/-- The last segment of a slot. -/
def name : Slot → String
  | .packet p => p.name
  | .type t => t.name

def asPacket? : Slot → Option PacketName
  | .packet p => some p
  | .type _ => none

def asType? : Slot → Option TypeName
  | .packet _ => none
  | .type t => some t

/-- Whether the name or the state of a slot has no character but blanks. -/
def hasBlankSegment : Slot → Bool
  | .packet p => isBlankText p.state || isBlankText p.name
  | .type ⟨.common, name⟩ => isBlankText name
  | .type ⟨.scoped _ state, name⟩ => isBlankText name || isBlankText state

/-- The texts by which slots are ordered. -/
def rank : Slot → List String
  | .packet p => ["0", p.direction.name, p.state, p.name]
  | .type ⟨.common, name⟩ => ["1", "0", name]
  | .type ⟨.scoped direction state, name⟩ => ["1", "1", direction.name, state, name]

theorem rank_injective {s t : Slot} (h : s.rank = t.rank) : s = t := by
  rcases s with ⟨d, st, n⟩ | ⟨_ | ⟨d, st⟩, n⟩ <;>
    rcases t with ⟨d', st', n'⟩ | ⟨_ | ⟨d', st'⟩, n'⟩ <;>
    simp [rank] at h
  · obtain ⟨hd, rfl, rfl⟩ := h
    rw [Direction.name_injective hd]
  · rw [h]
  · obtain ⟨hd, rfl, rfl⟩ := h
    rw [Direction.name_injective hd]

instance : Ord Slot := ⟨compareOn Slot.rank⟩

theorem compare_def (s t : Slot) : compare s t = compare s.rank t.rank := rfl

instance : Std.TransOrd Slot := inferInstanceAs (Std.TransCmp (compareOn Slot.rank))

instance : Std.LawfulEqOrd Slot where
  compare_self {s} := show compare s.rank s.rank = .eq from Std.ReflCmp.compare_self
  eq_of_compare {s t} h :=
    rank_injective (Std.LawfulEqCmp.eq_of_compare (show compare s.rank t.rank = .eq from h))

end Slot

end VersionGroups
