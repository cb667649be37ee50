import VersionGroups.Json.Basic
import VersionGroups.Slot.Basic

/-!
# Slots as document values

A slot is an object with one field, which tells a packet from a type and holds its parts. Reading
accepts what writing produces, and further fields among the parts.
-/

namespace VersionGroups

/-- A text under a key. -/
def Json.textField? (value : Json) (key : String) : Option String :=
  (value.field? key).bind Json.asString?

namespace Direction

def toJson (direction : Direction) : Json := .str direction.name

/-- The direction under the key `direction`. -/
def ofField? (parts : Json) : Option Direction := (parts.textField? "direction").bind ofName?

end Direction

namespace PacketName

def toJson (packet : PacketName) : Json :=
  .obj
    [("direction", packet.direction.toJson), ("packet", .str packet.name),
      ("state", .str packet.state)]

def ofJson? (parts : Json) : Option PacketName := do
  return ⟨← Direction.ofField? parts, ← parts.textField? "state", ← parts.textField? "packet"⟩

@[simp] theorem ofJson?_toJson (packet : PacketName) : ofJson? packet.toJson = some packet := by
  simp [ofJson?, toJson, Direction.ofField?, Direction.toJson, Json.textField?, Json.field?,
    Json.asObject?, Json.lookup?, Json.asString?]

end PacketName

namespace TypeScope

def toJson : TypeScope → Json
  | .common => .str "Common"
  | .scoped direction state =>
      .obj [("Scoped", .obj [("direction", direction.toJson), ("state", .str state)])]

def ofJson? : Json → Option TypeScope
  | .str "Common" => some .common
  | .obj [("Scoped", parts)] => do
      return .scoped (← Direction.ofField? parts) (← parts.textField? "state")
  | _ => none

@[simp] theorem ofJson?_toJson (scope : TypeScope) : ofJson? scope.toJson = some scope := by
  cases scope <;>
    simp [ofJson?, toJson, Direction.ofField?, Direction.toJson, Json.textField?, Json.field?,
      Json.asObject?, Json.lookup?, Json.asString?]

end TypeScope

namespace TypeName

def toJson (type : TypeName) : Json :=
  .obj [("name", .str type.name), ("scope", type.scope.toJson)]

def ofJson? (parts : Json) : Option TypeName := do
  return ⟨← (parts.field? "scope").bind TypeScope.ofJson?, ← parts.textField? "name"⟩

@[simp] theorem ofJson?_toJson (type : TypeName) : ofJson? type.toJson = some type := by
  simp [ofJson?, toJson, Json.textField?, Json.field?, Json.asObject?, Json.lookup?,
    Json.asString?]

end TypeName

namespace Slot

/-- The document value of a slot. -/
def toJson : Slot → Json
  | .packet name => .obj [("Packet", name.toJson)]
  | .type name => .obj [("Type", name.toJson)]

/-- The slot that a document value stands for. -/
def ofJson? : Json → Option Slot
  | .obj [("Packet", parts)] => .packet <$> PacketName.ofJson? parts
  | .obj [("Type", parts)] => .type <$> TypeName.ofJson? parts
  | _ => none

/-- A slot that is written can be read back. -/
@[simp] theorem ofJson?_toJson (slot : Slot) : ofJson? slot.toJson = some slot := by
  cases slot <;> simp [ofJson?, toJson]

end Slot

end VersionGroups
