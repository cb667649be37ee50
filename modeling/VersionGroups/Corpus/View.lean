import VersionGroups.Corpus.Basic
import VersionGroups.Fault

/-!
# Reading a document

What a document says about packets and types. The packets of a direction and a state are listed by
the type named `packet`: a container with a field that maps wire ids to packet names and a field
that chooses a definition by packet name. A type is looked up under its name first and under the
run-together spelling second, in the types of its direction and state before the types of all
states.
-/

namespace VersionGroups

/-- A document under the version it describes. -/
structure View where
  version : Version
  document : Document

/-- The id mapping and the definitions by name of one direction and state. -/
structure PacketTable where
  mappings : List (String × Json)
  definitions : List (String × Json)

namespace View

/-- The types declared for a direction and a state. -/
def localTypes? (view : View) (direction : Direction) (state : String) :
    Option (List (String × Json)) := do
  let states ← view.document.root.field? state
  let packets ← states.field? direction.documentKey
  let types ← packets.field? Document.typesKey
  types.asObject?

/-- A named option of a container field: the object under `option` in the field's type options. -/
def fieldOption? (field : Json) (option : String) : Option (List (String × Json)) := do
  let type ← field.field? "type"
  let options ← type.item? 1
  let value ← options.field? option
  value.asObject?

/-- The kind of a container field: the first item of its type. -/
def fieldKind? (field : Json) : Option String := do
  let type ← field.field? "type"
  let kind ← type.item? 0
  kind.asString?

/-- The option of the last field of a kind; a field of another kind changes nothing. -/
def lastOption? (kind option : String) (fields : List Json) : Option (List (String × Json)) :=
  fields.foldl
    (fun found field => if fieldKind? field = some kind then fieldOption? field option else found)
    none

/-- The packet table of a direction and a state, if the document has one. -/
def packetTable? (view : View) (direction : Direction) (state : String) :
    Except Fault (Option PacketTable) :=
  match (view.localTypes? direction state).bind (Json.lookup? · "packet") with
  | none => .ok none
  | some table =>
      let malformed (reason : String) : Fault :=
        .malformedPacketTable view.version direction state reason
      match (table.item? 1).bind Json.asArray? with
      | none => .error (malformed "expected [\"container\", [...]]")
      | some fields =>
          match lastOption? "mapper" "mappings" fields, lastOption? "switch" "fields" fields with
          | none, _ => .error (malformed "missing id mapper")
          | some _, none => .error (malformed "missing name switch")
          | some mappings, some definitions => .ok (some ⟨mappings, definitions⟩)

/-- Whether a mapping entry names a packet. -/
def names (packet : String) (value : Json) : Bool := value.asString? == some packet

/-- A type by its name in the types of a direction and state, or else in those of all states. -/
def namedType? (view : View) (direction : Direction) (state name : String) : Option Json :=
  ((view.localTypes? direction state).bind (Json.lookup? · name)).or
    (view.document.globalTypes?.bind (Json.lookup? · name))

/-- The definition of a packet, if the id mapping lists it. -/
def packetSpec? (view : View) (packet : PacketName) : Except Fault (Option Json) := do
  match ← view.packetTable? packet.direction packet.state with
  | none => return none
  | some table =>
      if table.mappings.any (fun e => names packet.name e.2) then
        match Json.lookup? table.definitions packet.name with
        | some (.str typeName) =>
            match view.namedType? packet.direction packet.state typeName with
            | some spec => return some spec
            | none => .error (.unresolvedPacket view.version packet)
        | some inline => return some inline
        | none => .error (.unresolvedPacket view.version packet)
      else return none

/-- The wire id of a mapping key. -/
def keyId (view : View) (direction : Direction) (state key : String) : Except Fault WireId :=
  match WireId.ofKey? key with
  | some id => .ok id
  | none => .error (.malformedWireId view.version direction state key)

/-- The one wire id that mapping entries give a packet, after entries that gave `found`. -/
def findWireId (view : View) (packet : PacketName) (found : Option WireId) :
    List (String × Json) → Except Fault (Option WireId)
  | [] => .ok found
  | (key, value) :: rest =>
      if names packet.name value then do
        let id ← view.keyId packet.direction packet.state key
        match found with
        | none => findWireId view packet (some id) rest
        | some first =>
            if first = id then findWireId view packet found rest
            else if first.value < id.value then
              .error (.conflictingWireId view.version packet first id)
            else .error (.conflictingWireId view.version packet id first)
      else findWireId view packet found rest

/-- The wire id of a packet, if the id mapping lists it. -/
def packetWireId? (view : View) (packet : PacketName) : Except Fault (Option WireId) := do
  match ← view.packetTable? packet.direction packet.state with
  | none => return none
  | some table => view.findWireId packet none table.mappings

/-- The order of an id mapping's content: by wire id, then by name. -/
def namesOrder (a b : WireId × String) : Bool :=
  ((compare a.1 b.1).then (compare a.2 b.2)).isLE

/-- The wire ids and packet names that a mapping lists, in the order of the mapping. -/
def listedNames (view : View) (direction : Direction) (state : String) :
    List (String × Json) → Except Fault (List (WireId × String))
  | [] => .ok []
  | (key, value) :: rest => do
      let id ← view.keyId direction state key
      let others ← listedNames view direction state rest
      match value.asString? with
      | some name => return (id, name) :: others
      | none => return others

/-- The wire ids and packet names of a direction and a state, in ascending order. -/
def packetNames (view : View) (direction : Direction) (state : String) :
    Except Fault (List (WireId × String)) := do
  match ← view.packetTable? direction state with
  | none => return []
  | some table => return (← view.listedNames direction state table.mappings).mergeSort namesOrder

/-- A type under either of its spellings, the exact one first. -/
def spelled? (type : TypeName) (types : List (String × Json)) : Option Json :=
  (Json.lookup? types type.name).or (Json.lookup? types type.pascalName)

/-- The definition of a type. -/
def typeSpec? (view : View) (type : TypeName) : Option Json :=
  let nearby :=
    match type.scope with
    | .common => none
    | .scoped direction state => (view.localTypes? direction state).bind (spelled? type)
  nearby.or (view.document.globalTypes?.bind (spelled? type))

/-- The definition of a slot. -/
def slotSpec? (view : View) : Slot → Except Fault (Option Json)
  | .packet packet => view.packetSpec? packet
  | .type type => .ok (view.typeSpec? type)

/-- The wire id of a slot; types have none. -/
def slotWireId? (view : View) : Slot → Except Fault (Option WireId)
  | .packet packet => view.packetWireId? packet
  | .type _ => .ok none

end View

end VersionGroups
