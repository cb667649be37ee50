import VersionGroups.Corpus.View
import VersionGroups.Event
import VersionGroups.Slot.Registry

/-!
# Untracked packets

The packets that some version of a corpus lists and no slot tracks, each with the first version that
lists it and its least wire id there.
-/

namespace VersionGroups

/-- A packet that is not tracked. -/
structure UntrackedPacket where
  packet : PacketName
  firstVersion : Version
  wireId : WireId
  deriving DecidableEq, Repr

/-- The document value of an untracked packet, its fields in the order in which they are told. -/
def UntrackedPacket.toJson (untracked : UntrackedPacket) : Json :=
  .obj
    [("direction", .str untracked.packet.direction.name), ("state", .str untracked.packet.state),
      ("packet", .str untracked.packet.name),
      ("first_version", .num (.int untracked.firstVersion)),
      ("wire_id", .num (.int untracked.wireId.value))]

/-- Packets by direction, state and name. -/
abbrev PacketIndex := Table (List String) UntrackedPacket

/-- The texts by which packets are ordered. -/
def PacketName.rank (packet : PacketName) : List String :=
  [packet.direction.name, packet.state, packet.name]

/-- The index with one more packet, unless it is tracked or listed already. -/
def PacketIndex.add (registry : Registry) (version : Version) (direction : Direction)
    (state : String) (index : PacketIndex) (entry : WireId × String) : PacketIndex :=
  let packet : PacketName := ⟨direction, state, entry.2⟩
  if registry.tracks packet || index.contains packet.rank then index
  else index.insert packet.rank ⟨packet, version, entry.1⟩

/-- The directions and states of a document, in the order in which they are searched. -/
def Document.scopes (document : Document) : List (Direction × String) :=
  document.states.flatMap fun state => Direction.all.map fun direction => (direction, state)

/-- The index with the packets of one more version. -/
def PacketIndex.addVersion (registry : Registry) (index : PacketIndex)
    (entry : Version × Document) : Except Fault PacketIndex :=
  entry.2.scopes.foldlM
    (fun index scope => do
      let names ← (View.mk entry.1 entry.2).packetNames scope.1 scope.2
      return names.foldl (PacketIndex.add registry entry.1 scope.1 scope.2) index)
    index

/-- The untracked packets in ascending order of direction, state and name. -/
def untrackedPackets (corpus : Corpus) (registry : Registry) :
    Except ErrorReport (List UntrackedPacket) :=
  match corpus.entries.foldlM (PacketIndex.addVersion registry) Table.empty with
  | .ok index => .ok index.values
  | .error fault => .error ((ErrorReport.ofFault fault).within "untracked_packets")

/-- The untracked packets, logged. -/
def untrackedLogged (corpus : Corpus) (registry : Registry) :
    Logged (Except ErrorReport (List UntrackedPacket)) :=
  Logged.bracket .untrackedReport [("version_count", corpus.size)]
    (fun packets => [("untracked", packets.length)])
    ErrorReport.kind (.silent (untrackedPackets corpus registry))

end VersionGroups
