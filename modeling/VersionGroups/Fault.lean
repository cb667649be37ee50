import VersionGroups.Slot.Basic
import VersionGroups.Text.Quoted
import VersionGroups.WireId

/-!
# Faults

What can be wrong with a corpus, a configuration, a grouping or a generation, as a cause with the
data that belong to it, and the sentence that tells it to the reader.
-/

namespace VersionGroups

/-- A cause of failure. -/
inductive Fault where
  | unresolvedPacket (version : Version) (packet : PacketName)
  | conflictingWireId (version : Version) (packet : PacketName) (first second : WireId)
  | malformedWireId (version : Version) (direction : Direction) (state key : String)
  | malformedPacketTable (version : Version) (direction : Direction) (state reason : String)
  | missingBaseVersion (minimum : Version)
  | typeCycle (path : List String)
  | ambiguousGroup (slot : String) (version first second : Version)
  | staleAlias (aliasVersion target : Version)
  | invalidConfig (reason : String)
  | duplicateSlot (slot : String)
  | invalidTypePath (path : String)
  | unknownDirection (direction : String)
  | generationUnavailable (slot : String) (version : Version)
  | generationFailed (slot : String) (version : Version) (reason : String)
  | serialization (message : String)
  | internal (message : String)
  deriving DecidableEq, Repr

/-- Labels along a chain of references. -/
def chainText (labels : List String) : String := String.intercalate " -> " labels

def Fault.message : Fault → String
  | .unresolvedPacket version packet =>
      s!"Version {version}: packet {packet.label} has no resolvable definition"
  | .conflictingWireId version packet first second =>
      s!"Version {version}: packet {packet.label} mapped to both {first.text} and {second.text}"
  | .malformedWireId version direction state key =>
      s!"Version {version}: malformed wire id {quoted key} in {direction.name}.{state}"
  | .malformedPacketTable version direction state reason =>
      s!"Version {version}: malformed packet table in {direction.name}.{state}: {reason}"
  | .missingBaseVersion minimum =>
      s!"No protocol version at or below the configured minimum {minimum} was found"
  | .typeCycle path => s!"Cycle detected among tracked types: {chainText path}"
  | .ambiguousGroup slot version first second =>
      s!"Slot {slot}: version {version} matches the representatives of groups " ++
        s!"{first} and {second}"
  | .staleAlias aliasVersion target =>
      s!"Alias {aliasVersion} points at {target}, which is not a kept version"
  | .invalidConfig reason => s!"Invalid configuration: {reason}"
  | .duplicateSlot slot => s!"Slot declared more than once: {slot}"
  | .invalidTypePath path =>
      s!"Invalid type path {quoted path}: expected `name` or `direction.state.name`"
  | .unknownDirection direction =>
      s!"Unknown direction {quoted direction}: expected `c2s` or `s2c`"
  | .generationUnavailable slot version => s!"No generator configured for {slot} v{version}"
  | .generationFailed slot version reason => s!"Generation failed for {slot} v{version}: {reason}"
  | .serialization message => s!"Serialization error: {message}"
  | .internal message => s!"Internal error: {message}"

end VersionGroups
