import VersionGroups.Corpus.Reduction
import VersionGroups.ErrorReport
import VersionGroups.Slot.Path
import VersionGroups.Slot.Registry

/-!
# Slot configurations

A configuration is declared as a range of versions, a list of type paths, and lists of packet names
by direction and state. Validating it checks the range, reads the paths and directions, and
registers every declared slot. Types come before packets and packets in the order of their
directions and states, which decides what is reported when several declarations are at fault.
-/

namespace VersionGroups

/-- A configuration as it is declared. -/
structure Declarations where
  minimum : Nat
  maximum : Option Nat
  types : List String
  packets : Table String (Table String (List String))

/-- The versions to consider and the slots to track. -/
structure SlotConfig where
  range : VersionRange
  registry : Registry

namespace Declarations

/-- The operation under which faults of a configuration are reported. -/
def operation : String := "slot_config_parse"

/-- A report on a configuration that cannot be used. -/
def rejected (message : String) : ErrorReport :=
  { kind := .invalidConfig, operation := some operation, message := message }

def typeSlots (paths : List String) : Except Fault (List Slot) :=
  paths.mapM fun path => do return .type (← TypeName.parse path)

/-- The packets declared for a direction. -/
def packetSlots (entry : String × Table String (List String)) : Except Fault (List Slot) := do
  let direction ← Direction.parse entry.1
  return entry.2.entries.flatMap fun state =>
    state.2.map fun name => .packet ⟨direction, state.1, name⟩

/-- All declared slots. -/
def slots (declarations : Declarations) : Except Fault (List Slot) := do
  let types ← typeSlots declarations.types
  let packets ← declarations.packets.entries.mapM packetSlots
  return types ++ packets.flatten

/-- Whether the declared range has an end that lies below its beginning. -/
def invertedEnd? (declarations : Declarations) : Option Nat :=
  declarations.maximum.filter (· < declarations.minimum)

/-- The configuration that is declared. -/
def validate (declarations : Declarations) : Except ErrorReport SlotConfig :=
  match declarations.invertedEnd? with
  | some maximum =>
      .error (rejected
        s!"max_version {maximum} is below min_version {declarations.minimum}")
  | none =>
      match declarations.slots.bind Registry.ofList with
      | .error fault => .error ((ErrorReport.ofFault fault).within operation)
      | .ok registry => .ok ⟨⟨declarations.minimum, declarations.maximum⟩, registry⟩

end Declarations

end VersionGroups
