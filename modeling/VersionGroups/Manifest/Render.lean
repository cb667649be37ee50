import VersionGroups.Manifest.Basic
import VersionGroups.Toml.Writer

/-!
# The manifest as text

The manifest file begins with a notice. It lists the versions, the aliases, the types by their path
and the packets by direction, state and name. A type lists the versions of each representative; a
packet lists, for each representative, the versions of each wire id. All numbers ascend.

A common type and a direction with scoped types share one table, so a common type that is named like
a direction leaves no place for that direction's types.
-/

namespace VersionGroups

namespace Manifest

/-- The notice at the beginning of the file. -/
def notice : String := "# AUTOMATICALLY GENERATED. DO NOT EDIT BY HAND.\n\n"

/-- The versions of a type by representative. -/
abbrev TypeRows := Table Version (List Version)

/-- The versions of a packet by wire id, by representative. -/
abbrev PacketRows := Table Version (Table Nat (List Version))

/-- An entry of the table of types. -/
inductive TypeEntry where
  | rows (rows : TypeRows)
  | scope (states : Table String (Table String TypeRows))

/-- The tables of the file. -/
structure Layout where
  types : Table String TypeEntry
  packets : Table String (Table String (Table String PacketRows))

/-- The rows of a type; of two groups with one representative the later one stays. -/
def typeRows (groups : List ManifestGroup) : TypeRows :=
  Table.ofList (groups.map fun g => (g.representative, g.versions))

/-- The wire ids of a bucket list, all of which must have one. -/
def wireRows (packet : PacketName) :
    List (Option WireId × List Version) → Except Fault (Table Nat (List Version))
  | [] => .ok Table.empty
  | (none, _) :: _ =>
      .error (.internal s!"packet slot {packet.label} has a bucket without wire id")
  | (some id, versions) :: rest => do return (← wireRows packet rest).insert id.value versions

/-- The rows of a packet; of two groups with one representative the later one stays. -/
def packetRows (packet : PacketName) (groups : List ManifestGroup) : Except Fault PacketRows :=
  groups.foldlM
    (fun rows g => do
      return rows.insert g.representative (← wireRows packet g.buckets.entries))
    Table.empty

/-- The layout with the rows of one more type among the states of its direction. -/
def Layout.addScoped (layout : Layout) (direction : Direction)
    (states : Table String (Table String TypeRows)) (state name : String)
    (groups : List ManifestGroup) : Layout :=
  let names := (states.get? state).getD Table.empty
  let states := states.insert state (names.insert name (typeRows groups))
  { layout with types := layout.types.insert direction.name (.scope states) }

/-- The layout with the rows of one more slot. -/
def Layout.add (layout : Layout) (entry : Slot × List ManifestGroup) : Except Fault Layout :=
  match entry.1 with
  | .type ⟨.common, name⟩ =>
      .ok { layout with types := layout.types.insert name (.rows (typeRows entry.2)) }
  | .type ⟨.scoped direction state, name⟩ =>
      match layout.types.get? direction.name with
      | some (.rows _) =>
          .error (.internal s!"type table {direction.name} is both a type and a scope")
      | some (.scope states) => .ok (layout.addScoped direction states state name entry.2)
      | none => .ok (layout.addScoped direction Table.empty state name entry.2)
  | .packet packet => do
      let rows ← packetRows packet entry.2
      let states := (layout.packets.get? packet.direction.name).getD Table.empty
      let names := (states.get? packet.state).getD Table.empty
      let states := states.insert packet.state (names.insert packet.name rows)
      return { layout with packets := layout.packets.insert packet.direction.name states }

/-- The layout of all slots. -/
def layout (manifest : Manifest) : Except Fault Layout :=
  manifest.slots.entries.foldlM Layout.add ⟨Table.empty, Table.empty⟩

/-- A table of the file with text keys. -/
def textTable {α : Type} (node : α → Toml.Node) (t : Table String α) : Toml.Node :=
  .table (t.entries.map fun e => (e.1, node e.2))

/-- A table of the file with numbers as keys. -/
def numberTable {α : Type} (node : α → Toml.Node) (t : Table Nat α) : Toml.Node :=
  .table (t.entries.map fun e => (toString e.1, node e.2))

/-- The rows of a type in the file. -/
def typeRowsNode (rows : TypeRows) : Toml.Node := numberTable .numbers rows

/-- An entry of the table of types in the file. -/
def TypeEntry.node : TypeEntry → Toml.Node
  | .rows content => typeRowsNode content
  | .scope content => textTable (textTable typeRowsNode) content

def fileFields (manifest : Manifest) (layout : Layout) : List (String × Toml.Node) :=
  [("versions", .numbers manifest.versions),
    ("version_aliases", numberTable .number manifest.aliases),
    ("type", textTable TypeEntry.node layout.types)] ++
    layout.packets.entries.map fun e =>
      (e.1, textTable (textTable (numberTable (numberTable .numbers))) e.2)

/-- The text of the manifest file. -/
def render (manifest : Manifest) : Except Fault String := do
  return notice ++ Toml.documentText (manifest.fileFields (← manifest.layout))

end Manifest

end VersionGroups
