import VersionGroups.Corpus.Reduction
import VersionGroups.Grouping.Basic

/-!
# The manifest

The manifest lists the versions that were considered, the aliases among them and, for every slot,
its groups with the aliases of each version beside it. A group's representative names the
implementation that all its versions share.
-/

namespace VersionGroups

/-- Versions in ascending order, each once. -/
def distinctVersions (versions : List Version) : List Version :=
  (ascendingVersions versions).eraseReps

/-- A group whose versions include aliases. -/
structure ManifestGroup where
  representative : Version
  buckets : Buckets

/-- The versions of the group in ascending order, each once. -/
def ManifestGroup.versions (group : ManifestGroup) : List Version :=
  distinctVersions group.buckets.versions

/-- What is known about every slot. -/
structure Manifest where
  versions : List Version
  aliases : AliasTable
  slots : Table Slot (List ManifestGroup)

namespace Manifest

/-- The groups of a slot; a slot that is not listed has none. -/
def groups (manifest : Manifest) (slot : Slot) : List ManifestGroup :=
  (manifest.slots.get? slot).getD []

/-- The versions listed for a slot, in ascending order. -/
def slotVersions (manifest : Manifest) (slot : Slot) : List Version :=
  ascendingVersions ((manifest.groups slot).flatMap ManifestGroup.versions)

/-- The number of groups of all slots. -/
def groupCount (manifest : Manifest) : Nat := manifest.slots.values.flatten.length

end Manifest

/-- Versions with their aliases. -/
def AliasTable.expand (aliases : AliasTable) (versions : List Version) : List Version :=
  distinctVersions (versions ++ versions.flatMap aliases.aliasesOf)

/-- A group with the aliases of its versions. -/
def Group.expand (group : Group) (aliases : AliasTable) : ManifestGroup :=
  ⟨group.representative, group.buckets.mapValues fun _ versions => aliases.expand versions⟩

/-- The first alias that does not stand for a kept version. -/
def Reduction.staleAlias? (reduction : Reduction) : Option (Version × Version) :=
  reduction.aliases.entries.find? fun e =>
    !reduction.kept.contains e.2 || reduction.aliases.contains e.2

/-- The manifest of the groups of some slots over a reduced corpus. -/
def buildManifest (reduction : Reduction) (slotGroups : List SlotGroups) :
    Except Fault Manifest :=
  match reduction.staleAlias? with
  | some (aliasVersion, target) => .error (.staleAlias aliasVersion target)
  | none =>
      .ok
        { versions := reduction.considered
          aliases := reduction.aliases
          slots := Table.ofList (slotGroups.map fun entry =>
            (entry.slot, entry.groups.map (·.expand reduction.aliases))) }

end VersionGroups
