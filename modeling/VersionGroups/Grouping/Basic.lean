import VersionGroups.Grouping.Equivalence

/-!
# Grouping the versions of a slot

The versions that define a slot are taken in ascending order. A version joins the one group whose
representative it is related to, or opens a group that it represents; a version related to two
representatives has no place. Within a group the versions are filed under their wire ids.
-/

namespace VersionGroups

/-- Versions by wire id. -/
abbrev Buckets := Table (Option WireId) (List Version)

/-- A class of versions with its representative. -/
structure Group where
  representative : Version
  buckets : Buckets

/-- The versions of all buckets, bucket by bucket. -/
def Buckets.versions (buckets : Buckets) : List Version := buckets.values.flatten

/-- Versions in ascending order. -/
def ascendingVersions (versions : List Version) : List Version :=
  versions.mergeSort (fun a b => decide (a ≤ b))

namespace Group

def single (version : Version) (wireId : Option WireId) : Group :=
  ⟨version, Table.empty.insert wireId [version]⟩

/-- The group with one more version. -/
def add (group : Group) (version : Version) (wireId : Option WireId) : Group :=
  let bucket := (group.buckets.get? wireId).getD []
  { group with buckets := group.buckets.insert wireId (bucket ++ [version]) }

/-- The versions of the group in ascending order. -/
def members (group : Group) : List Version := ascendingVersions group.buckets.versions

end Group

/-- The groups of a slot. -/
structure SlotGroups where
  slot : Slot
  groups : List Group

/-- A group with the definition of its representative. -/
structure OpenGroup where
  group : Group
  head : Json

/-- The representative that a definition is related to, after groups that gave `matched`. -/
def matchGroup (relation : Relation) (slot : Slot) (version : Version) (spec : Json)
    (matched : Option Version) : List OpenGroup → Except Fault (Option Version)
  | [] => .ok matched
  | g :: rest => do
      if ← relation g.group.representative g.head version spec then
        match matched with
        | none =>
            matchGroup relation slot version spec (some g.group.representative) rest
        | some first =>
            .error (.ambiguousGroup slot.label version first g.group.representative)
      else matchGroup relation slot version spec matched rest

/-- Files a version under its group. -/
def fileVersion (relation : Relation) (slot : Slot) (version : Version) (spec : Json)
    (wireId : Option WireId) (groups : List OpenGroup) : Except Fault (List OpenGroup) := do
  match ← matchGroup relation slot version spec none groups with
  | some representative =>
      return groups.map fun g =>
        if g.group.representative = representative then
          { g with group := g.group.add version wireId }
        else g
  | none => return groups ++ [⟨Group.single version wireId, spec⟩]

/-- Takes one more version of the corpus into account, if it defines the slot. -/
def groupVersion (relation : Relation) (slot : Slot) (groups : List OpenGroup)
    (entry : Version × Document) : Except Fault (List OpenGroup) := do
  let view : View := ⟨entry.1, entry.2⟩
  match ← view.slotSpec? slot with
  | none => return groups
  | some spec =>
      let wireId ← view.slotWireId? slot
      fileVersion relation slot entry.1 spec wireId groups

/-- The groups of a slot over a corpus. -/
def groupSlot (corpus : Corpus) (relation : Relation) (slot : Slot) : Except Fault SlotGroups := do
  let groups ← corpus.entries.foldlM (groupVersion relation slot) []
  return ⟨slot, groups.map (·.group)⟩

end VersionGroups
