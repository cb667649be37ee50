import VersionGroups.Fault
import VersionGroups.Table

/-!
# The registry of tracked slots

The declared slots in ascending order. No segment of a slot is blank, and no two slots have the same
label up to ASCII case and blanks at the ends, so a label names at most one slot.
-/

namespace VersionGroups

/-- Tracked slots. -/
structure Registry where
  slots : List Slot
  ascending : slots.Pairwise (fun s t => compare s t = .lt)
  distinct : (slots.map Slot.key).Nodup
  filled : ∀ s ∈ slots, s.hasBlankSegment = false

namespace Registry

/-- The first slot that cannot be registered after slots with the given keys. -/
def firstFault? (seen : List String) : List Slot → Option Fault
  | [] => none
  | s :: rest =>
      if s.hasBlankSegment then
        some (.invalidConfig s!"slot {s.label} has an empty segment")
      else if s.key ∈ seen then some (.duplicateSlot s.label)
      else firstFault? (s.key :: seen) rest

theorem filled_of_firstFault? {seen : List String} {slots : List Slot}
    (h : firstFault? seen slots = none) : ∀ s ∈ slots, s.hasBlankSegment = false := by
  induction slots generalizing seen with
  | nil => simp
  | cons s rest ih =>
      simp only [firstFault?] at h
      split at h
      · cases h
      · rename_i blank
        split at h
        · cases h
        · intro t ht
          rcases List.mem_cons.mp ht with rfl | ht
          · simpa using blank
          · exact ih h t ht

theorem distinct_of_firstFault? {seen : List String} {slots : List Slot}
    (h : firstFault? seen slots = none) :
    (slots.map Slot.key).Nodup ∧ ∀ s ∈ slots, s.key ∉ seen := by
  induction slots generalizing seen with
  | nil => simp
  | cons s rest ih =>
      simp only [firstFault?] at h
      split at h
      · cases h
      · split at h
        · cases h
        · rename_i fresh
          obtain ⟨nodup, apart⟩ := ih h
          refine ⟨?_, ?_⟩
          · refine List.nodup_cons.mpr ⟨?_, nodup⟩
            intro hs
            obtain ⟨t, ht, same⟩ := List.mem_map.mp hs
            exact apart t ht (same ▸ List.mem_cons_self ..)
          · intro t ht
            rcases List.mem_cons.mp ht with rfl | ht
            · exact fresh
            · exact fun hs => apart t ht (List.mem_cons_of_mem _ hs)

/-- Slots in ascending order. -/
def sorted (slots : List Slot) : List Slot := slots.mergeSort (fun s t => (compare s t).isLE)

theorem sorted_perm (slots : List Slot) : (sorted slots).Perm slots := List.mergeSort_perm ..

theorem ascending_sorted {slots : List Slot} (h : (slots.map Slot.key).Nodup) :
    (sorted slots).Pairwise (fun s t => compare s t = .lt) := by
  have nodup : slots.Nodup :=
    List.Pairwise.of_map Slot.key (fun _ _ hne heq => hne (congrArg Slot.key heq)) h
  exact Table.ascending_mergeSort nodup

/-- The registry of declared slots, in any order. -/
def ofList (slots : List Slot) : Except Fault Registry :=
  match h : firstFault? [] slots with
  | some fault => .error fault
  | none =>
      .ok
        { slots := sorted slots
          ascending := ascending_sorted (distinct_of_firstFault? h).1
          distinct :=
            ((sorted_perm slots).map Slot.key).nodup_iff.mpr (distinct_of_firstFault? h).1
          filled := fun s hs =>
            filled_of_firstFault? h s ((sorted_perm slots).mem_iff.mp hs) }

/-- The tracked types in order. -/
def types (registry : Registry) : List TypeName := registry.slots.filterMap Slot.asType?

/-- The tracked packets in order. -/
def packets (registry : Registry) : List PacketName := registry.slots.filterMap Slot.asPacket?

/-- Whether a packet is tracked, under any spelling of its label. -/
def tracks (registry : Registry) (packet : PacketName) : Bool :=
  registry.packets.any fun p => normalized p.label == normalized packet.label

def size (registry : Registry) : Nat := registry.slots.length

end Registry

end VersionGroups
