import VersionGroups.Proofs.Config.Order
import VersionGroups.Proofs.Slot.Order
import VersionGroups.Proofs.Text.Blank

/-!
# What a registry tells apart

A slot is known by its label up to letter case and blanks at the ends. The labels of packets begin
with a direction and those of types do not, so a packet and a type are never taken for each other,
and the registry lists its packets before its types. A packet is tracked exactly if registering it
beside the declared slots would find a slot that is there already.
-/
namespace VersionGroups

theorem head?_normalized {front : String} {c : Char} (hfront : front.toList.head? = some c)
    (h : isBlank c = false) (back : String) :
    (normalized (front ++ back)).toList.head? = some c.toLower := by
  obtain ⟨cs, hcs⟩ := List.head?_eq_some_iff.mp hfront
  obtain ⟨rest, hrest⟩ := trimBlanks_cons h (cs ++ back.toList)
  simp [normalized, hcs, hrest]

/-- No packet has the key of a type. -/
theorem Slot.key_packet_ne (p : PacketName) (t : TypeName) :
    (Slot.packet p).key ≠ (Slot.type t).key := by
  have hname (d : Direction) :
      ∃ c, d.name.toList.head? = some c ∧ isBlank c = false ∧ c.toLower ≠ 't' := by
    cases d with
    | toServer => exact ⟨'c', by decide⟩
    | toClient => exact ⟨'s', by decide⟩
  obtain ⟨c, hc, hblank, hlower⟩ := hname p.direction
  have hpacket : (Slot.packet p).key.toList.head? = some c.toLower := by
    rw [key, label, PacketName.label, String.append_assoc, String.append_assoc,
      String.append_assoc]
    exact head?_normalized hc hblank _
  have hfront : "type.".toList.head? = some 't' := by decide
  have htype : (Slot.type t).key.toList.head? = some 't' :=
    head?_normalized hfront (by decide) t.path
  intro h
  rw [h, htype] at hpacket
  exact hlower (Option.some.inj hpacket).symm

/-- The state and the name of a slot, as far as it has them. -/
def Slot.segments : Slot → List String
  | .packet p => [p.state, p.name]
  | .type ⟨.common, name⟩ => [name]
  | .type ⟨.scoped _ state, name⟩ => [state, name]

theorem Slot.hasBlankSegment_eq_false_iff {s : Slot} :
    s.hasBlankSegment = false ↔ ∀ segment ∈ s.segments, trimmed segment ≠ "" := by
  rcases s with p | ⟨_ | ⟨d, state⟩, name⟩ <;>
    simp [hasBlankSegment, segments, isBlankText_eq_false_iff, and_comm]

/-- In the order of slots, the packets stand before the types. -/
theorem Slot.eq_packets_append_types {slots : List Slot} (h : slots.Pairwise Slot.Precedes) :
    slots = (slots.filterMap asPacket?).map .packet ++ (slots.filterMap asType?).map .type := by
  induction slots with
  | nil => rfl
  | cons s rest ih =>
      obtain ⟨hfirst, hrest⟩ := List.pairwise_cons.mp h
      cases s with
      | packet p => exact congrArg (Slot.packet p :: ·) (ih hrest)
      | type t =>
          -- What follows a type is a type.
          have hnone : rest.filterMap asPacket? = [] := by
            refine List.filterMap_eq_nil_iff.mpr fun u hu => ?_
            cases u with
            | packet p => exact (hfirst _ hu).elim
            | type u => rfl
          have htypes := ih hrest
          have hhere : (Slot.type t).asType? = some t := rfl
          rw [hnone, List.map_nil, List.nil_append] at htypes
          rw [List.filterMap_cons_none rfl, List.filterMap_cons_some hhere, hnone, List.map_nil,
            List.nil_append, List.map_cons, ← htypes]

namespace Registry
variable {slots : List Slot} {registry : Registry}

theorem precedes (registry : Registry) : registry.slots.Pairwise Slot.Precedes :=
  registry.ascending.imp Slot.precedes_of_compare

/-- Tracked types have distinct paths, since the labels of slots are distinct. -/
theorem types_distinct (registry : Registry) :
    (registry.types.map TypeName.path).Nodup := by
  have hkeys : registry.slots.Pairwise (fun s t => s.key ≠ t.key) :=
    List.pairwise_map.mp registry.distinct
  refine List.pairwise_map.mpr (List.Pairwise.filterMap _ ?_ hkeys)
  intro s s' hkey t ht u hu hpath
  cases s with
  | packet p => cases ht
  | type t' =>
      cases s' with
      | packet p => cases hu
      | type u' =>
          obtain rfl := Option.some.inj ht
          obtain rfl := Option.some.inj hu
          exact hkey (by rw [Slot.key, Slot.key, Slot.label, Slot.label, TypeName.label,
            TypeName.label, hpath])

/-- A packet is tracked exactly if a slot has its key. -/
theorem tracks_iff {p : PacketName} :
    registry.tracks p = true ↔ (Slot.packet p).key ∈ registry.slots.map Slot.key := by
  rw [tracks, List.any_eq_true, List.mem_map]
  constructor
  · rintro ⟨q, hq, hkey⟩
    obtain ⟨s, hs, hsq⟩ := List.mem_filterMap.mp hq
    cases s with
    | packet q' =>
        obtain rfl := Option.some.inj hsq
        exact ⟨_, hs, beq_iff_eq.mp hkey⟩
    | type t => cases hsq
  · rintro ⟨s, hs, hkey⟩
    cases s with
    | packet q => exact ⟨q, List.mem_filterMap.mpr ⟨_, hs, rfl⟩, beq_iff_eq.mpr hkey⟩
    | type t => exact absurd hkey.symm (Slot.key_packet_ne p t)

/-- Slots without a blank segment are refused only for a key that two of them have. -/
theorem firstFault?_of_filled {seen : List String} {fault : Fault}
    (filled : ∀ s ∈ slots, s.hasBlankSegment = false) (h : firstFault? seen slots = some fault) :
    ∃ s ∈ slots, fault = .duplicateSlot s.label := by
  induction slots generalizing seen with
  | nil => cases h
  | cons s rest ih =>
      obtain ⟨hfilled, hrest⟩ := List.forall_mem_cons.mp filled
      rw [firstFault?, if_neg (by simp [hfilled])] at h
      split at h
      · exact ⟨s, List.mem_cons_self, (Option.some.inj h).symm⟩
      · obtain ⟨t, ht, hfault⟩ := ih hrest h
        exact ⟨t, List.mem_cons_of_mem _ ht, hfault⟩

/-- Slots without a blank segment are refused exactly if two of them have one key. -/
theorem ofList_eq_duplicate_iff (filled : ∀ s ∈ slots, s.hasBlankSegment = false) :
    (∃ label, ofList slots = .error (.duplicateSlot label)) ↔ ¬(slots.map Slot.key).Nodup := by
  constructor
  · rintro ⟨label, h⟩ distinct
    obtain ⟨registry, hregistry, -⟩ := ofList_of_registrable ⟨filled, distinct⟩
    cases h.symm.trans hregistry
  · intro hsame
    rw [ofList]
    split
    · rename_i fault hfault
      obtain ⟨s, -, rfl⟩ := firstFault?_of_filled filled hfault
      exact ⟨_, rfl⟩
    · rename_i hnone
      exact absurd (firstFault?_eq_none_iff.mp hnone).2 hsame

theorem not_nodup_keys_iff (distinct : (slots.map Slot.key).Nodup) {extended : List Slot} {s : Slot}
    (hperm : extended.Perm (s :: slots)) :
    ¬(extended.map Slot.key).Nodup ↔ s.key ∈ slots.map Slot.key := by
  rw [(hperm.map Slot.key).nodup_iff, List.map_cons, List.nodup_cons]
  simp [distinct]

/-- A registry holds the declared slots and no others, in order. No two of its slots have one label
up to letter case and blanks at the ends, so its types have distinct paths. Its packets and then its
types are all of its slots. A packet is tracked exactly if it cannot be declared as well, wherever
in the list it is put. -/
theorem ofList_identifies (h : ofList slots = .ok registry) :
    registry.slots.Perm slots ∧ registry.slots.Pairwise Slot.Precedes ∧
      (registry.slots.Pairwise fun s t => normalized s.label ≠ normalized t.label) ∧
      (registry.types.map TypeName.path).Nodup ∧
      registry.slots = registry.packets.map .packet ++ registry.types.map .type ∧
      ∀ p : PacketName, trimmed p.state ≠ "" → trimmed p.name ≠ "" →
        ∀ extended, extended.Perm (.packet p :: slots) →
          (registry.tracks p = true ↔
            ∃ label, ofList extended = .error (.duplicateSlot label)) := by
  obtain ⟨⟨filled, distinct⟩, hslots⟩ := ofList_eq_ok h
  refine ⟨hslots ▸ sorted_perm slots, registry.precedes, List.pairwise_map.mp registry.distinct,
    registry.types_distinct, Slot.eq_packets_append_types registry.precedes, ?_⟩
  intro p hstate hname extended hextended
  have hfilled : ∀ s ∈ extended, s.hasBlankSegment = false := by
    intro s hs
    rcases List.mem_cons.mp (hextended.mem_iff.mp hs) with rfl | hs
    · exact Slot.hasBlankSegment_eq_false_iff.mpr (by simp [Slot.segments, hstate, hname])
    · exact filled s hs
  have hkeys : (registry.slots.map Slot.key).Perm (slots.map Slot.key) :=
    (hslots ▸ sorted_perm slots).map Slot.key
  rw [ofList_eq_duplicate_iff hfilled, not_nodup_keys_iff distinct hextended, tracks_iff,
    hkeys.mem_iff]

/-- Two packets and two types of one name, none of them in its place. -/
def tagSlots : List Slot :=
  [.type ⟨.scoped .toClient "play", "tags"⟩, .packet ⟨.toClient, "play", "tags"⟩,
    .type ⟨.common, "tags"⟩, .packet ⟨.toServer, "Play", "chat.extra"⟩]

/-- The slots are registered, and the packet whose label is written in other letters and segments
cannot be added. -/
theorem ofList_identifies_tags : ∃ registry, ofList tagSlots = .ok registry ∧
    registry.slots.Perm tagSlots ∧ registry.slots.Pairwise Slot.Precedes ∧
    registry.tracks ⟨.toServer, "play.chat", "EXTRA "⟩ = true ∧
    ∃ label, ofList (tagSlots ++ [.packet ⟨.toServer, "play.chat", "EXTRA "⟩]) =
      .error (.duplicateSlot label) := by
  obtain ⟨registry, h, -⟩ := ofList_of_registrable
    (show Registrable tagSlots from ⟨by decide, by decide +kernel⟩)
  obtain ⟨hperm, hordered, -, -, -, htracks⟩ := ofList_identifies h
  have hkey : registry.tracks ⟨.toServer, "play.chat", "EXTRA "⟩ = true := by
    rw [tracks_iff, (hperm.map Slot.key).mem_iff]
    decide +kernel
  exact ⟨registry, h, hperm, hordered, hkey,
    (htracks _ (by decide +kernel) (by decide +kernel) _ (List.perm_append_singleton _ _)).mp hkey⟩

end Registry

end VersionGroups
