import VersionGroups.Proofs.Corpus.Untracked
import VersionGroups.Proofs.Manifest.Coverage

/-!
# Packets that are listed or reported

A packet that some version assigns to a key is listed for that version if it is tracked under its
own name, and it is reported if it is tracked under no name. Slots are told apart by their labels up
to letter case and blanks at the ends, but a document is searched for the very names of a slot. A
packet whose label is a tracked one in another spelling, or in other segments, is therefore neither
listed nor reported, and no other packet is missed.
-/
namespace VersionGroups

theorem Registry.tracks_of_mem (registry : Registry) {p : PacketName}
    (h : .packet p ∈ registry.slots) : registry.tracks p = true := by
  refine List.any_eq_true.mpr ⟨p, ?_, beq_self_eq_true _⟩
  exact List.mem_filterMap.mpr ⟨_, h, rfl⟩

namespace Computed.MadeFrom
variable {corpus : Corpus} {config : SlotConfig} {computed : Computed} {v : Version}
  {d : Document} {p : PacketName} {key : String}

theorem mem_slots_of_group (h : computed.MadeFrom corpus config) {slot : Slot}
    {g : ManifestGroup} (hg : g ∈ computed.manifest.groups slot) :
    slot ∈ config.registry.slots := by
  have hget : computed.manifest.slots.get? slot ≠ none := by
    intro hnone
    rw [Manifest.groups, hnone] at hg
    cases hg
  obtain ⟨listed, hlisted⟩ := Option.ne_none_iff_exists'.mp hget
  exact (h.mem_slots_iff.mp (Table.get?_eq_some_iff.mp hlisted)).1

/-- A tracked packet is listed for every version of the range that assigns it to a key. -/
theorem listed_of_assigns (h : computed.MadeFrom corpus config)
    (hslot : .packet p ∈ config.registry.slots) (hd : (v, d) ∈ corpus.within config.range)
    (hkey : (View.mk v d).Assigns key p) :
    ∃ g ∈ computed.manifest.groups (.packet p), v ∈ g.versions := by
  rcases h.answered hslot hd with hnone | ⟨w, hplaced⟩
  · exact absurd hnone hkey.packetSpec?_ne_none
  · exact Manifest.exists_placement.mp ⟨w, (h.mem_placements_iff hslot).mpr ⟨d, hd, hplaced⟩⟩

/-- A version whose document does not know a slot is not listed for it. -/
theorem not_listed_of_absent (h : computed.MadeFrom corpus config) {slot : Slot}
    (hd : corpus.get? v = some d) (habsent : (View.mk v d).slotSpec? slot = .ok none) :
    ¬∃ g ∈ computed.manifest.groups slot, v ∈ g.versions := by
  rintro ⟨g, hg, hv⟩
  obtain ⟨w, hw⟩ := Manifest.exists_placement.mpr ⟨g, hg, hv⟩
  obtain ⟨d', hd', hplaced⟩ := (h.mem_placements_iff (h.mem_slots_of_group hg)).mp hw
  obtain rfl := Option.some.inj (hd.symm.trans (Corpus.mem_within.mp hd').1)
  obtain ⟨-, ⟨spec, hspec⟩, -⟩ := placement?_eq_some.mp hplaced
  cases habsent.symm.trans hspec

end Computed.MadeFrom

/-- A packet that a version of the range assigns to a key is reported as untracked or listed for
that version under its own slot, exactly if it is not tracked under the label of other slots only.
-/
theorem compute_accounts {corpus : Corpus} {config : SlotConfig} {computed : Computed}
    {packets : List UntrackedPacket} (hcompute : (compute corpus config).value = .ok computed)
    (hreport : untrackedPackets corpus config.registry = .ok packets)
    (hrange : ∀ v ∈ corpus.keys, config.range.contains v = true) {v : Version} {d : Document}
    (hd : corpus.get? v = some d) {p : PacketName} (hstate : p.state ≠ Document.typesKey)
    {key : String} (hkey : (View.mk v d).Assigns key p) :
    ((∃ u ∈ packets, u.packet = p) ∨
        .packet p ∈ config.registry.slots ∧
          ∃ g ∈ computed.manifest.groups (.packet p), v ∈ g.versions) ↔
      (config.registry.tracks p = true → .packet p ∈ config.registry.slots) := by
  have hmade := madeFrom_of_compute hcompute
  have hwithin : (v, d) ∈ corpus.within config.range := by
    refine Corpus.mem_within.mpr ⟨hd, hrange v ?_⟩
    exact List.mem_map_of_mem (f := Prod.fst) (Table.get?_eq_some_iff.mp hd)
  have hreported : (∃ u ∈ packets, u.packet = p) ↔ config.registry.tracks p = false := by
    rw [mem_untrackedPackets hreport]
    exact ⟨fun h => h.1, fun h => ⟨h, hstate, v, d, key, hd, hkey⟩⟩
  rw [hreported]
  constructor
  · rintro (huntracked | ⟨hslot, -⟩) htracks
    · cases huntracked.symm.trans htracks
    · exact hslot
  · intro h
    cases htracks : config.registry.tracks p with
    | false => exact .inl rfl
    | true => exact .inr ⟨h htracks, hmade.listed_of_assigns (h htracks) hwithin hkey⟩

section
open Json

/-- The packets of a direction and a state, by an id mapping; none of them carries anything. -/
def packetSection (mappings : List (String × String)) : Json :=
  let mapper := obj [("mappings", object (mappings.map fun e => (e.1, str e.2)))]
  let switch := obj [("fields", object (mappings.map fun e => (e.2, str "nothing")))]
  let fields := [
    obj [("name", str "name"), ("type", arr [str "mapper", mapper])],
    obj [("name", str "params"), ("type", arr [str "switch", switch])]]
  obj [("types", obj [("nothing", str "void"), ("packet", arr [str "container", arr fields])])]

/-- Three packets of one state, and one of a state whose name has a point in it. -/
def chatDocument : Document :=
  ⟨obj [("play", obj [("toServer",
      packetSection [("0x00", "ping"), ("0x01", "chat"), ("0x02", "look")])]),
    ("play.chat", obj [("toServer", packetSection [("0x00", "extra")])])]⟩

end

def chatCorpus : Corpus := .ofList [(1, chatDocument)]

/-- One packet is tracked as it is written, one under a capital letter, and one under a name that
has the end of a state's name in it. -/
def chatConfig : SlotConfig where
  range := ⟨1, none⟩
  registry :=
    { slots := [.packet ⟨.toServer, "play", "Chat"⟩, .packet ⟨.toServer, "play", "chat.extra"⟩,
        pingSlot]
      ascending := by decide
      distinct := by decide
      filled := by decide }

theorem compute_chat : ∃ computed, (compute chatCorpus chatConfig).value = .ok computed := by
  have hrelation : ∀ kept, chatConfig.relation kept = fun _ spec _ other => .ok (spec == other) :=
    structural_nil
  have hok : (compute chatCorpus chatConfig).value.toBool = true := by
    simp only [compute_value, hrelation]
    decide +kernel
  exact exists_ok_of_toBool hok

theorem untracked_chat : ∃ packets,
    untrackedPackets chatCorpus chatConfig.registry = .ok packets :=
  exists_ok_of_toBool (by decide +kernel)

/-- A packet that is tracked as it is written is listed, and one that is not tracked is reported. -/
theorem compute_accounts_chat : ∃ computed packets,
    (compute chatCorpus chatConfig).value = .ok computed ∧
      untrackedPackets chatCorpus chatConfig.registry = .ok packets ∧
      (∃ g ∈ computed.manifest.groups pingSlot, 1 ∈ g.versions) ∧
      ∃ u ∈ packets, u.packet = ⟨.toServer, "play", "look"⟩ := by
  obtain ⟨computed, hcompute⟩ := compute_chat
  obtain ⟨packets, hreport⟩ := untracked_chat
  have haccounts {p : PacketName} (hstate : p.state ≠ Document.typesKey) {key : String}
      (hkey : (View.mk 1 chatDocument).Assigns key p) :=
    compute_accounts hcompute hreport (by decide) (rfl : chatCorpus.get? 1 = some _) hstate hkey
  have hping := haccounts (p := ⟨.toServer, "play", "ping"⟩) (by decide)
    ⟨_, View.packetTable?_eq_some.mp rfl, _, List.mem_cons_self, rfl⟩
  have hlook := haccounts (p := ⟨.toServer, "play", "look"⟩) (by decide)
    ⟨_, View.packetTable?_eq_some.mp rfl, _,
      List.mem_cons_of_mem _ (List.mem_cons_of_mem _ List.mem_cons_self), rfl⟩
  refine ⟨computed, packets, hcompute, hreport, ?_, ?_⟩
  · have htracks := chatConfig.registry.tracks_of_mem (p := ⟨.toServer, "play", "ping"⟩) (by decide)
    rcases hping.mpr fun _ => by decide with hreported | ⟨-, hlisted⟩
    · cases htracks.symm.trans ((mem_untrackedPackets hreport).mp hreported).1
    · exact hlisted
  · rcases hlook.mpr fun htracks => absurd htracks (by decide +kernel) with hreported | ⟨hslot, -⟩
    · exact hreported
    · exact absurd hslot (by decide)

/-- A packet whose name is tracked under a capital letter, and one whose label a packet of another
state has, are neither reported nor listed. -/
theorem chat_unaccounted : ∃ computed packets,
    (∀ v ∈ chatCorpus.keys, chatConfig.range.contains v = true) ∧
      (compute chatCorpus chatConfig).value = .ok computed ∧
      untrackedPackets chatCorpus chatConfig.registry = .ok packets ∧
      chatCorpus.get? 1 = some chatDocument ∧
      ∀ p ∈ [PacketName.mk .toServer "play" "chat", ⟨.toServer, "play.chat", "extra"⟩],
        (∃ key, (View.mk 1 chatDocument).Assigns key p) ∧
        (¬∃ u ∈ packets, u.packet = p) ∧
        ∀ slot ∈ chatConfig.registry.slots, slot.key = (Slot.packet p).key →
          ¬∃ g ∈ computed.manifest.groups slot, 1 ∈ g.versions := by
  obtain ⟨computed, hcompute⟩ := compute_chat
  obtain ⟨packets, hreport⟩ := untracked_chat
  have hmade := madeFrom_of_compute hcompute
  have hunreported {p : PacketName} (htracks : chatConfig.registry.tracks p = true) :
      ¬∃ u ∈ packets, u.packet = p := by
    intro hreported
    cases htracks.symm.trans ((mem_untrackedPackets hreport).mp hreported).1
  have hunlisted {p : PacketName} (hping : (Slot.packet p).key ≠ pingSlot.key) :
      ∀ slot ∈ chatConfig.registry.slots, slot.key = (Slot.packet p).key →
        ¬∃ g ∈ computed.manifest.groups slot, 1 ∈ g.versions := by
    intro slot hslot hkey
    have habsent : (View.mk 1 chatDocument).slotSpec? slot = .ok none := by
      simp only [chatConfig, List.mem_cons, List.not_mem_nil, or_false] at hslot
      rcases hslot with rfl | rfl | rfl
      · rfl
      · rfl
      · exact absurd hkey.symm hping
    exact hmade.not_listed_of_absent (rfl : chatCorpus.get? 1 = some _) habsent
  refine ⟨computed, packets, by decide, hcompute, hreport, rfl, ?_⟩
  simp only [List.forall_mem_cons, List.not_mem_nil, false_implies, implies_true, and_true]
  refine ⟨⟨?_, ?_, ?_⟩, ?_, ?_, ?_⟩
  · exact ⟨_, _, View.packetTable?_eq_some.mp rfl, _,
      List.mem_cons_of_mem _ List.mem_cons_self, rfl⟩
  · exact hunreported (by decide +kernel)
  · exact hunlisted (by decide +kernel)
  · exact ⟨_, _, View.packetTable?_eq_some.mp rfl, _, List.mem_cons_self, rfl⟩
  · exact hunreported (by decide +kernel)
  · exact hunlisted (by decide +kernel)

end VersionGroups
