import VersionGroups.Proofs.Corpus.Alike
import VersionGroups.Proofs.Manifest.Listing

/-!
# The manifest is complete

A document that is the same as that of a kept version has the same place in a slot as the document
of the kept version, so the manifest lists a version where its own document belongs. Nothing is
lost, listed twice or filed under the wire id of another version, whether a version was kept or is
an alias.
-/
namespace VersionGroups

theorem placement?_of_same {slot : Slot} {k v : Version} {d d' : Document} {w : Option WireId}
    (same : (d == d') = true) (h : placement? slot (k, d) = some (w, k)) :
    placement? slot (v, d') = some (w, v) := by
  obtain ⟨-, ⟨spec, hspec⟩, hw⟩ := placement?_eq_some.mp h
  obtain ⟨spec', hspec', -⟩ := View.slotSpec?_of_same (w := viewOf (v, d')) same hspec
  exact placement?_eq_some.mpr ⟨rfl, ⟨spec', hspec'⟩, View.slotWireId?_of_same same hw⟩

namespace Computed.MadeFrom
variable {corpus : Corpus} {config : SlotConfig} {computed : Computed} {slot : Slot}

/-- The manifest lists a version of the range where its own document belongs. -/
theorem mem_placements_iff (h : computed.MadeFrom corpus config)
    (hslot : slot ∈ config.registry.slots) {w : Option WireId} {v : Version} :
    (w, v) ∈ computed.manifest.placements slot ↔
      ∃ d, (v, d) ∈ corpus.within config.range ∧ placement? slot (v, d) = some (w, v) := by
  rw [h.mem_placements hslot]
  constructor
  · rintro ⟨k, d', hk, hplaced, hs⟩
    obtain ⟨d, d'', hd, hk', same⟩ := h.canonical.same_document hs
    obtain rfl := Table.eq_of_mem hk hk'
    exact ⟨d, hd, placement?_of_same same hplaced⟩
  · rintro ⟨d, hd, hplaced⟩
    obtain ⟨k, d', hs, hkept, same⟩ := h.canonical.exists_kept hd
    exact ⟨k, d', hkept, placement?_of_same (Document.beq_symm same) hplaced, hs⟩

/-- A version of the range either does not define a slot or belongs somewhere. -/
theorem answered (h : computed.MadeFrom corpus config) (hslot : slot ∈ config.registry.slots)
    {v : Version} {d : Document} (hd : (v, d) ∈ corpus.within config.range) :
    (viewOf (v, d)).slotSpec? slot = .ok none ∨ ∃ w, placement? slot (v, d) = some (w, v) := by
  obtain ⟨k, d', -, hkept, same⟩ := h.canonical.exists_kept hd
  obtain ⟨groups, hpart, -⟩ := h.groups hslot
  rcases hpart.answered _ hkept with hnone | ⟨⟨w, k'⟩, hplaced⟩
  · exact .inl (View.slotSpec?_none_of_same same hnone)
  · obtain rfl : k' = k := (placement?_eq_some.mp hplaced).1
    exact .inr ⟨w, placement?_of_same same hplaced⟩

end Computed.MadeFrom

/-- For a tracked slot the manifest lists exactly the versions of the range whose own documents
define it, each once among all groups and buckets, under the wire id that its own document gives. -/
theorem compute_covers {corpus : Corpus} {config : SlotConfig} {computed : Computed}
    (h : (compute corpus config).value = .ok computed) {slot : Slot}
    (hslot : slot ∈ config.registry.slots) (v : Version) :
    ((∃ w, (w, v) ∈ computed.manifest.placements slot) ↔
      ∃ d, corpus.get? v = some d ∧ config.range.minimum ≤ v ∧
        (∀ maximum, config.range.maximum = some maximum → v ≤ maximum) ∧
        ∃ spec, View.slotSpec? ⟨v, d⟩ slot = .ok (some spec)) ∧
    ∀ w, (w, v) ∈ computed.manifest.placements slot →
      (computed.manifest.placements slot).countP (·.2 == v) = 1 ∧
      (∃ d, corpus.get? v = some d ∧ View.slotWireId? ⟨v, d⟩ slot = .ok w) ∧
      ∀ type, slot = .type type → w = none := by
  have hmade := madeFrom_of_compute h
  refine ⟨⟨?_, ?_⟩, ?_⟩
  · rintro ⟨w, hw⟩
    obtain ⟨d, hd, hplaced⟩ := (hmade.mem_placements_iff hslot).mp hw
    obtain ⟨hget, hrange⟩ := Corpus.mem_within.mp hd
    obtain ⟨hmin, hmax⟩ := VersionRange.contains_iff.mp hrange
    exact ⟨d, hget, hmin, hmax, (placement?_eq_some.mp hplaced).2.1⟩
  · rintro ⟨d, hget, hmin, hmax, spec, hspec⟩
    have hd := Corpus.mem_within.mpr ⟨hget, VersionRange.contains_iff.mpr ⟨hmin, hmax⟩⟩
    rcases hmade.answered hslot hd with hnone | ⟨w, hplaced⟩
    · rw [hnone] at hspec
      cases hspec
    · exact ⟨w, (hmade.mem_placements_iff hslot).mpr ⟨d, hd, hplaced⟩⟩
  · intro w hw
    obtain ⟨d, hd, hplaced⟩ := (hmade.mem_placements_iff hslot).mp hw
    have hwire := (placement?_eq_some.mp hplaced).2.2
    refine ⟨?_, ⟨d, (Corpus.mem_within.mp hd).1, hwire⟩, ?_⟩
    · have honce := List.count_eq_one_of_mem (hmade.versions_nodup hslot)
        (List.mem_map_of_mem (f := Prod.snd) hw)
      rw [List.count_eq_countP, List.countP_map] at honce
      simpa [Function.comp_def] using honce
    · rintro type rfl
      exact (Except.ok.inj hwire).symm

section
open Json

/-- A document with one packet that carries nothing, under a given wire id. -/
def pingDocument (key : String) : Document :=
  let mapper := obj [("mappings", obj [(key, str "ping")])]
  let switch := obj [("fields", obj [("ping", str "packet_ping")])]
  let fields := [
    obj [("name", str "name"), ("type", arr [str "mapper", mapper])],
    obj [("name", str "params"), ("type", arr [str "switch", switch])]]
  let types := obj [("packet", arr [str "container", arr fields]), ("packet_ping", str "void")]
  ⟨obj [("play", obj [("toServer", obj [("types", types)])])]⟩

end

/-- Two documents under two versions each, which differ in the wire id of the packet. -/
def pingCorpus : Corpus :=
  .ofList [(1, pingDocument "0x00"), (2, pingDocument "0x00"), (3, pingDocument "0x01"),
    (4, pingDocument "0x01")]

def pingSlot : Slot := .packet ⟨.toServer, "play", "ping"⟩

/-- All versions, with the one packet tracked. -/
def pingConfig : SlotConfig where
  range := ⟨1, none⟩
  registry :=
    { slots := [pingSlot]
      ascending := List.pairwise_singleton ..
      distinct := List.nodup_singleton _
      filled := by decide }

/-- Without tracked types, definitions are equivalent when they are the same. -/
theorem structural_nil (corpus : Corpus) :
    Equivalence.structural corpus [] = fun _ spec _ other => .ok (spec == other) := by
  funext left spec right other
  rw [Equivalence.structural, Equivalence.compareWithin, Equivalence.compareTypes]
  cases spec == other <;> rfl

theorem compute_ping : ∃ computed, (compute pingCorpus pingConfig).value = .ok computed := by
  have hrelation : ∀ kept, pingConfig.relation kept = fun _ spec _ other => .ok (spec == other) :=
    structural_nil
  have hok : (compute pingCorpus pingConfig).value.toBool = true := by
    simp only [compute_value, hrelation]
    decide +kernel
  cases hvalue : (compute pingCorpus pingConfig).value with
  | ok computed => exact ⟨computed, rfl⟩
  | error report =>
      rw [hvalue] at hok
      cases hok

/-- The last version is an alias, and it is listed once, under its own wire id. -/
theorem compute_covers_alias : ∃ computed w,
    (compute pingCorpus pingConfig).value = .ok computed ∧
      (w, 4) ∈ computed.manifest.placements pingSlot ∧
      (computed.manifest.placements pingSlot).countP (·.2 == 4) = 1 ∧
      ∃ d, pingCorpus.get? 4 = some d ∧ View.slotWireId? ⟨4, d⟩ pingSlot = .ok w := by
  obtain ⟨computed, h⟩ := compute_ping
  obtain ⟨hlisted, honce⟩ := compute_covers h (List.mem_singleton.mpr rfl : pingSlot ∈ _) 4
  obtain ⟨w, hw⟩ := hlisted.mpr ⟨pingDocument "0x01", rfl, by decide, by simp [pingConfig],
    .str "void", rfl⟩
  obtain ⟨hcount, hwire, -⟩ := honce w hw
  exact ⟨computed, w, h, hw, hcount, hwire⟩

end VersionGroups
