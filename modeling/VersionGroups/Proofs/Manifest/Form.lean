import VersionGroups.Proofs.Manifest.Classification
import VersionGroups.Proofs.Manifest.Failure

/-!
# The form of a computed manifest

A computed manifest lists its versions in order, and its aliases stand for smaller versions that
stand for themselves. Adding aliases to the groups disturbs none of their order, since an alias
comes after the version that it stands for and every bucket is sorted again. Wire ids are given to
packets and not to types, so the versions of a type that are grouped share one bucket.
-/
namespace VersionGroups

/-- Every bucket of a packet has a wire id, and a type has one bucket, without a wire id. -/
def Buckets.Numbered (buckets : Buckets) : Slot → Prop
  | .packet _ => ∀ bucket ∈ buckets.entries, bucket.1 ≠ none
  | .type _ => ∃ versions, buckets.entries = [(none, versions)]

/-- A group of a slot that is led by its least version, which is not an alias, and whose buckets are
filled in ascending order. -/
structure ManifestGroup.Normal (aliases : AliasTable) (slot : Slot) (group : ManifestGroup) :
    Prop where
  filled : group.buckets.entries ≠ []
  filed : group.buckets.Filed
  led : group.representative ∈ group.versions
  least : ∀ v ∈ group.versions, group.representative ≤ v
  kept : aliases.contains group.representative = false
  numbered : group.buckets.Numbered slot

/-- A manifest for some slots with everything in its place. -/
structure Manifest.Normal (slots : List Slot) (manifest : Manifest) : Prop where
  versions : manifest.versions.Pairwise (· < ·)
  aliases : ∀ e ∈ manifest.aliases.entries, e.1 ∈ manifest.versions ∧
    e.2 ∈ manifest.versions ∧ e.2 < e.1 ∧ manifest.aliases.contains e.2 = false
  slots : manifest.slots.keys = slots
  ascending : ∀ entry ∈ manifest.slots.entries,
    entry.2.Pairwise fun g h => g.representative < h.representative
  groups : ∀ entry ∈ manifest.slots.entries, ∀ g ∈ entry.2, g.Normal manifest.aliases entry.1

namespace Computed.MadeFrom
variable {corpus : Corpus} {config : SlotConfig} {computed : Computed} {slot : Slot}
  {g : ManifestGroup}

theorem keys_eq (h : computed.MadeFrom corpus config) :
    computed.manifest.slots.keys = config.registry.slots := by
  have hslots := config.registry.ascending
  rw [← h.slots_eq, List.pairwise_map] at hslots
  rw [buildManifest_ok h.built, Table.keys, Table.entries_ofList (List.pairwise_map.mpr hslots),
    List.map_map]
  exact h.slots_eq

/-- A group lists its representative, which is a kept version and so not an alias. -/
theorem representative_listed (h : computed.MadeFrom corpus config)
    (hslot : slot ∈ config.registry.slots) (hg : g ∈ computed.manifest.groups slot) :
    g.representative ∈ g.versions ∧
      computed.manifest.aliases.contains g.representative = false := by
  obtain ⟨groups, hpart, hgroups⟩ := h.groups hslot
  rw [hgroups] at hg
  obtain ⟨group, hgroup, rfl⟩ := List.mem_map.mp hg
  obtain ⟨w, hled⟩ := hpart.led group hgroup
  obtain ⟨d, hkept⟩ := hpart.mem_corpus hgroup hled
  constructor
  · have hlisted := (h.mem_group hpart hgroup).mpr ⟨_, hled, h.canonical.stands_of_kept hkept⟩
    exact mem_distinctVersions.mpr (Buckets.mem_versions.mpr ⟨w, hlisted⟩)
  · rw [h.versions_aliases_eq.2]
    exact h.canonical.not_contains_of_kept hkept

theorem numbered (h : computed.MadeFrom corpus config) (hslot : slot ∈ config.registry.slots)
    (hg : g ∈ computed.manifest.groups slot) (hne : g.buckets.entries ≠ []) :
    g.buckets.Numbered slot := by
  have hclass := h.classified hslot
  cases slot with
  | packet packet =>
      intro bucket hb
      obtain ⟨e, -, v, hplaced⟩ := hclass.exists_placed hg hb
      exact ne_none_of_placement? hplaced
  | type t =>
      refine Table.entries_eq_singleton hne fun bucket hb => ?_
      obtain ⟨e, -, v, hplaced⟩ := hclass.exists_placed hg hb
      exact eq_none_of_placement? hplaced

theorem normal_group (h : computed.MadeFrom corpus config) (hslot : slot ∈ config.registry.slots)
    (hg : g ∈ computed.manifest.groups slot) : g.Normal computed.manifest.aliases slot := by
  have hclass := h.classified hslot
  obtain ⟨hled, hkept⟩ := h.representative_listed hslot hg
  obtain ⟨w, hplaced⟩ := Buckets.mem_versions.mp (mem_distinctVersions.mp hled)
  obtain ⟨versions, hb, -⟩ := Buckets.mem_placements.mp hplaced
  have hfilled : g.buckets.entries ≠ [] := List.ne_nil_of_mem hb
  refine ⟨hfilled, hclass.filed g hg, hled, ?_, hkept, h.numbered hslot hg hfilled⟩
  intro v hv
  obtain ⟨w', hp⟩ := Buckets.mem_versions.mp (mem_distinctVersions.mp hv)
  exact hclass.least g hg _ hp

end Computed.MadeFrom

/-- A computed manifest has everything in its place. -/
theorem compute_normal {corpus : Corpus} {config : SlotConfig} {computed : Computed}
    (h : (compute corpus config).value = .ok computed) :
    computed.manifest.Normal config.registry.slots := by
  have hmade := madeFrom_of_compute h
  obtain ⟨hversions, haliases⟩ := hmade.versions_aliases_eq
  refine ⟨?_, ?_, hmade.keys_eq, ?_, ?_⟩
  · rw [hversions, hmade.canonical.considered]
    exact List.pairwise_map.mpr (corpus.within_ascending config.range)
  · rintro ⟨a, k⟩ he
    rw [haliases] at he ⊢
    rw [hversions]
    exact hmade.canonical.alias_lt he
  · rintro ⟨slot, listed⟩ hentry
    obtain ⟨hslot, rfl⟩ := hmade.mem_slots_iff.mp hentry
    exact (hmade.classified hslot).ascending
  · rintro ⟨slot, listed⟩ hentry g hg
    obtain ⟨hslot, rfl⟩ := hmade.mem_slots_iff.mp hentry
    exact hmade.normal_group hslot hg

/-- The last version is an alias of the one before it, which is not an alias. -/
theorem compute_normal_ping : ∃ computed,
    (compute pingCorpus pingConfig).value = .ok computed ∧
      computed.manifest.slots.keys = [pingSlot] ∧
      (4, 3) ∈ computed.manifest.aliases.entries ∧
      computed.manifest.aliases.contains 3 = false := by
  obtain ⟨computed, h⟩ := compute_ping
  have hnormal := compute_normal h
  have hmade := madeFrom_of_compute h
  have hlast : (4, pingDocument "0x01") ∈ pingCorpus.within pingConfig.range :=
    Corpus.mem_within.mpr ⟨rfl, by decide⟩
  have halias : (4, 3) ∈ computed.manifest.aliases.entries := by
    rw [hmade.versions_aliases_eq.2]
    exact (hmade.canonical.aliases 4 3).mpr ⟨by decide, pingDocument "0x01", hlast, rfl⟩
  exact ⟨computed, h, hnormal.slots, halias, (hnormal.aliases _ halias).2.2.2⟩

end VersionGroups
