import VersionGroups.Artifact.Dispatch
import VersionGroups.Proofs.Corpus.Extension
import VersionGroups.Proofs.Grouping.Sample
import VersionGroups.Proofs.Manifest.Failure
import VersionGroups.Proofs.Manifest.Restriction

/-!
# New releases leave the manifest as it was

When a corpus grows at its end, the manifest of the shorter corpus is what the manifest of the
longer one says about the old versions. The versions that the shorter corpus keeps are a sample of
those that the longer one keeps, so the shorter corpus can be grouped as well, and its groups are
the only classification of the old entries. So every artifact of the old manifest is still needed,
and a single new version brings at most one new artifact for a slot.
-/
namespace VersionGroups

/-- The artifacts that the groups of a computed manifest need. -/
def Computed.artifactKeys (computed : Computed) : List ArtifactKey :=
  computed.slotGroups.flatMap SlotGroups.artifactKeys

/-- What is kept of the first entries is a sample of what is kept of all. -/
theorem Reduction.Canonical.sample_append {entries later : List (Version × Document)}
    {old new : Reduction} (hold : old.Canonical entries) (hnew : new.Canonical (entries ++ later))
    (hasc : (entries ++ later).Pairwise fun a b => a.1 < b.1) : old.kept.Sample new.kept where
  subset := fun e he => ((hold.mem_kept_append hnew).mp he).1
  early := by
    intro u d r e hu hr hle
    have hmem := ((hnew.kept _).mp hu).1
    have hlast := ((hold.kept _).mp hr).1
    rcases List.mem_append.mp hmem with hmem | hmem
    · exact ⟨u, d, (hold.mem_kept_append hnew).mpr ⟨hu, hmem⟩, Nat.le_refl u,
        Document.beq_refl d⟩
    · have hlt := (List.pairwise_append.mp hasc).2.2 _ hlast _ hmem
      exact absurd hle (Nat.not_le_of_lt hlt)

theorem Corpus.contains_of_within {corpus : Corpus} {range : VersionRange} :
    ∀ e ∈ corpus.within range, corpus.contains e.1 = true :=
  fun e he => Table.contains_iff.mpr ⟨e.2, (List.mem_filter.mp he).1⟩

namespace Computed.MadeFrom
variable {corpus old new : Corpus} {config : SlotConfig} {computed computed' : Computed}
  {slot : Slot}

theorem mem_artifactKeys (h : computed.MadeFrom corpus config) {key : ArtifactKey} :
    key ∈ computed.artifactKeys ↔ key.slot ∈ config.registry.slots ∧
      ∃ g ∈ computed.manifest.groups key.slot, g.representative = key.version := by
  rw [← h.slots_eq, artifactKeys, List.mem_flatMap, List.mem_map]
  constructor
  · rintro ⟨entry, hentry, hkey⟩
    obtain ⟨group, hgroup, rfl⟩ := List.mem_map.mp hkey
    refine ⟨⟨entry, hentry, rfl⟩, group.expand computed.reduction.aliases, ?_, rfl⟩
    rw [h.groups_of_mem hentry]
    exact List.mem_map_of_mem hgroup
  · obtain ⟨slot, v⟩ := key
    rintro ⟨⟨entry, hentry, rfl⟩, g, hg, rfl⟩
    rw [h.groups_of_mem hentry] at hg
    obtain ⟨group, hgroup, rfl⟩ := List.mem_map.mp hg
    exact ⟨entry, hentry, List.mem_map.mpr ⟨group, hgroup, rfl⟩⟩

/-- The artifacts are needed in the order of their slots, and those of a slot in the order of their
versions. -/
theorem artifactKeys_ascending (h : computed.MadeFrom corpus config) :
    computed.artifactKeys.Pairwise fun a b => compare a b = .lt := by
  rw [artifactKeys, List.pairwise_flatMap]
  constructor
  · intro entry hentry
    obtain ⟨slot, -, hok⟩ := exists_of_forall₂ h.grouped.flip hentry
    obtain ⟨groups, rfl, hpart⟩ := partition_of_groupSlot hok
    rw [SlotGroups.artifactKeys, List.map_map]
    refine List.pairwise_map.mpr (hpart.ascending.imp fun hlt => ?_)
    have hself : compare slot slot = .eq := Std.ReflCmp.compare_self
    rw [Function.comp, Function.comp, ArtifactKey.compare_def, hself]
    exact Nat.compare_eq_lt.mpr hlt
  · have hslots := config.registry.ascending
    rw [← h.slots_eq] at hslots
    refine (List.pairwise_map.mp hslots).imp ?_
    intro entry entry' hlt key hkey key' hkey'
    obtain ⟨g, -, rfl⟩ := List.mem_map.mp hkey
    obtain ⟨g', -, rfl⟩ := List.mem_map.mp hkey'
    rw [ArtifactKey.compare_def, hlt]
    rfl

theorem artifactKeys_nodup (h : computed.MadeFrom corpus config) :
    computed.artifactKeys.Nodup := by
  refine h.artifactKeys_ascending.imp ?_
  rintro key _ hlt rfl
  have hself : compare key key = .eq := Std.ReflCmp.compare_self
  rw [hself] at hlt
  cases hlt

section
variable (h : computed.MadeFrom old config) (h' : computed'.MadeFrom new config)
  (hext : old.ExtendedBy new)
include h h' hext

theorem groups_restrict (hslot : slot ∈ config.registry.slots) :
    computed.manifest.groups slot =
      restrictGroups old.contains (computed'.manifest.groups slot) := by
  obtain ⟨later, heq, hasc, hlater⟩ := hext.within_eq config.range
  have hclass := h'.classified hslot
  rw [heq] at hclass
  exact (h.classified hslot).unique (old.within_ascending config.range)
    (hclass.restrict hasc Corpus.contains_of_within hlater)

theorem slots_restrict :
    computed.manifest.slots = (computed'.manifest.restrict old.contains).slots := by
  refine Table.ext_mem ?_
  rintro ⟨slot, listed⟩
  rw [h.mem_slots_iff, Manifest.restrict, Table.mapValues, List.mem_map]
  constructor
  · rintro ⟨hslot, rfl⟩
    exact ⟨(slot, _), h'.mem_slots_iff.mpr ⟨hslot, rfl⟩,
      congrArg (slot, ·) (h.groups_restrict h' hext hslot).symm⟩
  · rintro ⟨⟨slot', listed'⟩, hmem, heq⟩
    obtain ⟨rfl, rfl⟩ := Prod.mk.inj heq
    obtain ⟨hslot, rfl⟩ := h'.mem_slots_iff.mp hmem
    exact ⟨hslot, h.groups_restrict h' hext hslot⟩

/-- The manifest of the shorter corpus is what that of the longer one says about the old
versions. -/
theorem manifest_restrict : computed.manifest = computed'.manifest.restrict old.contains := by
  obtain ⟨later, heq, hasc, hlater⟩ := hext.within_eq config.range
  have hnew := h'.canonical
  rw [heq] at hnew
  obtain ⟨hversions, haliases⟩ := h.versions_aliases_eq
  obtain ⟨hversions', haliases'⟩ := h'.versions_aliases_eq
  have hconsidered :=
    h.canonical.considered_append hnew Corpus.contains_of_within hlater
  have hstands := h.canonical.aliases_append hnew Corpus.contains_of_within hlater hasc
  have hslots := h.slots_restrict h' hext
  rw [← hversions, ← hversions'] at hconsidered
  rw [← haliases, ← haliases'] at hstands
  revert hconsidered hstands hslots
  cases computed.manifest
  rintro rfl rfl rfl
  rfl

/-- Of the artifacts for the longer corpus, the old versions need the same ones as before. -/
theorem mem_artifactKeys_restrict {key : ArtifactKey} :
    key ∈ computed.artifactKeys ↔
      key ∈ computed'.artifactKeys ∧ old.contains key.version = true := by
  rw [h.mem_artifactKeys, h'.mem_artifactKeys, and_assoc]
  refine and_congr_right fun hslot => ?_
  rw [h.groups_restrict h' hext hslot, restrictGroups]
  constructor
  · rintro ⟨_, hmap, hrep⟩
    obtain ⟨g, hg, rfl⟩ := List.mem_map.mp hmap
    obtain ⟨hg, hp⟩ := List.mem_filter.mp hg
    exact ⟨⟨g, hg, hrep⟩, hrep ▸ hp⟩
  · rintro ⟨⟨g, hg, hrep⟩, hp⟩
    exact ⟨_, List.mem_map_of_mem (List.mem_filter.mpr ⟨hg, hrep ▸ hp⟩), hrep⟩

end

theorem contains_of_artifactKey (h : computed.MadeFrom corpus config) {key : ArtifactKey}
    (hkey : key ∈ computed.artifactKeys) : corpus.contains key.version = true := by
  obtain ⟨hslot, g, hg, hrep⟩ := h.mem_artifactKeys.mp hkey
  obtain ⟨d, -, hd, -⟩ := (h.classified hslot).gathered g hg
  exact hrep ▸ Corpus.contains_of_within _ hd

end Computed.MadeFrom

/-- The manifest of a corpus can be computed if that of a longer one can. -/
theorem compute_ok_of_extendedBy {text : String} {format : ConfigFormat} {config : SlotConfig}
    (hconfig : SlotConfig.ofText text format = .ok config) {old new : Corpus}
    (hne : old.entries ≠ []) (hext : old.ExtendedBy new) {computed' : Computed}
    (h' : computed'.MadeFrom new config) :
    ∃ computed, (compute old config).value = .ok computed := by
  obtain ⟨reduction, hreduce⟩ := hext.reduce_ok hne h'.reduced
  obtain ⟨later, heq, hasc, -⟩ := hext.within_eq config.range
  have hnew := h'.canonical
  rw [heq] at hnew
  have hsample := (canonical_of_reduce hreduce).sample_append hnew hasc
  have hslots : ∀ slot ∈ config.registry.slots,
      ∃ entry, groupSlot reduction.kept (config.relation reduction.kept) slot = .ok entry := by
    intro slot hslot
    obtain ⟨entry, -, hok⟩ := exists_of_forall₂ h'.grouped hslot
    exact groupSlot_of_sample config.registry.types_distinct hsample hok
  obtain ⟨slotGroups, hgroups⟩ := groupSlots_succeeds hslots
  obtain ⟨computed, hcomputed⟩ := ofGroups_ok hconfig (groupSlots_ok hgroups) hreduce
  refine ⟨computed, ?_⟩
  rw [compute_value, hreduce]
  exact bind_eq_ok.mpr ⟨reduction, rfl, bind_eq_ok.mpr ⟨slotGroups, hgroups, hcomputed⟩⟩

/-- Under an accepted configuration, if the manifest of a corpus can be computed, then so can that
of the corpus before its last releases, and it is the restriction of the later manifest to the
versions that were there before. Every artifact that was needed is still needed, and a single new
version brings at most one new artifact for a slot. -/
theorem compute_restricts {text : String} {format : ConfigFormat} {config : SlotConfig}
    (hconfig : SlotConfig.ofText text format = .ok config) {old new : Corpus}
    (hne : old.entries ≠ []) (hext : old.ExtendedBy new) {computed' : Computed}
    (h : (compute new config).value = .ok computed') :
    ∃ computed, (compute old config).value = .ok computed ∧
      computed.manifest = computed'.manifest.restrict old.contains ∧
      (∀ key ∈ computed.artifactKeys, key ∈ computed'.artifactKeys) ∧
      ∀ v, (∀ u, new.contains u = true → old.contains u = true ∨ u = v) → ∀ slot,
        (computed'.artifactKeys.countP fun key =>
          decide (key.slot = slot ∧ key ∉ computed.artifactKeys)) ≤ 1 := by
  have hmade' := madeFrom_of_compute h
  obtain ⟨computed, hcomputed⟩ := compute_ok_of_extendedBy hconfig hne hext hmade'
  have hmade := madeFrom_of_compute hcomputed
  refine ⟨computed, hcomputed, hmade.manifest_restrict hmade' hext, ?_, ?_⟩
  · exact fun key hkey => ((hmade.mem_artifactKeys_restrict hmade' hext).mp hkey).1
  · intro v hsingle slot
    have hnew : ∀ key ∈ computed'.artifactKeys, key.slot = slot ∧ key ∉ computed.artifactKeys →
        key = ⟨slot, v⟩ := by
      rintro ⟨slot', u⟩ hkey ⟨rfl, hfresh⟩
      rcases hsingle u (hmade'.contains_of_artifactKey hkey) with hold | rfl
      · exact absurd ((hmade.mem_artifactKeys_restrict hmade' hext).mpr ⟨hkey, hold⟩) hfresh
      · rfl
    calc
      _ ≤ computed'.artifactKeys.countP (· == ⟨slot, v⟩) :=
        List.countP_mono_left fun key hkey hp =>
          beq_iff_eq.mpr (hnew key hkey (of_decide_eq_true hp))
      _ ≤ 1 := List.nodup_iff_count_le_one.mp hmade'.artifactKeys_nodup _

/-- The text that declares one packet declares all versions with this packet tracked. -/
theorem ofText_packetConfigText : SlotConfig.ofText packetConfigText .toml = .ok pingConfig :=
  SlotConfig.ofText_eq (by decide +kernel)

def earlyPings : Corpus := pingCorpus.filter fun v _ => decide (v < 4)

/-- The last of four versions is an alias; without it the manifest says the same of the others. -/
theorem compute_restricts_ping : ∃ computed computed',
    SlotConfig.ofText packetConfigText .toml = .ok pingConfig ∧
      earlyPings.keys = [1, 2, 3] ∧ earlyPings.ExtendedBy pingCorpus ∧
      (compute pingCorpus pingConfig).value = .ok computed' ∧
      (compute earlyPings pingConfig).value = .ok computed ∧
      computed.manifest = computed'.manifest.restrict earlyPings.contains ∧
      (∀ key ∈ computed.artifactKeys, key ∈ computed'.artifactKeys) ∧
      (computed'.artifactKeys.countP fun key =>
        decide (key.slot = pingSlot ∧ key ∉ computed.artifactKeys)) ≤ 1 := by
  obtain ⟨computed', h⟩ := compute_ping
  have hext : earlyPings.ExtendedBy pingCorpus := Corpus.extendedBy_filter pingCorpus 4
  have hne : earlyPings.entries ≠ [] := List.cons_ne_nil _ _
  obtain ⟨computed, hcomputed, hmanifest, hkeys, hsingle⟩ :=
    compute_restricts ofText_packetConfigText hne hext h
  have hlast : ∀ u, pingCorpus.contains u = true → earlyPings.contains u = true ∨ u = 4 := by
    intro u hu
    obtain ⟨d, hd⟩ := Table.contains_iff.mp hu
    have hmem : u ∈ [1, 2, 3, 4] := List.mem_map_of_mem (f := Prod.fst) hd
    simp only [List.mem_cons, List.not_mem_nil, or_false] at hmem
    rcases hmem with rfl | rfl | rfl | rfl
    · exact .inl rfl
    · exact .inl rfl
    · exact .inl rfl
    · exact .inr rfl
  exact ⟨computed, computed', ofText_packetConfigText, rfl, hext, h, hcomputed, hmanifest, hkeys,
    hsingle 4 hlast pingSlot⟩

end VersionGroups
