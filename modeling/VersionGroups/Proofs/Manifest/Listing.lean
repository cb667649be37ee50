import Mathlib.Data.List.Nodup
import VersionGroups.Proofs.Grouping.Partition
import VersionGroups.Proofs.Manifest.Computation
import VersionGroups.Proofs.Manifest.Expansion

/-!
# What a manifest lists for a slot

The groups that the manifest lists for a slot are those of the grouping, with every bucket expanded
by the aliases. A version is therefore listed where the kept version that it stands for was placed.
As every version stands for one kept version only, no version is listed twice.
-/
namespace VersionGroups

/-- Every occurrence of a version among the groups of a slot, with the wire id of its bucket. -/
def Manifest.placements (manifest : Manifest) (slot : Slot) : List Placement :=
  (manifest.groups slot).flatMap fun g => g.buckets.placements

theorem Manifest.exists_placement {manifest : Manifest} {slot : Slot} {v : Version} :
    (∃ w, (w, v) ∈ manifest.placements slot) ↔ ∃ g ∈ manifest.groups slot, v ∈ g.versions := by
  simp only [placements, List.mem_flatMap, ManifestGroup.versions, mem_distinctVersions,
    Buckets.mem_versions]
  constructor
  · rintro ⟨w, g, hg, hw⟩
    exact ⟨g, hg, w, hw⟩
  · rintro ⟨g, hg, w, hw⟩
    exact ⟨w, g, hg, hw⟩

/-- Lists stay free of repetitions when each member gives way to others that come from it alone. -/
theorem nodup_flatMap_of_origin {α β γ : Type} {l : List α} {f : α → List β} {g : α → List γ}
    {origin : γ → β → Prop} (hf : (l.flatMap f).Nodup) (hg : ∀ a ∈ l, (g a).Nodup)
    (horigin : ∀ a ∈ l, ∀ c ∈ g a, ∃ b ∈ f a, origin c b)
    (unique : ∀ c b b', origin c b → origin c b' → b = b') : (l.flatMap g).Nodup := by
  rw [List.nodup_flatMap] at hf ⊢
  refine ⟨hg, hf.2.imp_of_mem ?_⟩
  intro a a' ha ha' happart c hc hc'
  obtain ⟨b, hb, hcb⟩ := horigin a ha c hc
  obtain ⟨b', hb', hcb'⟩ := horigin a' ha' c hc'
  exact happart hb (unique c b b' hcb hcb' ▸ hb')

theorem Buckets.versions_placements (buckets : Buckets) :
    buckets.placements.map (·.2) = buckets.entries.flatMap (·.2) := by
  simp [placements, List.map_flatMap, Function.comp_def]

theorem Group.versions_expand (group : Group) (aliases : AliasTable) :
    (group.expand aliases).buckets.placements.map (·.2) =
      group.buckets.entries.flatMap fun bucket => aliases.expand bucket.2 := by
  rw [Buckets.versions_placements]
  simp [Group.expand, Table.mapValues, List.flatMap_map]

/-- A version is placed in an expanded group where the version that it stands for was placed. -/
theorem Reduction.Canonical.mem_placements_expand {entries : List (Version × Document)}
    {reduction : Reduction} (h : reduction.Canonical entries) {group : Group}
    (hk : ∀ p ∈ group.buckets.placements, ∃ d, (p.2, d) ∈ reduction.kept.entries)
    {w : Option WireId} {v : Version} :
    (w, v) ∈ (group.expand reduction.aliases).buckets.placements ↔
      ∃ k, (w, k) ∈ group.buckets.placements ∧ StandsFor entries v k := by
  have hkept : ∀ versions, (w, versions) ∈ group.buckets.entries →
      ∀ k ∈ versions, ∃ d, (k, d) ∈ reduction.kept.entries :=
    fun versions hb k hv => hk (w, k) (Buckets.mem_placements.mpr ⟨versions, hb, hv⟩)
  simp only [Buckets.mem_placements]
  constructor
  · rintro ⟨expanded, hmap, hv⟩
    obtain ⟨⟨w', versions⟩, hb, heq⟩ := List.mem_map.mp hmap
    obtain ⟨rfl, rfl⟩ := Prod.mk.inj heq
    obtain ⟨k, hmem, hs⟩ := (h.mem_expand (hkept versions hb)).mp hv
    exact ⟨k, ⟨versions, hb, hmem⟩, hs⟩
  · rintro ⟨k, ⟨versions, hb, hmem⟩, hs⟩
    refine ⟨reduction.aliases.expand versions, List.mem_map.mpr ⟨_, hb, rfl⟩, ?_⟩
    exact (h.mem_expand (hkept versions hb)).mpr ⟨k, hmem, hs⟩

theorem buildManifest_ok {reduction : Reduction} {slotGroups : List SlotGroups}
    {manifest : Manifest} (h : buildManifest reduction slotGroups = .ok manifest) :
    manifest.slots = Table.ofList (slotGroups.map fun entry =>
      (entry.slot, entry.groups.map (·.expand reduction.aliases))) := by
  rw [buildManifest] at h
  split at h
  · cases h
  · rw [← Except.ok.inj h]

theorem slots_of_grouped {corpus : Corpus} {relation : Relation} {slots : List Slot}
    {slotGroups : List SlotGroups}
    (h : List.Forall₂ (fun slot entry => groupSlot corpus relation slot = .ok entry) slots
      slotGroups) : slotGroups.map (·.slot) = slots := by
  induction h with
  | nil => rfl
  | cons hslot _ ih =>
      obtain ⟨groups, rfl, -⟩ := partition_of_groupSlot hslot
      rw [List.map_cons, ih]

namespace Computed.MadeFrom
variable {corpus : Corpus} {config : SlotConfig} {computed : Computed} {slot : Slot}

theorem canonical (h : computed.MadeFrom corpus config) :
    computed.reduction.Canonical (corpus.within config.range) :=
  canonical_of_reduce h.reduced

theorem slots_eq (h : computed.MadeFrom corpus config) :
    computed.slotGroups.map (·.slot) = config.registry.slots :=
  slots_of_grouped h.grouped

theorem slots_nodup (h : computed.MadeFrom corpus config) :
    (computed.slotGroups.map (·.slot)).Nodup := by
  rw [h.slots_eq]
  exact List.Nodup.of_map _ config.registry.distinct

/-- The manifest lists the groups that were found, with the aliases added. -/
theorem mem_slots (h : computed.MadeFrom corpus config) {listed : List ManifestGroup} :
    (slot, listed) ∈ computed.manifest.slots.entries ↔ ∃ entry ∈ computed.slotGroups,
      entry.slot = slot ∧ entry.groups.map (·.expand computed.reduction.aliases) = listed := by
  have hnodup : ((computed.slotGroups.map fun entry =>
      (entry.slot, entry.groups.map (·.expand computed.reduction.aliases))).map (·.1)).Nodup := by
    simpa [Function.comp_def] using h.slots_nodup
  rw [buildManifest_ok h.built, Table.mem_ofList hnodup, List.mem_map]
  simp only [Prod.mk.injEq]

theorem groups_of_mem (h : computed.MadeFrom corpus config) {entry : SlotGroups}
    (hentry : entry ∈ computed.slotGroups) :
    computed.manifest.groups entry.slot =
      entry.groups.map (·.expand computed.reduction.aliases) := by
  have hmem := h.mem_slots.mpr ⟨entry, hentry, rfl, rfl⟩
  rw [Manifest.groups, Table.get?_eq_some_iff.mpr hmem, Option.getD_some]

/-- The manifest has an entry for every tracked slot and for no other. -/
theorem mem_slots_iff (h : computed.MadeFrom corpus config) {listed : List ManifestGroup} :
    (slot, listed) ∈ computed.manifest.slots.entries ↔
      slot ∈ config.registry.slots ∧ computed.manifest.groups slot = listed := by
  rw [h.mem_slots, ← h.slots_eq, List.mem_map]
  constructor
  · rintro ⟨entry, hentry, rfl, rfl⟩
    exact ⟨⟨entry, hentry, rfl⟩, h.groups_of_mem hentry⟩
  · rintro ⟨⟨entry, hentry, rfl⟩, rfl⟩
    exact ⟨entry, hentry, rfl, (h.groups_of_mem hentry).symm⟩

/-- The manifest lists the expanded groups of a partition of the kept versions. -/
theorem groups (h : computed.MadeFrom corpus config) (hslot : slot ∈ config.registry.slots) :
    ∃ groups,
      Partition (config.relation computed.reduction.kept) computed.reduction.kept slot
        computed.reduction.kept.entries groups ∧
      computed.manifest.groups slot =
        groups.map fun g => g.group.expand computed.reduction.aliases := by
  obtain ⟨entry, hentry, hok⟩ := exists_of_forall₂ h.grouped hslot
  obtain ⟨groups, rfl, hpart⟩ := partition_of_groupSlot hok
  refine ⟨groups, hpart, ?_⟩
  rw [h.groups_of_mem hentry, List.map_map]
  rfl

/-- A version is listed in the groups where the kept version that it stands for was placed. -/
theorem mem_group (h : computed.MadeFrom corpus config) {groups : List OpenGroup}
    (hpart : Partition (config.relation computed.reduction.kept) computed.reduction.kept slot
      computed.reduction.kept.entries groups) {g : OpenGroup} (hg : g ∈ groups)
    {w : Option WireId} {v : Version} :
    (w, v) ∈ (g.group.expand computed.reduction.aliases).buckets.placements ↔
      ∃ k, (w, k) ∈ g.group.buckets.placements ∧ StandsFor (corpus.within config.range) v k :=
  h.canonical.mem_placements_expand fun _ hp => hpart.mem_corpus hg hp

/-- A version is listed under the wire id of the kept version that it stands for. -/
theorem mem_placements (h : computed.MadeFrom corpus config)
    (hslot : slot ∈ config.registry.slots) {w : Option WireId} {v : Version} :
    (w, v) ∈ computed.manifest.placements slot ↔
      ∃ k d, (k, d) ∈ computed.reduction.kept.entries ∧ placement? slot (k, d) = some (w, k) ∧
        StandsFor (corpus.within config.range) v k := by
  obtain ⟨groups, hpart, hgroups⟩ := h.groups hslot
  rw [Manifest.placements, hgroups, List.flatMap_map, List.mem_flatMap]
  constructor
  · rintro ⟨g, hg, hmem⟩
    obtain ⟨k, hk, hs⟩ := (h.mem_group hpart hg).mp hmem
    obtain ⟨d, hd, hplaced⟩ := hpart.mem_taken hg hk
    exact ⟨k, d, hd, hplaced, hs⟩
  · rintro ⟨k, d, hd, hplaced, hs⟩
    have hk := hpart.placed.mem_iff.mpr (List.mem_filterMap.mpr ⟨_, hd, hplaced⟩)
    obtain ⟨g, hg, hk⟩ := List.mem_flatMap.mp hk
    exact ⟨g, hg, (h.mem_group hpart hg).mpr ⟨k, hk, hs⟩⟩

/-- No version is listed twice for a slot. -/
theorem versions_nodup (h : computed.MadeFrom corpus config)
    (hslot : slot ∈ config.registry.slots) :
    ((computed.manifest.placements slot).map (·.2)).Nodup := by
  obtain ⟨groups, hpart, hgroups⟩ := h.groups hslot
  have hkept : ((groups.flatMap fun g => g.group.buckets.entries).flatMap (·.2)).Nodup := by
    have hnodup := hpart.nodup
    simpa only [List.map_flatMap, Buckets.versions_placements, List.flatMap_assoc] using hnodup
  have hlisted : (computed.manifest.placements slot).map (·.2) =
      (groups.flatMap fun g => g.group.buckets.entries).flatMap fun bucket =>
        computed.reduction.aliases.expand bucket.2 := by
    simp only [Manifest.placements, hgroups, List.flatMap_map, List.map_flatMap,
      Group.versions_expand, List.flatMap_assoc]
  rw [hlisted]
  refine nodup_flatMap_of_origin hkept ?_ ?_
    (fun v k k' (hk : StandsFor (corpus.within config.range) v k) hk' => hk.unique hk')
  · intro bucket _
    exact (distinctVersions_ascending _).imp Nat.ne_of_lt
  · intro bucket hb v hv
    obtain ⟨g, hg, hb⟩ := List.mem_flatMap.mp hb
    refine (h.canonical.mem_expand fun k hk => ?_).mp hv
    exact hpart.mem_corpus hg (Buckets.mem_placements.mpr ⟨bucket.2, hb, hk⟩)

end Computed.MadeFrom

end VersionGroups
