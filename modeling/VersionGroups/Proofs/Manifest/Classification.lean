import VersionGroups.Proofs.Config.Tracked
import VersionGroups.Proofs.Grouping.Classes
import VersionGroups.Proofs.Manifest.Coverage

/-!
# The classification of some entries

The groups of a slot are determined by the entries that are grouped: every entry that defines the
slot is in one group with those that define it with the same surface, the groups come in the order
of their least versions, and the buckets list their versions in ascending order. Groups that are
found over a corpus are such a classification of its entries. Over a reduced corpus, the groups with
the aliases beside their versions are one of all entries of the range.
-/
namespace VersionGroups
open VersionGroups.Equivalence

/-- No bucket is empty, and every bucket lists its versions in ascending order, each once. -/
def Buckets.Filed (buckets : Buckets) : Prop :=
  ∀ bucket ∈ buckets.entries, bucket.2 ≠ [] ∧ bucket.2.Pairwise (· < ·)

/-- A group as the manifest would list it if no version had an alias. -/
def Group.listed (group : Group) : ManifestGroup := ⟨group.representative, group.buckets⟩

/-- The groups of a slot over some entries: the classes of akin entries, each led by its least
version. -/
structure Classified (types : List TypeName) (slot : Slot) (entries : List (Version × Document))
    (groups : List ManifestGroup) : Prop where
  ascending : groups.Pairwise fun g h => g.representative < h.representative
  filed : ∀ g ∈ groups, g.buckets.Filed
  least : ∀ g ∈ groups, ∀ p ∈ g.buckets.placements, g.representative ≤ p.2
  covers : ∀ e ∈ entries, ∀ p, placement? slot e = some p →
    ∃ g ∈ groups, p ∈ g.buckets.placements
  gathered : ∀ g ∈ groups, ∃ d w, (g.representative, d) ∈ entries ∧
    placement? slot (g.representative, d) = some (w, g.representative) ∧
    ∀ p, p ∈ g.buckets.placements ↔
      ∃ e ∈ entries, placement? slot e = some p ∧ Akin types slot (g.representative, d) e

variable {types : List TypeName} {slot : Slot}
  {entries : List (Version × Document)} {groups groups' : List ManifestGroup}

/-- A bucket lists the versions that are placed under its wire id. -/
theorem Buckets.mem_bucket {buckets : Buckets} {w : Option WireId} {versions : List Version}
    (hb : (w, versions) ∈ buckets.entries) {v : Version} :
    v ∈ versions ↔ (w, v) ∈ buckets.placements := by
  rw [Buckets.mem_placements]
  constructor
  · exact fun hv => ⟨versions, hb, hv⟩
  · rintro ⟨found, hfound, hv⟩
    exact Table.eq_of_mem hfound hb ▸ hv

/-- Where the same versions are placed, a bucket is found again. -/
theorem Buckets.Filed.mem_of_mem {buckets buckets' : Buckets} (h : buckets.Filed)
    (h' : buckets'.Filed) (same : ∀ p, p ∈ buckets.placements ↔ p ∈ buckets'.placements)
    {bucket : Option WireId × List Version} (hb : bucket ∈ buckets.entries) :
    bucket ∈ buckets'.entries := by
  obtain ⟨w, versions⟩ := bucket
  obtain ⟨hne, hasc⟩ := h _ hb
  obtain ⟨v, hv⟩ := List.exists_mem_of_ne_nil _ hne
  obtain ⟨versions', hb', -⟩ :=
    Buckets.mem_placements.mp ((same (w, v)).mp ((Buckets.mem_bucket hb).mp hv))
  have heq : versions = versions' := by
    refine hasc.eq_of_mem_iff (h' _ hb').2 fun u => ?_
    rw [Buckets.mem_bucket hb, Buckets.mem_bucket hb', same]
  exact heq ▸ hb'

theorem Buckets.Filed.ext {buckets buckets' : Buckets} (h : buckets.Filed) (h' : buckets'.Filed)
    (same : ∀ p, p ∈ buckets.placements ↔ p ∈ buckets'.placements) : buckets = buckets' :=
  Table.ext_mem fun _ => ⟨h.mem_of_mem h' same, h'.mem_of_mem h fun p => (same p).symm⟩

/-- The groups that are found over a corpus are a classification of its entries. -/
theorem Partition.classified {corpus : Corpus} {groups : List OpenGroup}
    (distinct : (types.map TypeName.path).Nodup)
    (h : Partition (structural corpus types) corpus slot corpus.entries groups) :
    Classified types slot corpus.entries ((groups.map (·.group)).map Group.listed) := by
  rw [List.map_map]
  constructor
  · exact List.pairwise_map.mpr h.ascending
  · exact List.forall_mem_map.mpr h.sorted
  · exact List.forall_mem_map.mpr h.least
  · intro e he p hplaced
    have hp := h.placed.mem_iff.mpr (List.mem_filterMap.mpr ⟨e, he, hplaced⟩)
    obtain ⟨g, hg, hp⟩ := List.mem_flatMap.mp hp
    exact ⟨_, List.mem_map_of_mem hg, hp⟩
  · intro _ hmap
    obtain ⟨g, hg, rfl⟩ := List.mem_map.mp hmap
    obtain ⟨w, hw⟩ := h.led g hg
    obtain ⟨d, hd, hled⟩ := h.mem_taken hg hw
    refine ⟨d, w, hd, hled, fun p => ⟨?_, ?_⟩⟩
    · intro hp
      obtain ⟨e, he, hplaced⟩ := h.mem_taken hg hp
      exact ⟨_, he, hplaced, (h.eq_iff_akin distinct hg hg hw hp hd hled he hplaced).mp rfl⟩
    · rintro ⟨e, he, hplaced, hakin⟩
      have hp := h.placed.mem_iff.mpr (List.mem_filterMap.mpr ⟨e, he, hplaced⟩)
      obtain ⟨g', hg', hp⟩ := List.mem_flatMap.mp hp
      obtain rfl := (h.eq_iff_akin distinct hg hg' hw hp hd hled he hplaced).mpr hakin
      exact hp

theorem document_unique (hasc : entries.Pairwise fun a b => a.1 < b.1) {v : Version}
    {d d' : Document} (hd : (v, d) ∈ entries) (hd' : (v, d') ∈ entries) : d = d' := by
  have hnodup : (entries.map (·.1)).Nodup := List.pairwise_map.mpr (hasc.imp Nat.ne_of_lt)
  exact congrArg Prod.snd (List.inj_on_of_nodup_map hnodup hd hd' rfl)

namespace Classified

/-- A classification holds every group of any other classification of the same entries. -/
theorem mem_of_mem (hasc : entries.Pairwise fun a b => a.1 < b.1)
    (h : Classified types slot entries groups) (h' : Classified types slot entries groups')
    {g : ManifestGroup} (hg : g ∈ groups) : g ∈ groups' := by
  obtain ⟨d, w, hd, hled, hmem⟩ := h.gathered g hg
  obtain ⟨g', hg', hp⟩ := h'.covers _ hd _ hled
  obtain ⟨d', w', hd', hled', hmem'⟩ := h'.gathered g' hg'
  obtain ⟨⟨v, e⟩, he, hplaced, hakin⟩ := (hmem' _).mp hp
  obtain rfl : g.representative = v := (placement?_eq_some.mp hplaced).1
  obtain rfl := document_unique hasc hd he
  -- Each representative is in the group of the other, and so neither is the later one.
  have hback : (w', g'.representative) ∈ g.buckets.placements :=
    (hmem _).mpr ⟨_, hd', hled', hakin.symm⟩
  have hrep : g.representative = g'.representative :=
    Nat.le_antisymm (h.least g hg _ hback) (h'.least g' hg' _ hp)
  have hbuckets : g.buckets = g'.buckets := by
    refine (h.filed g hg).ext (h'.filed g' hg') fun p => ?_
    rw [hmem, hmem']
    exact exists_congr fun e => and_congr_right fun _ => and_congr_right fun _ =>
      ⟨hakin.trans, hakin.symm.trans⟩
  have heq : g = g' := by
    cases g
    cases g'
    exact ManifestGroup.mk.injEq .. ▸ ⟨hrep, hbuckets⟩
  exact heq ▸ hg'

theorem exists_placed (h : Classified types slot entries groups) {g : ManifestGroup}
    (hg : g ∈ groups) {bucket : Option WireId × List Version} (hb : bucket ∈ g.buckets.entries) :
    ∃ e ∈ entries, ∃ v, placement? slot e = some (bucket.1, v) := by
  obtain ⟨v, hv⟩ := List.exists_mem_of_ne_nil _ (h.filed g hg bucket hb).1
  obtain ⟨d, w, -, -, hmem⟩ := h.gathered g hg
  obtain ⟨e, he, hplaced, -⟩ := (hmem _).mp ((Buckets.mem_bucket hb).mp hv)
  exact ⟨e, he, v, hplaced⟩

theorem unique (hasc : entries.Pairwise fun a b => a.1 < b.1)
    (h : Classified types slot entries groups) (h' : Classified types slot entries groups') :
    groups = groups' :=
  Table.eq_of_ascending h.ascending h'.ascending fun _ =>
    ⟨h.mem_of_mem hasc h', h'.mem_of_mem hasc h⟩

section
variable {corpus : Corpus} {range : VersionRange} {reduction : Reduction} {groups : List Group}
  (h : Classified types slot reduction.kept.entries (groups.map Group.listed))
include h

theorem kept {group : Group} (hg : group ∈ groups) :
    ∀ p ∈ group.buckets.placements, ∃ d, (p.2, d) ∈ reduction.kept.entries := by
  intro p hp
  obtain ⟨_, _, -, -, hmem⟩ := h.gathered _ (List.mem_map_of_mem hg)
  obtain ⟨⟨v, d⟩, he, hplaced, -⟩ := (hmem p).mp hp
  obtain rfl := (placement?_eq_some.mp hplaced).1
  exact ⟨d, he⟩

variable (hred : reduction.Canonical (corpus.within range))
include hred

theorem mem_expand {group : Group} (hg : group ∈ groups) {w : Option WireId} {v : Version} :
    (w, v) ∈ (group.expand reduction.aliases).buckets.placements ↔
      ∃ k, (w, k) ∈ group.buckets.placements ∧ StandsFor (corpus.within range) v k :=
  hred.mem_placements_expand (h.kept hg)

/-- With the aliases beside their versions, groups of the kept versions classify all versions. -/
theorem expand : Classified types slot (corpus.within range)
    (groups.map (·.expand reduction.aliases)) := by
  have hkept : ∀ e ∈ reduction.kept.entries, e ∈ corpus.within range :=
    fun e he => ((hred.kept e).mp he).1
  constructor
  · have hasc := List.pairwise_map.mp h.ascending
    exact List.pairwise_map.mpr hasc
  · refine List.forall_mem_map.mpr fun group hg => List.forall_mem_map.mpr fun bucket hb => ?_
    obtain ⟨hne, -⟩ := h.filed _ (List.mem_map_of_mem hg) bucket hb
    obtain ⟨v, hv⟩ := List.exists_mem_of_ne_nil _ hne
    exact ⟨List.ne_nil_of_mem (VersionGroups.mem_expand.mpr (.inl hv)),
      distinctVersions_ascending _⟩
  · refine List.forall_mem_map.mpr fun group hg => ?_
    rintro ⟨w, v⟩ hp
    obtain ⟨k, hk, hs⟩ := (h.mem_expand hred hg).mp hp
    exact Nat.le_trans (h.least _ (List.mem_map_of_mem hg) _ hk)
      (hs.le (corpus.within_ascending range))
  · rintro ⟨v, d⟩ he ⟨w, v'⟩ hplaced
    obtain rfl : v' = v := (placement?_eq_some.mp hplaced).1
    obtain ⟨k, d', hs, hk, same⟩ := hred.exists_kept he
    obtain ⟨_, hmap, hp⟩ := h.covers _ hk _ (placement?_of_same (Document.beq_symm same) hplaced)
    obtain ⟨group, hg, rfl⟩ := List.mem_map.mp hmap
    exact ⟨_, List.mem_map_of_mem hg, (h.mem_expand hred hg).mpr ⟨k, hp, hs⟩⟩
  · refine List.forall_mem_map.mpr fun group hg => ?_
    obtain ⟨d, w, hd, hled, hmem⟩ := h.gathered _ (List.mem_map_of_mem hg)
    refine ⟨d, w, hkept _ hd, hled, ?_⟩
    rintro ⟨w', v⟩
    rw [h.mem_expand hred hg]
    constructor
    · rintro ⟨k, hp, hs⟩
      obtain ⟨⟨k', e⟩, he, hplaced, hakin⟩ := (hmem _).mp hp
      obtain rfl : k = k' := (placement?_eq_some.mp hplaced).1
      obtain ⟨f, e', hf, he', same⟩ := hred.same_document hs
      obtain rfl := Table.eq_of_mem he he'
      exact ⟨(v, f), hf, placement?_of_same same hplaced,
        hakin.trans (.of_document same hplaced)⟩
    · rintro ⟨⟨v', f⟩, hf, hplaced, hakin⟩
      obtain rfl : v = v' := (placement?_eq_some.mp hplaced).1
      obtain ⟨k, e, hs, hk, same⟩ := hred.exists_kept hf
      have same' : (f == e) = true := Document.beq_symm same
      refine ⟨k, (hmem _).mpr ⟨(k, e), hk, placement?_of_same same' hplaced, ?_⟩, hs⟩
      exact hakin.trans (.of_document same' hplaced)

end

end Classified

theorem Computed.MadeFrom.classified {corpus : Corpus} {config : SlotConfig} {computed : Computed}
    (h : computed.MadeFrom corpus config) (hslot : slot ∈ config.registry.slots) :
    Classified config.registry.types slot (corpus.within config.range)
      (computed.manifest.groups slot) := by
  obtain ⟨groups, hpart, hgroups⟩ := h.groups hslot
  have hexpanded :=
    (Partition.classified config.registry.types_distinct hpart).expand h.canonical
  rw [List.map_map] at hexpanded
  rw [hgroups]
  exact hexpanded

end VersionGroups
