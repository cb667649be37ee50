import VersionGroups.Proofs.Grouping.Sample
import VersionGroups.Proofs.Manifest.Classification
import VersionGroups.Proofs.Manifest.Failure

/-!
# Reducing a corpus does not show

The kept versions are a sample of the versions of a range, so that a slot can be grouped over them
whenever it can be grouped over all. With the aliases added, the groups over the kept versions
classify the same entries as the groups over all versions, and so they are the same groups. Only the
other direction fails: a cycle of types may be met in comparing two versions with one document, and
this comparison is not made if one of the two is an alias.
-/
namespace VersionGroups
open VersionGroups.Equivalence

def Corpus.only (corpus : Corpus) (versions : List Version) : Corpus :=
  corpus.filter fun v _ => versions.contains v

namespace Reduction.Canonical
variable {corpus : Corpus} {range : VersionRange} {reduction : Reduction}
  (h : reduction.Canonical (corpus.within range))
include h

theorem entries_only : (corpus.only reduction.considered).entries = corpus.within range := by
  rw [Corpus.only, Table.entries_filter, Corpus.within]
  refine List.filter_congr fun e he => ?_
  rw [h.considered, Bool.eq_iff_iff, List.contains_iff_mem, List.mem_map]
  constructor
  · rintro ⟨⟨v, d⟩, hd, rfl⟩
    exact (Corpus.mem_within.mp hd).2
  · intro hrange
    exact ⟨e, List.mem_filter.mpr ⟨he, hrange⟩, rfl⟩

theorem sample : reduction.kept.Sample (corpus.only reduction.considered) where
  subset := by
    rw [h.entries_only]
    exact fun e he => ((h.kept e).mp he).1
  early := by
    rw [h.entries_only]
    intro u d r e hu _ _
    obtain ⟨k, d', hs, hk, same⟩ := h.exists_kept hu
    exact ⟨k, d', hk, hs.le (corpus.within_ascending range), same⟩

theorem exists_manifest (out : SlotGroups) :
    ∃ manifest, buildManifest reduction [out] = .ok manifest ∧
      manifest.groups out.slot = out.groups.map (·.expand reduction.aliases) := by
  refine ⟨_, h.buildManifest_eq [out], ?_⟩
  simp [Manifest.groups, Table.ofList]

end Reduction.Canonical

/-- Reducing a corpus to kept versions and aliases is a transparent optimisation. If a slot can be
grouped over all versions that were considered, then it can be grouped over the kept ones, and the
manifest has the same representatives in the same order, with the same wire ids and the same
ascending versions. If it cannot be grouped over the kept versions, then not over all either. -/
theorem reduce_transparent {corpus : Corpus} {range : VersionRange} {reduction : Reduction}
    (h : reduce corpus range = .ok reduction) {types : List TypeName}
    (distinct : (types.map TypeName.path).Nodup) (slot : Slot) :
    (∀ direct, groupSlot (corpus.only reduction.considered)
        (structural (corpus.only reduction.considered) types) slot = .ok direct →
      ∃ out manifest, groupSlot reduction.kept (structural reduction.kept types) slot = .ok out ∧
        buildManifest reduction [out] = .ok manifest ∧
        ((manifest.groups slot).map fun g => (g.representative, g.buckets.entries)) =
          (direct.groups.map fun g => (g.representative, g.buckets.entries)) ∧
        ∀ g ∈ manifest.groups slot, ∀ bucket ∈ g.buckets.entries, bucket.2.Pairwise (· < ·)) ∧
    (∀ fault, groupSlot reduction.kept (structural reduction.kept types) slot = .error fault →
      ∃ fault', groupSlot (corpus.only reduction.considered)
        (structural (corpus.only reduction.considered) types) slot = .error fault') := by
  have hred := canonical_of_reduce h
  constructor
  · intro direct hdirect
    obtain ⟨out, hout⟩ := groupSlot_of_sample distinct hred.sample hdirect
    obtain ⟨all, rfl, hall⟩ := partition_of_groupSlot hdirect
    obtain ⟨groups, rfl, hgroups⟩ := partition_of_groupSlot hout
    obtain ⟨manifest, hmanifest, hlist⟩ := hred.exists_manifest ⟨slot, groups.map (·.group)⟩
    have hexpanded := (hgroups.classified distinct).expand hred
    have hlisted := hall.classified distinct
    rw [hred.entries_only] at hlisted
    have hsame : manifest.groups slot = (all.map (·.group)).map Group.listed :=
      hlist.trans (hexpanded.unique (corpus.within_ascending range) hlisted)
    refine ⟨_, manifest, hout, hmanifest, ?_, ?_⟩
    · rw [hsame, List.map_map]
      rfl
    · rw [hsame]
      exact fun g hg bucket hb => (hlisted.filed g hg bucket hb).2
  · intro fault hfault
    cases hdirect : groupSlot (corpus.only reduction.considered)
        (structural (corpus.only reduction.considered) types) slot with
    | error fault' => exact ⟨fault', rfl⟩
    | ok direct =>
        obtain ⟨out, hout⟩ := groupSlot_of_sample distinct hred.sample hdirect
        rw [hfault] at hout
        cases hout

/-- Of four versions, two are kept; the manifest has the buckets of all four. -/
theorem reduce_transparent_ping : ∃ reduction out manifest,
    reduce pingCorpus ⟨1, none⟩ = .ok reduction ∧ reduction.kept.keys = [1, 3] ∧
      groupSlot reduction.kept (structural reduction.kept []) pingSlot = .ok out ∧
      buildManifest reduction [out] = .ok manifest ∧
      ((manifest.groups pingSlot).map fun g => (g.representative, g.buckets.entries)) =
        [(1, [(WireId.ofNat? 0, [1, 2]), (WireId.ofNat? 1, [3, 4])])] := by
  obtain ⟨reduction, h, hkept, hconsidered⟩ : ∃ reduction,
      reduce pingCorpus ⟨1, none⟩ = .ok reduction ∧ reduction.kept.keys = [1, 3] ∧
        reduction.considered = [1, 2, 3, 4] := ⟨_, rfl, rfl, rfl⟩
  have hdirect : ∃ direct, groupSlot (pingCorpus.only [1, 2, 3, 4])
      (structural (pingCorpus.only [1, 2, 3, 4]) []) pingSlot = .ok direct ∧
      (direct.groups.map fun g => (g.representative, g.buckets.entries)) =
        [(1, [(WireId.ofNat? 0, [1, 2]), (WireId.ofNat? 1, [3, 4])])] := by
    rw [structural_nil]
    exact ⟨_, rfl, rfl⟩
  obtain ⟨direct, hok, hgroups⟩ := hdirect
  have distinct : (([] : List TypeName).map TypeName.path).Nodup := List.nodup_nil
  obtain ⟨htransparent, -⟩ := reduce_transparent h distinct pingSlot
  rw [hconsidered] at htransparent
  obtain ⟨out, manifest, hout, hmanifest, hsame, -⟩ := htransparent direct hok
  exact ⟨reduction, out, manifest, h, hkept, hout, hmanifest, hsame.trans hgroups⟩

end VersionGroups
