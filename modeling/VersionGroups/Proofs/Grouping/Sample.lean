import VersionGroups.Proofs.Grouping.Faults
import VersionGroups.Proofs.Grouping.Outcome

/-!
# Grouping a sample of a corpus

A sample of a corpus holds some of its entries, and up to its last entry it has every document of
the corpus at least as early as the corpus does. A version that represents a group of the sample
also represents one of the corpus: an earlier representative of its class would have shown in the
sample. So the comparisons that grouping the sample makes are among those that grouping the corpus
makes, and if these all come to a verdict, then the sample can be grouped as well.
-/
namespace VersionGroups
open VersionGroups.Equivalence

/-- Some entries of a corpus, among them an early one for every document up to the last of them. -/
structure Corpus.Sample (part whole : Corpus) : Prop where
  subset : part.entries ⊆ whole.entries
  early : ∀ {u d r e}, (u, d) ∈ whole.entries → (r, e) ∈ part.entries → u ≤ r →
    ∃ k d', (k, d') ∈ part.entries ∧ k ≤ u ∧ (d' == d) = true

/-- A representative is the least of the versions taken that are akin to it. -/
theorem Partition.representative_le {corpus : Corpus} {types : List TypeName} {slot : Slot}
    {taken rest : List (Version × Document)} {groups : List OpenGroup} {g : OpenGroup}
    {k : Version} {c d : Document} (distinct : (types.map TypeName.path).Nodup)
    (h : Partition (structural corpus types) corpus slot taken groups)
    (hall : corpus.entries = taken ++ rest) (hg : g ∈ groups)
    (hd : (g.group.representative, d) ∈ corpus.entries) (hk : (k, c) ∈ taken)
    (hakin : Akin types slot (g.group.representative, d) (k, c)) :
    g.group.representative ≤ k := by
  have htaken : taken ⊆ corpus.entries := hall ▸ List.subset_append_left _ _
  obtain ⟨w, hled⟩ := h.led g hg
  obtain ⟨d', hd', hplaced⟩ := h.mem_taken hg hled
  obtain rfl := Table.eq_of_mem hd (htaken hd')
  have hdefines := hakin
  obtain ⟨-, spec, -, hspec, -⟩ := hdefines
  obtain ⟨g', hg', w', hw'⟩ := h.placed_of_defines hk hspec
  obtain ⟨c', hc', hplaced'⟩ := h.mem_taken hg' hw'
  obtain rfl := Table.eq_of_mem (htaken hk) (htaken hc')
  obtain rfl :=
    (h.eq_iff_akin distinct hg hg' hled hw' hd hplaced (htaken hk) hplaced').mpr hakin
  exact h.least g hg _ hw'

section
variable {part whole : Corpus} {types : List TypeName} {slot : Slot}
  {taken rest : List (Version × Document)} {groups all : List OpenGroup} {g : OpenGroup}
  (distinct : (types.map TypeName.path).Nodup) (hsample : part.Sample whole)
  (hwhole : Partition (structural whole types) whole slot whole.entries all)
  (hpart : Partition (structural part types) part slot taken groups)
  (hall : part.entries = taken ++ rest)
include distinct hsample hwhole hpart hall

/-- A version that represents a group of the sample represents a group of the corpus. -/
theorem Partition.exists_of_sample (hg : g ∈ groups) :
    ∃ G ∈ all, G.group.representative = g.group.representative ∧ G.head = g.head := by
  obtain ⟨d, hd, hhead⟩ := hpart.headed g hg
  have hdwhole := hsample.subset hd
  obtain ⟨G, hG, w, hw⟩ := hwhole.placed_of_defines hdwhole hhead
  obtain ⟨d', hd', hplaced⟩ := hwhole.mem_taken hG hw
  obtain rfl := Table.eq_of_mem hdwhole hd'
  obtain ⟨w', hled⟩ := hwhole.led G hG
  obtain ⟨c, hc, hplaced'⟩ := hwhole.mem_taken hG hled
  have hle : G.group.representative ≤ g.group.representative := hwhole.least G hG _ hw
  have hakin := (hwhole.eq_iff_akin distinct hG hG hw hled hd' hplaced hc hplaced').mp rfl
  obtain ⟨k, c', hk, hkG, hsame⟩ := hsample.early hc hd hle
  have hback : Akin types slot (g.group.representative, d) (k, c') :=
    hakin.trans (.of_document (Document.beq_symm hsame) hplaced')
  -- The sample has the class at `k` already, so the representative cannot be later than that.
  have hnot : ¬ k < g.group.representative := by
    intro hlt
    obtain ⟨w₁, hw₁⟩ := hpart.led g hg
    obtain ⟨d₁, hd₁, -⟩ := hpart.mem_taken hg hw₁
    have hktaken := taken_of_lt hall hd₁ hk hlt
    exact absurd (hpart.representative_le distinct hall hg hd hktaken hback) (Nat.not_le_of_lt hlt)
  have hrep : G.group.representative = g.group.representative :=
    Nat.le_antisymm hle (Nat.le_trans (Nat.le_of_not_lt hnot) hkG)
  refine ⟨G, hG, hrep, ?_⟩
  have hGhead := hwhole.headed G hG
  rw [hrep] at hGhead
  exact hGhead.unique ⟨d, hdwhole, hhead⟩

/-- The comparison of a version with a representative comes to a verdict in the sample. -/
theorem Partition.judged_of_sample {v : Version} {d : Document} {spec : Json}
    (hg : g ∈ groups) (hlt : g.group.representative < v) (hd : (v, d) ∈ part.entries)
    (hspec : (viewOf (v, d)).slotSpec? slot = .ok (some spec)) :
    ∃ verdict, structural part types g.group.representative g.head v spec = .ok verdict := by
  obtain ⟨G, hG, hrep, hhead⟩ := Partition.exists_of_sample distinct hsample hwhole hpart hall hg
  obtain ⟨e, he, -⟩ := hpart.headed g hg
  have hdwhole := hsample.subset hd
  obtain ⟨H, hH, w, hw⟩ := hwhole.placed_of_defines hdwhole hspec
  have hjudged := hwhole.judged H hH _ hw spec ⟨d, hdwhole, hspec⟩ G hG (hrep ▸ hlt)
  rw [hrep, hhead] at hjudged
  refine ⟨_, (structural_congr (get?_viewOf he) (get?_viewOf hd) ?_ ?_ g.head spec).trans hjudged⟩
  · exact get?_viewOf (hsample.subset he)
  · exact get?_viewOf hdwhole

/-- The search for the group of a version does not fail in the sample. -/
theorem Partition.matchGroup_of_sample {v : Version} {d : Document} {spec : Json} {fault : Fault}
    (hbefore : ∀ g ∈ groups, g.group.representative < v) (hd : (v, d) ∈ part.entries)
    (hspec : (viewOf (v, d)).slotSpec? slot = .ok (some spec)) :
    matchGroup (structural part types) slot v spec none groups ≠ .error fault := by
  intro hmatch
  rcases matchGroup_none_error hpart.ascending hmatch with
    ⟨g, hg, herror⟩ | ⟨g, hg, g', hg', hlt, htrue, htrue', -⟩
  · obtain ⟨verdict, hverdict⟩ :=
      judged_of_sample distinct hsample hwhole hpart hall hg (hbefore g hg) hd hspec
    rw [hverdict] at herror
    cases herror
  · exact hpart.unambiguous distinct hg hg' hlt hd htrue htrue'

end

/-- If a corpus can be grouped, then so can every sample of it. -/
theorem groupSlot_of_sample {part whole : Corpus} {types : List TypeName} {slot : Slot}
    (distinct : (types.map TypeName.path).Nodup) (hsample : part.Sample whole) {out : SlotGroups}
    (h : groupSlot whole (structural whole types) slot = .ok out) :
    ∃ out', groupSlot part (structural part types) slot = .ok out' := by
  obtain ⟨all, -, hwhole⟩ := partition_of_groupSlot h
  cases hout : groupSlot part (structural part types) slot with
  | ok out' => exact ⟨out', rfl⟩
  | error fault =>
      exfalso
      obtain ⟨taken, ⟨v, d⟩, rest, groups, hall, hpart, hstep⟩ := groupSlot_eq_error hout
      have hd : (v, d) ∈ part.entries := by simp [hall]
      have hbefore : ∀ g ∈ groups, g.group.representative < v :=
        fun g hg => hpart.representative_lt (fun e he => Partition.lt_next hall he) hg
      rcases hwhole.answered _ (hsample.subset hd) with hnone | ⟨p, hplaced⟩
      · rcases groupVersion_error hstep with herror | ⟨spec, hspec, -⟩
        · rw [hnone] at herror
          cases herror
        · rw [hnone] at hspec
          cases hspec
      · obtain ⟨-, ⟨spec, hspec⟩, hwire⟩ := placement?_eq_some.mp hplaced
        rcases groupVersion_error hstep with herror | ⟨spec', hspec', herror | hmatch⟩
        · rw [hspec] at herror
          cases herror
        · rw [hwire] at herror
          cases herror
        · exact Partition.matchGroup_of_sample distinct hsample hwhole hpart hall hbefore hd
            hspec' hmatch

end VersionGroups
