import VersionGroups.Proofs.Grouping.Partition
import VersionGroups.Proofs.Grouping.Surface

/-!
# The groups of a slot are classes

Grouping compares a version only with the representatives of the groups that exist when it is taken.
Under structural equivalence this is enough: a version has the surface of the representative that it
joins, and not that of any earlier representative. Since having the same surface is an equivalence,
two placed versions are in one group exactly when they have the same surface.
-/
namespace VersionGroups
open VersionGroups.Equivalence

namespace Partition

variable {corpus : Corpus} {types : List TypeName} {slot : Slot}
  {taken : List (Version × Document)} {groups : List OpenGroup} {g g' : OpenGroup}
  {p q : Placement} {d d' : Document} {spec spec' : Json}

theorem eq_of_representative (h : Partition (structural corpus types) corpus slot taken groups)
    (hg : g ∈ groups) (hg' : g' ∈ groups)
    (hr : g.group.representative = g'.group.representative) : g = g' := by
  have hnodup : (groups.map (·.group.representative)).Nodup :=
    List.pairwise_map.mpr (h.ascending.imp Nat.ne_of_lt)
  exact List.inj_on_of_nodup_map hnodup hg hg' hr

section
variable (distinct : (types.map TypeName.path).Nodup)
  (h : Partition (structural corpus types) corpus slot taken groups)
include distinct h

/-- A placed version has the surface of the representative of its group. -/
theorem sameSurface_head (hg : g ∈ groups) (hp : p ∈ g.group.buckets.placements)
    (hd : (p.2, d) ∈ corpus.entries) (hspec : (viewOf (p.2, d)).slotSpec? slot = .ok (some spec))
    (hd' : (g.group.representative, d') ∈ corpus.entries) :
    SameSurface types (viewOf (g.group.representative, d')) (viewOf (p.2, d)) g.head spec := by
  have hdef : Defines corpus slot p.2 spec := ⟨d, hd, hspec⟩
  rcases Nat.lt_or_eq_of_le (h.least g hg p hp) with hlt | heq
  · have hjudged := h.judged g hg p hp spec hdef g hg hlt
    rw [decide_eq_true rfl] at hjudged
    exact sameSurface_of_structural distinct (get?_viewOf hd') (get?_viewOf hd) hjudged
  · have hhead := h.headed g hg
    rw [heq] at hhead hd'
    obtain rfl := hhead.unique hdef
    obtain rfl := Table.eq_of_mem hd hd'
    exact .of_document (Document.beq_refl d) (Json.same_refl g.head)

/-- A placed version does not have the surface of an earlier representative. -/
theorem not_sameSurface_head (hg : g ∈ groups) (hg' : g' ∈ groups)
    (hlt : g.group.representative < g'.group.representative)
    (hp : p ∈ g'.group.buckets.placements) (hd : (p.2, d) ∈ corpus.entries)
    (hspec : (viewOf (p.2, d)).slotSpec? slot = .ok (some spec))
    (hd' : (g.group.representative, d') ∈ corpus.entries) :
    ¬ SameSurface types (viewOf (g.group.representative, d')) (viewOf (p.2, d)) g.head spec := by
  have hjudged := h.judged g' hg' p hp spec ⟨d, hd, hspec⟩ g hg
    (Nat.lt_of_lt_of_le hlt (h.least g' hg' p hp))
  rw [decide_eq_false (Nat.ne_of_lt hlt)] at hjudged
  exact not_sameSurface_of_structural distinct (get?_viewOf hd') (get?_viewOf hd) hjudged

/-- Versions with the same surface are not placed in a later group and in an earlier one. -/
theorem not_lt_of_sameSurface (hg : g ∈ groups) (hg' : g' ∈ groups)
    (hp : p ∈ g.group.buckets.placements) (hq : q ∈ g'.group.buckets.placements)
    (hd : (p.2, d) ∈ corpus.entries) (hspec : (viewOf (p.2, d)).slotSpec? slot = .ok (some spec))
    (hd' : (q.2, d') ∈ corpus.entries)
    (hspec' : (viewOf (q.2, d')).slotSpec? slot = .ok (some spec'))
    (hsame : SameSurface types (viewOf (p.2, d)) (viewOf (q.2, d')) spec spec') :
    ¬ g.group.representative < g'.group.representative := by
  intro hlt
  obtain ⟨e, he, -⟩ := h.headed g hg
  have hhead := h.sameSurface_head distinct hg hp hd hspec he
  exact h.not_sameSurface_head distinct hg hg' hlt hq hd' hspec' he (hhead.trans hsame)

/-- Two placed versions are in one group exactly when they have the same surface. -/
theorem eq_iff_sameSurface (hg : g ∈ groups) (hg' : g' ∈ groups)
    (hp : p ∈ g.group.buckets.placements) (hq : q ∈ g'.group.buckets.placements)
    (hd : (p.2, d) ∈ corpus.entries) (hspec : (viewOf (p.2, d)).slotSpec? slot = .ok (some spec))
    (hd' : (q.2, d') ∈ corpus.entries)
    (hspec' : (viewOf (q.2, d')).slotSpec? slot = .ok (some spec')) :
    g = g' ↔ SameSurface types (viewOf (p.2, d)) (viewOf (q.2, d')) spec spec' := by
  constructor
  · rintro rfl
    obtain ⟨e, he, -⟩ := h.headed g hg
    exact (h.sameSurface_head distinct hg hp hd hspec he).symm.trans
      (h.sameSurface_head distinct hg hq hd' hspec' he)
  · intro hsame
    rcases Nat.lt_trichotomy g.group.representative g'.group.representative with hlt | heq | hgt
    · exact absurd hlt
        (h.not_lt_of_sameSurface distinct hg hg' hp hq hd hspec hd' hspec' hsame)
    · exact h.eq_of_representative hg hg' heq
    · exact absurd hgt
        (h.not_lt_of_sameSurface distinct hg' hg hq hp hd' hspec' hd hspec hsame.symm)

end

end Partition

/-- Two entries define a slot, and their definitions have the same surface. -/
def Akin (types : List TypeName) (slot : Slot) (a b : Version × Document) : Prop :=
  ∃ spec spec', (viewOf a).slotSpec? slot = .ok (some spec) ∧
    (viewOf b).slotSpec? slot = .ok (some spec') ∧
    SameSurface types (viewOf a) (viewOf b) spec spec'

namespace Akin
variable {types : List TypeName} {slot : Slot} {a b c : Version × Document}

theorem symm (h : Akin types slot a b) : Akin types slot b a := by
  obtain ⟨spec, spec', hspec, hspec', hsame⟩ := h
  exact ⟨spec', spec, hspec', hspec, hsame.symm⟩

theorem trans (h : Akin types slot a b) (h' : Akin types slot b c) : Akin types slot a c := by
  obtain ⟨spec, body, hspec, hbody, hsame⟩ := h
  obtain ⟨body', spec', hbody', hspec', hsame'⟩ := h'
  rw [hbody] at hbody'
  obtain rfl := Option.some.inj (Except.ok.inj hbody')
  exact ⟨spec, spec', hspec, hspec', hsame.trans hsame'⟩

theorem of_document {p : Placement} (same : (a.2 == b.2) = true)
    (h : placement? slot a = some p) : Akin types slot a b := by
  obtain ⟨-, ⟨spec, hspec⟩, -⟩ := placement?_eq_some.mp h
  obtain ⟨spec', hspec', hsame⟩ := View.slotSpec?_of_same (w := viewOf b) same hspec
  exact ⟨spec, spec', hspec, hspec', .of_document same hsame⟩

end Akin

/-- Two placed entries are in one group exactly when they are akin. -/
theorem Partition.eq_iff_akin {corpus : Corpus} {types : List TypeName} {slot : Slot}
    {taken : List (Version × Document)} {groups : List OpenGroup} {a b : Version × Document}
    (distinct : (types.map TypeName.path).Nodup)
    (h : Partition (structural corpus types) corpus slot taken groups) {g g' : OpenGroup}
    (hg : g ∈ groups) (hg' : g' ∈ groups) {p q : Placement}
    (hp : p ∈ g.group.buckets.placements) (hq : q ∈ g'.group.buckets.placements)
    (ha : a ∈ corpus.entries) (hpa : placement? slot a = some p)
    (hb : b ∈ corpus.entries) (hqb : placement? slot b = some q) :
    g = g' ↔ Akin types slot a b := by
  obtain ⟨v, d⟩ := a
  obtain ⟨u, e⟩ := b
  obtain ⟨rfl, ⟨spec, hspec⟩, -⟩ := placement?_eq_some.mp hpa
  obtain ⟨rfl, ⟨spec', hspec'⟩, -⟩ := placement?_eq_some.mp hqb
  rw [h.eq_iff_sameSurface distinct hg hg' hp hq ha hspec hb hspec']
  constructor
  · exact fun hsame => ⟨spec, spec', hspec, hspec', hsame⟩
  · rintro ⟨head, head', hhead, hhead', hsame⟩
    rw [hspec] at hhead
    rw [hspec'] at hhead'
    obtain rfl := Option.some.inj (Except.ok.inj hhead)
    obtain rfl := Option.some.inj (Except.ok.inj hhead')
    exact hsame

end VersionGroups
