import Mathlib.Order.Bounds.Basic
import VersionGroups.Proofs.Corpus.Reduction

/-!
# What a reduction selects

A reduction divides the versions of a range. It keeps some of them, no two of which have the same
document, and makes every other one an alias of the least version that has its document. There is
only one way to do this, so a corpus and a range determine the reduction, and the range has one
exactly if there is a version at its minimum or below.
-/
namespace VersionGroups

/-- The versions among `versions` whose documents in a corpus are the same as `d`. -/
def Corpus.sharing (corpus : Corpus) (versions : List Version) (d : Document) : Set Version :=
  {v | v ∈ versions ∧ ∃ e, corpus.get? v = some e ∧ (e == d) = true}

/-- The versions of a range, divided into kept versions and aliases of the least version with the
same document. -/
structure Reduction.Selects (reduction : Reduction) (corpus : Corpus) (range : VersionRange) :
    Prop where
  ascending : reduction.considered.Pairwise (· < ·)
  considered : ∀ v, v ∈ reduction.considered ↔
    v ∈ corpus.keys ∧ range.minimum ≤ v ∧ ∀ maximum, range.maximum = some maximum → v ≤ maximum
  divided : ∀ v, v ∈ reduction.considered ↔ v ∈ reduction.kept.keys ∨ v ∈ reduction.aliases.keys
  apart : ∀ v ∈ reduction.kept.keys, v ∉ reduction.aliases.keys
  original : ∀ v d, reduction.kept.get? v = some d → corpus.get? v = some d
  unequal : ∀ v w d e, reduction.kept.get? v = some d → reduction.kept.get? w = some e → v ≠ w →
    (d == e) = false
  least : ∀ a k d, reduction.aliases.get? a = some k → corpus.get? a = some d →
    IsLeast (corpus.sharing reduction.considered d) k
  target : ∀ a k, reduction.aliases.get? a = some k →
    k ∈ reduction.kept.keys ∧ k ∉ reduction.aliases.keys ∧ k < a

section
variable {corpus : Corpus} {range : VersionRange} {reduction other : Reduction} {v a k : Version}
  {d : Document}

namespace Reduction.Canonical
variable (h : reduction.Canonical (corpus.within range))
include h

theorem mem_considered :
    v ∈ reduction.considered ↔ ∃ d, (v, d) ∈ corpus.within range := by
  simp [h.considered]

theorem not_alias_of_kept (hv : v ∈ reduction.kept.keys) : v ∉ reduction.aliases.keys := by
  intro ha
  obtain ⟨d, hd⟩ := Table.mem_keys.mp hv
  obtain ⟨k, hk⟩ := Table.mem_keys.mp ha
  obtain ⟨hne, hs⟩ := (h.aliases v k).mp (Table.get?_eq_some_iff.mp hk)
  exact hne ((h.stands_of_kept (Table.get?_eq_some_iff.mp hd)).unique hs)

/-- A version of the range is kept if it stands for itself, and an alias otherwise. -/
theorem mem_considered_iff :
    v ∈ reduction.considered ↔ v ∈ reduction.kept.keys ∨ v ∈ reduction.aliases.keys := by
  simp only [h.mem_considered, Table.mem_keys, Table.get?_eq_some_iff]
  constructor
  · rintro ⟨d, hd⟩
    obtain ⟨k, hk⟩ := exists_firstWith? hd
    by_cases heq : v = k
    · exact .inl ⟨d, (h.kept _).mpr ⟨hd, heq ▸ hk⟩⟩
    · exact .inr ⟨k, (h.aliases v k).mpr ⟨heq, d, hd, hk⟩⟩
  · rintro (⟨d, hd⟩ | ⟨k, hk⟩)
    · exact ⟨d, ((h.kept _).mp hd).1⟩
    · obtain ⟨-, d, hd, -⟩ := (h.aliases v k).mp hk
      exact ⟨d, hd⟩

theorem isLeast_of_standsFor (hs : StandsFor (corpus.within range) a k)
    (hd : corpus.get? a = some d) : IsLeast (corpus.sharing reduction.considered d) k := by
  obtain ⟨d', hd', hk⟩ := hs
  obtain rfl : d' = d := Option.some.inj ((Corpus.mem_within.mp hd').1.symm.trans hd)
  obtain ⟨e, he, hsame⟩ := exists_of_firstWith? hk
  refine ⟨⟨h.mem_considered.mpr ⟨e, he⟩, e, (Corpus.mem_within.mp he).1, hsame⟩, ?_⟩
  rintro w ⟨hw, e', he', hsame'⟩
  obtain ⟨e'', hw⟩ := h.mem_considered.mp hw
  obtain rfl : e'' = e' := Option.some.inj ((Corpus.mem_within.mp hw).1.symm.trans he')
  exact firstWith?_le (corpus.within_ascending range) hw ((firstWith?_congr hsame').trans hk)

theorem selects : reduction.Selects corpus range where
  ascending := by
    rw [h.considered]
    exact List.pairwise_map.mpr (corpus.within_ascending range)
  considered v := by
    simp only [h.mem_considered, Corpus.mem_within, VersionRange.contains_iff, Table.mem_keys,
      exists_and_right]
  divided v := h.mem_considered_iff
  apart v := h.not_alias_of_kept
  original v d hd := (Corpus.mem_within.mp ((h.kept _).mp (Table.get?_eq_some_iff.mp hd)).1).1
  unequal v w d e hd he hne := by
    refine eq_false_of_ne_true fun hsame => hne ?_
    have hv := ((h.kept _).mp (Table.get?_eq_some_iff.mp hd)).2
    have hw := ((h.kept _).mp (Table.get?_eq_some_iff.mp he)).2
    exact Option.some.inj (hv.symm.trans ((firstWith?_congr hsame).trans hw))
  least a k d hk hd :=
    h.isLeast_of_standsFor ((h.aliases a k).mp (Table.get?_eq_some_iff.mp hk)).2 hd
  target a k hk := by
    obtain ⟨hne, hs⟩ := (h.aliases a k).mp (Table.get?_eq_some_iff.mp hk)
    obtain ⟨-, d, -, hkept, -⟩ := h.same_document hs
    have hmem : k ∈ reduction.kept.keys :=
      Table.mem_keys.mpr ⟨d, Table.get?_eq_some_iff.mpr hkept⟩
    have hle : k ≤ a := hs.le (corpus.within_ascending range)
    exact ⟨hmem, h.not_alias_of_kept hmem, Nat.lt_of_le_of_ne hle (Ne.symm hne)⟩

end Reduction.Canonical

namespace Reduction.Selects
variable (h : reduction.Selects corpus range)
include h

/-- A version is kept exactly if it is the least one that has its document. -/
theorem kept_iff : reduction.kept.get? v = some d ↔
    corpus.get? v = some d ∧ IsLeast (corpus.sharing reduction.considered d) v := by
  constructor
  · intro hv
    have hd := h.original v d hv
    have hmem := (h.divided v).mpr (.inl (Table.mem_keys.mpr ⟨d, hv⟩))
    refine ⟨hd, ⟨hmem, d, hd, Document.beq_refl d⟩, ?_⟩
    -- Another version with the document is an alias of a kept one, which can only be this one.
    have hkept : ∀ w e, reduction.kept.get? w = some e → (e == d) = true → v = w := by
      intro w e hw hsame
      by_contra hne
      rw [h.unequal w v e d hw hv (Ne.symm hne)] at hsame
      cases hsame
    rintro w ⟨hw, e, he, hsame⟩
    rcases (h.divided w).mp hw with hw | hw
    · obtain ⟨e', hw⟩ := Table.mem_keys.mp hw
      obtain rfl := Option.some.inj ((h.original w e' hw).symm.trans he)
      exact Nat.le_of_eq (hkept w e' hw hsame)
    · obtain ⟨k, hk⟩ := Table.mem_keys.mp hw
      obtain ⟨hkmem, -, hlt⟩ := h.target w k hk
      obtain ⟨e', hke⟩ := Table.mem_keys.mp hkmem
      obtain ⟨⟨-, e'', he'', hsame'⟩, -⟩ := h.least w k e hk he
      obtain rfl := Option.some.inj ((h.original k e' hke).symm.trans he'')
      exact hkept k e' hke (Document.beq_trans hsame' hsame) ▸ Nat.le_of_lt hlt
  · rintro ⟨hd, hleast⟩
    rcases (h.divided v).mp hleast.1.1 with hv | hv
    · obtain ⟨d', hv⟩ := Table.mem_keys.mp hv
      rwa [Option.some.inj ((h.original v d' hv).symm.trans hd)] at hv
    · obtain ⟨k, hk⟩ := Table.mem_keys.mp hv
      have heq : k = v := (h.least v k d hk hd).unique hleast
      exact absurd (h.target v k hk).2.2 (heq ▸ Nat.lt_irrefl v)

/-- A version is an alias exactly if another one is the least that has its document. -/
theorem alias_iff : reduction.aliases.get? a = some k ↔
    a ≠ k ∧ a ∈ reduction.considered ∧
      ∃ d, corpus.get? a = some d ∧ IsLeast (corpus.sharing reduction.considered d) k := by
  constructor
  · intro hk
    have hmem := (h.divided a).mpr (.inr (Table.mem_keys.mpr ⟨k, hk⟩))
    obtain ⟨d, hd⟩ := Table.mem_keys.mp ((h.considered a).mp hmem).1
    exact ⟨Nat.ne_of_gt (h.target a k hk).2.2, hmem, d, hd, h.least a k d hk hd⟩
  · rintro ⟨hne, hmem, d, hd, hleast⟩
    rcases (h.divided a).mp hmem with ha | ha
    · obtain ⟨d', ha⟩ := Table.mem_keys.mp ha
      obtain ⟨hd', hself⟩ := h.kept_iff.mp ha
      obtain rfl := Option.some.inj (hd'.symm.trans hd)
      exact absurd (hself.unique hleast) hne
    · obtain ⟨k', hk'⟩ := Table.mem_keys.mp ha
      rwa [(h.least a k' d hk' hd).unique hleast] at hk'

theorem considered_eq (h' : other.Selects corpus range) :
    reduction.considered = other.considered :=
  Table.eq_of_ascending (f := id) h.ascending h'.ascending fun v =>
    (h.considered v).trans (h'.considered v).symm

theorem unique (h' : other.Selects corpus range) : reduction = other := by
  have hconsidered := h.considered_eq h'
  have hkept : reduction.kept = other.kept := by
    refine Table.ext_mem fun ⟨v, d⟩ => ?_
    rw [← Table.get?_eq_some_iff, ← Table.get?_eq_some_iff, h.kept_iff, h'.kept_iff, hconsidered]
  have haliases : reduction.aliases = other.aliases := by
    refine Table.ext_mem fun ⟨a, k⟩ => ?_
    rw [← Table.get?_eq_some_iff, ← Table.get?_eq_some_iff, h.alias_iff, h'.alias_iff,
      hconsidered]
  obtain ⟨kept, aliases, considered⟩ := reduction
  obtain ⟨kept', aliases', considered'⟩ := other
  congr

end Reduction.Selects

theorem reduce_isOk_iff : (∃ reduction, reduce corpus range = .ok reduction) ↔
    ∃ v ∈ corpus.keys, v ≤ range.minimum := by
  rw [reduce]
  split
  · rename_i hbase
    simpa using hbase
  · rename_i hbase
    simpa using hbase

end

/-- A corpus cannot be reduced to a range exactly if it has no version at or below the minimum,
which is then reported. Otherwise the reduction divides the versions of the range, in ascending
order, into kept versions with their documents, no two of which are the same, and aliases, each of
the least version of the range that has the same document; and it is the only one to do so. -/
theorem reduce_selects (corpus : Corpus) (range : VersionRange) :
    (∀ fault, reduce corpus range = .error fault ↔
      fault = .missingBaseVersion range.minimum ∧ ¬ ∃ v ∈ corpus.keys, v ≤ range.minimum) ∧
    ∀ reduction, reduce corpus range = .ok reduction ↔
      (∃ v ∈ corpus.keys, v ≤ range.minimum) ∧ reduction.Selects corpus range := by
  refine ⟨fun fault => ?_, fun reduction => ?_⟩
  · rw [← reduce_isOk_iff]
    constructor
    · intro h
      refine ⟨reduce_eq_error h, ?_⟩
      rintro ⟨reduction, hok⟩
      cases h.symm.trans hok
    · rintro ⟨rfl, hnone⟩
      cases h : reduce corpus range with
      | ok reduction => exact absurd ⟨reduction, h⟩ hnone
      | error fault => rw [reduce_eq_error h]
  · rw [← reduce_isOk_iff]
    constructor
    · intro h
      exact ⟨⟨reduction, h⟩, (canonical_of_reduce h).selects⟩
    · rintro ⟨⟨found, h⟩, hselects⟩
      rw [h, (canonical_of_reduce h).selects.unique hselects]

end VersionGroups
