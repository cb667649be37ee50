import VersionGroups.Proofs.Corpus.Selection

/-!
# Reducing what was kept

No two kept versions have the same document, so a second reduction to the same range finds nothing
to remove. What it may lack is a base. All kept versions lie in the range, so only the minimum
itself can be their base, and it is kept exactly if it is a version of the corpus that lies in the
range. A base below the range is not kept: a corpus that rests on one cannot be reduced again.
-/
namespace VersionGroups

/-- The reduction that keeps every version of a corpus. -/
def Reduction.keepAll (corpus : Corpus) : Reduction := ⟨corpus, Table.empty, corpus.keys⟩

section
variable {corpus : Corpus} {range : VersionRange} {reduction : Reduction} {v : Version}

namespace Reduction.Selects
variable (h : reduction.Selects corpus range)
include h

theorem within_of_kept (hv : v ∈ reduction.kept.keys) :
    range.minimum ≤ v ∧ ∀ maximum, range.maximum = some maximum → v ≤ maximum :=
  ((h.considered v).mp ((h.divided v).mpr (.inl hv))).2

/-- The kept versions are already divided: all of them are kept again. -/
theorem selects_keepAll : (keepAll reduction.kept).Selects reduction.kept range where
  ascending := List.pairwise_map.mpr (Table.versions_ascending reduction.kept)
  considered _ := ⟨fun hv => ⟨hv, h.within_of_kept hv⟩, And.left⟩
  divided v := by simp [keepAll, Table.keys]
  apart v _ := by simp [keepAll, Table.keys]
  original _ _ hd := hd
  unequal := h.unequal
  least _ _ _ hk _ := by cases hk
  target _ _ hk := by cases hk

/-- The minimum has nothing below it in the range that it could stand for. -/
theorem minimum_kept_iff : range.minimum ∈ reduction.kept.keys ↔
    range.minimum ∈ corpus.keys ∧ range.contains range.minimum = true := by
  rw [VersionRange.contains_iff]
  constructor
  · intro hmin
    exact (h.considered _).mp ((h.divided _).mpr (.inl hmin))
  · intro hmin
    rcases (h.divided _).mp ((h.considered _).mpr hmin) with hkept | halias
    · exact hkept
    · obtain ⟨k, hk⟩ := Table.mem_keys.mp halias
      obtain ⟨hkept, -, hlt⟩ := h.target _ k hk
      exact absurd hlt (Nat.not_lt.mpr (h.within_of_kept hkept).1)

/-- Among the kept versions, only the minimum itself can be a base. -/
theorem base_kept_iff : (∃ v ∈ reduction.kept.keys, v ≤ range.minimum) ↔
    range.minimum ∈ corpus.keys ∧ range.contains range.minimum = true := by
  rw [← h.minimum_kept_iff]
  constructor
  · rintro ⟨v, hv, hle⟩
    rwa [Nat.le_antisymm (h.within_of_kept hv).1 hle]
  · exact fun hmin => ⟨range.minimum, hmin, Nat.le_refl _⟩

end Reduction.Selects

/-- The versions that a reduction keeps can be reduced to the same range again exactly if the
minimum is a version of the corpus and lies in the range; otherwise they lack a base. Reducing them
again keeps them all, without an alias. -/
theorem reduce_kept (h : reduce corpus range = .ok reduction) :
    ((∃ again, reduce reduction.kept range = .ok again) ↔
      range.minimum ∈ corpus.keys ∧ range.contains range.minimum = true) ∧
    (¬ (range.minimum ∈ corpus.keys ∧ range.contains range.minimum = true) →
      reduce reduction.kept range = .error (.missingBaseVersion range.minimum)) ∧
    ∀ again, reduce reduction.kept range = .ok again →
      again.kept = reduction.kept ∧ again.aliases = Table.empty ∧
        again.considered = reduction.kept.keys := by
  have hselects := (canonical_of_reduce h).selects
  have hagain : (∃ again, reduce reduction.kept range = .ok again) ↔
      range.minimum ∈ corpus.keys ∧ range.contains range.minimum = true :=
    reduce_isOk_iff.trans hselects.base_kept_iff
  refine ⟨hagain, fun hbase => ?_, fun again hok => ?_⟩
  · cases hresult : reduce reduction.kept range with
    | ok again => exact absurd (hagain.mp ⟨again, hresult⟩) hbase
    | error fault => rw [reduce_eq_error hresult]
  · obtain rfl : again = .keepAll reduction.kept :=
      (canonical_of_reduce hok).selects.unique hselects.selects_keepAll
    exact ⟨rfl, rfl, rfl⟩

end

def copiedCorpus : Corpus :=
  .ofList [(4, ⟨.str "a"⟩), (7, ⟨.str "b"⟩), (8, ⟨.str "b"⟩), (9, ⟨.str "b"⟩)]

/-- From 7 on, version 7 is kept and is its own base. From 5 on it is kept too, but the base is
version 4, which is not. -/
theorem reduce_kept_copies :
    (∃ reduction again, reduce copiedCorpus ⟨7, some 8⟩ = .ok reduction ∧
      reduce reduction.kept ⟨7, some 8⟩ = .ok again ∧ again.kept.keys = [7] ∧
      again.aliases = Table.empty ∧ again.considered = [7]) ∧
    ∃ reduction, reduce copiedCorpus ⟨5, none⟩ = .ok reduction ∧ reduction.kept.keys = [7] ∧
      reduce reduction.kept ⟨5, none⟩ = .error (.missingBaseVersion 5) := by
  constructor
  · obtain ⟨reduction, h, hkept⟩ : ∃ reduction,
        reduce copiedCorpus ⟨7, some 8⟩ = .ok reduction ∧ reduction.kept.keys = [7] :=
      ⟨_, rfl, rfl⟩
    obtain ⟨hagain, -, hsame⟩ := reduce_kept h
    obtain ⟨again, hok⟩ := hagain.mpr ⟨by decide, rfl⟩
    obtain ⟨hkeeps, haliases, hconsidered⟩ := hsame again hok
    exact ⟨reduction, again, h, hok, by rw [hkeeps, hkept], haliases, by rw [hconsidered, hkept]⟩
  · obtain ⟨reduction, h, hkept⟩ : ∃ reduction,
        reduce copiedCorpus ⟨5, none⟩ = .ok reduction ∧ reduction.kept.keys = [7] :=
      ⟨_, rfl, rfl⟩
    obtain ⟨-, hbase, -⟩ := reduce_kept h
    exact ⟨reduction, h, hkept, hbase (by decide)⟩

end VersionGroups
