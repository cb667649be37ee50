import VersionGroups.Manifest.Basic
import VersionGroups.Proofs.Corpus.Reduction
import VersionGroups.Proofs.Grouping.Placement

/-!
# Expanding versions by their aliases

Versions that are put in ascending order without repetitions are still the same versions. Over a
canonical reduction, the expansion of kept versions lists exactly the versions that stand for one of
them.
-/
namespace VersionGroups

/-- Removing repetitions puts what is found away in reverse. -/
theorem eraseReps_loop (a : Version) (rest found : List Version) :
    List.eraseRepsBy.loop (· == ·) a rest found = found.reverse ++ (a :: rest).eraseReps := by
  induction rest generalizing a found with
  | nil => simp [List.eraseReps, List.eraseRepsBy, List.eraseRepsBy.loop]
  | cons b rest ih =>
      rw [List.eraseReps, List.eraseRepsBy, List.eraseRepsBy.loop, List.eraseRepsBy.loop]
      cases a == b with
      | true => exact ih a found
      | false =>
          dsimp only
          rw [ih, ih, List.reverse_singleton, List.reverse_cons, List.append_assoc]

theorem eraseReps_cons_cons (a b : Version) (rest : List Version) :
    (a :: b :: rest).eraseReps =
      if a = b then (a :: rest).eraseReps else a :: (b :: rest).eraseReps := by
  rw [List.eraseReps, List.eraseRepsBy, List.eraseRepsBy.loop]
  by_cases h : a = b
  · rw [if_pos h, beq_iff_eq.mpr h]
    exact eraseReps_loop a rest []
  · rw [if_neg h, beq_eq_false_iff_ne.mpr h]
    exact eraseReps_loop b rest [a]

theorem mem_eraseReps {v : Version} {l : List Version} : v ∈ l.eraseReps ↔ v ∈ l := by
  match l with
  | [] => exact Iff.rfl
  | [a] => exact Iff.rfl
  | a :: b :: rest =>
      rw [eraseReps_cons_cons]
      split
      · rename_i h
        rw [mem_eraseReps]
        simp [h]
      · rw [List.mem_cons, mem_eraseReps]
        exact List.mem_cons.symm
termination_by l.length

/-- Without repetitions, ascending versions ascend strictly. -/
theorem eraseReps_ascending {l : List Version} (h : l.Pairwise (· ≤ ·)) :
    l.eraseReps.Pairwise (· < ·) := by
  match l with
  | [] => exact .nil
  | [a] => exact List.pairwise_singleton ..
  | a :: b :: rest =>
      obtain ⟨ha, hb⟩ := List.pairwise_cons.mp h
      rw [eraseReps_cons_cons]
      split
      · exact eraseReps_ascending (h.sublist (by simp))
      · rename_i hne
        refine List.pairwise_cons.mpr ⟨?_, eraseReps_ascending hb⟩
        intro v hv
        have hab : a < b := Nat.lt_of_le_of_ne (ha b List.mem_cons_self) hne
        rcases List.mem_cons.mp (mem_eraseReps.mp hv) with rfl | hv
        · exact hab
        · exact Nat.lt_of_lt_of_le hab ((List.pairwise_cons.mp hb).1 v hv)
termination_by l.length

@[simp] theorem mem_distinctVersions {v : Version} {l : List Version} :
    v ∈ distinctVersions l ↔ v ∈ l := by
  rw [distinctVersions, mem_eraseReps, mem_ascendingVersions]

theorem distinctVersions_ascending (l : List Version) : (distinctVersions l).Pairwise (· < ·) :=
  eraseReps_ascending (ascendingVersions_sorted l)

theorem mem_aliasesOf {aliases : AliasTable} {v k : Version} :
    v ∈ aliases.aliasesOf k ↔ (v, k) ∈ aliases.entries := by
  simp [AliasTable.aliasesOf]

theorem mem_expand {aliases : AliasTable} {versions : List Version} {v : Version} :
    v ∈ aliases.expand versions ↔ v ∈ versions ∨ ∃ k ∈ versions, (v, k) ∈ aliases.entries := by
  simp [AliasTable.expand, mem_aliasesOf]

/-- Kept versions expand to the versions that stand for one of them. -/
theorem Reduction.Canonical.mem_expand {entries : List (Version × Document)}
    {reduction : Reduction} (h : reduction.Canonical entries) {versions : List Version}
    (hk : ∀ k ∈ versions, ∃ d, (k, d) ∈ reduction.kept.entries) {v : Version} :
    v ∈ reduction.aliases.expand versions ↔ ∃ k ∈ versions, StandsFor entries v k := by
  rw [VersionGroups.mem_expand]
  constructor
  · rintro (hv | ⟨k, hmem, hv⟩)
    · obtain ⟨d, hd⟩ := hk v hv
      exact ⟨v, hv, h.stands_of_kept hd⟩
    · exact ⟨k, hmem, ((h.aliases v k).mp hv).2⟩
  · rintro ⟨k, hmem, hs⟩
    by_cases hvk : v = k
    · exact .inl (hvk ▸ hmem)
    · exact .inr ⟨k, hmem, (h.aliases v k).mpr ⟨hvk, hs⟩⟩

end VersionGroups
