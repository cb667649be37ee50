import VersionGroups.Proofs.Corpus.Reduction

/-!
# Corpora that grow at the end

New versions come after the old ones, and so do their entries in a range. An entry at the end does
not change which version is the first with a document. So the reduction of the longer corpus treats
the old versions as the reduction of the shorter one does: it keeps the same ones and has the same
aliases for the others.
-/
namespace VersionGroups

/-- The second corpus has the entries of the first one, and other versions only after them. -/
structure Corpus.ExtendedBy (old new : Corpus) : Prop where
  keeps : ∀ v d, old.get? v = some d → new.get? v = some d
  later : ∀ v, new.contains v = true → old.contains v = false →
    ∀ u, old.contains u = true → u < v

namespace Corpus.ExtendedBy
variable {old new : Corpus} (h : old.ExtendedBy new)
include h

theorem lt_of_new {e e' : Version × Document} (he : e ∈ old.entries) (he' : e' ∈ new.entries)
    (hnew : old.contains e'.1 = false) : e.1 < e'.1 :=
  h.later e'.1 (Table.contains_iff.mpr ⟨e'.2, he'⟩) hnew e.1 (Table.contains_iff.mpr ⟨e.2, he⟩)

/-- The entries of the longer corpus are those of the shorter one, and then new ones. -/
theorem entries_eq : ∃ later, new.entries = old.entries ++ later ∧
    ∀ e ∈ later, old.contains e.1 = false := by
  have hlater : ∀ e ∈ new.entries.filter (fun e => !old.contains e.1),
      old.contains e.1 = false := fun e he => by simpa using (List.mem_filter.mp he).2
  refine ⟨new.entries.filter fun e => !old.contains e.1, ?_, hlater⟩
  have hasc : (old.entries ++ new.entries.filter fun e => !old.contains e.1).Pairwise
      fun a b => a.1 < b.1 := by
    refine List.pairwise_append.mpr ⟨Table.versions_ascending old,
      (Table.versions_ascending new).filter _, fun e he e' he' => ?_⟩
    exact h.lt_of_new he (List.mem_filter.mp he').1 (hlater e' he')
  refine Table.eq_of_ascending (Table.versions_ascending new) hasc ?_
  rintro ⟨v, d⟩
  rw [List.mem_append, List.mem_filter]
  constructor
  · intro he
    by_cases hold : old.contains v = true
    · obtain ⟨d', hd'⟩ := Table.contains_iff.mp hold
      have hkept := Table.get?_eq_some_iff.mp (h.keeps _ _ (Table.get?_eq_some_iff.mpr hd'))
      obtain rfl := Table.eq_of_mem hkept he
      exact .inl hd'
    · exact .inr ⟨he, by simpa using hold⟩
  · rintro (he | ⟨he, -⟩)
    · exact Table.get?_eq_some_iff.mp (h.keeps _ _ (Table.get?_eq_some_iff.mpr he))
    · exact he

/-- The entries of a range are those of the shorter corpus, and then new ones. -/
theorem within_eq (range : VersionRange) : ∃ later, new.within range = old.within range ++ later ∧
    (old.within range ++ later).Pairwise (fun a b => a.1 < b.1) ∧
      ∀ e ∈ later, old.contains e.1 = false := by
  obtain ⟨later, heq, hlater⟩ := h.entries_eq
  have hwithin : new.within range =
      old.within range ++ later.filter fun e => range.contains e.1 := by
    rw [Corpus.within, heq, List.filter_append]
    rfl
  exact ⟨_, hwithin, hwithin ▸ new.within_ascending range,
    fun e he => hlater e (List.mem_filter.mp he).1⟩

/-- A range that has its base in the longer corpus has it in the shorter one, if there is any
version. -/
theorem reduce_ok (hne : old.entries ≠ []) {range : VersionRange} {reduction : Reduction}
    (hreduce : reduce new range = .ok reduction) :
    ∃ reduction', reduce old range = .ok reduction' := by
  have hbase : old.keys.any (fun v => decide (v ≤ range.minimum)) = true := by
    rw [reduce] at hreduce
    split at hreduce
    · rename_i hnew
      obtain ⟨v, hv, hle⟩ := List.any_eq_true.mp hnew
      obtain ⟨e', he', rfl⟩ := List.mem_map.mp hv
      obtain ⟨e, he⟩ := List.exists_mem_of_ne_nil _ hne
      refine List.any_eq_true.mpr ?_
      by_cases hold : old.contains e'.1 = true
      · obtain ⟨d, hd⟩ := Table.contains_iff.mp hold
        exact ⟨e'.1, List.mem_map.mpr ⟨_, hd, rfl⟩, hle⟩
      · have hlt := h.lt_of_new he he' (by simpa using hold)
        have hle' : e'.1 ≤ range.minimum := by simpa using hle
        exact ⟨e.1, List.mem_map_of_mem he,
          by simpa using Nat.le_of_lt (Nat.lt_of_lt_of_le hlt hle')⟩
    · cases hreduce
  exact ⟨_, by rw [reduce, if_pos hbase]⟩

end Corpus.ExtendedBy

/-- A corpus extends its part before a version. -/
theorem Corpus.extendedBy_filter (corpus : Corpus) (bound : Version) :
    Corpus.ExtendedBy (corpus.filter fun v _ => decide (v < bound)) corpus := by
  have hmem : ∀ v d, (v, d) ∈ (corpus.filter fun v _ => decide (v < bound)).entries ↔
      (v, d) ∈ corpus.entries ∧ v < bound := by
    intro v d
    rw [Table.entries_filter, List.mem_filter, decide_eq_true_iff]
  constructor
  · intro v d hd
    exact Table.get?_eq_some_iff.mpr ((hmem v d).mp (Table.get?_eq_some_iff.mp hd)).1
  · intro v hv hnew u hu
    obtain ⟨d, hd⟩ := Table.contains_iff.mp hv
    obtain ⟨e, he⟩ := Table.contains_iff.mp hu
    have hbound : ¬ v < bound := by
      intro hlt
      rw [Table.contains_iff.mpr ⟨d, (hmem v d).mpr ⟨hd, hlt⟩⟩] at hnew
      cases hnew
    exact Nat.lt_of_lt_of_le ((hmem u e).mp he).2 (Nat.le_of_not_lt hbound)

section
variable {entries later : List (Version × Document)} {old new : Reduction} {v k : Version}
  {p : Version → Bool}

theorem standsFor_append (hasc : (entries ++ later).Pairwise fun a b => a.1 < b.1)
    {d : Document} (hd : (v, d) ∈ entries) :
    StandsFor (entries ++ later) v k ↔ StandsFor entries v k := by
  constructor
  · rintro ⟨d', hd', hk⟩
    rcases List.mem_append.mp hd' with hd' | hd'
    · exact ⟨d', hd', (firstWith?_append_of_mem hd' later).symm.trans hk⟩
    · exact absurd ((List.pairwise_append.mp hasc).2.2 _ hd _ hd') (Nat.lt_irrefl v)
  · rintro ⟨d', hd', hk⟩
    exact ⟨d', List.mem_append_left _ hd', (firstWith?_append_of_mem hd' later).trans hk⟩

namespace Reduction.Canonical
variable (hold : old.Canonical entries) (hnew : new.Canonical (entries ++ later))
include hold hnew

theorem mem_kept_append {e : Version × Document} :
    e ∈ old.kept.entries ↔ e ∈ new.kept.entries ∧ e ∈ entries := by
  rw [hold.kept, hnew.kept]
  constructor
  · rintro ⟨he, hk⟩
    exact ⟨⟨List.mem_append_left _ he, (firstWith?_append_of_mem he later).trans hk⟩, he⟩
  · rintro ⟨⟨-, hk⟩, he⟩
    exact ⟨he, (firstWith?_append_of_mem he later).symm.trans hk⟩

section
variable (hin : ∀ e ∈ entries, p e.1 = true) (hout : ∀ e ∈ later, p e.1 = false)
include hin hout

theorem considered_append : old.considered = new.considered.filter p := by
  have hp : (entries.map (·.1)).filter p = entries.map (·.1) :=
    List.filter_eq_self.mpr (List.forall_mem_map.mpr hin)
  have hq : (later.map (·.1)).filter p = [] :=
    List.filter_eq_nil_iff.mpr (List.forall_mem_map.mpr fun e he => by simp [hout e he])
  rw [hold.considered, hnew.considered, List.map_append, List.filter_append, hp, hq,
    List.append_nil]

theorem aliases_append (hasc : (entries ++ later).Pairwise fun a b => a.1 < b.1) :
    old.aliases = new.aliases.filter fun v _ => p v := by
  refine Table.ext_mem ?_
  rintro ⟨a, k⟩
  rw [Table.entries_filter, List.mem_filter, hold.aliases, hnew.aliases]
  constructor
  · rintro ⟨hne, hs⟩
    obtain ⟨d, hd, -⟩ := id hs
    exact ⟨⟨hne, (standsFor_append hasc hd).mpr hs⟩, hin _ hd⟩
  · rintro ⟨⟨hne, hs⟩, hpa⟩
    obtain ⟨d, hd, -⟩ := id hs
    rcases List.mem_append.mp hd with hd | hd
    · exact ⟨hne, (standsFor_append hasc hd).mp hs⟩
    · rw [hout _ hd] at hpa
      cases hpa

end

end Reduction.Canonical

end

end VersionGroups
