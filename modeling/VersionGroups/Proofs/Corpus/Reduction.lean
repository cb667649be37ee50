import Mathlib.Data.List.Induction
import VersionGroups.Corpus.Reduction
import VersionGroups.Proofs.Table

/-!
# The canonical reduction

Among the entries of a range, a version stands for the first version that has the same document.
The reduction keeps the versions that stand for themselves and makes an alias of every other one.
The invariant of the fold says this of the entries taken so far; one step preserves it because a
later entry never changes which version is the first with a document.
-/
namespace VersionGroups

def firstWith? (entries : List (Version × Document)) (document : Document) : Option Version :=
  (entries.find? (fun e => e.2 == document)).map (·.1)

/-- The entries of a corpus in a range. -/
def Corpus.within (corpus : Corpus) (range : VersionRange) : List (Version × Document) :=
  corpus.entries.filter (fun e => range.contains e.1)

/-- A version whose document is first found under another version, or under the same one. -/
def StandsFor (entries : List (Version × Document)) (v k : Version) : Prop :=
  ∃ d, (v, d) ∈ entries ∧ firstWith? entries d = some k

/-- A reduction that keeps the first version with each document and makes aliases of the others. -/
structure Reduction.Canonical (entries : List (Version × Document)) (reduction : Reduction) :
    Prop where
  considered : reduction.considered = entries.map (·.1)
  kept : ∀ e, e ∈ reduction.kept.entries ↔ e ∈ entries ∧ firstWith? entries e.2 = some e.1
  aliases : ∀ a k, (a, k) ∈ reduction.aliases.entries ↔
    a ≠ k ∧ StandsFor entries a k
  keptAs : ∀ d, reduction.keptAs? d = firstWith? entries d

variable {entries : List (Version × Document)} {d d' : Document} {v k : Version}

theorem firstWith?_append (rest : List (Version × Document)) (d : Document) :
    firstWith? (entries ++ rest) d = (firstWith? entries d).or (firstWith? rest d) := by
  rw [firstWith?, List.find?_append, Option.map_or]
  rfl

theorem firstWith?_singleton (e : Version × Document) (d : Document) :
    firstWith? [e] d = if e.2 == d then some e.1 else none := by
  by_cases h : (e.2 == d) = true <;> simp [firstWith?, h]

theorem firstWith?_congr (h : (d == d') = true) : firstWith? entries d = firstWith? entries d' := by
  have hp : (fun e : Version × Document => e.2 == d) = fun e => e.2 == d' := by
    funext e
    rw [Bool.eq_iff_iff]
    exact ⟨fun he => Document.beq_trans he h,
      fun he => Document.beq_trans he (Document.beq_symm h)⟩
  rw [firstWith?, firstWith?, hp]

theorem exists_of_firstWith? (h : firstWith? entries d = some k) :
    ∃ d', (k, d') ∈ entries ∧ (d' == d) = true := by
  obtain ⟨e, he, rfl⟩ := Option.map_eq_some_iff.mp h
  have hd := List.find?_some he
  exact ⟨e.2, List.mem_of_find?_eq_some he, hd⟩

theorem exists_firstWith? (h : (v, d) ∈ entries) : ∃ k, firstWith? entries d = some k := by
  have hsome : (entries.find? (fun e => e.2 == d)).isSome = true :=
    List.find?_isSome.mpr ⟨_, h, Document.beq_refl d⟩
  obtain ⟨e, he⟩ := Option.isSome_iff_exists.mp hsome
  exact ⟨e.1, by rw [firstWith?, he]; rfl⟩

/-- An entry that is taken last does not change what earlier entries stand for. -/
theorem firstWith?_append_of_mem (h : (v, d) ∈ entries) (rest : List (Version × Document)) :
    firstWith? (entries ++ rest) d = firstWith? entries d := by
  obtain ⟨k, hk⟩ := exists_firstWith? h
  rw [firstWith?_append, hk, Option.some_or]

/-- The first version with a document does not come after any other version with it. -/
theorem firstWith?_le (hasc : entries.Pairwise (fun a b => a.1 < b.1)) (h : (v, d) ∈ entries)
    (hk : firstWith? entries d = some k) : k ≤ v := by
  obtain ⟨e, he, rfl⟩ := Option.map_eq_some_iff.mp hk
  obtain ⟨-, before, after, rfl, hbefore⟩ := List.find?_eq_some_iff_append.mp he
  rw [List.pairwise_append, List.pairwise_cons] at hasc
  rcases List.mem_append.mp h with h | h
  · have hd := hbefore _ h
    simp [Document.beq_refl] at hd
  · rcases List.mem_cons.mp h with rfl | h
    · exact Nat.le_refl _
    · exact Nat.le_of_lt (hasc.2.1.1 _ h)

theorem StandsFor.le (hasc : entries.Pairwise (fun a b => a.1 < b.1))
    (h : StandsFor entries v k) : k ≤ v := by
  obtain ⟨d, hd, hk⟩ := h
  exact firstWith?_le hasc hd hk

namespace Reduction

theorem canonical_empty : Canonical [] Reduction.empty where
  considered := rfl
  kept e := by simp [Reduction.empty]
  aliases a k := by simp [Reduction.empty, StandsFor]
  keptAs d := rfl

theorem mem_kept_lt {reduction : Reduction} (h : Canonical entries reduction)
    (hlast : ∀ e ∈ entries, e.1 < v) : ∀ e ∈ reduction.kept.entries, compare e.1 v = .lt :=
  fun e he => Nat.compare_eq_lt.mpr (hlast e ((h.kept e).mp he).1)

theorem mem_aliases_lt {reduction : Reduction} (h : Canonical entries reduction)
    (hlast : ∀ e ∈ entries, e.1 < v) : ∀ e ∈ reduction.aliases.entries, compare e.1 v = .lt := by
  rintro ⟨a, k⟩ he
  obtain ⟨-, d, hd, -⟩ := (h.aliases a k).mp he
  exact Nat.compare_eq_lt.mpr (hlast _ hd)

/-- A later version whose document is there already becomes an alias. -/
theorem Canonical.add_alias {reduction : Reduction} (h : Canonical entries reduction)
    (hlast : ∀ e ∈ entries, e.1 < v) (hk : firstWith? entries d = some k) :
    Canonical (entries ++ [(v, d)]) (reduction.add v d) := by
  have hadd : reduction.add v d =
      { reduction with
        considered := reduction.considered ++ [v], aliases := reduction.aliases.insert v k } := by
    simp only [Reduction.add, h.keptAs d, hk]
  have hold : ∀ d', firstWith? (entries ++ [(v, d)]) d' = firstWith? entries d' := by
    intro d'
    rw [firstWith?_append, firstWith?_singleton]
    split
    · rename_i hd
      rw [← firstWith?_congr hd, hk, Option.some_or]
    · rw [Option.or_none]
  have hkv : k ≠ v := by
    obtain ⟨d', hd', -⟩ := exists_of_firstWith? hk
    exact Nat.ne_of_lt (hlast _ hd')
  rw [hadd]
  refine ⟨?_, ?_, ?_, ?_⟩
  · simp [h.considered]
  · intro e
    rw [hold, h.kept, List.mem_append, List.mem_singleton]
    constructor
    · rintro ⟨he, hfirst⟩
      exact ⟨.inl he, hfirst⟩
    · rintro ⟨he | rfl, hfirst⟩
      · exact ⟨he, hfirst⟩
      · exact absurd (Option.some.inj (hk.symm.trans hfirst)) hkv
  · intro a j
    rw [Table.entries_insert, Table.place_of_forall_lt (mem_aliases_lt h hlast), List.mem_append,
      List.mem_singleton, h.aliases]
    constructor
    · rintro (⟨hne, d', hd', hfirst⟩ | hnew)
      · exact ⟨hne, d', List.mem_append_left _ hd', (hold d').trans hfirst⟩
      · obtain ⟨rfl, rfl⟩ := Prod.mk.inj hnew
        exact ⟨hkv.symm, d, List.mem_append_right _ List.mem_cons_self, (hold d).trans hk⟩
    · rintro ⟨hne, d', hd', hfirst⟩
      rw [hold] at hfirst
      rcases List.mem_append.mp hd' with hd' | hd'
      · exact .inl ⟨hne, d', hd', hfirst⟩
      · obtain ⟨rfl, rfl⟩ := Prod.mk.inj (List.mem_singleton.mp hd')
        exact .inr (by rw [Option.some.inj (hfirst.symm.trans hk)])
  · intro d'
    exact (h.keptAs d').trans (hold d').symm

/-- A later version whose document is new is kept. -/
theorem Canonical.add_kept {reduction : Reduction} (h : Canonical entries reduction)
    (hlast : ∀ e ∈ entries, e.1 < v) (hk : firstWith? entries d = none) :
    Canonical (entries ++ [(v, d)]) (reduction.add v d) := by
  have hadd : reduction.add v d =
      { reduction with
        considered := reduction.considered ++ [v], kept := reduction.kept.insert v d } := by
    simp only [Reduction.add, h.keptAs d, hk]
  have hentries : (reduction.kept.insert v d).entries = reduction.kept.entries ++ [(v, d)] :=
    Table.place_of_forall_lt (mem_kept_lt h hlast)
  have hself : firstWith? (entries ++ [(v, d)]) d = some v := by
    rw [firstWith?_append, hk, Option.none_or, firstWith?_singleton, if_pos (Document.beq_refl d)]
  rw [hadd]
  refine ⟨?_, ?_, ?_, ?_⟩
  · simp [h.considered]
  · intro e
    rw [hentries, List.mem_append, List.mem_append, List.mem_singleton, h.kept]
    constructor
    · rintro (⟨he, hfirst⟩ | rfl)
      · exact ⟨.inl he, (firstWith?_append_of_mem he _).trans hfirst⟩
      · exact ⟨.inr rfl, hself⟩
    · rintro ⟨he | rfl, hfirst⟩
      · exact .inl ⟨he, (firstWith?_append_of_mem he _).symm.trans hfirst⟩
      · exact .inr rfl
  · intro a j
    rw [h.aliases]
    constructor
    · rintro ⟨hne, d', hd', hfirst⟩
      exact ⟨hne, d', List.mem_append_left _ hd', (firstWith?_append_of_mem hd' _).trans hfirst⟩
    · rintro ⟨hne, d', hd', hfirst⟩
      rcases List.mem_append.mp hd' with hd' | hd'
      · exact ⟨hne, d', hd', (firstWith?_append_of_mem hd' _).symm.trans hfirst⟩
      · obtain ⟨rfl, rfl⟩ := Prod.mk.inj (List.mem_singleton.mp hd')
        exact absurd (Option.some.inj (hself.symm.trans hfirst)) hne
  · intro d'
    have hkept := h.keptAs d'
    simp only [Reduction.keptAs?] at hkept ⊢
    rw [hentries]
    change firstWith? (reduction.kept.entries ++ [(v, d)]) d' = _
    rw [firstWith?_append, firstWith?_append]
    exact congrArg (Option.or · _) hkept

theorem Canonical.add {reduction : Reduction} (h : Canonical entries reduction)
    (hlast : ∀ e ∈ entries, e.1 < v) (d : Document) :
    Canonical (entries ++ [(v, d)]) (reduction.add v d) := by
  cases hk : firstWith? entries d with
  | none => exact h.add_kept hlast hk
  | some k => exact h.add_alias hlast hk

/-- Taking ascending entries one by one gives their canonical reduction. -/
theorem canonical_foldl (h : entries.Pairwise (fun a b => a.1 < b.1)) :
    Canonical entries (entries.foldl (fun reduction e => reduction.add e.1 e.2) .empty) := by
  induction entries using List.reverseRecOn with
  | nil => exact canonical_empty
  | append_singleton rest e ih =>
      obtain ⟨hrest, -, hlast⟩ := List.pairwise_append.mp h
      rw [List.foldl_append]
      exact (ih hrest).add (fun e' he' => hlast e' he' e List.mem_cons_self) e.2

end Reduction

theorem VersionRange.contains_iff {range : VersionRange} {v : Version} :
    range.contains v = true ↔
      range.minimum ≤ v ∧ ∀ maximum, range.maximum = some maximum → v ≤ maximum := by
  rw [VersionRange.contains]
  cases range.maximum <;> simp

theorem Corpus.within_ascending (corpus : Corpus) (range : VersionRange) :
    (corpus.within range).Pairwise (fun a b => a.1 < b.1) :=
  (Table.versions_ascending corpus).filter _

theorem Corpus.mem_within {corpus : Corpus} {range : VersionRange} {v : Version} {d : Document} :
    (v, d) ∈ corpus.within range ↔ corpus.get? v = some d ∧ range.contains v = true := by
  rw [Corpus.within, List.mem_filter, Table.get?_eq_some_iff]

theorem Corpus.eq_of_mem_within {corpus : Corpus} {range : VersionRange}
    (h : (v, d) ∈ corpus.within range) (h' : (v, d') ∈ corpus.within range) : d = d' :=
  Table.eq_of_mem (List.mem_filter.mp h).1 (List.mem_filter.mp h').1

theorem canonical_of_reduce {corpus : Corpus} {range : VersionRange} {reduction : Reduction}
    (h : reduce corpus range = .ok reduction) : reduction.Canonical (corpus.within range) := by
  rw [reduce] at h
  split at h
  · obtain rfl := Except.ok.inj h
    exact Reduction.canonical_foldl (corpus.within_ascending range)
  · cases h

theorem StandsFor.unique {corpus : Corpus} {range : VersionRange} {k' : Version}
    (h : StandsFor (corpus.within range) v k) (h' : StandsFor (corpus.within range) v k') :
    k = k' := by
  obtain ⟨d, hd, hk⟩ := h
  obtain ⟨d', hd', hk'⟩ := h'
  obtain rfl := Corpus.eq_of_mem_within hd hd'
  exact Option.some.inj (hk.symm.trans hk')

theorem Reduction.Canonical.same_document {reduction : Reduction}
    (h : reduction.Canonical entries) (hs : StandsFor entries v k) :
    ∃ d d', (v, d) ∈ entries ∧ (k, d') ∈ reduction.kept.entries ∧ (d' == d) = true := by
  obtain ⟨d, hd, hk⟩ := hs
  obtain ⟨d', hd', hsame⟩ := exists_of_firstWith? hk
  exact ⟨d, d', hd, (h.kept _).mpr ⟨hd', (firstWith?_congr hsame).trans hk⟩, hsame⟩

/-- Every version of a range stands for a kept version with the same document. -/
theorem Reduction.Canonical.exists_kept {corpus : Corpus} {range : VersionRange}
    {reduction : Reduction} (h : reduction.Canonical (corpus.within range))
    (hd : (v, d) ∈ corpus.within range) :
    ∃ k d', StandsFor (corpus.within range) v k ∧ (k, d') ∈ reduction.kept.entries ∧
      (d' == d) = true := by
  obtain ⟨k, hk⟩ := exists_firstWith? hd
  have hs : StandsFor (corpus.within range) v k := ⟨d, hd, hk⟩
  obtain ⟨d₁, d', hd₁, hkept, same⟩ := h.same_document hs
  obtain rfl := Corpus.eq_of_mem_within hd hd₁
  exact ⟨k, d', hs, hkept, same⟩

theorem Reduction.Canonical.stands_of_kept {reduction : Reduction}
    (h : reduction.Canonical entries) (hk : (k, d) ∈ reduction.kept.entries) :
    StandsFor entries k k :=
  ⟨d, (h.kept _).mp hk⟩

theorem Reduction.Canonical.not_contains_of_kept {corpus : Corpus} {range : VersionRange}
    {reduction : Reduction} (h : reduction.Canonical (corpus.within range))
    (hk : (k, d) ∈ reduction.kept.entries) : reduction.aliases.contains k = false := by
  refine eq_false_of_ne_true fun hcontains => ?_
  obtain ⟨j, hj⟩ := Table.contains_iff.mp hcontains
  obtain ⟨hne, hs⟩ := (h.aliases k j).mp hj
  exact hne ((h.stands_of_kept hk).unique hs)

/-- An alias and the smaller version that it stands for are considered, and the latter is not an
alias. -/
theorem Reduction.Canonical.alias_lt {corpus : Corpus} {range : VersionRange}
    {reduction : Reduction} (h : reduction.Canonical (corpus.within range)) {a k : Version}
    (he : (a, k) ∈ reduction.aliases.entries) :
    a ∈ reduction.considered ∧ k ∈ reduction.considered ∧ k < a ∧
      reduction.aliases.contains k = false := by
  obtain ⟨hne, hs⟩ := (h.aliases a k).mp he
  obtain ⟨d, d', hd, hkept, -⟩ := h.same_document hs
  have hle := hs.le (corpus.within_ascending range)
  rw [h.considered]
  exact ⟨List.mem_map_of_mem (f := Prod.fst) hd,
    List.mem_map_of_mem (f := Prod.fst) ((h.kept _).mp hkept).1,
    Nat.lt_of_le_of_ne hle (Ne.symm hne), h.not_contains_of_kept hkept⟩

theorem reduce_eq_error {corpus : Corpus} {range : VersionRange} {fault : Fault}
    (h : reduce corpus range = .error fault) : fault = .missingBaseVersion range.minimum := by
  rw [reduce] at h
  split at h
  · cases h
  · exact (Except.error.inj h).symm

end VersionGroups
