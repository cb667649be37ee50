import VersionGroups.Proofs.Grouping.Search

/-!
# The outcome of a comparison

A search has one outcome, the one that the comparison computes. The rules of a search mention the
two documents and no other part of a corpus, so a comparison comes out alike over any two corpora
that have the same documents under the two versions.
-/
namespace VersionGroups.Equivalence

section
variable {corpus : Corpus} {types : List TypeName} {left right : View}
  (hleft : corpus.get? left.version = some left.document)
  (hright : corpus.get? right.version = some right.document)
include hleft hright

/-- Every search comes to what the comparison of the pending types computes. -/
theorem compareTypes_of_search {visiting : List Comparison} {spec : Json} {settled : Settled}
    {pending : List TypeName} {result : Except Fault (Bool × Settled)}
    (h : Search types left right visiting spec settled pending result)
    (tracked : ∀ t ∈ pending, t ∈ types) :
    compareTypes corpus types left.version right.version visiting spec settled pending tracked =
      result := by
  induction h with
  | done => rw [compareTypes]
  | skip hm _ ih =>
      rw [compareTypes, if_neg (by simp [hm])]
      exact ih _
  | known hm hs _ ih =>
      rw [compareTypes, if_pos hm]
      simp only [comparison] at hs
      simp only [hs]
      exact ih _
  | refuted hm hs =>
      rw [compareTypes, if_pos hm]
      simp only [comparison] at hs
      simp only [hs]
  | cycle hm hs hc =>
      rw [compareTypes, if_pos hm]
      simp only [comparison] at hs hc
      simp only [hs]
      split
      · rename_i found hfound
        obtain rfl := Option.some.inj (hc.symm.trans hfound)
        rfl
      · rename_i hfound
        rw [hc] at hfound
        cases hfound
  | absent hm hf hl hr _ ih =>
      have restTracked := (List.forall_mem_cons.mp tracked).2
      rw [compareTypes_fresh hleft hright tracked restTracked hm hf, hl, hr]
      exact ih restTracked
  | @differ visiting spec settled t rest hm hf ha =>
      have restTracked := (List.forall_mem_cons.mp tracked).2
      rw [compareTypes_fresh hleft hright tracked restTracked hm hf]
      cases hl : left.typeSpec? t with
      | none =>
          cases hr : right.typeSpec? t with
          | none => exact absurd (by simp [Agree, hl, hr]) ha
          | some b => rfl
      | some a =>
          cases hr : right.typeSpec? t with
          | none => rfl
          | some b =>
              rw [agree_of_some hl hr] at ha
              dsimp only
              rw [compareWithin, if_neg ha]
              rfl
  | inside hm hf hl hr hab _ _ inner next =>
      have restTracked := (List.forall_mem_cons.mp tracked).2
      rw [compareTypes_fresh hleft hright tracked restTracked hm hf, hl, hr]
      dsimp only
      rw [compareWithin, if_pos hab, inner]
      exact next restTracked
  | insideFalse hm hf hl hr hab _ inner =>
      have restTracked := (List.forall_mem_cons.mp tracked).2
      rw [compareTypes_fresh hleft hright tracked restTracked hm hf, hl, hr]
      dsimp only
      rw [compareWithin, if_pos hab, inner]
      rfl
  | insideError hm hf hl hr hab _ inner =>
      have restTracked := (List.forall_mem_cons.mp tracked).2
      rw [compareTypes_fresh hleft hright tracked restTracked hm hf, hl, hr]
      dsimp only
      rw [compareWithin, if_pos hab, inner]
      rfl

theorem structural_of_search {spec other : Json} {result : Except Fault (Bool × Settled)}
    (same : (spec == other) = true) (h : Search types left right [] spec [] types result) :
    structural corpus types left.version spec right.version other = result.map (·.1) := by
  rw [structural, compareWithin, if_pos same, compareTypes_of_search hleft hright h]

theorem structural_congr {corpus' : Corpus}
    (hleft' : corpus'.get? left.version = some left.document)
    (hright' : corpus'.get? right.version = some right.document) (spec other : Json) :
    structural corpus types left.version spec right.version other =
      structural corpus' types left.version spec right.version other := by
  rcases structural_eq_search hleft' hright' spec other with
    ⟨same, result, hsearch, heq⟩ | ⟨hne, heq⟩
  · rw [heq, structural_of_search hleft hright same hsearch]
  · rw [heq, structural, compareWithin, if_neg (by simp [hne])]
    rfl

end

end VersionGroups.Equivalence
