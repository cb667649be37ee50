import VersionGroups.Proofs.Grouping.Reference

/-!
# Searches through the references of a definition

The comparison of the types that a definition mentions, as a relation with one rule for each way in
which a search can go on or end. Every run of the comparison over two versions of a corpus is a
search over their documents, so what holds of all searches holds of every run.
-/
namespace VersionGroups.Equivalence

/-- The comparison of a type under the versions of two views. -/
def comparison (left right : View) (t : TypeName) : Comparison :=
  ⟨t.path, left.version, right.version⟩

/-- A type that is neither settled nor open. -/
structure Fresh (c : Comparison) (visiting : List Comparison) (settled : Settled) : Prop where
  unsettled : settled.result? c = none
  unopened : cycleFrom? c visiting = none

/-- `Search types left right visiting spec settled pending result` says that going through the
pending types of a definition inside open comparisons comes to a result. -/
inductive Search (types : List TypeName) (left right : View) :
    List Comparison → Json → Settled → List TypeName → Except Fault (Bool × Settled) → Prop
  | done {visiting spec settled} :
      Search types left right visiting spec settled [] (.ok (true, settled))
  | skip {visiting spec settled t rest result} (hm : t.isMentionedIn spec = false)
      (next : Search types left right visiting spec settled rest result) :
      Search types left right visiting spec settled (t :: rest) result
  | known {visiting spec settled t rest result} (hm : t.isMentionedIn spec = true)
      (hs : settled.result? (comparison left right t) = some true)
      (next : Search types left right visiting spec settled rest result) :
      Search types left right visiting spec settled (t :: rest) result
  | refuted {visiting spec settled t rest} (hm : t.isMentionedIn spec = true)
      (hs : settled.result? (comparison left right t) = some false) :
      Search types left right visiting spec settled (t :: rest) (.ok (false, settled))
  | cycle {visiting spec settled t rest loop} (hm : t.isMentionedIn spec = true)
      (hs : settled.result? (comparison left right t) = none)
      (hc : cycleFrom? (comparison left right t) visiting = some loop) :
      Search types left right visiting spec settled (t :: rest)
        (.error (.typeCycle ((loop ++ [comparison left right t]).map Comparison.label)))
  | absent {visiting spec settled t rest result} (hm : t.isMentionedIn spec = true)
      (hf : Fresh (comparison left right t) visiting settled)
      (hl : left.typeSpec? t = none) (hr : right.typeSpec? t = none)
      (next : Search types left right visiting spec
        ((comparison left right t, true) :: settled) rest result) :
      Search types left right visiting spec settled (t :: rest) result
  | differ {visiting spec settled t rest} (hm : t.isMentionedIn spec = true)
      (hf : Fresh (comparison left right t) visiting settled) (ha : ¬ Agree left right t) :
      Search types left right visiting spec settled (t :: rest)
        (.ok (false, (comparison left right t, false) :: settled))
  | inside {visiting spec settled t rest result a b settled'} (hm : t.isMentionedIn spec = true)
      (hf : Fresh (comparison left right t) visiting settled)
      (hl : left.typeSpec? t = some a) (hr : right.typeSpec? t = some b) (hab : (a == b) = true)
      (inner : Search types left right (visiting ++ [comparison left right t]) a settled types
        (.ok (true, settled')))
      (next : Search types left right visiting spec
        ((comparison left right t, true) :: settled') rest result) :
      Search types left right visiting spec settled (t :: rest) result
  | insideFalse {visiting spec settled t rest a b settled'} (hm : t.isMentionedIn spec = true)
      (hf : Fresh (comparison left right t) visiting settled)
      (hl : left.typeSpec? t = some a) (hr : right.typeSpec? t = some b) (hab : (a == b) = true)
      (inner : Search types left right (visiting ++ [comparison left right t]) a settled types
        (.ok (false, settled'))) :
      Search types left right visiting spec settled (t :: rest)
        (.ok (false, (comparison left right t, false) :: settled'))
  | insideError {visiting spec settled t rest a b fault} (hm : t.isMentionedIn spec = true)
      (hf : Fresh (comparison left right t) visiting settled)
      (hl : left.typeSpec? t = some a) (hr : right.typeSpec? t = some b) (hab : (a == b) = true)
      (inner : Search types left right (visiting ++ [comparison left right t]) a settled types
        (.error fault)) :
      Search types left right visiting spec settled (t :: rest) (.error fault)

theorem view_of_get? {corpus : Corpus} {v : View}
    (h : corpus.get? v.version = some v.document) : view corpus v.version = .ok v := by
  simp [view, h]

theorem agree_of_some {left right : View} {t : TypeName} {a b : Json}
    (hl : left.typeSpec? t = some a) (hr : right.typeSpec? t = some b) :
    Agree left right t ↔ (a == b) = true := by
  simp [Agree, hl, hr]

section
variable {corpus : Corpus} {types : List TypeName} {left right : View}
  (hleft : corpus.get? left.version = some left.document)
  (hright : corpus.get? right.version = some right.document)
include hleft hright

/-- What comparing a fresh type comes to, over two versions of the corpus. -/
theorem compareTypes_fresh {visiting : List Comparison} {spec : Json} {settled : Settled}
    {t : TypeName} {rest : List TypeName} (tracked : ∀ u ∈ t :: rest, u ∈ types)
    (restTracked : ∀ u ∈ rest, u ∈ types) (hm : t.isMentionedIn spec = true)
    (hf : Fresh (comparison left right t) visiting settled) :
    compareTypes corpus types left.version right.version visiting spec settled (t :: rest)
        tracked =
      (match left.typeSpec? t, right.typeSpec? t with
      | none, none => pure (true, settled)
      | some a, some b =>
          compareWithin corpus types left.version right.version
            (visiting ++ [comparison left right t]) a b settled
      | _, _ => pure (false, settled)) >>= fun outcome =>
        if outcome.1 then
          compareTypes corpus types left.version right.version visiting spec
            ((comparison left right t, outcome.1) :: outcome.2) rest restTracked
        else pure (false, (comparison left right t, outcome.1) :: outcome.2) := by
  have hs := hf.unsettled
  have hc := hf.unopened
  simp only [comparison] at hs hc
  rw [compareTypes, if_pos hm]
  simp only [hs]
  split
  · rename_i loop hloop
    rw [hc] at hloop
    cases hloop
  · rw [view_of_get? hleft, view_of_get? hright]
    simp only [bind, Except.bind]
    cases left.typeSpec? t <;> cases right.typeSpec? t <;> rfl

/-- Comparing the pending types over two versions of a corpus is a search. -/
theorem search_compareTypes (visiting : List Comparison) (spec : Json) (settled : Settled)
    (pending : List TypeName) (tracked : ∀ t ∈ pending, t ∈ types) :
    Search types left right visiting spec settled pending
      (compareTypes corpus types left.version right.version visiting spec settled pending
        tracked) := by
  induction visiting, spec, settled, pending, tracked using
    compareTypes.induct types left.version right.version
      (fun visiting spec other settled => (spec == other) = true →
        Search types left right visiting spec settled types
          (compareWithin corpus types left.version right.version visiting spec other settled)) with
  | case1 visiting spec other settled same ih =>
      rw [compareWithin, if_pos same]
      exact ih
  | case2 visiting spec other settled differ same => exact absurd same differ
  | case3 visiting spec settled tracked =>
      rw [compareTypes]
      exact .done
  | case4 visiting spec settled t rest tracked restTracked hm c hs _ ih =>
      rw [compareTypes, if_pos hm]
      simp only [c] at hs
      simp only [hs]
      exact .known hm hs ih
  | case5 visiting spec settled t rest tracked _ hm c hs =>
      rw [compareTypes, if_pos hm]
      simp only [c] at hs
      simp only [hs]
      exact .refuted hm hs
  | case6 visiting spec settled t rest tracked _ hm c hs loop hc =>
      rw [compareTypes, if_pos hm]
      simp only [c] at hs hc
      simp only [hs]
      split
      · rename_i found hfound
        obtain rfl := Option.some.inj (hc.symm.trans hfound)
        exact .cycle hm hs hc
      · rename_i hfound
        rw [hc] at hfound
        cases hfound
  | case7 visiting spec settled t rest tracked restTracked hm c hs hc _ next inner =>
      have hf : Fresh (comparison left right t) visiting settled := ⟨hs, hc⟩
      rw [compareTypes_fresh hleft hright tracked restTracked hm hf]
      cases hl : left.typeSpec? t with
      | none =>
          cases hr : right.typeSpec? t with
          | none => exact .absent hm hf hl hr (next true settled)
          | some b => exact .differ hm hf (by simp [Agree, hl, hr])
      | some a =>
          cases hr : right.typeSpec? t with
          | none => exact .differ hm hf (by simp [Agree, hl, hr])
          | some b =>
              dsimp only
              by_cases hab : (a == b) = true
              · have hin : Search types left right (visiting ++ [comparison left right t]) a settled
                    types (compareWithin corpus types left.version right.version
                      (visiting ++ [comparison left right t]) a b settled) := inner a b hab
                generalize compareWithin corpus types left.version right.version
                  (visiting ++ [comparison left right t]) a b settled = outcome at hin ⊢
                rcases outcome with fault | ⟨_ | _, settled'⟩
                · exact .insideError hm hf hl hr hab hin
                · exact .insideFalse hm hf hl hr hab hin
                · exact .inside hm hf hl hr hab hin (next true settled')
              · rw [compareWithin, if_neg hab]
                exact .differ hm hf (by simpa [agree_of_some hl hr] using hab)
  | case8 visiting spec settled t rest tracked restTracked hm _ ih =>
      rw [compareTypes, if_neg hm]
      exact .skip (by simpa using hm) ih

/-- Whether two definitions are equivalent is decided by a search, if they are the same. -/
theorem structural_eq_search (spec other : Json) :
    ((spec == other) = true ∧ ∃ result, Search types left right [] spec [] types result ∧
        structural corpus types left.version spec right.version other = result.map (·.1)) ∨
      ((spec == other) = false ∧
        structural corpus types left.version spec right.version other = .ok false) := by
  cases h : spec == other with
  | true =>
      refine .inl ⟨rfl, _, search_compareTypes hleft hright [] spec [] types (fun _ h => h), ?_⟩
      rw [structural, compareWithin, if_pos h]
  | false =>
      refine .inr ⟨rfl, ?_⟩
      rw [structural, compareWithin, if_neg (by simp [h])]
      rfl

end

end VersionGroups.Equivalence
