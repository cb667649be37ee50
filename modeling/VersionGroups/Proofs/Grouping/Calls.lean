import VersionGroups.Proofs.Grouping.Search
import VersionGroups.Proofs.Grouping.Watched
import VersionGroups.Proofs.Results

/-!
# The calls of a comparison

A call looks at the types that its definition mentions one after the other, and it comes to a type
if all types before it are affirmed. A type that is neither open nor settled by then is expanded,
and if both versions define it, a call is made for the two definitions. A watched comparison tells
of all that: of its first call and, with each call, of everything that the call leads to.
-/
namespace VersionGroups.Equivalence

/-- A call that starts with a frame comes to a type, which its definition mentions, once it has
affirmed all types before that. -/
structure Comes (corpus : Corpus) (types : List TypeName) (left right : Version) (frame : Frame)
    (spec other : Json) (now : Frame) (t : TypeName) : Prop where
  same : (spec == other) = true
  affirmed : ∃ (before after : List TypeName) (tracked : ∀ u ∈ before, u ∈ types),
    types = before ++ t :: after ∧
      compareTypes corpus types left right frame.visiting spec frame.settled before tracked =
        .ok (true, now.settled)
  visiting : now.visiting = frame.visiting
  mentioned : t.isMentionedIn spec = true

/-- That a type is expanded is told, and the call for its definitions if both versions have one. -/
structure Watched.Tells {α : Type} (callers : List Frame) (now : Frame) (left right : View)
    (t : TypeName) (x : Watched α) : Prop where
  expands : .expand now (comparison left right t) ∈ x.moments
  calls : ∀ a b, left.typeSpec? t = some a → right.typeSpec? t = some b →
    .call callers (now.push (comparison left right t)) a b ∈ x.moments

/-- All calls and expansions of a comparison are told. -/
structure Watched.Complete {α : Type} (corpus : Corpus) (types : List TypeName)
    (left right : Version) (spec other : Json) (run : Watched α) : Prop where
  first : .call [] ⟨[], []⟩ spec other ∈ run.moments
  inside : ∀ {callers frame a b now t l r}, .call callers frame a b ∈ run.moments →
    Comes corpus types left right frame a b now t →
    view corpus left = .ok l → view corpus right = .ok r →
    Fresh (comparison l r t) now.visiting now.settled → run.Tells (frame :: callers) now l r t

variable {corpus : Corpus} {types : List TypeName} {left right : Version} {spec other : Json}
  {callers : List Frame} {frame : Frame} {settled : Settled} {t : TypeName}
  {before rest : List TypeName}

namespace Watched
variable {α β : Type} {x : Watched α} {f : α → Watched β}

theorem result_bind_eq_ok {b : β} :
    (x >>= f).result = .ok b ↔ ∃ a, x.result = .ok a ∧ (f a).result = .ok b := by
  rw [result_bind, bind_eq_ok]

theorem subset_bind {moments : List Moment} (h : moments ⊆ x.moments) :
    moments ⊆ (x >>= f).moments := by
  cases hx : x.result with
  | ok a =>
      rw [bind_of_ok hx]
      exact List.subset_append_of_subset_left _ h
  | error fault =>
      rw [bind_of_error hx]
      exact h

theorem subset_bind_of_ok {moments : List Moment} {a : α} (hx : x.result = .ok a)
    (h : moments ⊆ (f a).moments) : moments ⊆ (x >>= f).moments := by
  rw [bind_of_ok hx]
  exact List.subset_append_of_subset_right _ h

theorem subset_after {moments : List Moment} (m : Moment) (h : moments ⊆ x.moments) :
    moments ⊆ (x.after m).moments :=
  List.subset_cons_of_subset m h

end Watched

/-- If a type is affirmed, then looking at the types after it goes on from a frame of its own. -/
theorem observeTypes_affirmed {u : TypeName} (tracked : ∀ v ∈ u :: before, v ∈ types)
    (h : (observeTypes corpus types left right callers frame spec (u :: before) tracked).result =
      .ok (true, settled)) :
    ∃ next : Frame, next.visiting = frame.visiting ∧
      (∀ tracked, (observeTypes corpus types left right callers next spec before tracked).result =
        .ok (true, settled)) ∧
      ∀ later tracked' laterTracked,
        (observeTypes corpus types left right callers next spec later laterTracked).moments ⊆
          (observeTypes corpus types left right callers frame spec (u :: later)
            tracked').moments := by
  have htail := (List.forall_mem_cons.mp tracked).2
  cases hm : u.isMentionedIn spec with
  | false =>
      rw [observeTypes_unmentioned _ htail hm] at h
      refine ⟨frame, rfl, fun _ => h, fun later tracked' laterTracked => ?_⟩
      rw [observeTypes_unmentioned tracked' laterTracked hm]
      exact List.Subset.refl _
  | true =>
      cases hs : frame.settled.result? ⟨u.path, left, right⟩ with
      | some same =>
          cases same with
          | true =>
              rw [observeTypes_known _ htail hm hs] at h
              refine ⟨frame, rfl, fun _ => h, fun later tracked' laterTracked => ?_⟩
              rw [observeTypes_known tracked' laterTracked hm hs]
              exact List.Subset.refl _
          | false =>
              rw [observeTypes_refuted _ hm hs] at h
              cases h
      | none =>
          cases hc : cycleFrom? ⟨u.path, left, right⟩ frame.visiting with
          | some loop =>
              rw [observeTypes_open _ hm hs hc] at h
              cases h
          | none =>
              rw [observeTypes_unopened _ htail hm hs hc] at h
              obtain ⟨l, hl, h⟩ := Watched.result_bind_eq_ok.mp h
              obtain ⟨r, hr, h⟩ := Watched.result_bind_eq_ok.mp h
              obtain ⟨⟨_ | _, inside⟩, hbodies, h⟩ := Watched.result_bind_eq_ok.mp h
              · cases h
              · refine ⟨frame.settle ⟨u.path, left, right⟩ true inside, rfl, fun _ => h,
                  fun later tracked' laterTracked => ?_⟩
                rw [observeTypes_unopened tracked' laterTracked hm hs hc]
                refine Watched.subset_bind_of_ok hl (Watched.subset_bind_of_ok hr ?_)
                exact Watched.subset_bind_of_ok hbodies (List.Subset.refl _)

/-- Looking at more types goes on from where looking at the first ones has led. -/
theorem subset_observeTypes (tracked : ∀ u ∈ before ++ rest, u ∈ types)
    (beforeTracked : ∀ u ∈ before, u ∈ types) (restTracked : ∀ u ∈ rest, u ∈ types)
    (h : (observeTypes corpus types left right callers frame spec before beforeTracked).result =
      .ok (true, settled)) :
    (observeTypes corpus types left right callers ⟨frame.visiting, settled⟩ spec rest
        restTracked).moments ⊆
      (observeTypes corpus types left right callers frame spec (before ++ rest)
        tracked).moments := by
  induction before generalizing frame with
  | nil =>
      rw [observeTypes] at h
      obtain rfl : frame.settled = settled := congrArg Prod.snd (Except.ok.inj h)
      exact List.Subset.refl _
  | cons u before ih =>
      obtain ⟨next, hvisiting, hresult, hsubset⟩ := observeTypes_affirmed beforeTracked h
      have hall : ∀ v ∈ before ++ rest, v ∈ types := (List.forall_mem_cons.mp tracked).2
      have hnext := ih hall (List.forall_mem_cons.mp beforeTracked).2 (hresult _)
      rw [hvisiting] at hnext
      exact List.Subset.trans hnext (hsubset (before ++ rest) tracked hall)

theorem Watched.Tells.mono {α β : Type} {x : Watched α} {y : Watched β} {now : Frame} {l r : View}
    (h : x.Tells callers now l r t) (hsubset : x.moments ⊆ y.moments) :
    y.Tells callers now l r t :=
  ⟨hsubset h.expands, fun a b ha hb => hsubset (h.calls a b ha hb)⟩

theorem version_of_view {v : Version} {l : View} (h : view corpus v = .ok l) : l.version = v := by
  rw [view] at h
  split at h
  · cases h
    rfl
  · cases h

/-- A type that is neither open nor settled is expanded, and a call is made for its definitions. -/
theorem tells_observeTypes {l r : View} (tracked : ∀ u ∈ t :: rest, u ∈ types)
    (hm : t.isMentionedIn spec = true) (hl : view corpus left = .ok l)
    (hr : view corpus right = .ok r)
    (hf : Fresh (comparison l r t) frame.visiting frame.settled) :
    (observeTypes corpus types left right callers frame spec (t :: rest) tracked).Tells callers
      frame l r t := by
  obtain rfl := version_of_view hl
  obtain rfl := version_of_view hr
  rw [observeTypes_unopened _ (List.forall_mem_cons.mp tracked).2 hm hf.unsettled hf.unopened]
  have hbodies : ((observeBodies corpus types l.version r.version callers frame t (l.typeSpec? t)
      (r.typeSpec? t)).after (.expand frame (comparison l r t))).Tells callers frame l r t := by
    refine ⟨List.mem_cons_self, fun a b ha hb => List.mem_cons_of_mem _ ?_⟩
    rw [ha, hb, observeBodies, observeWithin]
    exact List.mem_cons_self
  refine hbodies.mono (Watched.subset_bind_of_ok hl (Watched.subset_bind_of_ok hr ?_))
  exact Watched.subset_bind (List.Subset.refl _)

/-- With a call, all that happens in the call is told. -/
def Watched.Unfolds {α : Type} (corpus : Corpus) (types : List TypeName) (left right : Version)
    (x : Watched α) : Prop :=
  ∀ callers frame a b, .call callers frame a b ∈ x.moments →
    (observeWithin corpus types left right callers frame a b).moments ⊆ x.moments

namespace Watched
variable {α β : Type} {x : Watched α} {f : α → Watched β}

theorem Unfolds.bind (hx : x.Unfolds corpus types left right)
    (hf : ∀ a, (f a).Unfolds corpus types left right) :
    (x >>= f).Unfolds corpus types left right := by
  intro callers frame a b hmem
  cases hresult : x.result with
  | error fault =>
      rw [bind_of_error hresult] at hmem
      exact subset_bind (hx _ _ _ _ hmem)
  | ok o =>
      rw [bind_of_ok hresult] at hmem
      rcases List.mem_append.mp hmem with hmem | hmem
      · exact subset_bind (hx _ _ _ _ hmem)
      · exact subset_bind_of_ok hresult (hf o _ _ _ _ hmem)

theorem unfolds_of_quiet (hx : x.moments = []) : x.Unfolds corpus types left right := by
  intro callers frame a b hmem
  rw [hx] at hmem
  cases hmem

theorem Unfolds.expand (hx : x.Unfolds corpus types left right) (now : Frame) (c : Comparison) :
    (x.after (.expand now c)).Unfolds corpus types left right := by
  intro callers frame a b hmem
  rcases List.mem_cons.mp hmem with hmem | hmem
  · cases hmem
  · exact subset_after _ (hx _ _ _ _ hmem)

end Watched

theorem unfolds_observeWithin
    (h : (observeTypes corpus types left right (frame :: callers) frame spec types
      (fun _ h => h)).Unfolds corpus types left right) :
    (observeWithin corpus types left right callers frame spec other).Unfolds corpus types left
      right := by
  intro callers' frame' a b hmem
  have hcall : observeWithin corpus types left right callers frame spec other =
      (if spec == other then observeTypes corpus types left right (frame :: callers) frame spec
        types (fun _ h => h) else pure (false, frame.settled)).after
          (.call callers frame spec other) := by rw [observeWithin]
  rw [hcall] at hmem
  rcases List.mem_cons.mp hmem with hmem | hmem
  · cases hmem
    exact List.Subset.refl _
  · rw [hcall]
    refine Watched.subset_after _ ?_
    by_cases hsame : (spec == other) = true
    · rw [if_pos hsame] at hmem ⊢
      exact h _ _ _ _ hmem
    · rw [if_neg hsame] at hmem
      cases hmem

theorem unfolds_observeTypes (spec : Json) (pending : List TypeName)
    (tracked : ∀ u ∈ pending, u ∈ types) :
    (observeTypes corpus types left right callers frame spec pending tracked).Unfolds corpus types
      left right := by
  induction callers, frame, spec, pending, tracked using
    observeTypes.induct types left right
      (fun callers frame spec other =>
        (observeWithin corpus types left right callers frame spec other).Unfolds corpus types left
          right) with
  | case1 callers frame spec other ih => exact unfolds_observeWithin ih
  | case2 callers frame spec tracked =>
      rw [observeTypes]
      exact Watched.unfolds_of_quiet rfl
  | case3 callers frame spec t rest tracked restTracked hm c hs _ ih =>
      rw [observeTypes_known tracked restTracked hm hs]
      exact ih
  | case4 callers frame spec t rest tracked _ hm c hs =>
      rw [observeTypes_refuted tracked hm hs]
      exact Watched.unfolds_of_quiet rfl
  | case5 callers frame spec t rest tracked _ hm c hs loop hc =>
      rw [observeTypes_open tracked hm hs hc]
      exact Watched.unfolds_of_quiet rfl
  | case6 callers frame spec t rest tracked restTracked hm c hs hc _ inner next =>
      rw [observeTypes_unopened tracked restTracked hm hs hc]
      refine (Watched.unfolds_of_quiet rfl).bind fun l =>
        (Watched.unfolds_of_quiet rfl).bind fun r => ?_
      refine (Watched.Unfolds.expand ?_ _ _).bind fun outcome => ?_
      · exact observeBodies_of_forall (Watched.unfolds_of_quiet rfl) (Watched.unfolds_of_quiet rfl)
          inner _ _
      · split
        · exact next _ _
        · exact Watched.unfolds_of_quiet rfl
  | case7 callers frame spec t rest tracked restTracked hm _ ih =>
      rw [observeTypes_unmentioned tracked restTracked (by simpa using hm)]
      exact ih

theorem Comes.tells {now : Frame} {a b : Json} {l r : View}
    (h : Comes corpus types left right frame a b now t) (hl : view corpus left = .ok l)
    (hr : view corpus right = .ok r) (hf : Fresh (comparison l r t) now.visiting now.settled) :
    (observeWithin corpus types left right callers frame a b).Tells (frame :: callers) now l r
      t := by
  obtain ⟨before, after, beforeTracked, rfl, haffirmed⟩ := h.affirmed
  have restTracked : ∀ u ∈ t :: after, u ∈ before ++ t :: after :=
    fun u hu => List.mem_append_right before hu
  have hbefore : (observeTypes corpus (before ++ t :: after) left right (frame :: callers) frame a
      before beforeTracked).result = .ok (true, now.settled) := by
    rw [result_observeTypes, haffirmed]
  have hnow : (⟨frame.visiting, now.settled⟩ : Frame) = now := by rw [← h.visiting]
  refine (tells_observeTypes restTracked h.mentioned hl hr hf).mono ?_
  rw [observeWithin, if_pos h.same, ← hnow]
  exact Watched.subset_after _ (subset_observeTypes _ beforeTracked restTracked hbefore)

theorem complete_observe :
    (observe corpus types left right spec other).Complete corpus types left right spec other where
  first := by
    rw [observe, observeWithin]
    exact List.mem_cons_self
  inside {callers frame a b now t l r} hmem hcomes hl hr hf := by
    have hunfolds : (observe corpus types left right spec other).Unfolds corpus types left right :=
      unfolds_observeWithin (unfolds_observeTypes spec types _)
    exact (hcomes.tells hl hr hf).mono (hunfolds callers frame a b hmem)

end VersionGroups.Equivalence
