import Mathlib.Data.Finset.Card
import Mathlib.Data.List.Nodup
import VersionGroups.Proofs.Grouping.Calls
import VersionGroups.Proofs.Grouping.Decision

/-!
# How deep a comparison goes

A type that is expanded is neither open nor settled. It is open while it is looked into, and it is
settled afterwards if the comparison goes on. So what is left to expand only shrinks: every call has
fewer paths left than the calls that it is made in, and no path is expanded twice, however the types
refer to each other.
-/
namespace VersionGroups.Equivalence

/-- The tracked paths that are neither open nor settled. -/
def Frame.unmet (types : List TypeName) (left right : Version) (frame : Frame) : Finset String :=
  (types.map TypeName.path).toFinset.filter fun p =>
    ⟨p, left, right⟩ ∉ frame.visiting ∧ frame.settled.result? ⟨p, left, right⟩ = none

/-- What holds of the open and the settled comparisons wherever a comparison goes on. -/
structure Frame.Proper (types : List TypeName) (left right : Version) (frame : Frame) : Prop where
  distinct : frame.visiting.Nodup
  tracked : ∀ c ∈ frame.visiting, ∃ t ∈ types, c = ⟨t.path, left, right⟩
  unsettled : ∀ c ∈ frame.visiting, frame.settled.result? c = none
  affirmed : ∀ e ∈ frame.settled, e.2 = true

/-- A call is as deep as its open comparisons, and it has fewer paths left than any call that it is
made in. -/
structure Nested (types : List TypeName) (left right : Version) (callers : List Frame)
    (frame : Frame) : Prop where
  depth : callers.length = frame.visiting.length
  falling : (frame :: callers).Pairwise fun inner outer =>
    (inner.unmet types left right).card < (outer.unmet types left right).card

/-- Within the innermost of some calls there are no more paths left than in any of them. -/
structure Within (types : List TypeName) (left right : Version) (callers : List Frame)
    (frame : Frame) : Prop where
  depth : callers.length = frame.visiting.length + 1
  falling : callers.Pairwise fun inner outer =>
    (inner.unmet types left right).card < (outer.unmet types left right).card
  left_le : ∀ caller ∈ callers,
    (frame.unmet types left right).card ≤ (caller.unmet types left right).card

/-- What holds at each moment of a comparison. -/
def Moment.Lawful (types : List TypeName) (left right : Version) : Moment → Prop
  | .call callers frame _ _ =>
      frame.Proper types left right ∧ Nested types left right callers frame
  | .expand frame c => frame.Proper types left right ∧ c.path ∈ frame.unmet types left right

/-- Each moment of a part of a comparison is lawful, and the part expands only paths that are left
when it starts, and none of them twice. -/
structure Watched.Orderly {α : Type} (types : List TypeName) (left right : Version)
    (frame : Frame) (x : Watched α) : Prop where
  lawful : ∀ m ∈ x.moments, m.Lawful types left right
  unmet : ∀ p ∈ x.expanded, p ∈ frame.unmet types left right
  once : x.expanded.Nodup

/-- If an orderly part of a comparison affirms what it looks at, then what it has expanded is left
no more, and the comparison can go on. -/
structure Watched.Bounded (types : List TypeName) (left right : Version) (frame : Frame)
    (x : Watched (Bool × Settled)) : Prop extends x.Orderly types left right frame where
  proper : ∀ inside, x.result = .ok (true, inside) →
    Frame.Proper types left right ⟨frame.visiting, inside⟩
  rest : ∀ inside, x.result = .ok (true, inside) →
    ∀ p ∈ Frame.unmet types left right ⟨frame.visiting, inside⟩,
      p ∈ frame.unmet types left right ∧ p ∉ x.expanded

section
variable {types : List TypeName} {left right : Version} {frame : Frame} {callers : List Frame}
  {p : String} {inside : Settled}

theorem Frame.mem_unmet : p ∈ frame.unmet types left right ↔
    (∃ t ∈ types, t.path = p) ∧ ⟨p, left, right⟩ ∉ frame.visiting ∧
      frame.settled.result? ⟨p, left, right⟩ = none := by
  simp [unmet]

theorem Frame.unmet_push : (frame.push ⟨p, left, right⟩).unmet types left right =
    (frame.unmet types left right).erase p := by
  ext q
  simp only [mem_unmet, push, Finset.mem_erase, List.mem_append, List.mem_singleton]
  grind

theorem Frame.unmet_settle (same : Bool) :
    (frame.settle ⟨p, left, right⟩ same inside).unmet types left right =
      Frame.unmet types left right ⟨(frame.push ⟨p, left, right⟩).visiting, inside⟩ := by
  ext q
  simp only [mem_unmet, push, settle, result?_cons, List.mem_append, List.mem_singleton]
  grind

theorem Frame.Proper.push (h : frame.Proper types left right)
    (hp : p ∈ frame.unmet types left right) :
    (frame.push ⟨p, left, right⟩).Proper types left right := by
  obtain ⟨⟨t, ht, rfl⟩, hopen, hsettled⟩ := mem_unmet.mp hp
  refine ⟨?_, ?_, ?_, h.affirmed⟩
  · exact List.nodup_append.mpr ⟨h.distinct, List.nodup_singleton _, by grind⟩
  · intro c hc
    rcases List.mem_append.mp hc with hc | hc
    · exact h.tracked c hc
    · exact ⟨t, ht, List.mem_singleton.mp hc⟩
  · intro c hc
    rcases List.mem_append.mp hc with hc | hc
    · exact h.unsettled c hc
    · rw [List.mem_singleton.mp hc]
      exact hsettled

/-- A comparison that is affirmed is taken from the open ones to the settled ones. -/
theorem Frame.Proper.settle {c : Comparison}
    (h : Frame.Proper types left right ⟨(frame.push c).visiting, inside⟩) :
    (frame.settle c true inside).Proper types left right := by
  obtain ⟨hvisiting, -, hnew⟩ := List.nodup_append.mp h.distinct
  refine ⟨hvisiting, fun d hd => h.tracked d (List.mem_append_left _ hd), fun d hd => ?_, ?_⟩
  · have hne : c ≠ d := fun hcd => hnew d hd c List.mem_cons_self hcd.symm
    change Settled.result? ((c, true) :: inside) d = none
    rw [result?_cons, if_neg hne]
    exact h.unsettled d (List.mem_append_left _ hd)
  · exact List.forall_mem_cons.mpr ⟨rfl, h.affirmed⟩

/-- No more comparisons are open than there are tracked paths. -/
theorem Frame.Proper.length_le (h : frame.Proper types left right) :
    frame.visiting.length ≤ (types.map TypeName.path).toFinset.card := by
  have hpaths : (frame.visiting.map Comparison.path).Nodup := by
    refine h.distinct.map_on ?_
    intro c hc d hd hcd
    obtain ⟨t, -, rfl⟩ := h.tracked c hc
    obtain ⟨u, -, rfl⟩ := h.tracked d hd
    exact congrArg (Comparison.mk · left right) hcd
  rw [← List.length_map Comparison.path, ← List.toFinset_card_of_nodup hpaths]
  refine Finset.card_le_card ?_
  intro p hp
  obtain ⟨c, hc, rfl⟩ := List.mem_map.mp (List.mem_toFinset.mp hp)
  obtain ⟨t, ht, rfl⟩ := h.tracked c hc
  exact List.mem_toFinset.mpr (List.mem_map.mpr ⟨t, ht, rfl⟩)

theorem Nested.within (h : Nested types left right callers frame) :
    Within types left right (frame :: callers) frame := by
  refine ⟨by simp [h.depth], h.falling, ?_⟩
  intro caller hcaller
  rcases List.mem_cons.mp hcaller with rfl | hcaller
  · exact le_rfl
  · exact (List.rel_of_pairwise_cons h.falling hcaller).le

theorem Within.push (h : Within types left right callers frame)
    (hp : p ∈ frame.unmet types left right) :
    Nested types left right callers (frame.push ⟨p, left, right⟩) := by
  refine ⟨by simp [h.depth, Frame.push], List.pairwise_cons.mpr ⟨?_, h.falling⟩⟩
  intro caller hcaller
  rw [Frame.unmet_push]
  exact (Finset.card_erase_lt_of_mem hp).trans_le (h.left_le caller hcaller)

theorem Within.of_subset {after : Frame} (h : Within types left right callers frame)
    (hvisiting : after.visiting = frame.visiting)
    (hunmet : after.unmet types left right ⊆ frame.unmet types left right) :
    Within types left right callers after :=
  ⟨by rw [hvisiting, h.depth], h.falling,
    fun caller hcaller => (Finset.card_le_card hunmet).trans (h.left_le caller hcaller)⟩

namespace Watched

/-- A part that goes on with what is left after another one is orderly with it. -/
theorem Orderly.andThen {α β : Type} {x : Watched α} {y : Watched β} {later : Frame}
    (hx : x.Orderly types left right frame) (hy : y.Orderly types left right later)
    (hlater : ∀ p ∈ later.unmet types left right,
      p ∈ frame.unmet types left right ∧ p ∉ x.expanded) :
    (x.andThen y).Orderly types left right frame := by
  refine ⟨List.forall_mem_append.mpr ⟨hx.lawful, hy.lawful⟩, ?_, ?_⟩
  · rw [expanded_andThen]
    exact List.forall_mem_append.mpr ⟨hx.unmet, fun p hp => (hlater p (hy.unmet p hp)).1⟩
  · rw [expanded_andThen]
    refine hx.once.append hy.once fun p hp hp' => ?_
    exact (hlater p (hy.unmet p hp')).2 hp

/-- Opening a path that is left is orderly if what happens inside is. -/
theorem Orderly.expand {α : Type} {x : Watched α}
    (h : x.Orderly types left right (frame.push ⟨p, left, right⟩))
    (hframe : frame.Proper types left right) (hp : p ∈ frame.unmet types left right) :
    (x.after (.expand frame ⟨p, left, right⟩)).Orderly types left right frame := by
  have hexpanded : (x.after (.expand frame ⟨p, left, right⟩)).expanded = p :: x.expanded := rfl
  have hinside : ∀ q ∈ x.expanded, q ≠ p ∧ q ∈ frame.unmet types left right := by
    intro q hq
    have hleft := h.unmet q hq
    rw [Frame.unmet_push] at hleft
    exact Finset.mem_erase.mp hleft
  refine ⟨List.forall_mem_cons.mpr ⟨⟨hframe, hp⟩, h.lawful⟩, ?_, ?_⟩
  · rw [hexpanded]
    exact List.forall_mem_cons.mpr ⟨hp, fun q hq => (hinside q hq).2⟩
  · rw [hexpanded]
    exact List.nodup_cons.mpr ⟨fun hmem => (hinside p hmem).1 rfl, h.once⟩

variable {x : Watched (Bool × Settled)}

theorem Orderly.bounded (h : x.Orderly types left right frame)
    (hx : ∀ inside, x.result ≠ .ok (true, inside)) : x.Bounded types left right frame :=
  ⟨h, fun inside hresult => absurd hresult (hx inside),
    fun inside hresult => absurd hresult (hx inside)⟩

theorem Orderly.of_moments {α β : Type} {x : Watched α} {y : Watched β}
    (h : x.Orderly types left right frame) (hmoments : y.moments = x.moments) :
    y.Orderly types left right frame := by
  have hexpanded : y.expanded = x.expanded := congrArg (List.filterMap _) hmoments
  exact ⟨hmoments ▸ h.lawful, hexpanded ▸ h.unmet, hexpanded ▸ h.once⟩

theorem orderly_of_quiet (hx : x.moments = []) : x.Orderly types left right frame := by
  have hexpanded : x.expanded = [] := by simp [expanded, hx]
  exact ⟨by simp [hx], by simp [hexpanded], by simp [hexpanded]⟩

theorem bounded_affirmed (h : frame.Proper types left right) :
    (pure (true, frame.settled) : Watched (Bool × Settled)).Bounded types left right frame := by
  refine ⟨orderly_of_quiet rfl, ?_, ?_⟩
  · rintro _ ⟨⟩
    exact h
  · rintro _ ⟨⟩ p hp
    exact ⟨hp, List.not_mem_nil⟩

theorem bounded_denied (settled : Settled) :
    (pure (false, settled) : Watched (Bool × Settled)).Bounded types left right frame :=
  (orderly_of_quiet rfl).bounded (by rintro _ ⟨⟩)

theorem bounded_failed (fault : Fault) :
    (ofExcept (.error fault) : Watched (Bool × Settled)).Bounded types left right frame :=
  (orderly_of_quiet rfl).bounded (by rintro _ ⟨⟩)

theorem bounded_ofExcept_bind {α : Type} {result : Except Fault α}
    {f : α → Watched (Bool × Settled)} (h : ∀ a, (f a).Bounded types left right frame) :
    (ofExcept result >>= f).Bounded types left right frame := by
  cases result with
  | ok a => exact h a
  | error fault => exact bounded_failed fault

theorem Bounded.call (h : x.Bounded types left right frame) (hframe : frame.Proper types left right)
    (hnested : Nested types left right callers frame) (spec other : Json) :
    (x.after (.call callers frame spec other)).Bounded types left right frame :=
  ⟨⟨List.forall_mem_cons.mpr ⟨⟨hframe, hnested⟩, h.lawful⟩, h.unmet, h.once⟩, h.proper, h.rest⟩

/-- What is left when a path is settled is what was left before it was opened, less that path and
whatever was expanded inside it. -/
theorem Bounded.unmet_settle (h : x.Bounded types left right (frame.push ⟨p, left, right⟩))
    (hresult : x.result = .ok (true, inside)) {q : String}
    (hq : q ∈ (frame.settle ⟨p, left, right⟩ true inside).unmet types left right) :
    q ∈ frame.unmet types left right ∧ q ∉ p :: x.expanded := by
  rw [Frame.unmet_settle] at hq
  obtain ⟨hleft, hx⟩ := h.rest inside hresult q hq
  rw [Frame.unmet_push] at hleft
  obtain ⟨hne, hleft⟩ := Finset.mem_erase.mp hleft
  exact ⟨hleft, List.not_mem_cons_of_ne_of_not_mem hne hx⟩

/-- Expanding a path that is left, and going on if it is affirmed. -/
theorem Bounded.expand (next : Frame → Watched (Bool × Settled))
    (h : x.Bounded types left right (frame.push ⟨p, left, right⟩))
    (hframe : frame.Proper types left right) (hp : p ∈ frame.unmet types left right)
    (hnext : ∀ inside, let settled := frame.settle ⟨p, left, right⟩ true inside
      settled.Proper types left right →
      settled.unmet types left right ⊆ frame.unmet types left right →
      (next settled).Bounded types left right settled) :
    (x.after (.expand frame ⟨p, left, right⟩) >>= fun outcome =>
      if outcome.1 then next (frame.settle ⟨p, left, right⟩ outcome.1 outcome.2)
      else pure (false, (frame.settle ⟨p, left, right⟩ outcome.1 outcome.2).settled)).Bounded
        types left right frame := by
  have hopen := h.toOrderly.expand hframe hp
  rcases hresult : x.result with fault | ⟨_ | _, inside⟩
  · rw [bind_of_error (x := x.after _) hresult]
    exact Orderly.bounded (hopen.of_moments rfl) (by rintro _ ⟨⟩)
  · rw [bind_of_ok (x := x.after _) hresult]
    exact Orderly.bounded (hopen.of_moments (List.append_nil _)) (by rintro _ ⟨⟩)
  · rw [bind_of_ok (x := x.after _) hresult]
    -- what comes later starts with what the expansion has left
    have hlater := fun q => h.unmet_settle hresult (q := q)
    have hrest := hnext _ (h.proper inside hresult).settle fun q hq => (hlater q hq).1
    refine ⟨hopen.andThen hrest.toOrderly hlater, hrest.proper, fun last hlast q hq => ?_⟩
    obtain ⟨hq, hnew⟩ := hrest.rest last hlast q hq
    obtain ⟨hleft, hold⟩ := hlater q hq
    rw [expanded_andThen]
    refine ⟨hleft, fun hmem => ?_⟩
    rcases List.mem_append.mp hmem with hmem | hmem
    · exact hold hmem
    · exact hnew hmem

end Watched

theorem bounded_observeWithin {corpus : Corpus} {spec other : Json}
    (h : (observeTypes corpus types left right (frame :: callers) frame spec types
      (fun _ h => h)).Bounded types left right frame)
    (hframe : frame.Proper types left right) (hnested : Nested types left right callers frame) :
    (observeWithin corpus types left right callers frame spec other).Bounded types left right
      frame := by
  rw [observeWithin]
  refine Watched.Bounded.call ?_ hframe hnested spec other
  split
  · exact h
  · exact Watched.bounded_denied _

/-- Every part of a comparison is bounded. -/
theorem bounded_observeTypes (corpus : Corpus) (spec : Json) (pending : List TypeName)
    (tracked : ∀ t ∈ pending, t ∈ types) (hframe : frame.Proper types left right)
    (hcallers : Within types left right callers frame) :
    (observeTypes corpus types left right callers frame spec pending tracked).Bounded types left
      right frame := by
  induction callers, frame, spec, pending, tracked using
    observeTypes.induct types left right
      (fun callers frame spec other => frame.Proper types left right →
        Nested types left right callers frame →
        (observeWithin corpus types left right callers frame spec other).Bounded types left right
          frame) with
  | case1 callers frame spec other ih hframe hnested =>
      exact bounded_observeWithin (ih hframe hnested.within) hframe hnested
  | case2 callers frame spec tracked =>
      rw [observeTypes]
      exact Watched.bounded_affirmed hframe
  | case3 callers frame spec t rest tracked restTracked hm c hs _ ih =>
      rw [observeTypes_known tracked restTracked hm hs]
      exact ih hframe hcallers
  | case4 callers frame spec t rest tracked _ hm c hs =>
      rw [observeTypes_refuted tracked hm hs]
      exact Watched.bounded_denied _
  | case5 callers frame spec t rest tracked _ hm c hs loop hc =>
      rw [observeTypes_open tracked hm hs hc]
      exact Watched.bounded_failed _
  | case6 callers frame spec t rest tracked restTracked hm c hs hc _ inner next =>
      have hp : t.path ∈ frame.unmet types left right :=
        Frame.mem_unmet.mpr ⟨⟨t, tracked t List.mem_cons_self, rfl⟩, not_mem_of_cycleFrom? hc, hs⟩
      have hpush := hframe.push hp
      rw [observeTypes_unopened tracked restTracked hm hs hc]
      refine Watched.bounded_ofExcept_bind fun l => Watched.bounded_ofExcept_bind fun r => ?_
      -- the type is open in the call inside, and settled in what follows that
      refine Watched.Bounded.expand (observeTypes corpus types left right callers · spec rest
        restTracked) ?_ hframe hp fun inside hsettled hunmet => ?_
      · refine observeBodies_of_forall ?_ ?_ (fun a b => ?_) _ _
        · exact Watched.bounded_affirmed hpush
        · exact Watched.bounded_denied _
        · exact inner a b hpush (hcallers.push hp)
      · exact next true inside hsettled (hcallers.of_subset rfl hunmet)
  | case7 callers frame spec t rest tracked restTracked hm _ ih =>
      rw [observeTypes_unmentioned tracked restTracked (by simpa using hm)]
      exact ih hframe hcallers

end

section
variable (corpus : Corpus) (types : List TypeName) (left right : Version) (spec other : Json)

theorem bounded_observe :
    (observe corpus types left right spec other).Bounded types left right ⟨[], []⟩ := by
  have hframe : Frame.Proper types left right ⟨[], []⟩ := by constructor <;> simp
  have hnested : Nested types left right [] ⟨[], []⟩ := ⟨rfl, List.pairwise_singleton _ _⟩
  exact bounded_observeWithin (bounded_observeTypes corpus spec types _ hframe hnested.within)
    hframe hnested

/-- Wherever a call comes to a type, all that is settled is affirmed. -/
theorem Nested.affirmed {types : List TypeName} {left right : Version} {callers : List Frame}
    {frame now : Frame} {a b : Json} {t : TypeName} (h : Nested types left right callers frame)
    (hframe : frame.Proper types left right)
    (hcomes : Comes corpus types left right frame a b now t) : ∀ e ∈ now.settled, e.2 = true := by
  obtain ⟨before, -, tracked, -, hbefore⟩ := hcomes.affirmed
  have hbounded := bounded_observeTypes corpus a before tracked hframe h.within
  rw [← result_observeTypes corpus types left right (frame :: callers)] at hbefore
  exact (hbounded.proper now.settled hbefore).affirmed

/-- However the types of a corpus refer to each other: at every call of a comparison, and none is
left out, the open comparisons are distinct ones of tracked paths under the two versions, and none
of them is settled. Where a call comes to a type, all that is settled is affirmed. So a call has
strictly fewer paths left than the calls that it is made in, calls are nested no deeper than the
number of tracked paths and one, and no path is expanded twice. -/
theorem observe_bounded :
    let run := observe corpus types left right spec other
    run.result.map (·.1) = structural corpus types left spec right other ∧
      run.Complete corpus types left right spec other ∧
      (∀ callers frame a b, .call callers frame a b ∈ run.moments →
        frame.visiting.Nodup ∧
        (∀ c ∈ frame.visiting, ∃ t ∈ types, c = ⟨t.path, left, right⟩) ∧
        (∀ c ∈ frame.visiting, frame.settled.result? c = none) ∧
        (∀ now t, Comes corpus types left right frame a b now t →
          ∀ e ∈ now.settled, e.2 = true) ∧
        callers.length = frame.visiting.length ∧
        callers.length + 1 ≤ (types.map TypeName.path).toFinset.card + 1 ∧
        (frame :: callers).Pairwise fun inner outer =>
          (inner.unmet types left right).card < (outer.unmet types left right).card) ∧
      run.expanded.Nodup ∧ ∀ p ∈ run.expanded, ∃ t ∈ types, t.path = p := by
  intro run
  have hrun : run.Bounded types left right ⟨[], []⟩ :=
    bounded_observe corpus types left right spec other
  refine ⟨result_observe corpus types left right spec other, complete_observe, ?_, hrun.once, ?_⟩
  · intro callers frame a b hmem
    obtain ⟨hframe, hnested⟩ := hrun.lawful _ hmem
    have hdepth : callers.length ≤ (types.map TypeName.path).toFinset.card :=
      hnested.depth ▸ hframe.length_le
    exact ⟨hframe.distinct, hframe.tracked, hframe.unsettled,
      fun now t => hnested.affirmed corpus hframe, hnested.depth, by omega, hnested.falling⟩
  · intro p hp
    exact (Frame.mem_unmet.mp (hrun.unmet p hp)).1

end

/-- A definition that refers to the type `a`. -/
def selfSpec : Json := .obj [("type", .str "a")]

/-- A type that refers to itself, in one version. -/
def selfCorpus : Corpus := .ofList [(1, ⟨.obj [("types", .obj [("a", selfSpec)])]⟩)]

/-- The call that looks into a type which refers to itself is as deep as a call can be, and has
fewer paths left than the first one. -/
theorem observe_bounded_self : ∃ first second : Frame,
    .call [first] second selfSpec selfSpec ∈
        (observe selfCorpus [⟨.common, "a"⟩] 1 1 selfSpec selfSpec).moments ∧
      second.visiting.length = ([⟨.common, "a"⟩].map TypeName.path).toFinset.card ∧
      (second.unmet [⟨.common, "a"⟩] 1 1).card < (first.unmet [⟨.common, "a"⟩] 1 1).card := by
  obtain ⟨-, hcomplete, hcalls, -⟩ :=
    observe_bounded selfCorpus [⟨.common, "a"⟩] 1 1 selfSpec selfSpec
  have hcomes : Comes selfCorpus [⟨.common, "a"⟩] 1 1 ⟨[], []⟩ selfSpec selfSpec ⟨[], []⟩
      ⟨.common, "a"⟩ :=
    ⟨rfl, ⟨[], [], by simp, rfl, by rw [compareTypes]⟩, rfl, rfl⟩
  have htells := hcomplete.inside hcomplete.first hcomes rfl rfl ⟨rfl, rfl⟩
  have hmem := htells.calls selfSpec selfSpec rfl rfl
  obtain ⟨-, -, -, -, -, -, hfalling⟩ := hcalls _ _ _ _ hmem
  exact ⟨_, _, hmem, rfl, List.rel_of_pairwise_cons hfalling List.mem_cons_self⟩

end VersionGroups.Equivalence
