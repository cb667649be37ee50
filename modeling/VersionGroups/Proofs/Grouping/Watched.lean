import VersionGroups.Grouping.Equivalence

/-!
# Watching a comparison

A comparison that is watched tells of its calls, and of each type that it expands, that is, looks
into under both versions. It goes the same way as the plain one and comes to the same result.
-/
namespace VersionGroups.Equivalence

/-- The open and the settled comparisons at some point of a comparison. -/
structure Frame where
  visiting : List Comparison
  settled : Settled

namespace Frame

def push (frame : Frame) (c : Comparison) : Frame :=
  { frame with visiting := frame.visiting ++ [c] }

/-- The frame after a comparison is finished, with what was settled inside it. -/
def settle (frame : Frame) (c : Comparison) (same : Bool) (inside : Settled) : Frame :=
  { frame with settled := (c, same) :: inside }

end Frame

/-- What a watched comparison tells of. A call names the frames of the calls that it is made in,
from the innermost one to the first, its own frame and what it compares. -/
inductive Moment
  | call (callers : List Frame) (frame : Frame) (spec other : Json)
  | expand (frame : Frame) (c : Comparison)

def Moment.expanded? : Moment → Option String
  | .expand _ c => some c.path
  | _ => none

/-- A result with the moments on the way to it. -/
structure Watched (α : Type) where
  moments : List Moment
  result : Except Fault α

namespace Watched
variable {α β : Type}

/-- The second of two computations, with the moments of both. -/
def andThen (x : Watched α) (y : Watched β) : Watched β := ⟨x.moments ++ y.moments, y.result⟩

/-- The first of two computations, and then the second if the first does not fail. -/
def bind (x : Watched α) (f : α → Watched β) : Watched β :=
  match x.result with
  | .ok a => x.andThen (f a)
  | .error fault => ⟨x.moments, .error fault⟩

def ofExcept (result : Except Fault α) : Watched α := ⟨[], result⟩

instance : Monad Watched where
  pure a := ofExcept (.ok a)
  bind := bind

def after (m : Moment) (x : Watched α) : Watched α := ⟨m :: x.moments, x.result⟩

@[simp] theorem result_ofExcept (result : Except Fault α) : (ofExcept result).result = result := rfl

@[simp] theorem result_after (m : Moment) (x : Watched α) : (x.after m).result = x.result := rfl

@[simp] theorem result_bind (x : Watched α) (f : α → Watched β) :
    (x >>= f).result = x.result >>= fun a => (f a).result := by
  change (x.bind f).result = _
  rw [bind]
  cases x.result <;> rfl

theorem bind_of_ok {x : Watched α} {a : α} (h : x.result = .ok a) (f : α → Watched β) :
    x >>= f = x.andThen (f a) := by
  change x.bind f = _
  rw [bind, h]

theorem bind_of_error {x : Watched α} {fault : Fault} (h : x.result = .error fault)
    (f : α → Watched β) : x >>= f = ⟨x.moments, .error fault⟩ := by
  change x.bind f = _
  rw [bind, h]

/-- The paths that are expanded, in turn. -/
def expanded (x : Watched α) : List String := x.moments.filterMap Moment.expanded?

theorem expanded_andThen (x : Watched α) (y : Watched β) :
    (x.andThen y).expanded = x.expanded ++ y.expanded := List.filterMap_append

end Watched

mutual

/-- Compares two definitions as a call inside other calls, and tells what happens. -/
def observeWithin (corpus : Corpus) (types : List TypeName) (left right : Version)
    (callers : List Frame) (frame : Frame) (spec other : Json) : Watched (Bool × Settled) :=
  (if spec == other then
    observeTypes corpus types left right (frame :: callers) frame spec types (fun _ h => h)
  else pure (false, frame.settled)).after (.call callers frame spec other)
termination_by (unopened types left right frame.visiting, types.length + 1)

/-- Compares the pending types that a definition refers to inside calls, and tells what happens. -/
def observeTypes (corpus : Corpus) (types : List TypeName) (left right : Version)
    (callers : List Frame) (frame : Frame) (spec : Json) (pending : List TypeName)
    (tracked : ∀ t ∈ pending, t ∈ types) : Watched (Bool × Settled) :=
  match pending, tracked with
  | [], _ => pure (true, frame.settled)
  | type :: rest, tracked =>
      have restTracked : ∀ t ∈ rest, t ∈ types :=
        fun t h => tracked t (List.mem_cons_of_mem _ h)
      if type.isMentionedIn spec then
        let c : Comparison := ⟨type.path, left, right⟩
        match frame.settled.result? c with
        | some true => observeTypes corpus types left right callers frame spec rest restTracked
        | some false => pure (false, frame.settled)
        | none =>
            match unseen : cycleFrom? c frame.visiting with
            | some cycle => .ofExcept (.error (.typeCycle ((cycle ++ [c]).map Comparison.label)))
            | none => do
                let a := (← .ofExcept (view corpus left)).typeSpec? type
                let b := (← .ofExcept (view corpus right)).typeSpec? type
                let (same, inside) ← Watched.after (.expand frame c) <|
                  match a, b with
                  | none, none => pure (true, frame.settled)
                  | some a, some b =>
                      have : unopened types left right (frame.push c).visiting <
                          unopened types left right frame.visiting :=
                        unopened_append_lt (tracked type (List.mem_cons_self ..)) unseen
                      observeWithin corpus types left right callers (frame.push c) a b
                  | _, _ => pure (false, frame.settled)
                let frame := frame.settle c same inside
                if same then
                  observeTypes corpus types left right callers frame spec rest restTracked
                else return (false, frame.settled)
      else observeTypes corpus types left right callers frame spec rest restTracked
termination_by (unopened types left right frame.visiting, pending.length)
decreasing_by
  all_goals simp_wf
  all_goals first
    | exact Prod.Lex.right _ (by omega)
    | exact Prod.Lex.left _ _ (by assumption)

end

/-- A whole comparison, with what happens in it. -/
def observe (corpus : Corpus) (types : List TypeName) (left right : Version) (spec other : Json) :
    Watched (Bool × Settled) :=
  observeWithin corpus types left right [] ⟨[], []⟩ spec other

/-- Compares the definitions of a type, where there are any, inside the comparison of the type. -/
def observeBodies (corpus : Corpus) (types : List TypeName) (left right : Version)
    (callers : List Frame) (frame : Frame) (t : TypeName) (a b : Option Json) :
    Watched (Bool × Settled) :=
  match a, b with
  | none, none => pure (true, frame.settled)
  | some a, some b =>
      observeWithin corpus types left right callers (frame.push ⟨t.path, left, right⟩) a b
  | _, _ => pure (false, frame.settled)

section
variable {corpus : Corpus} {types : List TypeName} {left right : Version} {spec : Json}
  {t : TypeName} {rest : List TypeName} (tracked : ∀ u ∈ t :: rest, u ∈ types)
  (restTracked : ∀ u ∈ rest, u ∈ types)

section
variable {callers : List Frame} {frame : Frame}

/-- Comparing the definitions of a type affirms or denies at once, or it is a call. -/
theorem observeBodies_of_forall {holds : Watched (Bool × Settled) → Prop}
    (haffirmed : holds (pure (true, frame.settled)))
    (hdenied : holds (pure (false, frame.settled)))
    (hcall : ∀ a b, holds
      (observeWithin corpus types left right callers (frame.push ⟨t.path, left, right⟩) a b))
    (a b : Option Json) : holds (observeBodies corpus types left right callers frame t a b) := by
  cases a with
  | none =>
      cases b with
      | none => exact haffirmed
      | some b => exact hdenied
  | some a =>
      cases b with
      | none => exact hdenied
      | some b => exact hcall a b

theorem observeTypes_unmentioned (hm : t.isMentionedIn spec = false) :
    observeTypes corpus types left right callers frame spec (t :: rest) tracked =
      observeTypes corpus types left right callers frame spec rest restTracked := by
  rw [observeTypes, if_neg (by simp [hm])]

variable (hm : t.isMentionedIn spec = true)
include hm

theorem observeTypes_known (hs : frame.settled.result? ⟨t.path, left, right⟩ = some true) :
    observeTypes corpus types left right callers frame spec (t :: rest) tracked =
      observeTypes corpus types left right callers frame spec rest restTracked := by
  rw [observeTypes, if_pos hm]
  simp only [hs]

theorem observeTypes_refuted (hs : frame.settled.result? ⟨t.path, left, right⟩ = some false) :
    observeTypes corpus types left right callers frame spec (t :: rest) tracked =
      pure (false, frame.settled) := by
  rw [observeTypes, if_pos hm]
  simp only [hs]

variable (hs : frame.settled.result? ⟨t.path, left, right⟩ = none)
include hs

theorem observeTypes_open {loop : List Comparison}
    (hc : cycleFrom? ⟨t.path, left, right⟩ frame.visiting = some loop) :
    observeTypes corpus types left right callers frame spec (t :: rest) tracked =
      .ofExcept (.error (.typeCycle
        ((loop ++ [Comparison.mk t.path left right]).map Comparison.label))) := by
  rw [observeTypes, if_pos hm]
  simp only [hs]
  split
  · rename_i found hfound
    obtain rfl := Option.some.inj (hc.symm.trans hfound)
    rfl
  · rename_i hfound
    cases hc.symm.trans hfound

theorem observeTypes_unopened (hc : cycleFrom? ⟨t.path, left, right⟩ frame.visiting = none) :
    observeTypes corpus types left right callers frame spec (t :: rest) tracked =
      .ofExcept (view corpus left) >>= fun l => .ofExcept (view corpus right) >>= fun r =>
        (observeBodies corpus types left right callers frame t (l.typeSpec? t)
          (r.typeSpec? t)).after (.expand frame ⟨t.path, left, right⟩) >>= fun outcome =>
        if outcome.1 then
          observeTypes corpus types left right callers
            (frame.settle ⟨t.path, left, right⟩ outcome.1 outcome.2) spec rest restTracked
        else pure (false, (frame.settle ⟨t.path, left, right⟩ outcome.1 outcome.2).settled) := by
  rw [observeTypes, if_pos hm]
  simp only [hs]
  split
  · rename_i loop hloop
    cases hc.symm.trans hloop
  · rfl

end

section
variable {visiting : List Comparison} {settled : Settled} (hm : t.isMentionedIn spec = true)
  (hs : settled.result? ⟨t.path, left, right⟩ = none)
include hm hs

theorem compareTypes_open {loop : List Comparison}
    (hc : cycleFrom? ⟨t.path, left, right⟩ visiting = some loop) :
    compareTypes corpus types left right visiting spec settled (t :: rest) tracked =
      .error (.typeCycle ((loop ++ [Comparison.mk t.path left right]).map Comparison.label)) := by
  rw [compareTypes, if_pos hm]
  simp only [hs]
  split
  · rename_i found hfound
    obtain rfl := Option.some.inj (hc.symm.trans hfound)
    rfl
  · rename_i hfound
    cases hc.symm.trans hfound

/-- Meeting a type that is neither open nor settled leads into its definitions, and on if they are
affirmed. -/
theorem compareTypes_unopened
    (hc : cycleFrom? ⟨t.path, left, right⟩ visiting = none) :
    compareTypes corpus types left right visiting spec settled (t :: rest) tracked =
      view corpus left >>= fun l => view corpus right >>= fun r =>
        (match l.typeSpec? t, r.typeSpec? t with
          | none, none => pure (true, settled)
          | some a, some b =>
              compareWithin corpus types left right (visiting ++ [.mk t.path left right]) a b
                settled
          | _, _ => pure (false, settled)) >>= fun outcome =>
        if outcome.1 then
          compareTypes corpus types left right visiting spec
            ((.mk t.path left right, outcome.1) :: outcome.2) rest restTracked
        else pure (false, (.mk t.path left right, outcome.1) :: outcome.2) := by
  rw [compareTypes, if_pos hm]
  simp only [hs]
  split
  · rename_i loop hloop
    cases hc.symm.trans hloop
  · refine bind_congr fun l => bind_congr fun r => ?_
    cases l.typeSpec? t <;> cases r.typeSpec? t <;> rfl

end

end

section
variable (corpus : Corpus) (types : List TypeName) (left right : Version)

/-- A watched call comes to the same as the plain one if what it goes through does. -/
theorem result_observeWithin (callers : List Frame) (frame : Frame) (spec other : Json)
    (h : (observeTypes corpus types left right (frame :: callers) frame spec types
        (fun _ h => h)).result =
      compareTypes corpus types left right frame.visiting spec frame.settled types
        (fun _ h => h)) :
    (observeWithin corpus types left right callers frame spec other).result =
      compareWithin corpus types left right frame.visiting spec other frame.settled := by
  rw [observeWithin, compareWithin, Watched.result_after, apply_ite Watched.result, h]
  rfl

/-- Watching a comparison does not change what it comes to. -/
theorem result_observeTypes (callers : List Frame) (frame : Frame) (spec : Json)
    (pending : List TypeName) (tracked : ∀ t ∈ pending, t ∈ types) :
    (observeTypes corpus types left right callers frame spec pending tracked).result =
      compareTypes corpus types left right frame.visiting spec frame.settled pending tracked := by
  induction callers, frame, spec, pending, tracked using
    observeTypes.induct types left right
      (fun callers frame spec other =>
        (observeWithin corpus types left right callers frame spec other).result =
          compareWithin corpus types left right frame.visiting spec other frame.settled) with
  | case1 callers frame spec other ih =>
      exact result_observeWithin corpus types left right callers frame spec other ih
  | case2 callers frame spec tracked =>
      rw [observeTypes, compareTypes]
      rfl
  | case3 callers frame spec t rest tracked restTracked hm c hs _ ih =>
      rw [observeTypes_known tracked restTracked hm hs, compareTypes, if_pos hm]
      simp only [c] at hs
      simp only [hs]
      exact ih
  | case4 callers frame spec t rest tracked _ hm c hs =>
      rw [observeTypes_refuted tracked hm hs, compareTypes, if_pos hm]
      simp only [c] at hs
      simp only [hs]
      rfl
  | case5 callers frame spec t rest tracked _ hm c hs loop hc =>
      rw [observeTypes_open tracked hm hs hc, compareTypes_open tracked hm hs hc]
      rfl
  | case6 callers frame spec t rest tracked restTracked hm c hs hc _ inner next =>
      rw [observeTypes_unopened tracked restTracked hm hs hc,
        compareTypes_unopened tracked restTracked hm hs hc]
      simp only [Watched.result_after, Watched.result_bind, Watched.result_ofExcept]
      refine bind_congr fun l => bind_congr fun r => ?_
      rcases l.typeSpec? t with _ | a <;> rcases r.typeSpec? t with _ | b
      · exact next true frame.settled
      · rfl
      · rfl
      · have hin : (observeBodies corpus types left right callers frame t (some a)
            (some b)).result =
              compareWithin corpus types left right (frame.visiting ++ [c]) a b frame.settled :=
          inner a b
        dsimp only
        rw [hin]
        refine bind_congr fun outcome => ?_
        obtain ⟨_ | _, inside⟩ := outcome
        · rfl
        · exact next true inside
  | case7 callers frame spec t rest tracked restTracked hm _ ih =>
      rw [observeTypes_unmentioned tracked restTracked (by simpa using hm), compareTypes, if_neg hm]
      exact ih

theorem result_observe (spec other : Json) :
    (observe corpus types left right spec other).result.map (·.1) =
      structural corpus types left spec right other := by
  rw [observe, structural, result_observeWithin]
  exact result_observeTypes corpus types left right _ _ spec types (fun _ h => h)

end

end VersionGroups.Equivalence
