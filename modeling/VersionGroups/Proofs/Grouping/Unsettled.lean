import VersionGroups.Proofs.Grouping.Decision
import VersionGroups.Proofs.Grouping.Outcome
import VersionGroups.Proofs.Results

/-!
# Comparing without settled comparisons

A comparison that keeps no list of finished comparisons looks into a type every time that it meets
it. It comes to the same verdict, or to the same cycle. What is settled is grounded, and nothing
that is open can be reached from a grounded type that is met again: what is open leads to the place
where the type is met, so reaching it would close a cycle through the type. So looking into the type
again affirms it again. If one of the versions is not in the corpus, then nothing is ever settled.
-/
namespace VersionGroups.Equivalence

mutual

/-- Compares two definitions inside the comparisons that are open, with none taken as finished. -/
def recompareWithin (corpus : Corpus) (types : List TypeName) (left right : Version)
    (visiting : List Comparison) (spec other : Json) : Except Fault Bool :=
  if spec == other then
    recompareTypes corpus types left right visiting spec types (fun _ h => h)
  else .ok false
termination_by (unopened types left right visiting, types.length + 1)

/-- Compares the pending types that a definition refers to, wherever they were met before. -/
def recompareTypes (corpus : Corpus) (types : List TypeName) (left right : Version)
    (visiting : List Comparison) (spec : Json) (pending : List TypeName)
    (tracked : ∀ t ∈ pending, t ∈ types) : Except Fault Bool :=
  match pending, tracked with
  | [], _ => .ok true
  | type :: rest, tracked =>
      have restTracked : ∀ t ∈ rest, t ∈ types :=
        fun t h => tracked t (List.mem_cons_of_mem _ h)
      if type.isMentionedIn spec then
        let c : Comparison := ⟨type.path, left, right⟩
        match unseen : cycleFrom? c visiting with
        | some cycle => .error (.typeCycle ((cycle ++ [c]).map Comparison.label))
        | none => do
            let a := (← view corpus left).typeSpec? type
            let b := (← view corpus right).typeSpec? type
            let same ←
              match a, b with
              | none, none => pure true
              | some a, some b =>
                  have : unopened types left right (visiting ++ [c]) <
                      unopened types left right visiting :=
                    unopened_append_lt (tracked type (List.mem_cons_self ..)) unseen
                  recompareWithin corpus types left right (visiting ++ [c]) a b
              | _, _ => pure false
            if same then recompareTypes corpus types left right visiting spec rest restTracked
            else return false
      else recompareTypes corpus types left right visiting spec rest restTracked
termination_by (unopened types left right visiting, pending.length)
decreasing_by
  all_goals simp_wf
  all_goals first
    | exact Prod.Lex.right _ (by omega)
    | exact Prod.Lex.left _ _ (by assumption)

end

/-- Whether two definitions are equivalent, decided without a list of finished comparisons. -/
def unsettled (corpus : Corpus) (types : List TypeName) : Relation :=
  fun left spec right other => recompareWithin corpus types left right [] spec other

/-- Compares the definitions of a type inside the comparison of the type. -/
def recompareBodies (corpus : Corpus) (types : List TypeName) (left right : View)
    (visiting : List Comparison) (t : TypeName) : Except Fault Bool :=
  match left.typeSpec? t, right.typeSpec? t with
  | none, none => .ok true
  | some a, some b =>
      recompareWithin corpus types left.version right.version
        (visiting ++ [comparison left right t]) a b
  | _, _ => .ok false

/-- No open type can be reached from a type. -/
def Clear (types : List TypeName) (left right : View) (visiting : List Comparison) (t : TypeName) :
    Prop :=
  ∀ u ∈ types, comparison left right u ∈ visiting → ¬ Relation.ReflTransGen (Refers types left) t u

variable {corpus : Corpus} {types : List TypeName} {left right : View} {settled : Settled}
  {visiting : List Comparison} {spec : Json} {t : TypeName} {pending rest : List TypeName}

/-- A type that is met from within what is open, and is grounded, does not lead back there. -/
theorem Encloses.clear (he : Encloses types left right visiting spec) (hm : Mentions types spec t)
    (hg : Grounded types left right t) : Clear types left right visiting t := by
  intro u hu hopen hreach
  exact hg.not_transGen (.trans_right hreach (he u hu hopen t hm))

theorem Clear.unopened (h : Clear types left right visiting t) (ht : t ∈ types) :
    cycleFrom? (comparison left right t) visiting = none := by
  cases hc : cycleFrom? (comparison left right t) visiting with
  | none => rfl
  | some loop => exact absurd .refl (h t ht (mem_of_cycleFrom? hc))

/-- Inside a grounded type, what it refers to does not lead back to it. -/
theorem Clear.inside (distinct : (types.map TypeName.path).Nodup)
    (h : Clear types left right visiting t) (ht : t ∈ types) (hg : Grounded types left right t)
    {u : TypeName} (hr : Refers types left t u) :
    Clear types left right (visiting ++ [comparison left right t]) u := by
  intro w hw hopen hreach
  rcases List.mem_append.mp hopen with hopen | hself
  · exact h w hw hopen (.head hr hreach)
  · obtain rfl := comparison_inj distinct hw ht (List.mem_singleton.mp hself)
    exact hg.not_transGen (.head' hr hreach)

theorem recompareBodies_of_absent (hl : left.typeSpec? t = none) (hr : right.typeSpec? t = none) :
    recompareBodies corpus types left right visiting t = .ok true := by
  rw [recompareBodies, hl, hr]

/-- Two definitions of a type that are the same are compared by the types that they mention. -/
theorem recompareBodies_of_same {a b : Json} (hl : left.typeSpec? t = some a)
    (hr : right.typeSpec? t = some b) (hab : (a == b) = true) :
    recompareBodies corpus types left right visiting t =
      recompareTypes corpus types left.version right.version
        (visiting ++ [comparison left right t]) a types (fun _ h => h) := by
  rw [recompareBodies, hl, hr]
  dsimp only
  rw [recompareWithin, if_pos hab]

theorem recompareBodies_of_differ (h : ¬ Agree left right t) :
    recompareBodies corpus types left right visiting t = .ok false := by
  rw [recompareBodies]
  cases hl : left.typeSpec? t with
  | none =>
      cases hr : right.typeSpec? t with
      | none => exact absurd (by simp [Agree, hl, hr]) h
      | some b => rfl
  | some a =>
      cases hr : right.typeSpec? t with
      | none => rfl
      | some b =>
          rw [agree_of_some hl hr] at h
          dsimp only
          rw [recompareWithin, if_neg h]

section
variable (hleft : corpus.get? left.version = some left.document)
  (hright : corpus.get? right.version = some right.document)
include hleft hright

/-- What comparing a type that is not open comes to, over two versions of the corpus. -/
theorem recompareTypes_unopened (tracked : ∀ u ∈ t :: rest, u ∈ types)
    (restTracked : ∀ u ∈ rest, u ∈ types) (hm : t.isMentionedIn spec = true)
    (hc : cycleFrom? (comparison left right t) visiting = none) :
    recompareTypes corpus types left.version right.version visiting spec (t :: rest) tracked =
      recompareBodies corpus types left right visiting t >>= fun same =>
        if same then
          recompareTypes corpus types left.version right.version visiting spec rest restTracked
        else pure false := by
  rw [recompareTypes, if_pos hm]
  dsimp only
  split
  · rename_i loop hloop
    cases hc.symm.trans hloop
  · rw [view_of_get? hleft, view_of_get? hright, recompareBodies]
    simp only [bind, Except.bind]
    cases left.typeSpec? t <;> cases right.typeSpec? t <;> rfl

/-- Types that are not open and are affirmed one by one are affirmed together. -/
theorem recompareTypes_ok (tracked : ∀ u ∈ pending, u ∈ types)
    (h : ∀ t ∈ pending, t.isMentionedIn spec = true →
      cycleFrom? (comparison left right t) visiting = none ∧
        recompareBodies corpus types left right visiting t = .ok true) :
    recompareTypes corpus types left.version right.version visiting spec pending tracked =
      .ok true := by
  induction pending with
  | nil => rw [recompareTypes]
  | cons t rest ih =>
      obtain ⟨ht, hrest⟩ := List.forall_mem_cons.mp h
      have restTracked := (List.forall_mem_cons.mp tracked).2
      by_cases hm : t.isMentionedIn spec = true
      · obtain ⟨hc, hbodies⟩ := ht hm
        rw [recompareTypes_unopened hleft hright tracked restTracked hm hc, hbodies]
        exact ih restTracked hrest
      · rw [recompareTypes, if_neg hm]
        exact ih restTracked hrest

/-- A grounded type is affirmed wherever it is met, if nothing open can be reached from it. -/
theorem Grounded.recompareBodies_eq (distinct : (types.map TypeName.path).Nodup)
    (hg : Grounded types left right t) (ht : t ∈ types)
    (h : Clear types left right visiting t) :
    recompareBodies corpus types left right visiting t = .ok true := by
  induction hg generalizing visiting with
  | @intro t ha hr ih =>
      have hg : Grounded types left right t := .intro ha hr
      cases hl : left.typeSpec? t with
      | none =>
          cases hrt : right.typeSpec? t with
          | none => exact recompareBodies_of_absent hl hrt
          | some b => simp [Agree, hl, hrt] at ha
      | some a =>
          cases hrt : right.typeSpec? t with
          | none => simp [Agree, hl, hrt] at ha
          | some b =>
              rw [recompareBodies_of_same hl hrt ((agree_of_some hl hrt).mp ha)]
              refine recompareTypes_ok hleft hright _ fun u hu hm => ?_
              have href : Refers types left t u := ⟨a, hl, .of_isMentionedIn hu hm⟩
              have hclear := h.inside distinct ht hg href
              exact ⟨hclear.unopened hu, ih u href hu hclear⟩

/-- A search comes to the same without what is settled. -/
theorem Search.recompareTypes_eq (distinct : (types.map TypeName.path).Nodup)
    {result : Except Fault (Bool × Settled)}
    (h : Search types left right visiting spec settled pending result)
    (tracked : ∀ t ∈ pending, t ∈ types) (hs : Sound types left right settled)
    (he : Encloses types left right visiting spec) :
    recompareTypes corpus types left.version right.version visiting spec pending tracked =
      result.map (·.1) := by
  induction h with
  | done =>
      rw [recompareTypes]
      rfl
  | skip hm _ ih =>
      rw [recompareTypes, if_neg (by simp [hm])]
      exact ih _ hs he
  | known hm hk _ ih =>
      obtain ⟨ht, restTracked⟩ := List.forall_mem_cons.mp tracked
      have hg := (hs _ ht true hk).2
      have hclear := he.clear (.of_isMentionedIn ht hm) hg
      rw [recompareTypes_unopened hleft hright tracked restTracked hm (hclear.unopened ht),
        hg.recompareBodies_eq hleft hright distinct ht hclear]
      exact ih restTracked hs he
  | refuted _ hk =>
      have hb := hs _ (tracked _ List.mem_cons_self) false hk
      cases hb.1
  | cycle hm _ hc =>
      rw [recompareTypes, if_pos hm]
      dsimp only
      split
      · rename_i found hfound
        obtain rfl := Option.some.inj (hc.symm.trans hfound)
        rfl
      · rename_i hfound
        cases hc.symm.trans hfound
  | absent hm hf hl hr _ ih =>
      obtain ⟨ht, restTracked⟩ := List.forall_mem_cons.mp tracked
      rw [recompareTypes_unopened hleft hright tracked restTracked hm hf.unopened,
        recompareBodies_of_absent hl hr]
      exact ih restTracked (hs.settle distinct ht (grounded_of_absent hl hr)) he
  | differ hm hf ha =>
      have restTracked := (List.forall_mem_cons.mp tracked).2
      rw [recompareTypes_unopened hleft hright tracked restTracked hm hf.unopened,
        recompareBodies_of_differ ha]
      rfl
  | inside hm hf hl hr hab hin _ inner next =>
      obtain ⟨ht, restTracked⟩ := List.forall_mem_cons.mp tracked
      have hopen := he.inside distinct (.of_isMentionedIn ht hm) hl
      have hshows := hin.shows distinct (fun _ h => h) hs hopen
      have hg := grounded_of_body ((agree_of_some hl hr).mpr hab) hl
        (fun u hu => hshows.2 u hu.1 hu.isMentionedIn)
      rw [recompareTypes_unopened hleft hright tracked restTracked hm hf.unopened,
        recompareBodies_of_same hl hr hab, inner (fun _ h => h) hs hopen]
      exact next restTracked (hshows.1.settle distinct ht hg) he
  | insideFalse hm hf hl hr hab _ inner =>
      obtain ⟨ht, restTracked⟩ := List.forall_mem_cons.mp tracked
      have hopen := he.inside distinct (.of_isMentionedIn ht hm) hl
      rw [recompareTypes_unopened hleft hright tracked restTracked hm hf.unopened,
        recompareBodies_of_same hl hr hab, inner (fun _ h => h) hs hopen]
      rfl
  | insideError hm hf hl hr hab _ inner =>
      obtain ⟨ht, restTracked⟩ := List.forall_mem_cons.mp tracked
      have hopen := he.inside distinct (.of_isMentionedIn ht hm) hl
      rw [recompareTypes_unopened hleft hright tracked restTracked hm hf.unopened,
        recompareBodies_of_same hl hr hab, inner (fun _ h => h) hs hopen]
      rfl

end

section
variable {left right : Version}

theorem view_error_of_missing (h : corpus.get? left = none ∨ corpus.get? right = none) :
    ∃ fault, (view corpus left >>= fun _ => view corpus right) = .error fault := by
  cases hl : corpus.get? left with
  | none =>
      rw [view, hl]
      exact ⟨_, rfl⟩
  | some document =>
      have hr := h.resolve_left (by simp [hl])
      rw [view, view, hl, hr]
      exact ⟨_, rfl⟩

variable {fault : Fault} (hview : (view corpus left >>= fun _ => view corpus right) = .error fault)
  (tracked : ∀ u ∈ t :: rest, u ∈ types) (hm : t.isMentionedIn spec = true)
include hview hm

theorem compareTypes_error_of_view :
    compareTypes corpus types left right [] spec [] (t :: rest) tracked = .error fault := by
  rw [compareTypes, if_pos hm]
  simp only [Settled.result?, List.find?_nil, Option.map_none]
  split
  · rename_i loop hloop
    cases hloop
  · rcases bind_eq_error.mp hview with hl | ⟨v, hl, hr⟩
    · rw [hl]
      rfl
    · rw [hl, hr]
      rfl

theorem recompareTypes_error_of_view :
    recompareTypes corpus types left right [] spec (t :: rest) tracked = .error fault := by
  rw [recompareTypes, if_pos hm]
  dsimp only
  split
  · rename_i loop hloop
    cases hloop
  · rcases bind_eq_error.mp hview with hl | ⟨v, hl, hr⟩
    · rw [hl]
      rfl
    · rw [hl, hr]
      rfl

end

/-- Without a document for one of the versions, the first type that is mentioned ends both
comparisons, before anything is settled. -/
theorem compareTypes_of_missing {left right : Version}
    (h : corpus.get? left = none ∨ corpus.get? right = none)
    (tracked : ∀ t ∈ pending, t ∈ types) :
    (compareTypes corpus types left right [] spec [] pending tracked).map (·.1) =
      recompareTypes corpus types left right [] spec pending tracked := by
  obtain ⟨fault, hview⟩ := view_error_of_missing h
  induction pending with
  | nil =>
      rw [compareTypes, recompareTypes]
      rfl
  | cons t rest ih =>
      by_cases hm : t.isMentionedIn spec = true
      · rw [compareTypes_error_of_view hview tracked hm,
          recompareTypes_error_of_view hview tracked hm]
        rfl
      · rw [compareTypes, recompareTypes, if_neg hm, if_neg hm]
        exact ih _

/-- Comparing without a list of finished comparisons comes to the same verdict or to the same
cycle. -/
theorem structural_eq_unsettled (distinct : (types.map TypeName.path).Nodup) (corpus : Corpus)
    (left right : Version) (spec other : Json) :
    structural corpus types left spec right other =
      unsettled corpus types left spec right other := by
  rw [structural, unsettled, compareWithin, recompareWithin]
  split
  · cases hl : corpus.get? left with
    | none => exact compareTypes_of_missing (.inl hl) _
    | some d =>
        cases hr : corpus.get? right with
        | none => exact compareTypes_of_missing (.inr hr) _
        | some e =>
            have hleft : corpus.get? (View.mk left d).version = some (View.mk left d).document := hl
            have hright : corpus.get? (View.mk right e).version = some (View.mk right e).document :=
              hr
            have hsearch := search_compareTypes hleft hright [] spec [] types (fun _ h => h)
            exact (hsearch.recompareTypes_eq hleft hright distinct (fun _ h => h) sound_nil
              encloses_nil).symm
  · rfl

def diamondDocument : Document :=
  ⟨.obj [("types", .obj [("a", reference "leaf"), ("b", reference "leaf"),
    ("leaf", .str "varint")])]⟩

def diamondTypes : List TypeName := [⟨.common, "a"⟩, ⟨.common, "b"⟩, ⟨.common, "leaf"⟩]

def diamondCorpus : Corpus := .ofList [(1, diamondDocument), (2, diamondDocument)]

def diamondSpec : Json := .arr [reference "a", reference "b"]

/-- Where two types refer to a third one, which is settled when the second of them is compared, the
comparison that looks into it again affirms the same. -/
theorem structural_eq_unsettled_diamond :
    structural diamondCorpus diamondTypes 1 diamondSpec 2 diamondSpec = .ok true ∧
      unsettled diamondCorpus diamondTypes 1 diamondSpec 2 diamondSpec = .ok true := by
  have distinct : (diamondTypes.map TypeName.path).Nodup := by decide
  let left : View := ⟨1, diamondDocument⟩
  let right : View := ⟨2, diamondDocument⟩
  have hleft : diamondCorpus.get? left.version = some left.document := rfl
  have hright : diamondCorpus.get? right.version = some right.document := rfl
  have hsearch : ∃ settled, Search diamondTypes left right [] diamondSpec [] diamondTypes
      (.ok (true, settled)) :=
    ⟨_, .inside rfl ⟨rfl, rfl⟩ rfl rfl rfl
      (.skip rfl (.skip rfl (.inside rfl ⟨rfl, rfl⟩ rfl rfl rfl
        (.skip rfl (.skip rfl (.skip rfl .done))) .done)))
      (.inside rfl ⟨rfl, rfl⟩ rfl rfl rfl
        (.skip rfl (.skip rfl (.known rfl rfl .done)))
        (.skip rfl .done))⟩
  obtain ⟨settled, hsearch⟩ := hsearch
  have hstructural := structural_of_search hleft hright (Json.same_refl diamondSpec) hsearch
  have hsame := structural_eq_unsettled distinct diamondCorpus 1 2 diamondSpec diamondSpec
  exact ⟨hstructural, hsame.symm.trans hstructural⟩

end VersionGroups.Equivalence
