import VersionGroups.Proofs.Grouping.Outcome
import VersionGroups.Proofs.Grouping.Surface

/-!
# Comparisons the other way round

With the two versions exchanged a search takes the same steps. Wherever it goes on, the definitions
on the two sides are the same and so mention the same types, and whether a type is settled, open or
defined alike does not depend on the order of the sides. So the verdict is the same in both
directions, and a cycle is told along the same types. The results on one surface make equivalence
transitive, and reflexive as far as no cycle is met.
-/
namespace VersionGroups

def Comparison.swap (c : Comparison) : Comparison := ⟨c.path, c.right, c.left⟩

/-- Finished comparisons with their versions exchanged. -/
def Settled.swap (settled : Settled) : Settled := settled.map fun e => (e.1.swap, e.2)

theorem Comparison.swap_inj {c d : Comparison} : c.swap = d.swap ↔ c = d := by
  constructor
  · intro h
    have hback := congrArg Comparison.swap h
    exact hback
  · exact congrArg Comparison.swap

@[simp] theorem Settled.swap_nil : Settled.swap [] = [] := rfl

@[simp] theorem Settled.swap_cons (c : Comparison) (b : Bool) (settled : Settled) :
    Settled.swap ((c, b) :: settled) = (c.swap, b) :: Settled.swap settled := rfl

namespace Equivalence

theorem result?_swap (settled : Settled) (c : Comparison) :
    settled.swap.result? c.swap = settled.result? c := by
  induction settled with
  | nil => rfl
  | cons e rest ih =>
      obtain ⟨d, b⟩ := e
      simp only [Settled.swap_cons, result?_cons, Comparison.swap_inj, ih]

theorem cycleFrom?_swap (c : Comparison) (visiting : List Comparison) :
    cycleFrom? c.swap (visiting.map Comparison.swap) =
      (cycleFrom? c visiting).map (List.map Comparison.swap) := by
  induction visiting with
  | nil => rfl
  | cons d rest ih =>
      simp only [List.map_cons, cycleFrom?, Comparison.swap_inj, ih]
      split <;> rfl

theorem subset_of_cycleFrom? {c : Comparison} {visiting loop : List Comparison}
    (h : cycleFrom? c visiting = some loop) : loop ⊆ visiting := by
  obtain ⟨before, after, rfl, rfl⟩ := cycleFrom?_eq_some h
  exact List.subset_append_right before (c :: after)

theorem Fresh.swap {c : Comparison} {visiting : List Comparison} {settled : Settled}
    (h : Fresh c visiting settled) :
    Fresh c.swap (visiting.map Comparison.swap) settled.swap where
  unsettled := (result?_swap settled c).trans h.unsettled
  unopened := by rw [cycleFrom?_swap, h.unopened, Option.map_none]

/-- The labels of paths that are compared under the versions of two views. -/
def labels (left right : View) (paths : List String) : List String :=
  paths.map fun path => Comparison.label ⟨path, left.version, right.version⟩

/-- A comparison under the versions of two views. -/
def Between (left right : View) (c : Comparison) : Prop :=
  c.left = left.version ∧ c.right = right.version

/-- The results of two searches that differ in the order of the views. -/
inductive Mirrored (left right : View) :
    Except Fault (Bool × Settled) → Except Fault (Bool × Settled) → Prop
  | verdict (same : Bool) (settled : Settled) :
      Mirrored left right (.ok (same, settled)) (.ok (same, settled.swap))
  | cycle (paths : List String) :
      Mirrored left right (.error (.typeCycle (labels left right paths)))
        (.error (.typeCycle (labels right left paths)))

variable {types : List TypeName} {left right : View} {settled : Settled}
  {visiting loop : List Comparison} {spec other : Json} {t : TypeName}
  {pending : List TypeName}

theorem labels_of_between (h : ∀ c ∈ loop, Between left right c) :
    loop.map Comparison.label = labels left right (loop.map Comparison.path) ∧
      (loop.map Comparison.swap).map Comparison.label =
        labels right left (loop.map Comparison.path) := by
  induction loop with
  | nil => exact ⟨rfl, rfl⟩
  | cons c rest ih =>
      obtain ⟨⟨hl, hr⟩, hrest⟩ := List.forall_mem_cons.mp h
      obtain ⟨ihl, ihr⟩ := ih hrest
      obtain ⟨path, l, r⟩ := c
      obtain rfl : l = left.version := hl
      obtain rfl : r = right.version := hr
      exact ⟨congrArg (_ :: ·) ihl, congrArg (_ :: ·) ihr⟩

theorem between_append (h : ∀ c ∈ visiting, Between left right c) (t : TypeName) :
    ∀ c ∈ visiting ++ [comparison left right t], Between left right c := by
  intro c hc
  rcases List.mem_append.mp hc with hc | hc
  · exact h c hc
  · obtain rfl := List.mem_singleton.mp hc
    exact ⟨rfl, rfl⟩

theorem isMentionedIn_congr (same : (spec == other) = true) (t : TypeName) :
    t.isMentionedIn spec = t.isMentionedIn other :=
  Json.mentions_congr _ same

/-- A search with the views exchanged takes the same steps. -/
theorem Search.mirror {result : Except Fault (Bool × Settled)}
    (h : Search types left right visiting spec settled pending result)
    (hopen : ∀ c ∈ visiting, Between left right c) (same : (spec == other) = true) :
    ∃ result', Mirrored left right result result' ∧
      Search types right left (visiting.map Comparison.swap) other settled.swap pending
        result' := by
  induction h generalizing other with
  | done => exact ⟨_, .verdict _ _, .done⟩
  | @skip _ _ _ t _ _ hm _ ih =>
      obtain ⟨result', hmirror, hsearch⟩ := ih hopen same
      rw [isMentionedIn_congr same t] at hm
      exact ⟨result', hmirror, .skip hm hsearch⟩
  | @known _ _ _ t _ _ hm hs _ ih =>
      obtain ⟨result', hmirror, hsearch⟩ := ih hopen same
      rw [isMentionedIn_congr same t] at hm
      exact ⟨result', hmirror, .known hm ((result?_swap _ _).trans hs) hsearch⟩
  | @refuted _ _ _ t _ hm hs =>
      rw [isMentionedIn_congr same t] at hm
      exact ⟨_, .verdict _ _, .refuted hm ((result?_swap _ _).trans hs)⟩
  | @cycle visiting _ _ t _ loop hm hs hc =>
      rw [isMentionedIn_congr same t] at hm
      have hloop : ∀ c ∈ loop ++ [comparison left right t], Between left right c :=
        between_append (fun c hc' => hopen c (subset_of_cycleFrom? hc hc')) t
      obtain ⟨hforth, hback⟩ := labels_of_between hloop
      have hcycle : cycleFrom? (comparison right left t) (visiting.map Comparison.swap) =
          some (loop.map Comparison.swap) := by
        have hswap := cycleFrom?_swap (comparison left right t) visiting
        rwa [hc] at hswap
      rw [hforth]
      refine ⟨_, .cycle _, ?_⟩
      rw [← hback, List.map_append]
      exact .cycle hm ((result?_swap _ _).trans hs) hcycle
  | @absent _ _ _ t _ _ hm hf hl hr _ ih =>
      obtain ⟨result', hmirror, hsearch⟩ := ih hopen same
      rw [isMentionedIn_congr same t] at hm
      exact ⟨result', hmirror, .absent hm hf.swap hr hl hsearch⟩
  | @differ _ _ _ t _ hm hf ha =>
      rw [isMentionedIn_congr same t] at hm
      exact ⟨_, .verdict _ _, .differ hm hf.swap fun ha' => ha ha'.symm⟩
  | @inside _ _ _ t _ _ a b _ hm hf hl hr hab _ _ inner next =>
      rw [isMentionedIn_congr same t] at hm
      obtain ⟨_, hmirror, hin⟩ := inner (between_append hopen t) hab
      cases hmirror
      obtain ⟨result', hmirror, hnext⟩ := next hopen same
      rw [List.map_append] at hin
      exact ⟨result', hmirror, .inside hm hf.swap hr hl (Json.same_symm hab) hin hnext⟩
  | @insideFalse _ _ _ t _ a b _ hm hf hl hr hab _ inner =>
      rw [isMentionedIn_congr same t] at hm
      obtain ⟨_, hmirror, hin⟩ := inner (between_append hopen t) hab
      cases hmirror
      rw [List.map_append] at hin
      exact ⟨_, .verdict _ _, .insideFalse hm hf.swap hr hl (Json.same_symm hab) hin⟩
  | @insideError _ _ _ t _ a b _ hm hf hl hr hab _ inner =>
      rw [isMentionedIn_congr same t] at hm
      obtain ⟨_, hmirror, hin⟩ := inner (between_append hopen t) hab
      cases hmirror
      rw [List.map_append] at hin
      exact ⟨_, .cycle _, .insideError hm hf.swap hr hl (Json.same_symm hab) hin⟩

section
variable {corpus : Corpus} {mid : View} {body : Json}

theorem structural_of_differ (h : (spec == other) = false) :
    structural corpus types left.version spec right.version other = .ok false := by
  rw [structural, compareWithin, if_neg (by simp [h])]
  rfl

/-- A comparison and the same comparison the other way round have one verdict, or both fail on one
cycle of types. -/
theorem structural_mirror (hleft : corpus.get? left.version = some left.document)
    (hright : corpus.get? right.version = some right.document) (spec other : Json) :
    (∃ same, structural corpus types left.version spec right.version other = .ok same ∧
        structural corpus types right.version other left.version spec = .ok same) ∨
      ∃ paths,
        structural corpus types left.version spec right.version other =
            .error (.typeCycle (labels left right paths)) ∧
          structural corpus types right.version other left.version spec =
            .error (.typeCycle (labels right left paths)) := by
  rcases structural_eq_search hleft hright spec other with
    ⟨same, result, hsearch, heq⟩ | ⟨hne, heq⟩
  · obtain ⟨result', hmirror, hsearch'⟩ := hsearch.mirror (fun _ h => by cases h) same
    have heq' := structural_of_search hright hleft (Json.same_symm same) hsearch'
    rw [heq, heq']
    cases hmirror with
    | verdict verdict settled => exact .inl ⟨verdict, rfl, rfl⟩
    | cycle paths => exact .inr ⟨paths, rfl, rfl⟩
  · refine .inl ⟨false, heq, structural_of_differ ?_⟩
    refine eq_false_of_ne_true fun h => ?_
    have hback : (spec == other) = true := Json.same_symm h
    rw [hne] at hback
    cases hback

/-- Comparing a definition with itself never denies equivalence. -/
theorem structural_self (distinct : (types.map TypeName.path).Nodup)
    (hleft : corpus.get? left.version = some left.document) (spec : Json) :
    structural corpus types left.version spec left.version spec = .ok true ∨
      ∃ path, structural corpus types left.version spec left.version spec =
        .error (.typeCycle path) := by
  have hself : SameSurface types left left spec spec :=
    .of_document (Document.beq_refl _) (Json.same_refl spec)
  rcases structural_cases distinct hleft hleft spec spec with
    ⟨htrue, -⟩ | ⟨hfalse, -⟩ | ⟨path, herror, -⟩
  · exact .inl htrue
  · exact absurd hself (not_sameSurface_of_structural distinct hleft hleft hfalse)
  · exact .inr ⟨path, herror⟩

/-- Equivalence passes through a third definition, and the comparison of the outer two does not
fail, because it meets the same types as the first comparison. -/
theorem structural_trans (distinct : (types.map TypeName.path).Nodup)
    (hleft : corpus.get? left.version = some left.document)
    (hmid : corpus.get? mid.version = some mid.document)
    (hright : corpus.get? right.version = some right.document)
    (h : structural corpus types left.version spec mid.version body = .ok true)
    (h' : structural corpus types mid.version body right.version other = .ok true) :
    structural corpus types left.version spec right.version other = .ok true := by
  have hsame := (sameSurface_of_structural distinct hleft hmid h).trans
    (sameSurface_of_structural distinct hmid hright h')
  rcases structural_cases distinct hleft hright spec other with
    ⟨htrue, -⟩ | ⟨hfalse, -⟩ | ⟨path, -, hcyclic⟩
  · exact htrue
  · exact absurd hsame (not_sameSurface_of_structural distinct hleft hright hfalse)
  · rcases structural_cases distinct hleft hmid spec body with
      ⟨-, -, hgrounded⟩ | ⟨hfalse, -⟩ | ⟨path, herror, -⟩
    · exact absurd hcyclic (not_cyclic_of_grounded hgrounded)
    · rw [hfalse] at h
      cases h
    · rw [herror] at h
      cases h

end

/-- Equivalence of definitions is reflexive up to cycles, symmetric with one verdict or one cycle of
types in both directions, and transitive. -/
theorem structural_partial_equivalence {corpus : Corpus} {a b c : View}
    (distinct : (types.map TypeName.path).Nodup)
    (ha : corpus.get? a.version = some a.document) (hb : corpus.get? b.version = some b.document)
    (hc : corpus.get? c.version = some c.document) (x y z : Json) :
    (structural corpus types a.version x a.version x = .ok true ∨
      ∃ path, structural corpus types a.version x a.version x = .error (.typeCycle path)) ∧
    ((∃ same, structural corpus types a.version x b.version y = .ok same ∧
        structural corpus types b.version y a.version x = .ok same) ∨
      ∃ paths : List String,
        structural corpus types a.version x b.version y =
            .error (.typeCycle
              (paths.map fun path => Comparison.label ⟨path, a.version, b.version⟩)) ∧
          structural corpus types b.version y a.version x =
            .error (.typeCycle
              (paths.map fun path => Comparison.label ⟨path, b.version, a.version⟩))) ∧
    (structural corpus types a.version x b.version y = .ok true →
      structural corpus types b.version y c.version z = .ok true →
        structural corpus types a.version x c.version z = .ok true) :=
  ⟨structural_self distinct ha x, structural_mirror ha hb x y, structural_trans distinct ha hb hc⟩

/-- A document whose `item` leads to `leaf`, beside a definition that nothing leads to. -/
def chainDocument (aside : String) : Document :=
  ⟨.obj [("types", .obj [("aside", .str aside), ("item", reference "leaf"),
    ("leaf", .str "varint")])]⟩

def chainTypes : List TypeName := [⟨.common, "item"⟩, ⟨.common, "leaf"⟩, ⟨.common, "aside"⟩]

/-- Three documents that differ, but not in what `item` reaches. -/
def chainCorpus : Corpus :=
  .ofList [(1, chainDocument "a"), (2, chainDocument "b"), (3, chainDocument "c")]

/-- The view of such a document under a version. -/
def chainView (v : Version) (aside : String) : View := ⟨v, chainDocument aside⟩

/-- The types that `item` reaches are found to be the same, and `aside` is not looked at. -/
theorem chain_search (v w : Version) (x y : String) :
    ∃ settled, Search chainTypes (chainView v x) (chainView w y) [] (reference "item") []
      chainTypes (.ok (true, settled)) :=
  ⟨_, .inside rfl ⟨rfl, rfl⟩ rfl rfl rfl
    (.skip rfl (.inside rfl ⟨rfl, rfl⟩ rfl rfl rfl
      (.skip rfl (.skip rfl (.skip rfl .done)))
      (.skip rfl .done)))
    (.skip rfl (.skip rfl .done))⟩

/-- Of three documents that all differ, the outer two define `item` alike because the neighbours
do. -/
theorem structural_partial_equivalence_chain :
    structural chainCorpus chainTypes 1 (reference "item") 2 (reference "item") = .ok true ∧
      structural chainCorpus chainTypes 2 (reference "item") 3 (reference "item") = .ok true ∧
      structural chainCorpus chainTypes 1 (reference "item") 3 (reference "item") = .ok true := by
  have distinct : (chainTypes.map TypeName.path).Nodup := by decide
  have ha : chainCorpus.get? (chainView 1 "a").version = some (chainView 1 "a").document := rfl
  have hb : chainCorpus.get? (chainView 2 "b").version = some (chainView 2 "b").document := rfl
  have hc : chainCorpus.get? (chainView 3 "c").version = some (chainView 3 "c").document := rfl
  have same : (reference "item" == reference "item") = true := Json.same_refl _
  obtain ⟨settled, hsearch⟩ := chain_search 1 2 "a" "b"
  obtain ⟨settled', hsearch'⟩ := chain_search 2 3 "b" "c"
  have hab := structural_of_search ha hb same hsearch
  have hbc := structural_of_search hb hc same hsearch'
  obtain ⟨-, -, htrans⟩ := structural_partial_equivalence distinct ha hb hc (reference "item")
    (reference "item") (reference "item")
  exact ⟨hab, hbc, htrans hab hbc⟩

end Equivalence

end VersionGroups
