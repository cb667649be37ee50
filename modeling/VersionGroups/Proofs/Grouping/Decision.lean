import Mathlib.Data.List.Nodup
import VersionGroups.Proofs.Grouping.Search

/-!
# Structural equivalence is decided

A search that comes to an end shows one of three things: everything pending is grounded, something
reached differs between the two views, or the references reached are cyclic. It carries two facts
along. Settled comparisons are those of grounded types, and the references of every open type lead
to whatever the current definition mentions, so meeting an open type again closes a cycle. The main
statement compares the outcome of a whole comparison with the reachable types, their agreement and
their cycles.
-/
namespace VersionGroups.Equivalence

theorem result?_cons (settled : Settled) (c d : Comparison) (b : Bool) :
    Settled.result? ((d, b) :: settled) c = if d = c then some b else settled.result? c := by
  by_cases h : d = c
  · simp [Settled.result?, h]
  · simp [Settled.result?, h]

/-- The open comparisons from a given one on are the end of the list that it begins. -/
theorem cycleFrom?_eq_some {c : Comparison} {visiting loop : List Comparison}
    (h : cycleFrom? c visiting = some loop) :
    ∃ before after, visiting = before ++ c :: after ∧ loop = c :: after := by
  induction visiting with
  | nil => cases h
  | cons d rest ih =>
      rw [cycleFrom?] at h
      split at h
      · rename_i hd
        obtain rfl := Option.some.inj h
        exact ⟨[], rest, by rw [hd]; rfl, by rw [hd]⟩
      · obtain ⟨before, after, hrest, hloop⟩ := ih h
        exact ⟨d :: before, after, by rw [hrest]; rfl, hloop⟩

theorem mem_of_cycleFrom? {c : Comparison} {visiting loop : List Comparison}
    (h : cycleFrom? c visiting = some loop) : c ∈ visiting := by
  obtain ⟨before, after, rfl, -⟩ := cycleFrom?_eq_some h
  exact List.mem_append_right before List.mem_cons_self

theorem comparison_inj {types : List TypeName} (distinct : (types.map TypeName.path).Nodup)
    {left right : View} {t u : TypeName} (ht : t ∈ types) (hu : u ∈ types)
    (h : comparison left right t = comparison left right u) : t = u :=
  List.inj_on_of_nodup_map distinct ht hu (congrArg Comparison.path h)

/-- Whatever is settled was settled for a grounded type. -/
def Sound (types : List TypeName) (left right : View) (settled : Settled) : Prop :=
  ∀ t ∈ types, ∀ b, settled.result? (comparison left right t) = some b →
    b = true ∧ Grounded types left right t

/-- The references of every open type lead to whatever a definition mentions. -/
def Encloses (types : List TypeName) (left right : View) (visiting : List Comparison)
    (spec : Json) : Prop :=
  ∀ t ∈ types, comparison left right t ∈ visiting → ∀ u, Mentions types spec u →
    Relation.TransGen (Refers types left) t u

/-- What the result of a search tells about the pending types of a definition. -/
def Shows (types : List TypeName) (left right : View) (spec : Json) (pending : List TypeName) :
    Except Fault (Bool × Settled) → Prop
  | .ok (true, settled) => Sound types left right settled ∧
      ∀ t ∈ pending, t.isMentionedIn spec = true → Grounded types left right t
  | .ok (false, _) => ∃ t, Reaches types left spec t ∧ ¬ Agree left right t
  | .error fault => (∃ path, fault = .typeCycle path) ∧ Cyclic types left spec

variable {types : List TypeName} {left right : View} {settled : Settled}
  {visiting : List Comparison} {spec body : Json} {t : TypeName} {rest : List TypeName}

theorem sound_nil : Sound types left right [] := by
  intro t _ b h
  simp [Settled.result?] at h

theorem Sound.settle (distinct : (types.map TypeName.path).Nodup)
    (hs : Sound types left right settled) (ht : t ∈ types) (hg : Grounded types left right t) :
    Sound types left right ((comparison left right t, true) :: settled) := by
  intro u hu b h
  rw [result?_cons] at h
  split at h
  · rename_i hc
    obtain rfl := comparison_inj distinct ht hu hc
    exact ⟨(Option.some.inj h).symm, hg⟩
  · exact hs u hu b h

theorem encloses_nil : Encloses types left right [] spec := by
  intro t _ h
  cases h

theorem Encloses.inside (distinct : (types.map TypeName.path).Nodup)
    (he : Encloses types left right visiting spec) (hm : Mentions types spec t)
    (hb : left.typeSpec? t = some body) :
    Encloses types left right (visiting ++ [comparison left right t]) body := by
  intro u hu hmem w hw
  have href : Refers types left t w := ⟨body, hb, hw⟩
  rcases List.mem_append.mp hmem with hold | hnew
  · exact (he u hu hold t hm).tail href
  · obtain rfl := comparison_inj distinct hu hm.1 (List.mem_singleton.mp hnew)
    exact .single href

theorem Shows.cons {result : Except Fault (Bool × Settled)}
    (ht : t.isMentionedIn spec = true → Grounded types left right t)
    (h : Shows types left right spec rest result) :
    Shows types left right spec (t :: rest) result := by
  match result with
  | .ok (true, settled) =>
      refine ⟨h.1, fun u hu => ?_⟩
      rcases List.mem_cons.mp hu with rfl | hu
      · exact ht
      · exact h.2 u hu
  | .ok (false, _) => exact h
  | .error _ => exact h

/-- A type whose definition mentions only grounded types is grounded if the views agree on it. -/
theorem grounded_of_body (ha : Agree left right t) (hb : left.typeSpec? t = some body)
    (h : ∀ u, Mentions types body u → Grounded types left right u) :
    Grounded types left right t := by
  refine .intro ha ?_
  rintro u ⟨body', hb', hu⟩
  obtain rfl := Option.some.inj (hb.symm.trans hb')
  exact h u hu

theorem grounded_of_absent (hl : left.typeSpec? t = none) (hr : right.typeSpec? t = none) :
    Grounded types left right t := by
  refine .intro (by simp [Agree, hl, hr]) ?_
  rintro u ⟨body, hb, -⟩
  rw [hl] at hb
  cases hb

/-- A search shows what its result tells. -/
theorem Search.shows {pending : List TypeName} {result : Except Fault (Bool × Settled)}
    (distinct : (types.map TypeName.path).Nodup)
    (h : Search types left right visiting spec settled pending result)
    (tracked : ∀ t ∈ pending, t ∈ types) (hs : Sound types left right settled)
    (he : Encloses types left right visiting spec) :
    Shows types left right spec pending result := by
  induction h with
  | done => exact ⟨hs, fun t ht => by cases ht⟩
  | skip hm _ ih =>
      obtain ⟨_, hrest⟩ := List.forall_mem_cons.mp tracked
      exact (ih hrest hs he).cons (fun h => by simp [hm] at h)
  | known _ hk _ ih =>
      obtain ⟨ht, hrest⟩ := List.forall_mem_cons.mp tracked
      exact (ih hrest hs he).cons (fun _ => (hs _ ht true hk).2)
  | refuted _ hk =>
      have hb := hs _ (tracked _ List.mem_cons_self) false hk
      cases hb.1
  | cycle hm _ hc =>
      have ht : Mentions types _ _ := .of_isMentionedIn (tracked _ List.mem_cons_self) hm
      exact ⟨⟨_, rfl⟩, _, .mention ht, he _ ht.1 (mem_of_cycleFrom? hc) _ ht⟩
  | absent _ _ hl hr _ ih =>
      obtain ⟨ht, hrest⟩ := List.forall_mem_cons.mp tracked
      have hg : Grounded types left right _ := grounded_of_absent hl hr
      exact (ih hrest (hs.settle distinct ht hg) he).cons (fun _ => hg)
  | differ hm _ ha => exact ⟨_, .mention (.of_isMentionedIn (tracked _ List.mem_cons_self) hm), ha⟩
  | inside hm _ hl hr hab _ _ inner next =>
      obtain ⟨ht, hrest⟩ := List.forall_mem_cons.mp tracked
      have hin := inner (fun _ h => h) hs (he.inside distinct (.of_isMentionedIn ht hm) hl)
      have hg := grounded_of_body ((agree_of_some hl hr).mpr hab) hl
        (fun u hu => hin.2 u hu.1 hu.isMentionedIn)
      exact (next hrest (hin.1.settle distinct ht hg) he).cons (fun _ => hg)
  | insideFalse hm _ hl _ _ _ inner =>
      have ht : Mentions types _ _ := .of_isMentionedIn (tracked _ List.mem_cons_self) hm
      obtain ⟨u, hu, ha⟩ := inner (fun _ h => h) hs (he.inside distinct ht hl)
      exact ⟨u, hu.of_body ht hl, ha⟩
  | insideError hm _ hl _ _ _ inner =>
      have ht : Mentions types _ _ := .of_isMentionedIn (tracked _ List.mem_cons_self) hm
      obtain ⟨hf, hc⟩ := inner (fun _ h => h) hs (he.inside distinct ht hl)
      exact ⟨hf, hc.of_body ht hl⟩

/-- The three outcomes of a comparison, each with what it shows. -/
theorem structural_cases {corpus : Corpus} (distinct : (types.map TypeName.path).Nodup)
    (hleft : corpus.get? left.version = some left.document)
    (hright : corpus.get? right.version = some right.document) (spec other : Json) :
    (structural corpus types left.version spec right.version other = .ok true ∧
        (spec == other) = true ∧ ∀ t, Mentions types spec t → Grounded types left right t) ∨
      (structural corpus types left.version spec right.version other = .ok false ∧
        ((spec == other) = false ∨ ∃ t, Reaches types left spec t ∧ ¬ Agree left right t)) ∨
      ∃ path,
        structural corpus types left.version spec right.version other = .error (.typeCycle path) ∧
          Cyclic types left spec := by
  rcases structural_eq_search hleft hright spec other with ⟨same, result, hsearch, heq⟩ | ⟨hne, heq⟩
  · have hshows := hsearch.shows distinct (fun _ h => h) sound_nil encloses_nil
    match result with
    | .ok (true, settled) => exact .inl ⟨heq, same, fun t ht => hshows.2 t ht.1 ht.isMentionedIn⟩
    | .ok (false, settled) => exact .inr (.inl ⟨heq, .inr hshows⟩)
    | .error fault =>
        obtain ⟨⟨path, rfl⟩, hc⟩ := hshows
        exact .inr (.inr ⟨path, heq, hc⟩)
  · exact .inr (.inl ⟨heq, .inl hne⟩)

/-- A comparison succeeds exactly when the definitions are the same, the views agree on all that is
reached, and no reached type refers to itself. It denies equivalence only where something differs,
and it fails only on a cycle; where everything agrees, a cycle makes it fail. -/
theorem structural_decides {corpus : Corpus} (distinct : (types.map TypeName.path).Nodup)
    (hleft : corpus.get? left.version = some left.document)
    (hright : corpus.get? right.version = some right.document) (spec other : Json) :
    (structural corpus types left.version spec right.version other = .ok true ↔
      (spec == other) = true ∧ (∀ t, Reaches types left spec t → Agree left right t) ∧
        ¬ Cyclic types left spec) ∧
    (structural corpus types left.version spec right.version other = .ok false →
      (spec == other) = false ∨ ∃ t, Reaches types left spec t ∧ ¬ Agree left right t) ∧
    (∀ fault, structural corpus types left.version spec right.version other = .error fault →
      (∃ path, fault = .typeCycle path) ∧ Cyclic types left spec) ∧
    ((spec == other) = true → (∀ t, Reaches types left spec t → Agree left right t) →
      Cyclic types left spec → ∃ path,
        structural corpus types left.version spec right.version other =
          .error (.typeCycle path)) := by
  rcases structural_cases distinct hleft hright spec other with
    ⟨heq, same, hg⟩ | ⟨heq, hdiff⟩ | ⟨path, heq, hc⟩
  · have hagree : ∀ t, Reaches types left spec t → Agree left right t :=
      fun t ht => (ht.grounded hg).agree
    have hacyclic := not_cyclic_of_grounded hg
    rw [heq]
    refine ⟨⟨fun _ => ⟨same, hagree, hacyclic⟩, fun _ => rfl⟩, ?_, ?_, ?_⟩
    · intro h
      cases h
    · intro fault h
      cases h
    · intro _ _ hc
      exact absurd hc hacyclic
  · have hno :
        ¬ ((spec == other) = true ∧ ∀ t, Reaches types left spec t → Agree left right t) := by
      rintro ⟨same, hagree⟩
      rcases hdiff with hne | ⟨t, ht, ha⟩
      · rw [same] at hne
        cases hne
      · exact ha (hagree t ht)
    rw [heq]
    refine ⟨⟨?_, fun h => absurd ⟨h.1, h.2.1⟩ hno⟩, fun _ => hdiff, ?_, ?_⟩
    · intro h
      cases h
    · intro fault h
      cases h
    · intro same hagree _
      exact absurd ⟨same, hagree⟩ hno
  · rw [heq]
    refine ⟨⟨?_, fun h => absurd hc h.2.2⟩, ?_, ?_, fun _ _ _ => ⟨path, rfl⟩⟩
    · intro h
      cases h
    · intro h
      cases h
    · intro fault h
      exact ⟨⟨path, (Except.error.inj h).symm⟩, hc⟩

def loopTypes : List TypeName := [⟨.common, "a"⟩, ⟨.common, "b"⟩]

def reference (name : String) : Json := .obj [("type", .str name)]

theorem names_reference (name : String) : (reference name).Names name :=
  .here List.mem_cons_self

/-- Two types that refer to each other. -/
def loopDocument : Document :=
  ⟨.obj [("types", .obj [("a", reference "b"), ("b", reference "a")])]⟩

/-- The view of that document under any version. -/
def loopView (v : Version) : View := ⟨v, loopDocument⟩

def loopCorpus : Corpus := .ofList [(1, loopDocument), (2, loopDocument)]

/-- Comparing a definition that leads into a loop fails, though nothing differs. -/
theorem structural_decides_loop : ∃ path,
    structural loopCorpus loopTypes 1 (reference "a") 2 (reference "a") =
      .error (.typeCycle path) := by
  have distinct : (loopTypes.map TypeName.path).Nodup := by decide
  have hleft : loopCorpus.get? (loopView 1).version = some (loopView 1).document := rfl
  have hright : loopCorpus.get? (loopView 2).version = some (loopView 2).document := rfl
  obtain ⟨-, -, -, hcycle⟩ :=
    structural_decides distinct hleft hright (reference "a") (reference "a")
  refine hcycle rfl ?_ ?_
  · intro t _
    change Option.Rel _ ((loopView 1).typeSpec? t) ((loopView 1).typeSpec? t)
    cases (loopView 1).typeSpec? t with
    | none => exact .none
    | some a => exact .some (Json.same_refl a)
  · have hab : Refers loopTypes (loopView 1) ⟨.common, "a"⟩ ⟨.common, "b"⟩ :=
      ⟨reference "b", rfl, by decide, "b", List.mem_cons_self, names_reference "b"⟩
    have hba : Refers loopTypes (loopView 1) ⟨.common, "b"⟩ ⟨.common, "a"⟩ :=
      ⟨reference "a", rfl, by decide, "a", List.mem_cons_self, names_reference "a"⟩
    have ha : Mentions loopTypes (reference "a") ⟨.common, "a"⟩ :=
      ⟨by decide, "a", List.mem_cons_self, names_reference "a"⟩
    exact ⟨⟨.common, "a"⟩, .mention ha, .tail (.single hab) hba⟩

end VersionGroups.Equivalence
