import Mathlib.Data.List.Chain
import VersionGroups.Proofs.Grouping.Decision
import VersionGroups.Proofs.Grouping.Outcome

/-!
# A reported cycle is a cycle

The types that are open at one time form a chain of references that leads to the definition that is
looked into. Each is defined alike in both views, and none is open twice. A search that meets an
open type reports the chain from that type on, which the last reference closes.
-/
namespace VersionGroups.Equivalence

/-- A tracked type that both views define, with definitions that are the same. -/
def DefinedAlike (types : List TypeName) (left right : View) (t : TypeName) : Prop :=
  t ∈ types ∧ ∃ a b, left.typeSpec? t = some a ∧ right.typeSpec? t = some b ∧ (a == b) = true

/-- The open types, from the outermost to the one whose definition is looked into. -/
structure Opened (types : List TypeName) (left right : View) (opened : List TypeName)
    (spec : Json) : Prop where
  alike : ∀ t ∈ opened, DefinedAlike types left right t
  refers : opened.IsChain (Refers types left)
  inside : ∀ t ∈ opened.getLast?, left.typeSpec? t = some spec
  distinct : opened.Nodup

/-- A way through the references of one view from a type back to it, over types that the views
define alike. -/
structure Around (types : List TypeName) (left right : View) (first : TypeName)
    (between : List TypeName) : Prop where
  alike : ∀ t ∈ first :: between, DefinedAlike types left right t
  refers : (first :: between ++ [first]).IsChain (Refers types left)
  distinct : (first :: between).Nodup

/-- The text of the comparison of a type under two views in a report on a cycle. -/
def typeLabel (left right : View) (t : TypeName) : String :=
  s!"{t.path}@{left.version}/{right.version}"

variable {types : List TypeName} {left right : View} {opened : List TypeName} {spec body : Json}
  {t u : TypeName}

theorem label_comparison (left right : View) (t : TypeName) :
    (comparison left right t).label = typeLabel left right t := rfl

theorem path_of_typeLabel (h : typeLabel left right t = typeLabel left right u) :
    t.path = u.path := by
  simp only [typeLabel, String.append_assoc] at h
  exact (String.append_left_inj _).mp h

theorem opened_nil : Opened types left right [] spec where
  alike _ h := by cases h
  refers := .nil
  inside _ h := by cases h
  distinct := .nil

/-- The last open type refers to whatever the current definition mentions. -/
theorem Opened.refers_last (ho : Opened types left right opened spec)
    (hm : Mentions types spec t) : ∀ u ∈ opened.getLast?, Refers types left u t :=
  fun u hu => ⟨spec, ho.inside u hu, hm⟩

/-- Looking into a type that is not open keeps the chain. -/
theorem Opened.push (ho : Opened types left right opened spec) (hm : Mentions types spec t)
    (hnew : comparison left right t ∉ opened.map (comparison left right))
    (ha : DefinedAlike types left right t) (hb : left.typeSpec? t = some body) :
    Opened types left right (opened ++ [t]) body where
  alike u hu := by
    rcases List.mem_append.mp hu with hold | hself
    · exact ho.alike u hold
    · obtain rfl := List.mem_singleton.mp hself
      exact ha
  refers := by
    refine List.isChain_append.mpr ⟨ho.refers, .singleton t, fun u hu w hw => ?_⟩
    obtain rfl : t = w := by simpa using hw
    exact ho.refers_last hm u hu
  inside u hu := by
    obtain rfl : t = u := by simpa using hu
    exact hb
  distinct := by
    have habsent : t ∉ opened := fun h => hnew (List.mem_map_of_mem h)
    exact List.nodup_append_comm.mp (List.nodup_cons.mpr ⟨habsent, ho.distinct⟩)

/-- Meeting an open type closes the chain from that type on. -/
theorem Opened.around (distinct : (types.map TypeName.path).Nodup)
    (ho : Opened types left right opened spec) (hm : Mentions types spec t)
    {loop : List Comparison}
    (hc : cycleFrom? (comparison left right t) (opened.map (comparison left right)) = some loop) :
    ∃ between, loop = (t :: between).map (comparison left right) ∧
      Around types left right t between := by
  obtain ⟨before, after, hopen, rfl⟩ := cycleFrom?_eq_some hc
  obtain ⟨outer, inner, rfl, -, hinner⟩ := List.map_eq_append_iff.mp hopen
  obtain ⟨u, between, rfl, hu, rfl⟩ := List.map_eq_cons_iff.mp hinner
  have hmem : u ∈ outer ++ u :: between := by simp
  obtain rfl := comparison_inj distinct (ho.alike u hmem).1 hm.1 hu
  refine ⟨between, rfl, ?_, ?_, ?_⟩
  · exact fun w hw => ho.alike w (List.mem_append_right outer hw)
  · have hchain := (List.isChain_append.mp ho.refers).2.1
    refine List.isChain_append.mpr ⟨hchain, .singleton u, fun w hw v hv => ?_⟩
    obtain rfl : u = v := by simpa using hv
    exact ho.refers_last hm w (by rwa [List.getLast?_append_of_ne_nil _ (by simp)])
  · exact (List.nodup_append.mp ho.distinct).2.1

/-- A search inside a chain of open types that fails reports a way around. -/
theorem Search.around (distinct : (types.map TypeName.path).Nodup)
    {visiting : List Comparison} {settled : Settled} {pending : List TypeName}
    {result : Except Fault (Bool × Settled)} {path : List String}
    (h : Search types left right visiting spec settled pending result)
    (tracked : ∀ t ∈ pending, t ∈ types) (hopen : visiting = opened.map (comparison left right))
    (ho : Opened types left right opened spec) (hr : result = .error (.typeCycle path)) :
    ∃ first between, path = (first :: between ++ [first]).map (typeLabel left right) ∧
      Around types left right first between := by
  induction h generalizing opened with
  | done => cases hr
  | skip _ _ ih => exact ih (List.forall_mem_cons.mp tracked).2 hopen ho hr
  | known _ _ _ ih => exact ih (List.forall_mem_cons.mp tracked).2 hopen ho hr
  | refuted => cases hr
  | @cycle _ _ _ t _ loop hm _ hc =>
      subst hopen
      have ht : Mentions types _ t := .of_isMentionedIn (tracked t List.mem_cons_self) hm
      obtain ⟨between, rfl, haround⟩ := ho.around distinct ht hc
      obtain rfl := Fault.typeCycle.inj (Except.error.inj hr)
      exact ⟨t, between, by simp [Function.comp_def, label_comparison], haround⟩
  | absent _ _ _ _ _ ih => exact ih (List.forall_mem_cons.mp tracked).2 hopen ho hr
  | differ => cases hr
  | inside _ _ _ _ _ _ _ _ next => exact next (List.forall_mem_cons.mp tracked).2 hopen ho hr
  | insideFalse => cases hr
  | @insideError _ _ _ t _ a b _ hm hf hl hrt hab _ inner =>
      subst hopen
      have ht : t ∈ types := tracked t List.mem_cons_self
      have hinside := ho.push (.of_isMentionedIn ht hm) (not_mem_of_cycleFrom? hf.unopened)
        ⟨ht, a, b, hl, hrt, hab⟩ hl
      exact inner (fun _ h => h) (by simp) hinside hr

theorem Around.labels_nodup (distinct : (types.map TypeName.path).Nodup) {first : TypeName}
    {between : List TypeName} (h : Around types left right first between) :
    ((first :: between).map (typeLabel left right)).Nodup := by
  refine List.Nodup.map_on (fun t ht u hu hlabel => ?_) h.distinct
  exact List.inj_on_of_nodup_map distinct (h.alike t ht).1 (h.alike u hu).1
    (path_of_typeLabel hlabel)

/-- The path of a reported cycle begins and ends with one label and repeats no other. It names
tracked types that both views define alike, each of which refers to the next. -/
theorem structural_cycle {corpus : Corpus} (distinct : (types.map TypeName.path).Nodup)
    (hleft : corpus.get? left.version = some left.document)
    (hright : corpus.get? right.version = some right.document) (spec other : Json)
    {path : List String}
    (h : structural corpus types left.version spec right.version other =
      .error (.typeCycle path)) :
    2 ≤ path.length ∧ path.head? = path.getLast? ∧ path.dropLast.Nodup ∧
      ∃ around : List TypeName,
        path = around.map (fun t => s!"{t.path}@{left.version}/{right.version}") ∧
          (∀ t ∈ around, t ∈ types ∧ ∃ a b,
            left.typeSpec? t = some a ∧ right.typeSpec? t = some b ∧ (a == b) = true) ∧
          around.IsChain (Refers types left) := by
  rcases structural_eq_search hleft hright spec other with ⟨_, result, hsearch, heq⟩ | ⟨_, heq⟩
  · have hresult : result = .error (.typeCycle path) := by
      rw [h] at heq
      cases result with
      | ok outcome => cases heq
      | error fault => exact congrArg Except.error (Except.error.inj heq).symm
    obtain ⟨first, between, rfl, haround⟩ :=
      hsearch.around distinct (fun _ h => h) (List.map_nil).symm opened_nil hresult
    refine ⟨by simp, ?_, ?_, first :: between ++ [first], rfl, ?_, haround.refers⟩
    · rw [List.map_append, List.map_singleton, List.getLast?_concat]
      rfl
    · rw [List.map_append, List.map_singleton, List.dropLast_concat]
      exact haround.labels_nodup distinct
    · intro t ht
      refine haround.alike t ?_
      rcases List.mem_append.mp ht with ht | ht
      · exact ht
      · exact List.mem_singleton.mp ht ▸ List.mem_cons_self
  · cases h.symm.trans heq

/-- A definition that leads into a loop of two types is reported with that loop. -/
theorem structural_cycle_loop :
    structural loopCorpus loopTypes 1 (reference "a") 2 (reference "a") =
        .error (.typeCycle ["a@1/2", "b@1/2", "a@1/2"]) ∧
      ∃ around : List TypeName,
        ["a@1/2", "b@1/2", "a@1/2"] = around.map (fun t => s!"{t.path}@{1}/{2}") ∧
          around.IsChain (Refers loopTypes (loopView 1)) := by
  have distinct : (loopTypes.map TypeName.path).Nodup := by decide
  have hleft : loopCorpus.get? (loopView 1).version = some (loopView 1).document := rfl
  have hright : loopCorpus.get? (loopView 2).version = some (loopView 2).document := rfl
  have hsearch : ∃ path, Search loopTypes (loopView 1) (loopView 2) [] (reference "a") [] loopTypes
      (.error (.typeCycle path)) ∧ path = ["a@1/2", "b@1/2", "a@1/2"] :=
    ⟨_, .insideError rfl ⟨rfl, rfl⟩ rfl rfl rfl
      (.skip rfl (.insideError rfl ⟨rfl, rfl⟩ rfl rfl rfl
        (.cycle rfl rfl rfl))), rfl⟩
  obtain ⟨_, hsearch, rfl⟩ := hsearch
  have hcycle := structural_of_search hleft hright (Json.same_refl (reference "a")) hsearch
  obtain ⟨-, -, -, around, hpath, -, hrefers⟩ :=
    structural_cycle distinct hleft hright (reference "a") (reference "a") hcycle
  exact ⟨hcycle, around, hpath, hrefers⟩

end VersionGroups.Equivalence
