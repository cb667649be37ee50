import VersionGroups.Proofs.Corpus.Spelling
import VersionGroups.Proofs.Grouping.Mirror
import VersionGroups.Proofs.Grouping.Partition

/-!
# Grouping corpora with the same documents

A search looks at documents only through questions that respect their spelling, so over the same
documents in another spelling it takes the same steps, and the comparison has the same verdict or
the same cycle. Grouping two such corpora goes in step: after every version the groups on the two
sides have the same versions under the same wire ids, and heads that are the same.
-/
namespace VersionGroups

namespace Equivalence
variable {types : List TypeName} {left right left' right' : View} {d d' : Document}
  {settled : Settled} {visiting : List Comparison} {spec spec' : Json} {pending : List TypeName}
  {t : TypeName} {a b : Json}

theorem Agree.of_none (h : Agree left right t) (hleft : left.typeSpec? t = none) :
    right.typeSpec? t = none := by
  rw [Agree, hleft] at h
  generalize right.typeSpec? t = y at h ⊢
  cases h
  rfl

theorem Agree.of_some (h : Agree left right t) (hleft : left.typeSpec? t = some a) :
    ∃ b, right.typeSpec? t = some b ∧ (a == b) = true := by
  rw [Agree, hleft] at h
  generalize right.typeSpec? t = y at h ⊢
  cases h with
  | some hab => exact ⟨_, rfl, hab⟩

/-- Views that agree with two views find definitions that are the same where those do. -/
theorem Agree.respell (hleft : Agree left left' t) (hright : Agree right right' t)
    (ha : left.typeSpec? t = some a) (hb : right.typeSpec? t = some b) (hab : (a == b) = true) :
    ∃ a' b', left'.typeSpec? t = some a' ∧ right'.typeSpec? t = some b' ∧ (a == a') = true ∧
      (a' == b') = true := by
  obtain ⟨a', ha', haa'⟩ := hleft.of_some ha
  obtain ⟨b', hb', hbb'⟩ := hright.of_some hb
  exact ⟨a', b', ha', hb', haa', Json.same_trans (Json.same_symm haa') (Json.same_trans hab hbb')⟩

/-- A search takes the same steps over the same documents in another spelling. -/
theorem Search.respell {result : Except Fault (Bool × Settled)}
    (h : Search types left right visiting spec settled pending result)
    (hleft : (left.document == d) = true) (hright : (right.document == d') = true)
    (same : (spec == spec') = true) :
    Search types ⟨left.version, d⟩ ⟨right.version, d'⟩ visiting spec' settled pending result := by
  have hl' : ∀ t, Agree left ⟨left.version, d⟩ t := fun t => View.typeSpec?_congr t hleft
  have hr' : ∀ t, Agree right ⟨right.version, d'⟩ t := fun t => View.typeSpec?_congr t hright
  induction h generalizing spec' with
  | done => exact .done
  | @skip _ _ _ t _ _ hm _ ih =>
      rw [isMentionedIn_congr same t] at hm
      exact .skip hm (ih same)
  | @known _ _ _ t _ _ hm hs _ ih =>
      rw [isMentionedIn_congr same t] at hm
      exact .known hm hs (ih same)
  | @refuted _ _ _ t _ hm hs =>
      rw [isMentionedIn_congr same t] at hm
      exact .refuted hm hs
  | @cycle _ _ _ t _ _ hm hs hc =>
      rw [isMentionedIn_congr same t] at hm
      exact .cycle hm hs hc
  | @absent _ _ _ t _ _ hm hf hl hr _ ih =>
      rw [isMentionedIn_congr same t] at hm
      exact .absent hm hf ((hl' t).of_none hl) ((hr' t).of_none hr) (ih same)
  | @differ _ _ _ t _ hm hf ha =>
      rw [isMentionedIn_congr same t] at hm
      exact .differ hm hf fun hagree => ha (((hl' t).trans hagree).trans (hr' t).symm)
  | @inside _ _ _ t _ _ _ _ _ hm hf hl hr hab _ _ inner next =>
      rw [isMentionedIn_congr same t] at hm
      obtain ⟨_, _, hl, hr, haa', hab'⟩ := (hl' t).respell (hr' t) hl hr hab
      exact .inside hm hf hl hr hab' (inner haa') (next same)
  | @insideFalse _ _ _ t _ _ _ _ hm hf hl hr hab _ inner =>
      rw [isMentionedIn_congr same t] at hm
      obtain ⟨_, _, hl, hr, haa', hab'⟩ := (hl' t).respell (hr' t) hl hr hab
      exact .insideFalse hm hf hl hr hab' (inner haa')
  | @insideError _ _ _ t _ _ _ _ hm hf hl hr hab _ inner =>
      rw [isMentionedIn_congr same t] at hm
      obtain ⟨_, _, hl, hr, haa', hab'⟩ := (hl' t).respell (hr' t) hl hr hab
      exact .insideError hm hf hl hr hab' (inner haa')

end Equivalence
open VersionGroups.Equivalence

variable {c c' : Corpus}

theorem Corpus.SameAs.exists_document (h : c.SameAs c') {v : Version} {d : Document}
    (hd : (v, d) ∈ c.entries) : ∃ d', (v, d') ∈ c'.entries ∧ (d == d') = true := by
  have hget := h.get? v
  rw [Table.get?_eq_some_iff.mpr hd] at hget
  generalize hget' : c'.get? v = y at hget
  cases hget with
  | some hsame => exact ⟨_, Table.get?_eq_some_iff.mp hget', hsame⟩

/-- Comparing under two versions comes out alike over corpora with the same documents. -/
theorem structural_respell (h : c.SameAs c') {types : List TypeName} {u v : Version}
    {d e : Document} (hd : (u, d) ∈ c.entries) (he : (v, e) ∈ c.entries) {a a' b b' : Json}
    (ha : (a == a') = true) (hb : (b == b') = true) :
    structural c types u a v b = structural c' types u a' v b' := by
  obtain ⟨d', hd', hdd'⟩ := h.exists_document hd
  obtain ⟨e', he', hee'⟩ := h.exists_document he
  rcases @structural_eq_search c types _ _ (get?_viewOf hd) (get?_viewOf he) a b with
    ⟨same, result, hsearch, heq⟩ | ⟨hne, heq⟩
  · have same' := Json.same_trans (Json.same_symm ha) (Json.same_trans same hb)
    have hsearch' := hsearch.respell hdd' hee' ha
    exact heq.trans (structural_of_search (get?_viewOf hd') (get?_viewOf he') same' hsearch').symm
  · have hne' : (a' == b') = false := by
      refine eq_false_of_ne_true fun same' => ?_
      have same : (a == b) = true := Json.same_trans ha (Json.same_trans same' (Json.same_symm hb))
      rw [hne] at same
      cases same
    exact heq.trans (@structural_of_differ types (viewOf (u, d')) (viewOf (v, e')) _ _ c' hne').symm

/-- Groups with the same versions, a representative in the corpus, and heads that are the same. -/
structure OpenGroup.SameAs (c : Corpus) (g g' : OpenGroup) : Prop where
  group : g.group = g'.group
  head : (g.head == g'.head) = true
  known : ∃ d, (g.group.representative, d) ∈ c.entries

section
variable {types : List TypeName} {slot : Slot} {v : Version} {d : Document} {spec spec' : Json}
  {groups groups' : List OpenGroup} (h : c.SameAs c')
include h

theorem matchGroup_respell (hd : (v, d) ∈ c.entries) (same : (spec == spec') = true)
    (hgroups : List.Forall₂ (OpenGroup.SameAs c) groups groups') (matched : Option Version) :
    matchGroup (structural c types) slot v spec matched groups =
      matchGroup (structural c' types) slot v spec' matched groups' := by
  induction hgroups generalizing matched with
  | nil => rfl
  | @cons g g' _ _ hg _ ih =>
      obtain ⟨e, he⟩ := hg.known
      have hrelation : structural c types g'.group.representative g.head v spec =
          structural c' types g'.group.representative g'.head v spec' := by
        rw [← hg.group]
        exact structural_respell h he hd hg.head same
      simp only [matchGroup, hg.group, hrelation, ih]

/-- Filing a version keeps the groups on the two sides in step. -/
theorem fileVersion_respell (hd : (v, d) ∈ c.entries) (same : (spec == spec') = true)
    (w : Option WireId) (hgroups : List.Forall₂ (OpenGroup.SameAs c) groups groups') :
    Alike True (List.Forall₂ (OpenGroup.SameAs c))
      (fileVersion (structural c types) slot v spec w groups)
      (fileVersion (structural c' types) slot v spec' w groups') := by
  rw [fileVersion, fileVersion, matchGroup_respell h hd same hgroups none]
  cases matchGroup (structural c' types) slot v spec' none groups' with
  | error fault => exact .error fun _ => rfl
  | ok found =>
      cases found with
      | none =>
          refine .ok (List.rel_append hgroups (.cons ⟨rfl, same, d, hd⟩ .nil))
      | some r =>
          refine .ok ?_
          rw [List.forall₂_map_left_iff, List.forall₂_map_right_iff]
          refine hgroups.imp fun g g' hg => ?_
          rw [← hg.group]
          split
          · exact ⟨by rw [hg.group], hg.head, hg.known⟩
          · exact hg

/-- One more version keeps the groups on the two sides in step. -/
theorem groupVersion_respell {e f : Version × Document} (he : e ∈ c.entries)
    (hef : e.1 = f.1 ∧ (e.2 == f.2) = true)
    (hgroups : List.Forall₂ (OpenGroup.SameAs c) groups groups') :
    Alike True (List.Forall₂ (OpenGroup.SameAs c))
      (groupVersion (structural c types) slot groups e)
      (groupVersion (structural c' types) slot groups' f) := by
  obtain ⟨v, d⟩ := e
  obtain ⟨_, d'⟩ := f
  obtain ⟨rfl, same⟩ := hef
  have hspec := View.slotSpec?_congr (v := ⟨v, d⟩) (w := ⟨v, d'⟩) slot same
  have hwire := View.slotWireId?_congr (v := ⟨v, d⟩) (w := ⟨v, d'⟩) slot same
  refine (hspec.imp fun _ => rfl).bind ?_
  intro x y hxy
  cases hxy with
  | none => exact .ok hgroups
  | some hab =>
      refine (hwire.imp fun _ => rfl).bind ?_
      rintro w _ rfl
      exact fileVersion_respell h he hab w hgroups

/-- A slot has the same groups over corpora with the same documents, or fails with the same
fault. -/
theorem groupSlot_respell (types : List TypeName) (slot : Slot) :
    groupSlot c (structural c types) slot = groupSlot c' (structural c' types) slot := by
  have hentries : List.Forall₂ (fun e f : Version × Document =>
      e ∈ c.entries ∧ e.1 = f.1 ∧ (e.2 == f.2) = true) c.entries c'.entries :=
    (List.forall₂_and_left _ _).mpr ⟨fun _ he => he, h.entries⟩
  have hfold : Alike True (List.Forall₂ (OpenGroup.SameAs c))
      (c.entries.foldlM (groupVersion (structural c types) slot) [])
      (c'.entries.foldlM (groupVersion (structural c' types) slot) []) :=
    Alike.foldlM (fun _ _ hef _ _ => groupVersion_respell h hef.1 hef.2) hentries .nil
  refine Alike.eq (hfold.bind fun groups groups' hgroups => .ok ?_)
  have hmap : groups.map OpenGroup.group = groups'.map OpenGroup.group := by
    rw [← List.forall₂_eq_eq_eq, List.forall₂_map_left_iff, List.forall₂_map_right_iff]
    exact hgroups.imp fun _ _ hg => hg.group
  exact congrArg (SlotGroups.mk slot) hmap

end

end VersionGroups
