import VersionGroups.Proofs.Corpus.Alike
import VersionGroups.Proofs.Grouping.Decision

/-!
# The surface of a definition

The surface of a definition under a view is the definition with all the tracked types that it
reaches. Having the same surface is an equivalence: definitions that are the same mention the same
types, so as long as two views agree on what is reached they reach the same types. Views of
documents that are the same agree on everything. A comparison that ends with a verdict tells whether
the surfaces are the same.
-/
namespace VersionGroups.Equivalence

/-- Two definitions are the same, and the views agree on every tracked type that they reach. -/
structure SameSurface (types : List TypeName) (left right : View) (spec other : Json) : Prop where
  same : (spec == other) = true
  agree : ∀ t, Reaches types left spec t → Agree left right t

variable {types : List TypeName} {left mid right : View} {spec body other : Json} {t u : TypeName}

theorem Agree.symm (h : Agree left right t) : Agree right left t := by
  rw [Agree] at h ⊢
  generalize left.typeSpec? t = x at h ⊢
  generalize right.typeSpec? t = y at h ⊢
  cases h with
  | none => exact .none
  | some hab => exact .some (Json.same_symm hab)

theorem Agree.trans (h : Agree left mid t) (h' : Agree mid right t) : Agree left right t := by
  rw [Agree] at h h' ⊢
  generalize left.typeSpec? t = x at h ⊢
  generalize mid.typeSpec? t = y at h h'
  generalize right.typeSpec? t = z at h' ⊢
  cases h with
  | none => exact h'
  | some hab =>
      cases h' with
      | some hbc => exact .some (Json.same_trans hab hbc)

theorem Mentions.of_same (same : (spec == other) = true) (h : Mentions types spec t) :
    Mentions types other t :=
  .of_isMentionedIn h.1 ((Json.mentions_congr _ same).symm.trans h.isMentionedIn)

/-- On a type on which two views agree, they give the same references. -/
theorem Refers.of_agree (ha : Agree left right t) (h : Refers types left t u) :
    Refers types right t u := by
  obtain ⟨a, hleft, hm⟩ := h
  rw [Agree, hleft] at ha
  generalize hright : right.typeSpec? t = y at ha
  cases ha with
  | some hab => exact ⟨_, hright, hm.of_same hab⟩

namespace SameSurface

theorem reaches (h : SameSurface types left right spec other) (ht : Reaches types left spec t) :
    Reaches types right other t := by
  induction ht with
  | mention hm => exact .mention (hm.of_same h.same)
  | refer ht hr ih => exact .refer ih (hr.of_agree (h.agree _ ht))

theorem reaches_back (h : SameSurface types left right spec other)
    (ht : Reaches types right other t) : Reaches types left spec t := by
  induction ht with
  | mention hm => exact .mention (hm.of_same (Json.same_symm h.same))
  | refer _ hr ih => exact .refer ih (hr.of_agree (h.agree _ ih).symm)

theorem symm (h : SameSurface types left right spec other) :
    SameSurface types right left other spec where
  same := Json.same_symm h.same
  agree t ht := (h.agree t (h.reaches_back ht)).symm

theorem trans (h : SameSurface types left mid spec body)
    (h' : SameSurface types mid right body other) : SameSurface types left right spec other where
  same := Json.same_trans h.same h'.same
  agree t ht := (h.agree t ht).trans (h'.agree t (h.reaches ht))

/-- Under documents that are the same, definitions that are the same have the same surface. -/
theorem of_document (hdoc : (left.document == right.document) = true)
    (same : (spec == other) = true) : SameSurface types left right spec other where
  same := same
  agree t _ := View.typeSpec?_congr t hdoc

end SameSurface

section
variable {corpus : Corpus} (distinct : (types.map TypeName.path).Nodup)
  (hleft : corpus.get? left.version = some left.document)
  (hright : corpus.get? right.version = some right.document)
include distinct hleft hright

theorem sameSurface_of_structural
    (h : structural corpus types left.version spec right.version other = .ok true) :
    SameSurface types left right spec other := by
  rcases structural_cases distinct hleft hright spec other with
    ⟨-, same, hg⟩ | ⟨hfalse, -⟩ | ⟨path, herror, -⟩
  · exact ⟨same, fun t ht => (ht.grounded hg).agree⟩
  · rw [hfalse] at h
    cases h
  · rw [herror] at h
    cases h

theorem not_sameSurface_of_structural
    (h : structural corpus types left.version spec right.version other = .ok false) :
    ¬ SameSurface types left right spec other := by
  intro hs
  rcases structural_cases distinct hleft hright spec other with
    ⟨htrue, -⟩ | ⟨-, hne | ⟨t, ht, ha⟩⟩ | ⟨path, herror, -⟩
  · rw [htrue] at h
    cases h
  · rw [hs.same] at hne
    cases hne
  · exact ha (hs.agree t ht)
  · rw [herror] at h
    cases h

end

end VersionGroups.Equivalence
